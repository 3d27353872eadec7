import Mathlib.Data.List.Nodup
import Mathlib.Data.List.Perm.Basic
import MeshControl.Proofs.Probe.Groups

/-! Groups of a command line in another order. Each group sets what no other sets, but for the
preset for links that lose much: it sets the whole configuration, and so undoes a timeout or a
number of sends that stands in front of it.
-/

namespace MeshControl.Probe

open Text

-----------------------------------------------------------------------------------------
-- What settings touch
-----------------------------------------------------------------------------------------

/-- Only settings of some kinds touch a part of the options, and they overwrite it. -/
structure Touch {α : Type} (kinds : List Kind) (part : Options → α) : Prop where
  only (setting : Setting) (options : Options)
    : setting.kind ∉ kinds → part (setting.apply options) = part options
  overwrites (setting : Setting) (options other : Options)
    : setting.kind ∈ kinds → part (setting.apply options) = part (setting.apply other)

theorem touch_target : Touch [.target] Options.target := by
  constructor <;> rintro (_ | _ | _ | _ | _ | _ | _) <;> simp [Setting.kind, Setting.apply]

theorem touch_topology : Touch [.topology] Options.topology := by
  constructor <;> rintro (_ | _ | _ | _ | _ | _ | _) <;> simp [Setting.kind, Setting.apply]

theorem touch_verbose : Touch [.verbose] Options.verbose := by
  constructor <;> rintro (_ | _ | _ | _ | _ | _ | _) <;> simp [Setting.kind, Setting.apply]

theorem touch_query : Touch [.query] Options.query := by
  constructor <;> rintro (_ | _ | _ | _ | _ | _ | _) <;> simp [Setting.kind, Setting.apply]

theorem touch_timeout : Touch [.timeout, .patient] fun options => options.config.timeout := by
  constructor <;> rintro (_ | _ | _ | _ | _ | _ | _) <;> simp [Setting.kind, Setting.apply]

theorem touch_sends : Touch [.sends, .patient] fun options => options.config.sends := by
  constructor <;> rintro (_ | _ | _ | _ | _ | _ | _) <;> simp [Setting.kind, Setting.apply]

/-- The configuration without what groups set one by one. -/
def presets (options : Options) : Config :=
  { options.config with timeout := .zero, sends := 0 }

theorem touch_presets : Touch [.patient] presets := by
  constructor <;> rintro (_ | _ | _ | _ | _ | _ | _) <;> simp [Setting.kind, Setting.apply, presets]

theorem Setting.eq_patient {setting : Setting} (kind : setting.kind = .patient)
    : setting = .patient := by
  cases setting <;> first | rfl | cases kind

-----------------------------------------------------------------------------------------
-- One row of settings
-----------------------------------------------------------------------------------------

section Row

variable {α : Type} {kind : Kind} {kinds : List Kind} {part : Options → α} {options : Options}
  {settings : List Setting} {setting : Setting}

/-- Settings of other kinds leave a part as it was. -/
theorem Touch.foldl_of_none (touch : Touch kinds part)
    (none : ∀ setting ∈ settings, setting.kind ∉ kinds)
    : part (settings.foldl Setting.apply options) = part options := by
  induction settings generalizing options with
  | nil => rfl
  | cons setting settings ih =>
      rw [List.foldl_cons, ih fun later member => none later (List.mem_cons_of_mem _ member)]
      exact touch.only setting options (none setting List.mem_cons_self)

/-- The last setting that touches a part decides. -/
theorem Touch.foldl_of_last (touch : Touch kinds part) {before after : List Setting}
    (touches : setting.kind ∈ kinds) (last : ∀ later ∈ after, later.kind ∉ kinds)
    : part ((before ++ setting :: after).foldl Setting.apply options)
      = part (setting.apply options) := by
  rw [List.foldl_append, List.foldl_cons, touch.foldl_of_none last]
  exact touch.overwrites setting _ _ touches

section Once

variable (once : (settings.map Setting.kind).Nodup)
include once

theorem kind_ne_of_split {before after : List Setting} {later : Setting}
    (split : settings = before ++ setting :: after) (member : later ∈ after)
    : later.kind ≠ setting.kind := by
  rw [split, List.map_append, List.map_cons] at once
  have apart := (List.nodup_cons.mp once.of_append_right).1
  exact fun same => apart (same ▸ List.mem_map_of_mem member)

/-- Where only one kind touches a part, its one setting decides. -/
theorem Touch.foldl_of_mem (touch : Touch [kind] part) (member : setting ∈ settings)
    (same : setting.kind = kind)
    : part (settings.foldl Setting.apply options) = part (setting.apply options) := by
  obtain ⟨before, after, split⟩ := List.append_of_mem member
  rw [split]
  refine touch.foldl_of_last (List.mem_singleton.mpr same) fun later behind touches => ?_
  exact kind_ne_of_split once split behind ((List.mem_singleton.mp touches).trans same.symm)

/-- So the order of the settings does not matter to it. -/
theorem Touch.foldl_perm (touch : Touch [kind] part) {order : List Setting}
    (reordered : order.Perm settings)
    : part (order.foldl Setting.apply options) = part (settings.foldl Setting.apply options) := by
  have once' : (order.map Setting.kind).Nodup := (reordered.map _).nodup_iff.mpr once
  by_cases present : ∃ setting ∈ settings, setting.kind = kind
  · obtain ⟨setting, member, same⟩ := present
    rw [touch.foldl_of_mem once member same,
      touch.foldl_of_mem once' (reordered.mem_iff.mpr member) same]
  · have none : ∀ setting ∈ settings, setting.kind ∉ [kind] := fun setting member touches =>
      present ⟨setting, member, List.mem_singleton.mp touches⟩
    rw [touch.foldl_of_none none,
      touch.foldl_of_none fun setting member => none setting (reordered.mem_iff.mp member)]

-----------------------------------------------------------------------------------------
-- Settings that the preset undoes
-----------------------------------------------------------------------------------------

/-- A setting in front of the preset is undone. -/
theorem Touch.foldl_of_undone (touch : Touch [kind, .patient] part)
    (undone : [kind, .patient].Sublist (settings.map Setting.kind))
    : part (settings.foldl Setting.apply options) = part (Setting.patient.apply options) := by
  obtain ⟨_, _, split, first, second⟩ := List.cons_sublist_iff.mp undone
  obtain ⟨front, back, rfl, rfl, rfl⟩ := List.map_eq_append_iff.mp split
  obtain ⟨preset, member, same⟩ := List.mem_map.mp (List.singleton_sublist.mp second)
  obtain rfl := Setting.eq_patient same
  obtain ⟨between, after, rfl⟩ := List.append_of_mem member
  have split : front ++ (between ++ .patient :: after) = (front ++ between) ++ .patient :: after :=
    (List.append_assoc _ _ _).symm
  have apart : kind ∉ (between ++ .patient :: after).map Setting.kind := by
    rw [List.map_append] at once
    exact List.disjoint_of_nodup_append once first
  rw [split]
  refine touch.foldl_of_last (by simp [Setting.kind]) fun later behind touches => ?_
  simp only [List.mem_cons, List.not_mem_nil, or_false] at touches
  rcases touches with rfl | again
  · exact apart (List.mem_map_of_mem (List.mem_append_right _ (List.mem_cons_of_mem _ behind)))
  · exact kind_ne_of_split once split behind again

/-- A setting that is not in front of the preset takes effect. -/
theorem Touch.foldl_of_not_undone (touch : Touch [kind, .patient] part)
    (member : setting ∈ settings) (same : setting.kind = kind)
    (kept : ¬ [kind, .patient].Sublist (settings.map Setting.kind))
    : part (settings.foldl Setting.apply options) = part (setting.apply options) := by
  obtain ⟨before, after, split⟩ := List.append_of_mem member
  have behind_not : Kind.patient ∉ after.map Setting.kind := by
    intro behind
    refine kept (List.cons_sublist_iff.mpr
      ⟨(before ++ [setting]).map Setting.kind, after.map Setting.kind, ?_, ?_, ?_⟩)
    · rw [split, ← List.map_append, List.append_assoc]
      rfl
    · rw [← same]
      exact List.mem_map_of_mem (List.mem_append_right _ List.mem_cons_self)
    · exact List.singleton_sublist.mpr behind
  rw [split]
  refine touch.foldl_of_last (by simp [same]) fun later behind touches => ?_
  simp only [List.mem_cons, List.not_mem_nil, or_false] at touches
  rcases touches with again | preset
  · exact kind_ne_of_split once split behind (again.trans same.symm)
  · exact behind_not (List.mem_map.mpr ⟨later, behind, preset⟩)

/-- Where no setting takes the place of the preset's, the preset's stays, if it was asked for. -/
theorem Touch.foldl_of_not_mem (touch : Touch [kind, .patient] part)
    (absent : kind ∉ settings.map Setting.kind)
    : part (settings.foldl Setting.apply options)
      = if Kind.patient ∈ settings.map Setting.kind then part (Setting.patient.apply options)
        else part options := by
  have other {setting : Setting} (member : setting ∈ settings) : setting.kind ≠ kind :=
    fun same => absent (List.mem_map.mpr ⟨setting, member, same⟩)
  split_ifs with asked
  · obtain ⟨preset, member, same⟩ := List.mem_map.mp asked
    obtain rfl := Setting.eq_patient same
    obtain ⟨before, after, split⟩ := List.append_of_mem member
    rw [split]
    refine touch.foldl_of_last (by simp [Setting.kind]) fun later behind touches => ?_
    simp only [List.mem_cons, List.not_mem_nil, or_false] at touches
    rcases touches with again | again
    · refine other ?_ again
      rw [split]
      exact List.mem_append_right _ (List.mem_cons_of_mem _ behind)
    · exact kind_ne_of_split once split behind again
  · refine touch.foldl_of_none fun setting member touches => ?_
    simp only [List.mem_cons, List.not_mem_nil, or_false] at touches
    rcases touches with again | again
    · exact other member again
    · exact asked (List.mem_map.mpr ⟨setting, member, again⟩)

/-- The order of the settings matters only as far as the preset comes before or after. -/
theorem Touch.foldl_perm_of_undone_iff (touch : Touch [kind, .patient] part)
    {order : List Setting} (reordered : order.Perm settings)
    (same_side
      : [kind, .patient].Sublist (order.map Setting.kind)
        ↔ [kind, .patient].Sublist (settings.map Setting.kind))
    : part (order.foldl Setting.apply options) = part (settings.foldl Setting.apply options) := by
  have kinds := reordered.map Setting.kind
  have once' : (order.map Setting.kind).Nodup := kinds.nodup_iff.mpr once
  by_cases undone : [kind, .patient].Sublist (settings.map Setting.kind)
  · rw [touch.foldl_of_undone once undone, touch.foldl_of_undone once' (same_side.mpr undone)]
  by_cases present : kind ∈ settings.map Setting.kind
  · obtain ⟨setting, member, same⟩ := List.mem_map.mp present
    rw [touch.foldl_of_not_undone once member same undone,
      touch.foldl_of_not_undone once' (reordered.mem_iff.mpr member) same (mt same_side.mp undone)]
  · rw [touch.foldl_of_not_mem once present,
      touch.foldl_of_not_mem once' (mt kinds.mem_iff.mp present), if_congr kinds.mem_iff rfl rfl]

end Once

end Row

-----------------------------------------------------------------------------------------
-- Rows of groups
-----------------------------------------------------------------------------------------

/-- A group of a kind stands in front of the preset for links that lose much. -/
def Undone (kind : Kind) (row : List (List String)) : Prop :=
  [kind, .patient].Sublist (row.map kindOf)

instance (kind : Kind) (row : List (List String)) : Decidable (Undone kind row) :=
  inferInstanceAs (Decidable (List.Sublist _ _))

theorem map_kind_of_means {row : List (List String)} {settings : List Setting}
    (meaning : List.Forall₂ Means row settings)
    : row.map kindOf = settings.map Setting.kind := by
  induction meaning with
  | nil => rfl
  | cons here _ ih => rw [List.map_cons, List.map_cons, ih, here.kindOf_eq]

theorem exists_means_of_mem {row : List (List String)} {settings : List Setting}
    (meaning : List.Forall₂ Means row settings) {group : List String} (member : group ∈ row)
    : ∃ setting ∈ settings, Means group setting := by
  induction meaning with
  | nil => cases member
  | cons here _ ih =>
      rcases List.mem_cons.mp member with rfl | later
      · exact ⟨_, List.mem_cons_self, here⟩
      · obtain ⟨setting, member, means⟩ := ih later
        exact ⟨setting, List.mem_cons_of_mem _ member, means⟩

/-- What a part of the options is that the preset overwrites and one kind of group sets. -/
theorem Touch.part_of_group {α : Type} {kind : Kind} {part : Options → α}
    (touch : Touch [kind, .patient] part) {row : List (List String)} {settings : List Setting}
    (meaning : List.Forall₂ Means row settings) (once : (row.map kindOf).Nodup)
    {group : List String} (member : group ∈ row) (about : kindOf group = kind)
    : ∃ setting, Means group setting
        ∧ ∀ options, part (settings.foldl Setting.apply options)
          = if Undone kind row then part (Setting.patient.apply options)
            else part (setting.apply options) := by
  obtain ⟨setting, there, means⟩ := exists_means_of_mem meaning member
  have kinds := map_kind_of_means meaning
  rw [kinds] at once
  refine ⟨setting, means, fun options => ?_⟩
  simp only [Undone, kinds]
  split_ifs with undone
  · exact touch.foldl_of_undone once undone
  · exact touch.foldl_of_not_undone once there (means.kindOf_eq.symm.trans about) undone

/-- A command line in which no option and no query is repeated is read in any order of its groups:
the groups stay what they are, and target, topology, verbosity and query come out the same. Of the
configuration all but the timeout and the number of sends comes out the same as well. Each of these
two does if its group stands on the same side of the preset for links that lose much in both orders;
it has the value that its group gives if the group does not stand in front of the preset, and the
preset's value if it does.
Witness: each group means a setting that the others do not touch, but for the preset.
-/
theorem parse_reordered {words : List String} {options : Options} {order : List (List String)}
    (accepted : Options.parse words = .ok options)
    (once : ((groups words).map kindOf).Nodup)
    (reordered : order.Perm (groups words))
    : groups order.flatten = order
      ∧ ∃ again,
          Options.parse order.flatten = .ok again
          ∧ again.target = options.target
          ∧ again.topology = options.topology
          ∧ again.verbose = options.verbose
          ∧ again.query = options.query
          ∧ { again.config with
                timeout := options.config.timeout, sends := options.config.sends }
            = options.config
          ∧ ((Undone .timeout order ↔ Undone .timeout (groups words))
              → again.config.timeout = options.config.timeout)
          ∧ ((Undone .sends order ↔ Undone .sends (groups words))
              → again.config.sends = options.config.sends)
          ∧ (∀ text,
              ["--timeout", text] ∈ order
              → ∃ limit, long? text = some limit
                  ∧ again.config.timeout
                    = if Undone .timeout order then Config.patient.timeout
                      else .ofMilliseconds limit.toNat)
          ∧ ∀ text,
              ["--retries", text] ∈ order
              → ∃ count, word? text = some count
                  ∧ again.config.sends
                    = if Undone .sends order then Config.patient.sends else count.toNat := by
  obtain ⟨settings, meaning⟩ := exists_meanings accepted
  obtain ⟨later, meaning', perm⟩ := List.perm_comp_forall₂ reordered meaning
  have read := parseFrom_flatten meaning {}
  rw [flatten_groups] at read
  obtain rfl : settings.foldl Setting.apply {} = options :=
    Except.ok.inj (read.symm.trans accepted)
  have once' : (order.map kindOf).Nodup := (reordered.map kindOf).nodup_iff.mpr once
  have kinds := map_kind_of_means meaning
  have kinds' := map_kind_of_means meaning'
  have distinct : (settings.map Setting.kind).Nodup := kinds ▸ once
  refine ⟨groups_flatten meaning', _, parseFrom_flatten meaning' {},
    touch_target.foldl_perm distinct perm, touch_topology.foldl_perm distinct perm,
    touch_verbose.foldl_perm distinct perm, touch_query.foldl_perm distinct perm,
    ?_, ?_, ?_, ?_, ?_⟩
  · have same
        : presets (later.foldl Setting.apply {}) = presets (settings.foldl Setting.apply {}) :=
      touch_presets.foldl_perm distinct perm
    exact congrArg (fun config : Config =>
      { config with
        timeout := (settings.foldl Setting.apply {}).config.timeout
        sends := (settings.foldl Setting.apply {}).config.sends }) same
  · intro same_side
    simp only [Undone, kinds, kinds'] at same_side
    exact touch_timeout.foldl_perm_of_undone_iff distinct perm same_side
  · intro same_side
    simp only [Undone, kinds, kinds'] at same_side
    exact touch_sends.foldl_perm_of_undone_iff distinct perm same_side
  · intro text member
    obtain ⟨setting, means, part⟩ := touch_timeout.part_of_group meaning' once' member rfl
    obtain ⟨limit, readable, applied⟩ := takes_timeout.apply_eq means
    exact ⟨limit, readable, by rw [part, applied]; rfl⟩
  · intro text member
    obtain ⟨setting, means, part⟩ := touch_sends.part_of_group meaning' once' member rfl
    obtain ⟨count, readable, applied⟩ := takes_retries.apply_eq means
    exact ⟨count, readable, by rw [part, applied]; rfl⟩

/-- A timeout and a number of sends that stand behind the preset take effect. In front of it they
are undone, though nothing is repeated.
-/
theorem preset_undoes_timeout
    : let words := ["--patient", "--timeout", "30", "--retries", "1"]
      let order := [["--timeout", "30"], ["--retries", "1"], ["--patient"]]
      ((groups words).map kindOf).Nodup
      ∧ order.Perm (groups words)
      ∧ ∃ options again,
          Options.parse words = .ok options
          ∧ Options.parse order.flatten = .ok again
          ∧ (options.config.timeout, options.config.sends) = (.ofMilliseconds 30, 1)
          ∧ (again.config.timeout, again.config.sends) = (.ofSeconds 2, 10) := by
  intro words order
  have timeout : Means ["--timeout", "30"] (.timeout 30) := ⟨rfl, rfl, fun _ _ => rfl⟩
  have sends : Means ["--retries", "1"] (.sends 1) := ⟨rfl, rfl, fun _ _ => rfl⟩
  have patient : Means ["--patient"] .patient := ⟨rfl, rfl, fun _ _ => rfl⟩
  have before := List.Forall₂.cons patient (.cons timeout (.cons sends .nil))
  have after := List.Forall₂.cons timeout (.cons sends (.cons patient .nil))
  have cut : groups words = [["--patient"], ["--timeout", "30"], ["--retries", "1"]] :=
    groups_flatten before
  rw [cut]
  have accepted := parseFrom_flatten before {}
  have accepted_again := parseFrom_flatten after {}
  exact ⟨by decide, by decide, _, _, accepted, accepted_again, rfl, rfl⟩

/-- A whole command line, read from its last group to its first: what stood behind the preset is
now undone.
-/
theorem parse_reordered_backwards
    : let words := ["-t", "10.0.0.1:17893", "--patient", "--timeout", "30", "-m", "12x12",
        "read", "1", "0", "0x60000000", "64", "-v"]
      let order := (groups words).reverse
      ∃ options,
        Options.parse words = .ok options
        ∧ ((groups words).map kindOf).Nodup
        ∧ order.Perm (groups words)
        ∧ groups order.flatten = order
        ∧ ∃ again,
            Options.parse order.flatten = .ok again
            ∧ again.query = some (.read ⟨1, 0⟩ 0x60000000 64)
            ∧ options.config.timeout = .ofMilliseconds 30
            ∧ again.config.timeout = Config.patient.timeout := by
  intro words order
  have target : Means ["-t", "10.0.0.1:17893"] (.target ⟨.bytes 10 0 0 1, 17893⟩) :=
    ⟨rfl, rfl, fun _ _ => rfl⟩
  have patient : Means ["--patient"] .patient := ⟨rfl, rfl, fun _ _ => rfl⟩
  have timeout : Means ["--timeout", "30"] (.timeout 30) := ⟨rfl, rfl, fun _ _ => rfl⟩
  have machine : Means ["-m", "12x12"] (.topology ⟨12, 12⟩) := ⟨rfl, rfl, fun _ _ => rfl⟩
  have read : Means ["read", "1", "0", "0x60000000", "64"] (.query (.read ⟨1, 0⟩ 0x60000000 64)) :=
    ⟨rfl, rfl, fun _ _ => rfl⟩
  have verbose : Means ["-v"] .verbose := ⟨rfl, rfl, fun _ _ => rfl⟩
  have meaning := List.Forall₂.cons target (.cons patient (.cons timeout (.cons machine
    (.cons read (.cons verbose .nil)))))
  have cut : groups words
      = [["-t", "10.0.0.1:17893"], ["--patient"], ["--timeout", "30"], ["-m", "12x12"],
          ["read", "1", "0", "0x60000000", "64"], ["-v"]] :=
    groups_flatten meaning
  have accepted := parseFrom_flatten meaning {}
  have once : ((groups words).map kindOf).Nodup := by rw [cut]; decide
  have reordered : order.Perm (groups words) := List.reverse_perm _
  obtain ⟨same, again, accepted_again, _, _, _, query, _, _, _, timeout_again, _⟩ :=
    parse_reordered accepted once reordered
  obtain ⟨limit, _, value⟩ := timeout_again "30" (by simp [order, cut])
  have undone : Undone .timeout order := by simp only [order, cut]; decide
  rw [if_pos undone] at value
  exact ⟨_, accepted, once, reordered, same, again, accepted_again, query, rfl, value⟩

end MeshControl.Probe
