import MeshControl.Link.Selector
import MeshControl.Proofs.Table.Contents

/-! The choice of a connection by place. The directory of a pool finds the earliest candidate at
each chip, so the choice follows one rule over the pool, whatever the size of the machine was told
to be; that a lone candidate is taken without a look at the chip makes no difference to it.
-/

namespace MeshControl.Link

-----------------------------------------------------------------------------------------
-- The rule
-----------------------------------------------------------------------------------------

/-- Some candidate of the pool is at the chip. -/
def Manned (pool : List Candidate) (chip : Chip) : Prop :=
  ∃ candidate ∈ pool, candidate.chip = chip

/-- The candidate is the earliest of the pool at the chip. -/
def Earliest (pool : List Candidate) (chip : Chip) (candidate : Candidate) : Prop :=
  candidate.chip = chip
  ∧ ∃ before after,
      pool = before ++ candidate :: after ∧ ∀ other ∈ before, other.chip ≠ chip

/-- The chip's board has no socket with a candidate, as far as the machine is known. -/
def Remote (pool : List Candidate) (topology : Option Topology) (chip : Chip) : Prop :=
  ∀ machine socket,
    topology = some machine → machine.nearestEthernet chip = some socket → ¬ Manned pool socket

theorem remote_some {pool : List Candidate} {machine : Topology} {chip : Chip}
    (bare : ∀ socket, machine.nearestEthernet chip = some socket → ¬ Manned pool socket)
    : Remote pool (some machine) chip := by
  intro _ socket known nearest
  cases known
  exact bare socket nearest

/-- Whom a request for a chip goes to: the first of these rules that applies to the chip decides.
This proof-only relation says nothing about how a candidate is found.
-/
inductive Closest (pool : List Candidate) (topology : Option Topology) (chip : Chip)
    : Candidate → Prop
  | there {candidate} (earliest : Earliest pool chip candidate)
    : Closest pool topology chip candidate
  | board {machine socket candidate} (nobody : ¬ Manned pool chip)
    (known : topology = some machine) (nearest : machine.nearestEthernet chip = some socket)
    (earliest : Earliest pool socket candidate)
    : Closest pool topology chip candidate
  | corner {candidate} (nobody : ¬ Manned pool chip) (remote : Remote pool topology chip)
    (earliest : Earliest pool .origin candidate)
    : Closest pool topology chip candidate
  | first {candidate} (nobody : ¬ Manned pool chip) (remote : Remote pool topology chip)
    (bare : ¬ Manned pool .origin) (head : pool.head? = some candidate)
    : Closest pool topology chip candidate

-----------------------------------------------------------------------------------------
-- The directory of a pool
-----------------------------------------------------------------------------------------

namespace Directory

theorem get?_enter (byChip : Table Chip Candidate) (candidate : Candidate) (chip : Chip)
    : (enter byChip candidate).get? chip
      = (byChip.get? chip).or (if candidate.chip = chip then some candidate else none) := by
  unfold enter
  by_cases same : candidate.chip = chip
  · subst same
    cases known : byChip.get? candidate.chip <;> simp [Table.contains, known]
  · have apart : chip ≠ candidate.chip := Ne.symm same
    split <;> simp [apart]

/-- Whoever has the place of a chip keeps it; else the earliest that comes to the chip gets it. By
induction on those who come.
-/
theorem get?_foldl_enter (byChip : Table Chip Candidate) (pool : List Candidate) (chip : Chip)
    : (pool.foldl enter byChip).get? chip
      = (byChip.get? chip).or (pool.find? fun candidate => candidate.chip = chip) := by
  induction pool generalizing byChip with
  | nil => simp
  | cons candidate rest ih =>
      rw [List.foldl_cons, ih, get?_enter, Option.or_assoc, List.find?_cons]
      by_cases same : candidate.chip = chip <;> simp [same]

theorem get?_ofPool (first : Candidate) (others : List Candidate) (chip : Chip)
    : (ofPool first others).byChip.get? chip
      = (first :: others).find? fun candidate => candidate.chip = chip := by
  rw [ofPool, get?_foldl_enter, Table.get?_empty, Option.none_or]

variable {first candidate : Candidate} {others : List Candidate} {chip : Chip}

theorem get?_eq_some_iff
    : (ofPool first others).byChip.get? chip = some candidate
      ↔ Earliest (first :: others) chip candidate := by
  rw [get?_ofPool, List.find?_eq_some_iff_append]
  simp [Earliest]

theorem get?_eq_none_iff
    : (ofPool first others).byChip.get? chip = none ↔ ¬ Manned (first :: others) chip := by
  rw [get?_ofPool, List.find?_eq_none]
  simp [Manned]

/-- A lone candidate is whom every place of its directory leads to. -/
theorem getD_lone (candidate : Candidate) (chip : Chip)
    : ((ofPool candidate []).byChip.get? chip).getD candidate = candidate := by
  rw [get?_ofPool, List.find?_singleton]
  split <;> rfl

theorem fallback_lone (candidate : Candidate) : (ofPool candidate []).fallback = candidate :=
  getD_lone candidate .origin

theorem look_lone (candidate : Candidate) (topology : Option Topology) (chip : Chip)
    : (ofPool candidate []).look topology chip = candidate := by
  unfold look
  split
  · next found => simpa [found] using getD_lone candidate chip
  · split
    · exact fallback_lone candidate
    · split
      · rw [fallback_lone, getD_lone]
      · exact fallback_lone candidate

/-- That a lone candidate needs no look changes nothing. -/
theorem closest_eq_look (first : Candidate) (others : List Candidate)
    (topology : Option Topology) (chip : Chip)
    : (ofPool first others).closest topology chip = (ofPool first others).look topology chip := by
  unfold closest
  split
  · next lone =>
      obtain rfl : others = [] := by simpa [ofPool] using lone
      rw [fallback_lone, look_lone]
  · rfl

-----------------------------------------------------------------------------------------
-- The rule is what the directory follows
-----------------------------------------------------------------------------------------

variable {topology : Option Topology}

/-- Where no board's socket has a candidate, the one at the corner is taken, else the first. -/
theorem closest_fallback (nobody : ¬ Manned (first :: others) chip)
    (remote : Remote (first :: others) topology chip)
    : Closest (first :: others) topology chip (ofPool first others).fallback := by
  have fallback : (ofPool first others).fallback
      = ((ofPool first others).byChip.get? .origin).getD first := rfl
  rw [fallback]
  cases corner : (ofPool first others).byChip.get? .origin with
  | none => exact .first nobody remote (get?_eq_none_iff.mp corner) rfl
  | some candidate => exact .corner nobody remote (get?_eq_some_iff.mp corner)

theorem closest_look (first : Candidate) (others : List Candidate) (topology : Option Topology)
    (chip : Chip)
    : Closest (first :: others) topology chip ((ofPool first others).look topology chip) := by
  unfold look
  split
  · next there => exact .there (get?_eq_some_iff.mp there)
  · next nobody =>
      rw [get?_eq_none_iff] at nobody
      cases topology with
      | none => exact closest_fallback nobody fun _ _ known => by cases known
      | some machine =>
          dsimp only
          split
          · next socket nearest =>
              cases board : (ofPool first others).byChip.get? socket with
              | some candidate => exact .board nobody rfl nearest (get?_eq_some_iff.mp board)
              | none =>
                  have bare := get?_eq_none_iff.mp board
                  exact closest_fallback nobody (remote_some fun _ found => by
                    cases nearest.symm.trans found
                    exact bare)
          · next off =>
              exact closest_fallback nobody (remote_some fun _ found => by
                cases off.symm.trans found)

end Directory

-----------------------------------------------------------------------------------------
-- The rule leaves no choice
-----------------------------------------------------------------------------------------

section Unique

variable {pool : List Candidate} {topology : Option Topology} {chip : Chip}
  {candidate other : Candidate}

theorem Earliest.manned (earliest : Earliest pool chip candidate) : Manned pool chip := by
  obtain ⟨there, before, after, rfl, _⟩ := earliest
  exact ⟨candidate, by simp, there⟩

theorem Earliest.unique (earliest : Earliest pool chip candidate)
    (again : Earliest pool chip other)
    : candidate = other := by
  have found {candidate} (earliest : Earliest pool chip candidate)
      : pool.find? (fun candidate => candidate.chip = chip) = some candidate := by
    rw [List.find?_eq_some_iff_append]
    simpa [Earliest] using earliest
  exact Option.some.inj ((found earliest).symm.trans (found again))

/-- No two candidates are closest: by the rule that holds for each, where the later rules exclude
the earlier ones.
-/
theorem Closest.unique (closest : Closest pool topology chip candidate)
    (again : Closest pool topology chip other)
    : candidate = other := by
  cases closest with
  | there earliest =>
      cases again with
      | there second => exact earliest.unique second
      | board nobody _ _ _ => exact absurd earliest.manned nobody
      | corner nobody _ _ => exact absurd earliest.manned nobody
      | first nobody _ _ _ => exact absurd earliest.manned nobody
  | board nobody known nearest earliest =>
      cases again with
      | there second => exact absurd second.manned nobody
      | board _ told near second =>
          cases known.symm.trans told
          cases nearest.symm.trans near
          exact earliest.unique second
      | corner _ remote _ => exact absurd earliest.manned (remote _ _ known nearest)
      | first _ remote _ _ => exact absurd earliest.manned (remote _ _ known nearest)
  | corner nobody remote earliest =>
      cases again with
      | there second => exact absurd second.manned nobody
      | board _ known nearest second => exact absurd second.manned (remote _ _ known nearest)
      | corner _ _ second => exact earliest.unique second
      | first _ _ bare _ => exact absurd earliest.manned bare
  | first nobody remote bare head =>
      cases again with
      | there second => exact absurd second.manned nobody
      | board _ known nearest second => exact absurd second.manned (remote _ _ known nearest)
      | corner _ _ second => exact absurd second.manned bare
      | first _ _ _ second => exact Option.some.inj (head.symm.trans second)

end Unique

-----------------------------------------------------------------------------------------
-- A selector that is told the size of its machine
-----------------------------------------------------------------------------------------

namespace Selector

/-- The size that a selector was told last is the one that it knows, by induction on those that it
was told.
-/
theorem foldl_setTopology (directory : Directory) (given : Option Topology)
    (sizes : List Topology)
    : sizes.foldl setTopology (.byPlace directory given)
      = .byPlace directory (sizes.getLast?.or given) := by
  induction sizes generalizing given with
  | nil => rfl
  | cons size rest ih =>
      rw [List.foldl_cons, setTopology, ih, List.getLast?_cons]
      cases rest.getLast? <;> rfl

/-- A selector by place over any pool that is not empty, after any history of sizes that it was
told, chooses for every chip whom the rule names and nobody else, for the size that it was told
last, or was made with. To choose changes nothing in it, and the choice is what a look at the
chip gives, also where a lone candidate is taken without one.
Witness: the directory has the earliest candidate at each chip, which is what every stage of the
look finds.
-/
theorem mostDirect_chooses_closest (first : Candidate) (others : List Candidate)
    (given : Option Topology) (sizes : List Topology)
    : ∃ directory,
        mostDirect? given (first :: others) = .ok (.byPlace directory given)
        ∧ let selector := sizes.foldl setTopology (.byPlace directory given)
          let known := sizes.getLast?.or given
          ∀ chip,
            (∀ candidate,
              (selector.select chip).1 = candidate
              ↔ Closest (first :: others) known chip candidate)
            ∧ (selector.select chip).2 = selector
            ∧ (selector.select chip).1 = directory.look known chip := by
  refine ⟨.ofPool first others, rfl, ?_⟩
  intro selector known chip
  have told : selector = .byPlace (.ofPool first others) known :=
    foldl_setTopology _ given sizes
  have chosen : (selector.select chip).1 = (Directory.ofPool first others).look known chip := by
    rw [told, select, Directory.closest_eq_look]
  have closest := Directory.closest_look first others known chip
  refine ⟨fun candidate => ?_, by rw [told, select], chosen⟩
  rw [chosen]
  constructor
  · rintro rfl
    exact closest
  · exact closest.unique

/-- Of two candidates at the socket of a board the earlier one serves its chips. -/
example
    : ((mostDirect ⟨0, ⟨4, 8⟩⟩ [⟨1, .origin⟩, ⟨2, ⟨4, 8⟩⟩] (some ⟨12, 12⟩)).select ⟨5, 9⟩).1.number
      = 0 := by
  decide

end Selector

end MeshControl.Link
