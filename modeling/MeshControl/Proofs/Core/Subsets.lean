import Mathlib.Data.Finset.Card
import Mathlib.Data.List.Nodup
import MeshControl.Core.Subset

/-! Processors of many chips as a map that keeps the order of its chips. List and index stay in
step whatever is added, and what they hold is what was granted, each chip in the place of the
first addition that was.
-/

namespace MeshControl.Core

-----------------------------------------------------------------------------------------
-- One chip
-----------------------------------------------------------------------------------------

namespace Processors

/-- A number that is in its place already is not put there again; by induction on the list. -/
theorem place_of_mem {number : UInt8} {list : List UInt8} (ascending : list.Pairwise (· < ·))
    (member : number ∈ list)
    : place number list = list := by
  induction list with
  | nil => exact absurd member List.not_mem_nil
  | cons next rest ih =>
      obtain ⟨above, later⟩ := List.pairwise_cons.mp ascending
      rcases List.mem_cons.mp member with here | behind
      · subst here
        simp [place]
      · have below := above number behind
        have apart : number ≠ next := fun same => UInt8.lt_irrefl _ (same ▸ below)
        rw [place, if_neg (UInt8.lt_asymm below), if_neg apart, ih later behind]

theorem insert_of_mem {processors : Processors} {number : UInt8}
    (member : number ∈ processors.list)
    : processors.insert number = processors := by
  obtain ⟨list, ascending⟩ := processors
  simp only [insert, place_of_mem ascending member]

theorem nodup (processors : Processors) : processors.list.Nodup :=
  processors.ascending.imp fun below => UInt8.ne_of_lt below

end Processors

namespace Subsets

-----------------------------------------------------------------------------------------
-- List and index
-----------------------------------------------------------------------------------------

/-- The index has the place of every chip of the list, and nothing else. -/
def InStep (subsets : Subsets) : Prop :=
  ∀ chip place, subsets.index.get? chip = some place ↔ subsets.chips[place]? = some chip

variable {subsets : Subsets}

theorem inStep_empty : InStep {} := by
  intro chip place
  simp [chips, Table.empty, Table.get?, Table.find]

theorem InStep.isChip_iff (inStep : subsets.InStep) (chip : Chip)
    : subsets.isChip chip = true ↔ chip ∈ subsets.chips := by
  simp only [isChip, Table.contains, Option.isSome_iff_exists, inStep chip, List.mem_iff_getElem?]

/-- A chip is not in the list twice, since the index has one place for it. -/
theorem InStep.nodup_chips (inStep : subsets.InStep) : subsets.chips.Nodup := by
  refine List.nodup_iff_injective_get.mpr fun first second same => Fin.ext ?_
  have at_first := (inStep _ first.val).mpr (List.getElem?_eq_getElem first.isLt)
  have at_second := (inStep _ second.val).mpr (List.getElem?_eq_getElem second.isLt)
  simp only [List.get_eq_getElem] at same
  rw [same, at_second] at at_first
  exact (Option.some.inj at_first).symm

/-- What is found for a chip is what the list has for it. -/
theorem InStep.get?_eq_some_iff (inStep : subsets.InStep) {chip : Chip}
    {processors : Processors}
    : subsets.get? chip = some processors ↔ ⟨chip, processors⟩ ∈ subsets.list := by
  simp only [get?, Option.bind_eq_some_iff, Option.map_eq_some_iff, inStep chip, chips,
    List.getElem?_map, List.mem_iff_getElem?]
  constructor
  · rintro ⟨place, ⟨_, found, rfl⟩, subset, again, rfl⟩
    rw [found] at again
    cases again
    exact ⟨place, found⟩
  · rintro ⟨place, found⟩
    exact ⟨place, ⟨_, found, rfl⟩, _, found, rfl⟩

theorem isCore_iff {chip : Chip} {number : UInt8}
    : subsets.isCore chip number = true
      ↔ ∃ processors, subsets.get? chip = some processors ∧ number ∈ processors.list := by
  unfold isCore
  cases subsets.get? chip with
  | none => simp
  | some processors => simp [Processors.contains]

-----------------------------------------------------------------------------------------
-- New chips
-----------------------------------------------------------------------------------------

theorem chips_push (subsets : Subsets) (subset : Subset)
    : (subsets.push subset).chips = subsets.chips ++ [subset.chip] := by
  simp [chips, push]

section Push

variable {subset : Subset}

/-- A new chip gets the place behind all others. -/
theorem InStep.push (inStep : subsets.InStep) (new : subset.chip ∉ subsets.chips)
    : (subsets.push subset).InStep := by
  intro chip place
  have size : subsets.list.length = subsets.chips.length := by simp [chips]
  have index : (subsets.push subset).index.get? chip
      = if chip = subset.chip then some subsets.chips.length else subsets.index.get? chip := by
    rw [Subsets.push, Table.get?_insert, size]
  rw [index, chips_push, List.getElem?_append]
  by_cases same : chip = subset.chip
  · subst same
    have absent : ¬ subsets.chips[place]? = some subset.chip :=
      fun found => new (List.mem_of_getElem? found)
    rw [if_pos rfl, Option.some_inj]
    split
    · next within =>
        simp only [absent, iff_false]
        omega
    · next beyond =>
        rw [List.getElem?_singleton]
        split
        · next first => simp only [iff_true]; omega
        · next later => simp only [reduceCtorEq, iff_false]; omega
  · rw [if_neg same, inStep chip]
    split
    · rfl
    · next beyond =>
        rw [List.getElem?_eq_none (Nat.not_lt.mp beyond), List.getElem?_singleton]
        split <;> simp [Ne.symm same]

theorem InStep.get?_push (inStep : subsets.InStep) (new : subset.chip ∉ subsets.chips)
    (chip : Chip)
    : (subsets.push subset).get? chip
      = if chip = subset.chip then some subset.processors else subsets.get? chip := by
  have later := inStep.push new
  have added : (subsets.push subset).list = subsets.list ++ [subset] := rfl
  refine Option.ext fun processors => ?_
  rw [later.get?_eq_some_iff, added, List.mem_append, List.mem_singleton]
  by_cases same : chip = subset.chip
  · have absent : ⟨chip, processors⟩ ∉ subsets.list := fun member =>
      new (List.mem_map.mpr ⟨_, member, same⟩)
    obtain ⟨_, _⟩ := subset
    subst same
    simp [absent, eq_comm]
  · have apart : ⟨chip, processors⟩ ≠ subset := fun equal => same (equal ▸ rfl)
    rw [if_neg same, inStep.get?_eq_some_iff]
    simp only [apart, or_false]

end Push

-----------------------------------------------------------------------------------------
-- Chips that are there
-----------------------------------------------------------------------------------------

/-- Another processor of a chip that is there moves no chip. -/
theorem chips_modify (subsets : Subsets) (place : Nat) (number : UInt8)
    : (subsets.list.modify place (·.insert number)).map Subset.chip = subsets.chips := by
  refine List.ext_getElem? fun other => ?_
  rw [List.getElem?_map, List.getElem?_modify, chips, List.getElem?_map]
  cases subsets.list[other]? with
  | none => rfl
  | some subset => by_cases here : place = other <;> simp [here, Subset.insert]

theorem chips_addProcessor (inStep : subsets.InStep) (chip : Chip) (number : UInt8)
    : (subsets.addProcessor chip number).chips
      = if chip ∈ subsets.chips then subsets.chips else subsets.chips ++ [chip] := by
  have known := inStep.isChip_iff chip
  unfold addProcessor
  simp only [isChip, Table.contains] at known
  cases found : subsets.index.get? chip with
  | none =>
      have new : chip ∉ subsets.chips := by simpa [found] using known
      rw [if_neg new]
      exact chips_push subsets _
  | some place =>
      have present : chip ∈ subsets.chips := by simpa [found] using known
      rw [if_pos present]
      exact chips_modify subsets place number

theorem InStep.addProcessor (inStep : subsets.InStep) (chip : Chip) (number : UInt8)
    : (subsets.addProcessor chip number).InStep := by
  unfold Subsets.addProcessor
  cases found : subsets.index.get? chip with
  | none =>
      refine inStep.push fun member => ?_
      have present : subsets.isChip chip = true := (inStep.isChip_iff chip).mpr member
      simp [isChip, Table.contains, found] at present
  | some place =>
      intro other position
      rw [chips, chips_modify]
      exact inStep other position

/-- One processor more: its chip has it beside those that it had, and every other chip is as it
was.
-/
theorem InStep.get?_addProcessor (inStep : subsets.InStep) (chip : Chip) (number : UInt8)
    (other : Chip)
    : (subsets.addProcessor chip number).get? other
      = if other = chip then some (((subsets.get? chip).getD .empty).insert number)
        else subsets.get? other := by
  unfold Subsets.addProcessor
  cases found : subsets.index.get? chip with
  | none =>
      have new : chip ∉ subsets.chips := by
        rw [← inStep.isChip_iff]
        simp [isChip, Table.contains, found]
      have absent : subsets.get? chip = none := by simp [get?, found]
      rw [absent]
      exact inStep.get?_push new other
  | some place =>
      have held := (inStep chip place).mp found
      simp only [chips, List.getElem?_map, Option.map_eq_some_iff] at held
      obtain ⟨subset, listed, rfl⟩ := held
      by_cases same : other = subset.chip
      · subst same
        simp [get?, found, listed, Subset.insert]
      · have moved (position : Nat) (there : subsets.index.get? other = some position)
            : place ≠ position := by
          rintro rfl
          have again := (inStep other place).mp there
          rw [(inStep _ place).mp found] at again
          exact same (Option.some.inj again).symm
        rw [if_neg same]
        unfold get?
        cases there : subsets.index.get? other with
        | none => rfl
        | some position =>
            have apart := moved position there
            rw [Option.bind_some, Option.bind_some, List.getElem?_modify]
            simp only [apart, if_false, Option.map_eq_map, Option.map_id']

/-- A processor that is there is not taken in again. -/
theorem addProcessor_of_isCore {chip : Chip} {number : UInt8}
    (present : subsets.isCore chip number = true)
    : subsets.addProcessor chip number = subsets := by
  obtain ⟨processors, found, member⟩ := isCore_iff.mp present
  simp only [get?, Option.bind_eq_some_iff, Option.map_eq_some_iff] at found
  obtain ⟨place, indexed, subset, listed, rfl⟩ := found
  have kept : subset.insert number = subset := by
    rw [Subset.insert, Processors.insert_of_mem member]
  have same : subsets.list.modify place (·.insert number) = subsets.list := by
    refine List.ext_getElem? fun other => ?_
    rw [List.getElem?_modify]
    by_cases here : place = other
    · subst here
      simp [listed, kept]
    · simp [here]
  simp only [Subsets.addProcessor, indexed, same]

-----------------------------------------------------------------------------------------
-- All processors
-----------------------------------------------------------------------------------------

/-- The processors of all chips, each with its chip. -/
def cores (subsets : Subsets) : List (Chip × UInt8) :=
  subsets.list.flatMap fun subset => subset.processors.list.map (subset.chip, ·)

theorem coreCount_eq (subsets : Subsets) : subsets.coreCount = subsets.cores.length := by
  rw [cores, List.length_flatMap, List.sum_eq_foldr, List.foldr_map]
  simp only [List.length_map]
  rfl

theorem InStep.mem_cores_iff (inStep : subsets.InStep) {chip : Chip} {number : UInt8}
    : (chip, number) ∈ subsets.cores ↔ subsets.isCore chip number = true := by
  simp only [cores, List.mem_flatMap, List.mem_map, isCore_iff, inStep.get?_eq_some_iff]
  constructor
  · rintro ⟨subset, listed, _, member, same⟩
    cases same
    exact ⟨subset.processors, listed, member⟩
  · rintro ⟨processors, listed, member⟩
    exact ⟨_, listed, number, member, rfl⟩

/-- No processor is counted twice: chips are distinct, and so are the processors of each. -/
theorem InStep.nodup_cores (inStep : subsets.InStep) : subsets.cores.Nodup := by
  refine List.nodup_flatMap.mpr ⟨fun subset _ => ?_, ?_⟩
  · exact subset.processors.nodup.map fun _ _ same => (Prod.mk.inj same).2
  · refine (List.pairwise_map.mp inStep.nodup_chips).imp fun {first second} apart => ?_
    intro core at_first at_second
    obtain ⟨_, _, rfl⟩ := List.mem_map.mp at_first
    obtain ⟨_, _, same⟩ := List.mem_map.mp at_second
    exact apart (Prod.mk.inj same).1.symm

-----------------------------------------------------------------------------------------
-- Additions
-----------------------------------------------------------------------------------------

/-- What is added to a collection: one processor, or a chip with its processors. -/
inductive Addition
  | processor (chip : Chip) (number : UInt8)
  | subset (subset : Subset)

namespace Addition

def chip : Addition → Chip
  | processor chip _ => chip
  | subset added => added.chip

/-- The processors that an addition brings. -/
def cores : Addition → List (Chip × UInt8)
  | processor chip number => [(chip, number)]
  | subset added => added.processors.list.map (added.chip, ·)

end Addition

/-- What is told of an addition, and the collection after it. One that is refused gives back no
collection, so that there is the one that was.
-/
def add (subsets : Subsets) : Addition → Except Error Unit × Subsets
  | .processor chip number => (.ok (), subsets.addProcessor chip number)
  | .subset subset =>
      match subsets.addSubset subset with
      | .ok later => (.ok (), later)
      | .error error => (.error error, subsets)

/-- A collection after some additions, one after the other. -/
def addAll (subsets : Subsets) (additions : List Addition) : Subsets :=
  additions.foldl (fun now addition => (now.add addition).2) subsets

/-- The additions that are granted, in their order. -/
def granted (subsets : Subsets) : List Addition → List Addition
  | [] => []
  | addition :: rest =>
      match subsets.add addition with
      | (.ok (), later) => addition :: later.granted rest
      | (.error _, later) => later.granted rest

/-- What is told of a chip that is there already. -/
def refusal (subset : Subset) : Error :=
  .invalidParameter "core_subset" subset.text "이미 같은 칩의 CoreSubset 이 있음"

theorem InStep.add_subset (inStep : subsets.InStep) (subset : Subset)
    : subsets.add (.subset subset)
      = if subset.chip ∈ subsets.chips then (.error (refusal subset), subsets)
        else (.ok (), subsets.push subset) := by
  by_cases present : subset.chip ∈ subsets.chips
  · simp [add, addSubset, (inStep.isChip_iff _).mpr present, present, refusal]
  · simp [add, addSubset, mt (inStep.isChip_iff _).mp present, present]

/-- A collection holds what was granted. -/
structure Holds (granted : List Addition) (subsets : Subsets) : Prop where
  inStep : subsets.InStep
  /-- Its chips come in the order of the first addition that was granted for each. -/
  chips : subsets.chips = (granted.map Addition.chip).eraseDups
  cores
    : ∀ chip number,
        subsets.isCore chip number = true ↔ (chip, number) ∈ granted.flatMap Addition.cores

theorem holds_empty : Holds [] {} where
  inStep := inStep_empty
  chips := rfl
  cores chip number := by
    have empty : ({} : Subsets).isCore chip number = false := rfl
    simp [empty]

section Holding

variable {done : List Addition}

/-- Another addition for a chip leaves the chip in its place, and one for a new chip puts it last.
-/
theorem eraseDups_snoc (done : List Addition) (addition : Addition)
    : ((done ++ [addition]).map Addition.chip).eraseDups
      = if addition.chip ∈ (done.map Addition.chip).eraseDups then
          (done.map Addition.chip).eraseDups
        else (done.map Addition.chip).eraseDups ++ [addition.chip] := by
  rw [List.map_append, List.map_singleton, List.eraseDups_append]
  by_cases known : addition.chip ∈ done.map Addition.chip
  · have removed : [addition.chip].removeAll (done.map Addition.chip) = [] := by
      simpa [List.removeAll] using known
    rw [removed, if_pos (List.mem_eraseDups.mpr known)]
    simp
  · have kept : [addition.chip].removeAll (done.map Addition.chip) = [addition.chip] := by
      simpa [List.removeAll] using known
    rw [kept, if_neg (mt List.mem_eraseDups.mp known)]
    rfl

theorem Holds.processor (holds : Holds done subsets) (chip : Chip) (number : UInt8)
    : Holds (done ++ [.processor chip number]) (subsets.addProcessor chip number) where
  inStep := holds.inStep.addProcessor chip number
  chips := by
    rw [chips_addProcessor holds.inStep, holds.chips, eraseDups_snoc, Addition.chip]
  cores other member := by
    have before := holds.cores other member
    rw [isCore_iff] at before ⊢
    rw [List.flatMap_append, List.mem_append, ← before]
    simp only [holds.inStep.get?_addProcessor, List.flatMap_singleton, Addition.cores,
      List.mem_singleton, Prod.mk.injEq]
    by_cases same : other = chip
    · subst same
      rw [if_pos rfl]
      cases subsets.get? other with
      | none => simp [Processors.mem_insert, Processors.empty]
      | some processors => simp [Processors.mem_insert, or_comm]
    · simp [same]

theorem Holds.subset (holds : Holds done subsets) {subset : Subset}
    (new : subset.chip ∉ subsets.chips)
    : Holds (done ++ [.subset subset]) (subsets.push subset) where
  inStep := holds.inStep.push new
  chips := by
    rw [chips_push, eraseDups_snoc, ← holds.chips]
    exact (if_neg new).symm
  cores other member := by
    have before := holds.cores other member
    rw [isCore_iff] at before ⊢
    rw [List.flatMap_append, List.mem_append, ← before]
    simp only [holds.inStep.get?_push new, List.flatMap_singleton, Addition.cores, List.mem_map,
      Prod.mk.injEq]
    by_cases same : other = subset.chip
    · subst same
      have absent : ¬ ∃ processors, subsets.get? subset.chip = some processors
          ∧ member ∈ processors.list := by
        rintro ⟨processors, found, _⟩
        have listed : (⟨subset.chip, processors⟩ : Subset) ∈ subsets.list :=
          holds.inStep.get?_eq_some_iff.mp found
        exact new (List.mem_map.mpr ⟨_, listed, rfl⟩)
      simp [absent]
    · simp [same, Ne.symm same]

/-- Every run of additions leaves what it granted, beside what was there; by induction on it. -/
theorem Holds.addAll (holds : Holds done subsets) (additions : List Addition)
    : Holds (done ++ subsets.granted additions) (subsets.addAll additions) := by
  induction additions generalizing done subsets with
  | nil => simpa [granted, Subsets.addAll] using holds
  | cons addition rest ih =>
      have run : subsets.addAll (addition :: rest) = ((subsets.add addition).2).addAll rest := rfl
      rw [run]
      cases addition with
      | processor chip number =>
          have onward := ih (holds.processor chip number)
          rwa [List.append_assoc] at onward
      | subset subset =>
          have told := holds.inStep.add_subset subset
          by_cases present : subset.chip ∈ subsets.chips
          · rw [if_pos present] at told
            rw [granted, told]
            exact ih holds
          · rw [if_neg present] at told
            have onward := ih (holds.subset present)
            rw [List.append_assoc] at onward
            rw [granted, told]
            exact onward

end Holding

/-- Whatever is added to the empty collection, its index has the place of each of its chips and
nothing else, and each chip is in the list once. The chips come in the order in which an addition
was first granted for them; a processor is there exactly if an addition that was granted brought
it, and each is counted once. Adding a processor that is there changes nothing, and so does adding
any processor a second time; adding a chip that is there is refused and changes nothing, and any
other chip is granted a place behind all others.
Witness: list and index in step, kept by both kinds of additions.
-/
theorem keeps_insertion_order (additions : List Addition)
    : let subsets := Subsets.addAll {} additions
      let done := Subsets.granted {} additions
      (∀ chip place, subsets.index.get? chip = some place ↔ subsets.chips[place]? = some chip)
      ∧ subsets.chips.Nodup
      ∧ subsets.chips = (done.map Addition.chip).eraseDups
      ∧ (∀ chip number,
          subsets.isCore chip number = true ↔ ∃ addition ∈ done, (chip, number) ∈ addition.cores)
      ∧ subsets.coreCount = (done.flatMap Addition.cores).toFinset.card
      ∧ (∀ chip number,
          subsets.isCore chip number = true → subsets.addProcessor chip number = subsets)
      ∧ (∀ chip number,
          (subsets.addProcessor chip number).addProcessor chip number
          = subsets.addProcessor chip number)
      ∧ ∀ subset,
          subsets.add (.subset subset)
          = if subset.chip ∈ subsets.chips then (.error (refusal subset), subsets)
            else (.ok (), subsets.push subset) := by
  intro subsets done
  have holds : Holds done subsets := holds_empty.addAll additions
  have inStep := holds.inStep
  refine ⟨inStep, inStep.nodup_chips, holds.chips, fun chip number => ?_, ?_,
    fun _ _ => addProcessor_of_isCore, fun chip number => ?_, inStep.add_subset⟩
  · rw [holds.cores, List.mem_flatMap]
  · have same : subsets.cores.toFinset = (done.flatMap Addition.cores).toFinset := by
      ext ⟨chip, number⟩
      rw [List.mem_toFinset, List.mem_toFinset, inStep.mem_cores_iff, holds.cores]
    rw [coreCount_eq, ← same, List.toFinset_card_of_nodup inStep.nodup_cores]
  · have brought : (chip, number)
        ∈ (done ++ [Addition.processor chip number]).flatMap Addition.cores := by
      simp [Addition.cores]
    exact addProcessor_of_isCore (((holds.processor chip number).cores chip number).mpr brought)

/-- A processor brings the first chip, whose second addition is refused; the second chip comes with
two processors, one of which is added again.
-/
theorem keeps_insertion_order_mixed
    : let additions : List Addition :=
        [.processor ⟨1, 2⟩ 3, .subset (.ofList ⟨1, 2⟩ [4]), .subset (.ofList ⟨0, 0⟩ [1, 2]),
          .processor ⟨0, 0⟩ 2]
      let subsets := Subsets.addAll {} additions
      subsets.chips = [⟨1, 2⟩, ⟨0, 0⟩]
      ∧ subsets.index.get? ⟨0, 0⟩ = some 1
      ∧ subsets.coreCount = 3
      ∧ subsets.isCore ⟨1, 2⟩ 3 = true
      ∧ subsets.isCore ⟨1, 2⟩ 4 = false
      ∧ subsets.addProcessor ⟨1, 2⟩ 3 = subsets := by
  intro additions subsets
  obtain ⟨index, _, order, cores, count, present, _⟩ := keeps_insertion_order additions
  have chips : subsets.chips = [⟨1, 2⟩, ⟨0, 0⟩] := order.trans (by decide)
  have first : subsets.isCore ⟨1, 2⟩ 3 = true := (cores _ _).mpr (by decide)
  refine ⟨chips, (index _ _).mpr (by rw [chips]; rfl), count.trans (by decide), first, ?_,
    present _ _ first⟩
  exact Bool.eq_false_iff.mpr (mt (cores _ _).mp (by decide))

end Subsets

end MeshControl.Core
