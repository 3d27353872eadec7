import Mathlib.Data.List.Nodup
import Mathlib.Data.List.Perm.Basic
import Mathlib.Data.Nat.Find
import MeshControl.Link.Process

/-! The search for a sequence number. Numbers are drawn until one is free, however long it takes.
The search ends exactly if some number is free; it then takes no more draws than there are numbers,
so a search with that many draws finds the same, and finds nothing exactly if the other never ends.
Whether some number is free is told by how many are in use.
-/

namespace MeshControl.Link

open Scp

variable {Taken : UInt16 → Prop} {sequences later : SequenceGenerator} {draws : Nat}
  {sequence : UInt16}

-----------------------------------------------------------------------------------------
-- A search without a bound
-----------------------------------------------------------------------------------------

/-- So many numbers are drawn until one is free; the generator goes on after it. -/
inductive Draws (Taken : UInt16 → Prop)
    : SequenceGenerator → Nat → UInt16 → SequenceGenerator → Prop
  | free {sequences : SequenceGenerator} (free : ¬ Taken sequences.next)
    : Draws Taken sequences 1 sequences.draw.1 sequences.draw.2
  | again {sequences later : SequenceGenerator} {draws : Nat} {sequence : UInt16}
    (used : Taken sequences.next) (rest : Draws Taken sequences.draw.2 draws sequence later)
    : Draws Taken sequences (draws + 1) sequence later

/-- The number that is found is free. -/
theorem Draws.not_taken (drawn : Draws Taken sequences draws sequence later)
    : ¬ Taken sequence := by
  induction drawn with
  | free free => exact free
  | again _ _ ih => exact ih

theorem add_ofNat_succ (first : UInt16) (distance : Nat)
    : first + UInt16.ofNat (distance + 1) = nextSequence first + UInt16.ofNat distance := by
  rw [nextSequence, UInt16.ofNat_add, UInt16.add_assoc, UInt16.add_comm 1]
  rfl

/-- The number that is found is the first free one, counted up and around from the generator's on,
and the generator goes on after it; by induction on how far it is.
-/
theorem draws_iff {distance : Nat}
    : Draws Taken sequences (distance + 1) sequence later
      ↔ sequence = sequences.next + UInt16.ofNat distance
        ∧ later = ⟨nextSequence sequence⟩
        ∧ ¬ Taken sequence
        ∧ ∀ nearer < distance, Taken (sequences.next + UInt16.ofNat nearer) := by
  induction distance generalizing sequences with
  | zero =>
      have here : sequences.next + UInt16.ofNat 0 = sequences.next := UInt16.add_zero _
      rw [here]
      constructor
      · rintro (free | ⟨_, ⟨⟩⟩)
        exact ⟨rfl, rfl, free, fun _ impossible => absurd impossible (Nat.not_lt_zero _)⟩
      · rintro ⟨rfl, rfl, free, _⟩
        exact .free free
  | succ distance ih =>
      constructor
      · intro drawn
        cases drawn with
        | again used rest =>
            obtain ⟨found, onward, free, nearer⟩ := ih.mp rest
            refine ⟨found.trans (add_ofNat_succ _ _).symm, onward, free, ?_⟩
            intro skipped within
            cases skipped with
            | zero => exact (UInt16.add_zero sequences.next).symm ▸ used
            | succ skipped =>
                rw [add_ofNat_succ]
                exact nearer skipped (by omega)
      · rintro ⟨found, onward, free, nearer⟩
        have used := nearer 0 (Nat.succ_pos _)
        rw [show sequences.next + UInt16.ofNat 0 = sequences.next from UInt16.add_zero _] at used
        refine .again used (ih.mpr ⟨found.trans (add_ofNat_succ _ _), onward, free, ?_⟩)
        intro skipped within
        have passed := nearer (skipped + 1) (by omega)
        rwa [add_ofNat_succ] at passed

/-- How far one number is behind another. -/
theorem toNat_sub_next {first sequence : UInt16} {distance : Nat}
    (bound : distance < sequenceCount)
    : (sequence - first).toNat = distance ↔ sequence = first + UInt16.ofNat distance := by
  constructor
  · intro far
    rw [← far, UInt16.ofNat_toNat, UInt16.add_comm, UInt16.sub_add_cancel]
  · rintro rfl
    rw [UInt16.add_comm, UInt16.add_sub_cancel, UInt16.toNat_ofNat']
    exact Nat.mod_eq_of_lt bound

/-- The search ends exactly if some number is free.
Witness: the free number that is least far from the generator's.
-/
theorem exists_draws_iff (sequences : SequenceGenerator)
    : (∃ draws sequence later, Draws Taken sequences draws sequence later)
      ↔ ∃ sequence, ¬ Taken sequence := by
  refine ⟨fun ⟨_, sequence, _, drawn⟩ => ⟨sequence, drawn.not_taken⟩, fun some_free => ?_⟩
  classical
  let Reaches (distance : Nat) : Prop := ¬ Taken (sequences.next + UInt16.ofNat distance)
  obtain ⟨free, not_taken⟩ := some_free
  have far : (free - sequences.next).toNat < sequenceCount := UInt16.toNat_lt _
  have reached : Reaches (free - sequences.next).toNat := by
    dsimp only [Reaches]
    rwa [← (toNat_sub_next far).mp rfl]
  have ends : ∃ distance, Reaches distance := ⟨_, reached⟩
  refine ⟨Nat.find ends + 1, _, _, draws_iff.mpr ⟨rfl, rfl, Nat.find_spec ends, ?_⟩⟩
  intro nearer before
  exact not_not.mp (Nat.find_min ends before)

/-- A search that ends took no more draws than there are numbers: after as many, all are known to be
taken.
-/
theorem Draws.le_count (drawn : Draws Taken sequences draws sequence later)
    : draws ≤ sequenceCount := by
  by_contra beyond
  obtain ⟨distance, rfl⟩ : ∃ distance, draws = distance + 1 :=
    ⟨draws - 1, by simp only [sequenceCount] at beyond; omega⟩
  obtain ⟨_, _, _, nearer⟩ := draws_iff.mp drawn
  have far : (sequence - sequences.next).toNat < sequenceCount := UInt16.toNat_lt _
  have passed := nearer (sequence - sequences.next).toNat (by omega)
  rw [← (toNat_sub_next far).mp rfl] at passed
  exact drawn.not_taken passed

-----------------------------------------------------------------------------------------
-- The search of a hub
-----------------------------------------------------------------------------------------

variable {taken : UInt16 → Bool}

/-- A search that may draw often enough finds what the search without a bound finds. -/
theorem nextFree_of_draws (same : ∀ number, taken number = true ↔ Taken number)
    (drawn : Draws Taken sequences draws sequence later) {bound : Nat} (enough : draws ≤ bound)
    : nextFree taken bound sequences = some (sequence, later) := by
  induction drawn generalizing bound with
  | @free sequences free =>
      obtain ⟨bound, rfl⟩ := Nat.exists_eq_add_of_le' enough
      have unused : taken sequences.draw.1 ≠ true := mt (same _).mp free
      simp only [nextFree, if_neg unused]
  | @again sequences later draws sequence used rest ih =>
      obtain ⟨bound, rfl⟩ := Nat.exists_eq_add_of_le' (Nat.le_of_add_left_le enough)
      have in_use : taken sequences.draw.1 = true := (same _).mpr used
      simp only [nextFree, in_use, if_true]
      exact ih (by omega)

/-- While no number is free nothing is found, by induction on the draws. -/
theorem nextFree_of_taken (all : ∀ sequence, taken sequence = true) (draws : Nat)
    (sequences : SequenceGenerator)
    : nextFree taken draws sequences = none := by
  induction draws generalizing sequences with
  | zero => rfl
  | succ draws ih =>
      simp only [nextFree, all, if_true]
      exact ih _

/-- While some number is free, one that is free is found. -/
theorem exists_nextFree (some_free : ∃ number, taken number = false)
    (sequences : SequenceGenerator)
    : ∃ number after,
        nextFree taken sequenceCount sequences = some (number, after) ∧ taken number = false := by
  obtain ⟨free, not_taken⟩ := some_free
  have ends
      : ∃ draws number after,
          Draws (fun number => taken number = true) sequences draws number after :=
    (exists_draws_iff sequences).mpr ⟨free, by simp [not_taken]⟩
  obtain ⟨draws, number, after, drawn⟩ := ends
  exact ⟨number, after, nextFree_of_draws (fun _ => Iff.rfl) drawn drawn.le_count,
    by simpa using drawn.not_taken⟩

/-- With as many draws as there are numbers nothing is found exactly if the search without a bound
never ends.
-/
theorem nextFree_eq_none_iff
    : nextFree taken sequenceCount sequences = none
      ↔ ¬ ∃ draws sequence later,
          Draws (fun number => taken number = true) sequences draws sequence later := by
  rw [exists_draws_iff]
  constructor
  · rintro nothing ⟨free, not_taken⟩
    obtain ⟨number, after, found, _⟩ :=
      exists_nextFree ⟨free, Bool.eq_false_iff.mpr not_taken⟩ sequences
    rw [nothing] at found
    cases found
  · intro none_free
    exact nextFree_of_taken (fun number => not_not.mp fun free => none_free ⟨number, free⟩) _ _

-----------------------------------------------------------------------------------------
-- Numbers in use
-----------------------------------------------------------------------------------------

/-- All sequence numbers, each once. -/
def allSequences : List UInt16 :=
  (List.range sequenceCount).map UInt16.ofNat

/-- How many sequence numbers are in use. -/
def inUse (taken : UInt16 → Bool) : Nat :=
  allSequences.countP taken

theorem nodup_allSequences : allSequences.Nodup := by
  refine List.nodup_range.map_on ?_
  intro first first_member second second_member same
  have values := congrArg UInt16.toNat same
  simp only [UInt16.toNat_ofNat', List.mem_range, sequenceCount] at *
  omega

theorem mem_allSequences (sequence : UInt16) : sequence ∈ allSequences :=
  List.mem_map.mpr ⟨sequence.toNat, List.mem_range.mpr sequence.toNat_lt, UInt16.ofNat_toNat⟩

theorem length_allSequences : allSequences.length = sequenceCount := by
  rw [allSequences, List.length_map, List.length_range]

theorem inUse_le_count (taken : UInt16 → Bool) : inUse taken ≤ sequenceCount :=
  length_allSequences ▸ List.countP_le_length

theorem inUse_eq_zero {taken : UInt16 → Bool} (none_taken : ∀ sequence, taken sequence = false)
    : inUse taken = 0 :=
  List.countP_eq_zero.mpr fun sequence _ => by rw [none_taken]; exact Bool.false_ne_true

/-- Some number is free exactly if not as many are in use as there are. -/
theorem inUse_lt_iff {taken : UInt16 → Bool}
    : inUse taken < sequenceCount ↔ ∃ sequence, taken sequence = false := by
  have all : inUse taken = sequenceCount ↔ ∀ sequence, taken sequence = true := by
    rw [inUse, ← length_allSequences, List.countP_eq_length]
    exact ⟨fun used sequence => used sequence (mem_allSequences sequence),
      fun used sequence _ => used sequence⟩
  rw [Nat.lt_iff_le_and_ne, and_iff_right (inUse_le_count taken), ne_eq, all, not_forall]
  simp only [Bool.not_eq_true]

/-- Numbers that are in use in one of two ways, or in both; by induction on the numbers. -/
theorem inUse_or_add_inUse_and (one other : UInt16 → Bool)
    : (inUse fun sequence => one sequence || other sequence)
        + (inUse fun sequence => one sequence && other sequence)
      = inUse one + inUse other := by
  unfold inUse
  induction allSequences with
  | nil => rfl
  | cons sequence rest ih =>
      simp only [List.countP_cons]
      cases one sequence <;> cases other sequence <;> simp <;> omega

theorem inUse_or_le (one other : UInt16 → Bool)
    : (inUse fun sequence => one sequence || other sequence) ≤ inUse one + inUse other :=
  inUse_or_add_inUse_and one other ▸ Nat.le_add_right _ _

theorem inUse_or_of_apart {one other : UInt16 → Bool}
    (apart : ∀ sequence, one sequence = true → other sequence = false)
    : (inUse fun sequence => one sequence || other sequence) = inUse one + inUse other := by
  have none_twice : (inUse fun sequence => one sequence && other sequence) = 0 := by
    refine inUse_eq_zero fun sequence => ?_
    cases used : one sequence with
    | true => rw [apart sequence used, Bool.and_false]
    | false => rfl
  rw [← inUse_or_add_inUse_and, none_twice, Nat.add_zero]

/-- The numbers that a table has are as many as its entries, since its keys are distinct. -/
theorem inUse_contains {ν : Type} (table : Table UInt16 ν)
    : inUse table.contains = table.size := by
  have same : (allSequences.filter table.contains).Perm table.keys := by
    refine (List.perm_ext_iff_of_nodup (nodup_allSequences.filter _) table.nodup).mpr ?_
    intro sequence
    rw [List.mem_filter, ← Table.keys, Table.mem_keys_iff, Table.contains]
    exact and_iff_right (mem_allSequences sequence)
  rw [inUse, List.countP_eq_length_filter, same.length_eq, Table.keys, List.length_map, Table.size]

/-- A table lacks a number exactly if it has fewer entries than there are numbers. -/
theorem exists_free_iff {ν : Type} (table : Table UInt16 ν)
    : (∃ sequence, table.get? sequence = none) ↔ table.size < sequenceCount := by
  rw [← inUse_contains, inUse_lt_iff]
  simp only [Table.contains, Option.isSome_eq_false_iff, Option.isNone_iff_eq_none]

/-- The search for a number goes on for ever only while all of them are taken. -/
theorem Process.inUse_of_assign_endless {ρ : Type} {process : Process} {line : Line ρ}
    {wanted : Option UInt16} (endless : process.assign line wanted sequences = .error .endless)
    : inUse (process.isTaken line) = sequenceCount := by
  have none_free : ¬ inUse (process.isTaken line) < sequenceCount := by
    rw [inUse_lt_iff]
    intro some_free
    obtain ⟨_, _, found, _⟩ := exists_nextFree some_free sequences
    unfold assign at endless
    split at endless
    · split at endless <;> cases endless
    · rw [found] at endless
      cases endless
  exact Nat.le_antisymm (inUse_le_count _) (Nat.not_lt.mp none_free)

/-- A request that gets a number gets one that is free. -/
theorem Process.inUse_of_assign_ok {ρ : Type} {process : Process} {line : Line ρ}
    {wanted : Option UInt16}
    (numbered : process.assign line wanted sequences = .ok (sequence, later))
    : inUse (process.isTaken line) < sequenceCount := by
  rw [inUse_lt_iff]
  by_contra none_free
  have all (number : UInt16) : process.isTaken line number = true :=
    (Bool.not_eq_false _).mp fun free => none_free ⟨number, free⟩
  unfold assign at numbered
  split at numbered
  · rw [if_pos (all _)] at numbered
    cases numbered
  · rw [nextFree_of_taken all] at numbered
    cases numbered

end MeshControl.Link
