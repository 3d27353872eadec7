import MeshControl.Board.State
import MeshControl.Proofs.Table.Contents

/-! What the processors of a board run: a word starts one application on the processors that it
names, in the state that it tells, and leaves all others as they were.
-/

namespace MeshControl.Board

open Scp Operation

/-- The processors that a word names. -/
def named (word : UInt32) : List UInt8 :=
  State.applicationCores.filter fun number => word &&& ((1 : UInt32) <<< number.toUInt32) != 0

/-- What a word starts on them. -/
def started (word : UInt32) : Running where
  application := (word >>> 24).toUInt8
  state := if word &&& waitBit ≠ 0 then .sync0 else .running

namespace State

/-- The processors that a word names on a chip run what it starts, and every other one runs what it
ran.
-/
theorem get?_startCores (state : State) (chip : Chip) (word : UInt32) (core : Chip × UInt8)
    : (state.startCores chip word).cores.get? core
      = if core.1 = chip ∧ core.2 ∈ named word then some (started word)
        else state.cores.get? core := by
  have placed : core ∈ (named word).map (fun number => (chip, number))
      ↔ core.1 = chip ∧ core.2 ∈ named word := by
    constructor
    · intro member
      obtain ⟨number, listed, rfl⟩ := List.mem_map.mp member
      exact ⟨rfl, listed⟩
    · rintro ⟨here, listed⟩
      exact List.mem_map.mpr ⟨core.2, listed, Prod.ext here.symm rfl⟩
  have folded := Table.get?_foldl_insert (fun number => (chip, number)) (started word)
    (named word) state.cores core
  simp only [placed] at folded
  exact folded

/-- So do the processors that it names on any of some chips; by induction on the chips. -/
theorem get?_foldl_startCores (chips : List Chip) (word : UInt32) (state : State)
    (core : Chip × UInt8)
    : (chips.foldl (fun state chip => state.startCores chip word) state).cores.get? core
      = if core.1 ∈ chips ∧ core.2 ∈ named word then some (started word)
        else state.cores.get? core := by
  induction chips generalizing state with
  | nil => simp
  | cons chip rest ih =>
      rw [List.foldl_cons, ih, get?_startCores]
      by_cases listed : core.2 ∈ named word
      · by_cases here : core.1 = chip <;> simp [listed, here]
      · simp [listed]

/-- Starting the same processors again changes nothing. -/
theorem startCores_again (state : State) (chip : Chip) (word : UInt32)
    : ((state.startCores chip word).startCores chip word).cores
      = (state.startCores chip word).cores := by
  have held : ∀ number ∈ named word,
      (state.startCores chip word).cores.get? (chip, number) = some (started word) := by
    intro number listed
    rw [get?_startCores, if_pos ⟨rfl, listed⟩]
  exact Table.foldl_insert_of_get? held

end State

end MeshControl.Board
