import MeshControl.Proofs.Locks.Step

/-! A caller that nobody competes with. It gets what it asks for without a wait, and when it is
done the locks are as they were before it came.
-/

namespace MeshControl

-----------------------------------------------------------------------------------------
-- The way of a lone caller
-----------------------------------------------------------------------------------------

/-- Where a caller goes next that finds every lock free, and what it learns by that. -/
def Stage.onward? : Stage → Option (Stage × Option Notice)
  | waitsChip chip => some (.waitsRaise chip, none)
  | waitsRaise chip => some (.raising chip, none)
  | raising chip => some (.raised chip, none)
  | raised chip => some (.executing chip, some (.chip chip))
  | waitsLower chip => some (.lowering chip, none)
  | lowering chip => some (.lowered chip, none)
  | lowered chip => some (.rousing chip, none)
  | rousing chip => some (.unlocking chip, none)
  | waitsFlood => some (.testing, none)
  | testing => some (.flooding, some .flood)
  | _ => none

namespace Locks

variable {τ : Type} [DecidableEq τ]

/-- The locks of one caller at a stage: it has what the stage says, and all else is free. -/
def alone (caller : τ) (stage : Stage) : Locks τ where
  active := stage.counted
  holder := if stage.hasCount then some caller else none
  chips := stage.chip?.elim .empty fun chip => .single chip caller
  callers := .single caller stage

/-- A lone caller goes on as its stage says, by cases on the stage. -/
theorem advance?_alone (caller : τ) {stage next : Stage} {notice : Option Notice}
    (onward : stage.onward? = some (next, notice))
    : (alone caller stage).advance? caller = some (alone caller next, notice) := by
  have found : (alone caller stage).callers.get? caller = some stage := by simp [alone]
  unfold advance?
  rw [found]
  cases stage <;> cases onward <;>
    simp [alone, move, takeCount?, leaveCount, Stage.counted, Stage.hasCount, Stage.chip?,
      Stage.wake, Table.contains]

/-- One that works on a chip or floods goes nowhere before it is done. -/
theorem advance?_of_works (caller : τ) {stage : Stage}
    (works : stage = .flooding ∨ ∃ chip, stage = .executing chip)
    : (alone caller stage).advance? caller = none := by
  rcases works with rfl | ⟨chip, rfl⟩ <;> simp [alone, advance?]

/-- The only caller is the next to move. -/
theorem next?_alone (caller : τ) (stage : Stage)
    : (alone caller stage).next?
      = ((alone caller stage).advance? caller).map fun step => (caller, step) := by
  have only : (alone caller stage).callers.keys = [caller] := rfl
  rw [next?, only, List.findSome?_singleton]

-----------------------------------------------------------------------------------------
-- Where a lone caller comes to rest
-----------------------------------------------------------------------------------------

/-- Locks where nobody can move stay as they are. -/
theorem settle_of_stuck {locks : Locks τ} (stuck : locks.next? = none)
    : locks.settle = ([], locks) := by
  rw [settle]
  split
  · rfl
  · next moved =>
      rw [stuck] at moved
      cases moved

/-- Where somebody can move, what comes after the move is what the rest comes to. -/
theorem settle_of_next? {locks after settled : Locks τ} {caller : τ} {notice : Option Notice}
    {notices : List (τ × Notice)} (moved : locks.next? = some (caller, after, notice))
    (later : after.settle = (notices, settled))
    : locks.settle = ((notice.toList.map fun notice => (caller, notice)) ++ notices, settled) := by
  rw [settle]
  split
  · next stuck =>
      rw [stuck] at moved
      cases moved
  · next moved_too =>
      rw [moved_too] at moved
      cases moved
      rw [later]

theorem settle_onward {caller : τ} (stage : Stage) {next : Stage} {notice : Option Notice}
    {notices : List (τ × Notice)} {settled : Locks τ}
    (onward : stage.onward? = some (next, notice))
    (later : (alone caller next).settle = (notices, settled))
    : (alone caller stage).settle
      = ((notice.toList.map fun notice => (caller, notice)) ++ notices, settled) := by
  refine settle_of_next? ?_ later
  rw [next?_alone, advance?_alone caller onward]
  rfl

theorem settle_of_works (caller : τ) {stage : Stage}
    (works : stage = .flooding ∨ ∃ chip, stage = .executing chip)
    : (alone caller stage).settle = ([], alone caller stage) := by
  refine settle_of_stuck ?_
  rw [next?_alone, advance?_of_works caller works, Option.map_none]

/-- A lone caller that asks for a chip gets it. -/
theorem settle_askChip (caller : τ) (chip : Chip)
    : (({} : Locks τ).askChip caller chip).settle
      = ([(caller, .chip chip)], alone caller (.executing chip)) := by
  have asked : ({} : Locks τ).askChip caller chip = alone caller (.waitsChip chip) := by
    simp [askChip, enter, alone, Table.contains, Stage.counted, Stage.hasCount, Stage.chip?]
  have working : (alone caller (.executing chip)).settle = ([], alone caller (.executing chip)) :=
    settle_of_works caller (.inr ⟨chip, rfl⟩)
  rw [asked]
  exact settle_onward (.waitsChip chip) rfl
    (settle_onward (.waitsRaise chip) rfl
      (settle_onward (.raising chip) rfl (settle_onward (.raised chip) rfl working)))

/-- A lone caller that asks to flood may do so. -/
theorem settle_askFlood (caller : τ)
    : (({} : Locks τ).askFlood caller).settle = ([(caller, .flood)], alone caller .flooding) := by
  have asked : ({} : Locks τ).askFlood caller = alone caller .waitsFlood := by
    simp [askFlood, enter, alone, Table.contains, Stage.counted, Stage.hasCount, Stage.chip?]
  have working : (alone caller .flooding).settle = ([], alone caller .flooding) :=
    settle_of_works caller (.inl rfl)
  rw [asked]
  exact settle_onward .waitsFlood rfl (settle_onward .testing rfl working)

/-- Without callers there is nothing to settle. -/
theorem settle_empty : ({} : Locks τ).settle = ([], {}) :=
  settle_of_stuck rfl

/-- When a lone caller is done with a chip, nobody has anything. -/
theorem settle_release_executing (caller : τ) (chip : Chip)
    : ((alone caller (.executing chip)).release caller).1.settle = ([(caller, .released)], {}) := by
  have released : ((alone caller (.executing chip)).release caller).1
      = alone caller (.waitsLower chip) := by
    simp [release, alone, move, Stage.counted, Stage.hasCount, Stage.chip?]
  have leaves : (alone caller (.unlocking chip)).advance? caller = some ({}, some .released) := by
    simp [alone, advance?, leave, Stage.counted, Stage.hasCount, Stage.chip?]
  have gone : (alone caller (.unlocking chip)).settle = ([(caller, .released)], {}) :=
    settle_of_next? ((next?_alone caller _).trans (congrArg _ leaves)) settle_empty
  rw [released]
  exact settle_onward (.waitsLower chip) rfl
    (settle_onward (.lowering chip) rfl
      (settle_onward (.lowered chip) rfl (settle_onward (.rousing chip) rfl gone)))

/-- When a lone caller is done flooding, nobody has anything. -/
theorem settle_release_flooding (caller : τ)
    : ((alone caller .flooding).release caller).1.settle = ([], {}) := by
  have released : ((alone caller .flooding).release caller).1 = {} := by
    simp [release, alone, leave, Stage.counted, Stage.chip?]
  rw [released, settle_empty]

end Locks

end MeshControl
