import MeshControl.Locks
import MeshControl.Proofs.Table.Contents

/-! What one step of the locks can do. Callers come, move and are done in any order; `Turn`
lists the changes that this can make, with what each needs, so that no later proof opens
`advance?` again.
-/

namespace MeshControl

-----------------------------------------------------------------------------------------
-- What a stage holds
-----------------------------------------------------------------------------------------

namespace Stage

/-- The chip whose lock a caller has. -/
def chip? : Stage → Option Chip
  | waitsRaise chip
  | raising chip
  | raised chip
  | executing chip
  | waitsLower chip
  | lowering chip
  | lowered chip
  | rousing chip
  | unlocking chip => some chip
  | _ => none

/-- The caller has the count. -/
def hasCount : Stage → Bool
  | raising _
  | raised _
  | lowering _
  | lowered _
  | rousing _
  | testing
  | parking
  | flooding
  | reading => true
  | _ => false

/-- A caller has been counted, and not yet been counted off. -/
def counted : Stage → Nat
  | raised _
  | executing _
  | waitsLower _
  | lowering _ => 1
  | _ => 0

@[simp] theorem chip?_wake (stage : Stage) : stage.wake.chip? = stage.chip? := by
  cases stage <;> rfl

@[simp] theorem hasCount_wake (stage : Stage) : stage.wake.hasCount = stage.hasCount := by
  cases stage <;> rfl

@[simp] theorem counted_wake (stage : Stage) : stage.wake.counted = stage.counted := by
  cases stage <;> rfl

/-- Where a caller begins. -/
inductive Entry : Stage → Prop
  | chip (chip : Chip) : Entry (.waitsChip chip)
  | flood : Entry .waitsFlood
  | read : Entry .waitsRead

/-- How a caller goes on that queues for the count and gets it. -/
inductive Granted : Stage → Stage → Prop
  | raise (chip : Chip) : Granted (.waitsRaise chip) (.raising chip)
  | lower (chip : Chip) : Granted (.waitsLower chip) (.lowering chip)
  | flood : Granted .waitsFlood .testing
  | read : Granted .waitsRead .reading

/-- How a caller goes on that leaves the count. -/
inductive Yields : Stage → Stage → Prop
  | raised (chip : Chip) : Yields (.raised chip) (.executing chip)
  | roused (chip : Chip) : Yields (.rousing chip) (.unlocking chip)
  | parked : Yields .parking .parked

/-- Where a caller is that has the count and goes away. -/
inductive Departs : Stage → Prop
  | read : Departs .reading
  | flood : Departs .flooding

end Stage

namespace Locks

variable {τ : Type} [DecidableEq τ]

-----------------------------------------------------------------------------------------
-- Steps and runs
-----------------------------------------------------------------------------------------

/-- One step of one caller: it asks for something, it goes on where it can, or it is done. -/
inductive Step : Locks τ → Locks τ → Prop
  | askChip (locks : Locks τ) (caller : τ) (chip : Chip)
    : Step locks (locks.askChip caller chip)
  | askFlood (locks : Locks τ) (caller : τ) : Step locks (locks.askFlood caller)
  | askCount (locks : Locks τ) (caller : τ) : Step locks (locks.askCount caller)
  | advance {locks after : Locks τ} {caller : τ} {notice : Option Notice}
    (moved : locks.advance? caller = some (after, notice))
    : Step locks after
  | release (locks : Locks τ) (caller : τ) : Step locks (locks.release caller).1

/-- Locks that the steps of any callers lead to, from locks that nobody has asked for. -/
inductive Reachable : Locks τ → Prop
  | start : Reachable {}
  | step {locks after : Locks τ} (reached : Reachable locks) (next : Step locks after)
    : Reachable after

/-- What a step changes, if it changes anything. -/
inductive Turn (locks : Locks τ) : Locks τ → Prop
  | stays : Turn locks locks
  | enters {caller : τ} {stage : Stage} (absent : locks.callers.get? caller = none)
    (entry : stage.Entry)
    : Turn locks { locks with callers := locks.callers.insert caller stage }
  | takesChip {caller : τ} {chip : Chip}
    (waits : locks.callers.get? caller = some (.waitsChip chip))
    (free : locks.chips.get? chip = none)
    : Turn locks { locks.move caller (.waitsRaise chip) with
        chips := locks.chips.insert chip caller }
  | takesCount {caller : τ} {old stage : Stage}
    (waits : locks.callers.get? caller = some old) (granted : old.Granted stage)
    (free : locks.holder = none)
    : Turn locks { locks.move caller stage with holder := some caller }
  | raises {caller : τ} {chip : Chip}
    (about : locks.callers.get? caller = some (.raising chip))
    : Turn locks { locks.move caller (.raised chip) with active := locks.active + 1 }
  | lowers {caller : τ} {chip : Chip}
    (about : locks.callers.get? caller = some (.lowering chip))
    : Turn locks { locks.move caller (.lowered chip) with active := locks.active - 1 }
  | rouses {caller : τ} {chip : Chip}
    (about : locks.callers.get? caller = some (.lowered chip))
    : Turn locks { locks.move caller (.rousing chip) with
        callers := (locks.move caller (.rousing chip)).callers.mapValues Stage.wake }
  | leavesCount {caller : τ} {old stage : Stage}
    (about : locks.callers.get? caller = some old) (yielded : old.Yields stage)
    : Turn locks (locks.leaveCount caller stage)
  | turnsBack {caller : τ} (tests : locks.callers.get? caller = some .testing)
    (busy : 0 < locks.active)
    : Turn locks (locks.move caller .parking)
  | floods {caller : τ} (tests : locks.callers.get? caller = some .testing)
    (idle : locks.active = 0)
    : Turn locks (locks.move caller .flooding)
  | finishes {caller : τ} {chip : Chip}
    (works : locks.callers.get? caller = some (.executing chip))
    : Turn locks (locks.move caller (.waitsLower chip))
  | unlocks {caller : τ} {chip : Chip}
    (about : locks.callers.get? caller = some (.unlocking chip))
    : Turn locks { locks.leave caller with chips := locks.chips.erase chip }
  | departs {caller : τ} {old : Stage} (about : locks.callers.get? caller = some old)
    (departed : old.Departs)
    : Turn locks { locks.leave caller with holder := none }

theorem enter_turn (locks : Locks τ) (caller : τ) {stage : Stage} (entry : stage.Entry)
    : Turn locks (locks.enter caller stage) := by
  unfold enter
  split
  · exact .stays
  · next absent =>
      exact .enters (by simpa [Table.contains] using absent) entry

theorem takeCount?_turn {locks after : Locks τ} {caller : τ} {old stage : Stage}
    (waits : locks.callers.get? caller = some old) (granted : old.Granted stage)
    (took : locks.takeCount? caller stage = some after)
    : Turn locks after := by
  unfold takeCount? at took
  split at took
  · cases took
  · next free =>
      cases took
      exact .takesCount waits granted free

theorem advance?_turn {locks after : Locks τ} {caller : τ} {notice : Option Notice}
    (moved : locks.advance? caller = some (after, notice))
    : Turn locks after := by
  unfold advance? at moved
  split at moved
  case h_1 => cases moved
  case h_2 chip about =>
    split at moved
    · cases moved
    · next free =>
        cases moved
        exact .takesChip about (by simpa [Table.contains] using free)
  case h_3 chip about =>
    obtain ⟨taken, took, rfl, -⟩ := Option.map_eq_some_iff.mp moved
    exact takeCount?_turn about (.raise chip) took
  case h_4 chip about => cases moved; exact .raises about
  case h_5 chip about => cases moved; exact .leavesCount about (.raised chip)
  case h_6 => cases moved
  case h_7 chip about =>
    obtain ⟨taken, took, rfl, -⟩ := Option.map_eq_some_iff.mp moved
    exact takeCount?_turn about (.lower chip) took
  case h_8 chip about => cases moved; exact .lowers about
  case h_9 chip about => cases moved; exact .rouses about
  case h_10 chip about => cases moved; exact .leavesCount about (.roused chip)
  case h_11 chip about => cases moved; exact .unlocks about
  case h_12 about =>
    obtain ⟨taken, took, rfl, -⟩ := Option.map_eq_some_iff.mp moved
    exact takeCount?_turn about .flood took
  case h_13 about =>
    split at moved
    · next busy => cases moved; exact .turnsBack about busy
    · next idle => cases moved; exact .floods about (by omega)
  case h_14 about => cases moved; exact .leavesCount about .parked
  case h_15 => cases moved
  case h_16 => cases moved
  case h_17 about =>
    obtain ⟨taken, took, rfl, -⟩ := Option.map_eq_some_iff.mp moved
    exact takeCount?_turn about .read took
  case h_18 about => cases moved; exact .departs about .read

theorem release_turn (locks : Locks τ) (caller : τ) : Turn locks (locks.release caller).1 := by
  unfold release
  split
  · next chip works => exact .finishes works
  · next floods => exact .departs floods .flood
  · exact .stays

/-- Every step is one of the turns. -/
theorem Step.turn {locks after : Locks τ} (step : Step locks after) : Turn locks after := by
  cases step with
  | askChip caller chip => exact enter_turn locks caller (.chip chip)
  | askFlood caller => exact enter_turn locks caller .flood
  | askCount caller => exact enter_turn locks caller .read
  | advance moved => exact advance?_turn moved
  | release caller => exact release_turn locks caller

end Locks

end MeshControl
