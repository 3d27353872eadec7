import MeshControl.Machine.Chip
import MeshControl.Table

/-!
Who may load and start programs. A caller that works on one chip takes that chip's lock and is
counted; a caller that floods the machine waits until nobody is counted, and keeps others from
being counted while it works. The count has a lock of its own.

Each caller moves in small steps (`advance?`). `settle` lets callers move, in the order in which
they took their places, until none can; it ends because each step brings its caller closer to the
end, and only a caller that leaves wakes others (`measure_advance?`).
-/

namespace MeshControl

/-- Where a caller is. -/
inductive Stage
  /-- Queues for the chip's lock. -/
  | waitsChip (chip : Chip)
  /-- Has the chip's lock and queues for the count. -/
  | waitsRaise (chip : Chip)
  /-- Has the chip's lock and the count, and is about to raise it. -/
  | raising (chip : Chip)
  /-- Has raised the count and is about to leave it. -/
  | raised (chip : Chip)
  /-- Works on the chip. -/
  | executing (chip : Chip)
  /-- Is done with the chip and queues for the count. -/
  | waitsLower (chip : Chip)
  /-- Has the count and is about to lower it. -/
  | lowering (chip : Chip)
  /-- Has lowered the count and is about to wake those who sleep. -/
  | lowered (chip : Chip)
  /-- Has woken them and is about to leave the count. -/
  | rousing (chip : Chip)
  /-- Has left the count, and still has the chip's lock. -/
  | unlocking (chip : Chip)
  /-- Queues for the count in order to flood. -/
  | waitsFlood
  /-- Has the count and looks whether it is zero. -/
  | testing
  /-- Has found others at work and is about to leave the count and sleep. -/
  | parking
  /-- Has left the count and sleeps until one of the others leaves. -/
  | parked
  /-- Has the count and floods. -/
  | flooding
  /-- Queues for the count in order to read it. -/
  | waitsRead
  /-- Has the count and is about to read it. -/
  | reading
deriving DecidableEq, Repr

namespace Stage

/-- How many steps are left before the caller works, sleeps or is gone. -/
def distance : Stage → Nat
  | waitsChip _ => 4
  | waitsRaise _ => 3
  | raising _ => 2
  | raised _ => 1
  | executing _ => 0
  | waitsLower _ => 5
  | lowering _ => 4
  | lowered _ => 3
  | rousing _ => 2
  | unlocking _ => 1
  | waitsFlood => 3
  | testing => 2
  | parking => 1
  | parked => 0
  | flooding => 0
  | waitsRead => 2
  | reading => 1

/-- The caller will wake those who sleep. -/
def wakes : Stage → Nat
  | waitsLower _ => 1
  | lowering _ => 1
  | lowered _ => 1
  | _ => 0

/-- One that sleeps queues for the count again. -/
def wake : Stage → Stage
  | parked => waitsFlood
  | stage => stage

theorem wakes_wake (stage : Stage) : stage.wake.wakes = stage.wakes := by
  cases stage <;> rfl

end Stage

/-- What a caller learns. -/
inductive Notice
  | chip (chip : Chip)
  | flood
  | count (active : Nat)
  | released
deriving DecidableEq, Repr

/-- The locks with their callers, in the order in which the callers took their places. -/
structure Locks (τ : Type) where
  /-- How many callers work on chips. -/
  active : Nat := 0
  /-- The caller that has the count. -/
  holder : Option τ := none
  /-- The callers that have chips' locks. -/
  chips : Table Chip τ := .empty
  callers : Table τ Stage := .empty

namespace Locks

variable {τ : Type} [DecidableEq τ]

/-- A caller goes to another stage, behind all others. -/
def move (locks : Locks τ) (caller : τ) (stage : Stage) : Locks τ :=
  { locks with callers := (locks.callers.erase caller).insert caller stage }

/-- A caller goes away. -/
def leave (locks : Locks τ) (caller : τ) : Locks τ :=
  { locks with callers := locks.callers.erase caller }

/-- Takes the count, if nobody has it. -/
def takeCount? (locks : Locks τ) (caller : τ) (stage : Stage) : Option (Locks τ) :=
  match locks.holder with
  | some _ => none
  | none => some { locks.move caller stage with holder := some caller }

/-- Leaves the count. -/
def leaveCount (locks : Locks τ) (caller : τ) (stage : Stage) : Locks τ :=
  { locks.move caller stage with holder := none }

/-- One step of a caller, with what it learns; none if the caller has to wait. -/
def advance? (locks : Locks τ) (caller : τ) : Option (Locks τ × Option Notice) :=
  match locks.callers.get? caller with
  | none => none
  | some (.waitsChip chip) =>
      if locks.chips.contains chip then none
      else
        some ({ locks.move caller (.waitsRaise chip) with
          chips := locks.chips.insert chip caller }, none)
  | some (.waitsRaise chip) => (locks.takeCount? caller (.raising chip)).map (·, none)
  | some (.raising chip) =>
      some ({ locks.move caller (.raised chip) with active := locks.active + 1 }, none)
  | some (.raised chip) => some (locks.leaveCount caller (.executing chip), some (.chip chip))
  | some (.executing _) => none
  | some (.waitsLower chip) => (locks.takeCount? caller (.lowering chip)).map (·, none)
  | some (.lowering chip) =>
      some ({ locks.move caller (.lowered chip) with active := locks.active - 1 }, none)
  | some (.lowered chip) =>
      -- Who wakes queues from the place that it took when it fell asleep.
      let moved := locks.move caller (.rousing chip)
      some ({ moved with callers := moved.callers.mapValues Stage.wake }, none)
  | some (.rousing chip) => some (locks.leaveCount caller (.unlocking chip), none)
  | some (.unlocking chip) =>
      some ({ locks.leave caller with chips := locks.chips.erase chip }, some .released)
  | some .waitsFlood => (locks.takeCount? caller .testing).map (·, none)
  | some .testing =>
      if locks.active > 0 then some (locks.move caller .parking, none)
      else some (locks.move caller .flooding, some .flood)
  | some .parking => some (locks.leaveCount caller .parked, none)
  | some .parked => none
  | some .flooding => none
  | some .waitsRead => (locks.takeCount? caller .reading).map (·, none)
  | some .reading =>
      some ({ locks.leave caller with holder := none }, some (.count locks.active))

/-- A new caller takes its place; one that is there already goes on as before. -/
def enter (locks : Locks τ) (caller : τ) (stage : Stage) : Locks τ :=
  if locks.callers.contains caller then locks
  else { locks with callers := locks.callers.insert caller stage }

/-- Asks to work on a chip. -/
def askChip (locks : Locks τ) (caller : τ) (chip : Chip) : Locks τ :=
  locks.enter caller (.waitsChip chip)

/-- Asks to flood the machine. -/
def askFlood (locks : Locks τ) (caller : τ) : Locks τ :=
  locks.enter caller .waitsFlood

/-- Asks how many callers work on chips. -/
def askCount (locks : Locks τ) (caller : τ) : Locks τ :=
  locks.enter caller .waitsRead

/-- A caller is done with its work; one that does not work goes on as before. -/
def release (locks : Locks τ) (caller : τ) : Locks τ × Option Notice :=
  match locks.callers.get? caller with
  | some (.executing chip) => (locks.move caller (.waitsLower chip), none)
  | some .flooding => ({ locks.leave caller with holder := none }, some .released)
  | _ => (locks, none)

/-- Callers that will wake others. -/
def wakers (locks : Locks τ) : Nat :=
  locks.callers.weight Stage.wakes

/-- The steps that are left before everyone works, sleeps or is gone. -/
def distance (locks : Locks τ) : Nat :=
  locks.callers.weight Stage.distance

theorem weight_move (measure : Stage → Nat) (locks : Locks τ) {caller : τ} {old : Stage}
    (stage : Stage) (found : locks.callers.get? caller = some old)
    : (locks.move caller stage).callers.weight measure + measure old
      = locks.callers.weight measure + measure stage := by
  have erased := Table.weight_erase measure locks.callers found
  have absent : (locks.callers.erase caller).get? caller = none := by simp
  have inserted := Table.weight_insert_of_new measure (locks.callers.erase caller) stage absent
  simp only [move]
  omega

/-- A caller that goes on to a later stage is one step further, and will wake as many as
before.
-/
theorem measure_move {locks after : Locks τ} {caller : τ} {old stage : Stage}
    (found : locks.callers.get? caller = some old)
    (same : after.callers = (locks.move caller stage).callers)
    (wakes : stage.wakes = old.wakes) (closer : stage.distance < old.distance)
    : after.wakers = locks.wakers ∧ after.distance < locks.distance := by
  have moved := weight_move Stage.distance locks stage found
  have movedWakes := weight_move Stage.wakes locks stage found
  simp only [wakers, distance, same]
  omega

/-- A caller that goes away leaves fewer steps, and all who will wake others. -/
theorem measure_leave {locks after : Locks τ} {caller : τ} {old : Stage}
    (found : locks.callers.get? caller = some old)
    (same : after.callers = (locks.leave caller).callers)
    (wakes : old.wakes = 0) (closer : 0 < old.distance)
    : after.wakers = locks.wakers ∧ after.distance < locks.distance := by
  have left := Table.weight_erase Stage.distance locks.callers found
  have leftWakes := Table.weight_erase Stage.wakes locks.callers found
  simp only [wakers, distance, same, leave]
  omega

/-- A caller that takes the count is one step further, and will wake as many as before. -/
theorem measure_takeCount? {locks after : Locks τ} {caller : τ} {old stage : Stage}
    (found : locks.callers.get? caller = some old) (h : locks.takeCount? caller stage = some after)
    (wakes : stage.wakes = old.wakes) (closer : stage.distance < old.distance)
    : after.wakers = locks.wakers ∧ after.distance < locks.distance := by
  unfold takeCount? at h
  split at h
  · cases h
  · cases h
    exact measure_move found rfl wakes closer

/-- A caller that wakes others will not wake them again. -/
theorem measure_rouse {locks after : Locks τ} {caller : τ} {chip : Chip}
    (found : locks.callers.get? caller = some (.lowered chip))
    (same : after.callers = (locks.move caller (.rousing chip)).callers.mapValues Stage.wake)
    : after.wakers < locks.wakers := by
  have woken := Table.weight_mapValues Stage.wakes Stage.wakes_wake
    (locks.move caller (.rousing chip)).callers
  have moved := weight_move Stage.wakes locks (.rousing chip) found
  simp only [wakers, Stage.wakes, same] at *
  omega

/-- Each step brings its caller closer to the end, or wakes others. -/
theorem measure_advance? {locks after : Locks τ} {caller : τ} {notice : Option Notice}
    (h : locks.advance? caller = some (after, notice))
    : after.wakers < locks.wakers
      ∨ (after.wakers = locks.wakers ∧ after.distance < locks.distance) := by
  unfold advance? at h
  cases found : locks.callers.get? caller with
  | none => simp [found] at h
  | some old =>
      rw [found] at h
      cases old with
      | waitsChip chip =>
          dsimp only at h
          split at h
          · cases h
          · cases h
            exact .inr (measure_move found rfl rfl (by simp [Stage.distance]))
      | waitsRaise chip =>
          obtain ⟨taken, took, rfl, -⟩ := Option.map_eq_some_iff.1 h
          exact .inr (measure_takeCount? found took rfl (by simp [Stage.distance]))
      | raising chip =>
          cases h
          exact .inr (measure_move found rfl rfl (by simp [Stage.distance]))
      | raised chip =>
          cases h
          exact .inr (measure_move found rfl rfl (by simp [Stage.distance]))
      | executing chip => cases h
      | waitsLower chip =>
          obtain ⟨taken, took, rfl, -⟩ := Option.map_eq_some_iff.1 h
          exact .inr (measure_takeCount? found took rfl (by simp [Stage.distance]))
      | lowering chip =>
          cases h
          exact .inr (measure_move found rfl rfl (by simp [Stage.distance]))
      | lowered chip =>
          cases h
          exact .inl (measure_rouse found rfl)
      | rousing chip =>
          cases h
          exact .inr (measure_move found rfl rfl (by simp [Stage.distance]))
      | unlocking chip =>
          cases h
          exact .inr (measure_leave found rfl rfl (by simp [Stage.distance]))
      | waitsFlood =>
          obtain ⟨taken, took, rfl, -⟩ := Option.map_eq_some_iff.1 h
          exact .inr (measure_takeCount? found took rfl (by simp [Stage.distance]))
      | testing =>
          dsimp only at h
          split at h
          · cases h
            exact .inr (measure_move found rfl rfl (by simp [Stage.distance]))
          · cases h
            exact .inr (measure_move found rfl rfl (by simp [Stage.distance]))
      | parking =>
          cases h
          exact .inr (measure_move found rfl rfl (by simp [Stage.distance]))
      | parked => cases h
      | flooding => cases h
      | waitsRead =>
          obtain ⟨taken, took, rfl, -⟩ := Option.map_eq_some_iff.1 h
          exact .inr (measure_takeCount? found took rfl (by simp [Stage.distance]))
      | reading =>
          cases h
          exact .inr (measure_leave found rfl rfl (by simp [Stage.distance]))

/-- The first caller in order that can move, with its step. -/
def next? (locks : Locks τ) : Option (τ × Locks τ × Option Notice) :=
  locks.callers.keys.findSome? fun caller =>
    (locks.advance? caller).map fun step => (caller, step)

theorem advance?_of_next? {locks after : Locks τ} {caller : τ} {notice : Option Notice}
    (h : locks.next? = some (caller, after, notice))
    : locks.advance? caller = some (after, notice) := by
  obtain ⟨other, _, found⟩ := List.exists_of_findSome?_eq_some h
  obtain ⟨step, stepped, equal⟩ := Option.map_eq_some_iff.1 found
  simp only [Prod.mk.injEq] at equal
  obtain ⟨rfl, rfl⟩ := equal
  exact stepped

/-- Lets callers move until none can, and tells what they learn. -/
def settle (locks : Locks τ) : List (τ × Notice) × Locks τ :=
  match moved : locks.next? with
  | none => ([], locks)
  | some (caller, after, notice) =>
      have := measure_advance? (advance?_of_next? moved)
      let (notices, settled) := settle after
      ((notice.toList.map fun notice => (caller, notice)) ++ notices, settled)
termination_by (locks.wakers, locks.distance)
decreasing_by
  rcases this with fewer | ⟨same, closer⟩
  · exact Prod.Lex.left _ _ fewer
  · rw [same]
    exact Prod.Lex.right _ closer

/-- The callers that still wait for what they asked. -/
def blocked (locks : Locks τ) : List τ :=
  (locks.callers.entries.filter fun entry =>
    match entry.2 with
    | .executing _ | .flooding => false
    | _ => true).map Prod.fst

end Locks

end MeshControl
