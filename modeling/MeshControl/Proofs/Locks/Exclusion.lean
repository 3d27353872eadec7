import MeshControl.Proofs.Locks.Step
import MeshControl.Proofs.Table.Shift

/-! Who may hold what at the same time. What holds of the locks in every state that steps lead
to, whatever callers there are and in whatever order they move: a chip's lock and the count have
one owner each, the count is that of the callers at work, a flood is alone, and whoever sleeps
will be woken. Some caller can always go on.
-/

namespace MeshControl

namespace Stage

/-- A caller that begins has nothing. -/
theorem Entry.bare {stage : Stage} (entry : stage.Entry)
    : stage.chip? = none ∧ stage.hasCount = false ∧ stage.counted = 0 := by
  cases entry <;> exact ⟨rfl, rfl, rfl⟩

/-- A caller that gets the count had not got it, and keeps what it had. -/
theorem Granted.keeps {old stage : Stage} (granted : old.Granted stage)
    : stage.chip? = old.chip? ∧ stage.hasCount = true ∧ stage.counted = old.counted := by
  cases granted <;> exact ⟨rfl, rfl, rfl⟩

/-- A caller that leaves the count had it, and keeps all else. -/
theorem Yields.keeps {old stage : Stage} (yielded : old.Yields stage)
    : stage.chip? = old.chip? ∧ old.hasCount = true ∧ stage.hasCount = false
      ∧ stage.counted = old.counted := by
  cases yielded <;> exact ⟨rfl, rfl, rfl, rfl⟩

/-- A caller that goes away with the count had nothing else. -/
theorem Departs.bare {stage : Stage} (departed : stage.Departs)
    : stage.chip? = none ∧ stage.hasCount = true ∧ stage.counted = 0 := by
  cases departed <;> exact ⟨rfl, rfl, rfl⟩

/-- Only one that slept queues for the count after the call to wake; all others are where they
were.
-/
theorem eq_of_wake {stage other : Stage} (woken : stage.wake = other)
    (apart : other ≠ .waitsFlood)
    : stage = other := by
  cases stage with
  | parked => exact absurd woken.symm apart
  | _ => exact woken

end Stage

namespace Locks

variable {τ : Type} [DecidableEq τ] {locks after : Locks τ}

-----------------------------------------------------------------------------------------
-- The invariant
-----------------------------------------------------------------------------------------

/-- A caller has the lock of a chip. -/
def HasChip (locks : Locks τ) (caller : τ) (chip : Chip) : Prop :=
  (locks.callers.get? caller).bind Stage.chip? = some chip

/-- What the count says to those who flood or want to. -/
structure Quiet (locks : Locks τ) : Prop where
  flooding : ∀ caller, locks.callers.get? caller = some .flooding → locks.active = 0
  parking : ∀ caller, locks.callers.get? caller = some .parking → 0 < locks.active
  /-- One that sleeps does so because others are at work, or the last of them has not yet woken
  it. -/
  parked
    : ∀ caller,
        locks.callers.get? caller = some .parked
        → 0 < locks.active ∨ ∃ other chip, locks.callers.get? other = some (.lowered chip)

/-- The locks agree with where their callers are. -/
structure Consistent (locks : Locks τ) : Prop where
  chips : ∀ chip caller, locks.chips.get? chip = some caller ↔ locks.HasChip caller chip
  holder : locks.callers.Owned Stage.hasCount locks.holder
  active : locks.active = locks.callers.weight Stage.counted
  quiet : Quiet locks

theorem start_consistent : Consistent ({} : Locks τ) where
  chips chip caller := by
    constructor <;> intro has <;> cases has
  holder caller := by
    constructor <;> intro has <;> cases has
  active := rfl
  quiet :=
    { flooding := fun _ _ => rfl
      parking := fun caller waits => by cases waits
      parked := fun caller waits => by cases waits }

-----------------------------------------------------------------------------------------
-- One caller goes from one place to another
-----------------------------------------------------------------------------------------

/-- How the callers differ after a step of one of them. -/
abbrev Shift (locks after : Locks τ) (caller : τ) (old new : Option Stage) : Prop :=
  Table.Shift locks.callers after.callers caller old new

theorem Shift.of_move {caller : τ} {old stage : Stage}
    (found : locks.callers.get? caller = some old)
    (moved : after.callers = (locks.move caller stage).callers)
    : Shift locks after caller (some old) (some stage) where
  here := found
  there := by simp [moved, move]
  others other apart := by simp [moved, move, apart]

namespace Shift

variable {caller : τ} {old new : Option Stage}

/-- The chips' locks are where they were if the one that moved has the same ones. -/
theorem hasChip_iff (shift : Shift locks after caller old new)
    {chip : Chip} {other : τ}
    (same : new.bind Stage.chip? = old.bind Stage.chip?)
    : locks.HasChip other chip ↔ after.HasChip other chip := by
  unfold HasChip
  by_cases equal : other = caller
  · rw [equal, shift.here, shift.there, same]
  · rw [shift.others other equal]

/-- A caller that takes a free chip's lock is the only one that has it. -/
theorem chips_of_taken {chip wanted : Chip} {other : τ}
    (shift : Shift locks after caller (some (.waitsChip chip)) (some (.waitsRaise chip)))
    (consistent : locks.Consistent) (free : locks.chips.get? chip = none)
    (taken : after.chips = locks.chips.insert chip caller)
    : after.chips.get? wanted = some other ↔ after.HasChip other wanted := by
  have owners := consistent.chips wanted other
  rw [taken, Table.get?_insert]
  unfold HasChip at owners ⊢
  by_cases mover : other = caller
  · rw [mover, shift.here] at owners
    rw [mover, shift.there]
    by_cases same : wanted = chip
    · simp [same, Stage.chip?]
    · simpa [same, Ne.symm same, Stage.chip?] using owners
  · rw [shift.others other mover, ← owners]
    by_cases same : wanted = chip
    · simp [same, free, Ne.symm mover]
    · simp [same]

/-- A caller that gives a chip's lock back was the only one that had it. -/
theorem chips_of_freed {chip wanted : Chip} {other : τ}
    (shift : Shift locks after caller (some (.unlocking chip)) none)
    (consistent : locks.Consistent) (freed : after.chips = locks.chips.erase chip)
    : after.chips.get? wanted = some other ↔ after.HasChip other wanted := by
  have owners := consistent.chips wanted other
  have held : locks.chips.get? chip = some caller :=
    (consistent.chips chip caller).mpr (by rw [HasChip, shift.here]; rfl)
  rw [freed, Table.get?_erase]
  unfold HasChip at owners ⊢
  by_cases mover : other = caller
  · rw [mover, shift.here] at owners
    rw [mover, shift.there]
    by_cases same : wanted = chip
    · simp [same]
    · simpa [same, Ne.symm same, Stage.chip?] using owners
  · rw [shift.others other mover, ← owners]
    by_cases same : wanted = chip
    · simp [same, held, Ne.symm mover]
    · simp [same]

/-- While the count stays as it is, what it says to floods stays true, as long as the one that
moved minds it too.
-/
theorem quiet (shift : Shift locks after caller old new) (quiet : locks.Quiet)
    (same : after.active = locks.active)
    (calm : ∀ chip, old ≠ some (.lowered chip))
    (flooding : new = some .flooding → locks.active = 0)
    (parking : new = some .parking → 0 < locks.active)
    (parked : new = some .parked → 0 < locks.active)
    : after.Quiet where
  flooding other floods := by
    rcases shift.cases_of_get? floods with ⟨_, moved⟩ | stayed
    · exact same ▸ flooding moved
    · exact same ▸ quiet.flooding other stayed
  parking other parks := by
    rcases shift.cases_of_get? parks with ⟨_, moved⟩ | stayed
    · exact same ▸ parking moved
    · exact same ▸ quiet.parking other stayed
  parked other sleeps := by
    rcases shift.cases_of_get? sleeps with ⟨_, moved⟩ | stayed
    · exact .inl (same ▸ parked moved)
    · rcases quiet.parked other stayed with busy | ⟨waker, chip, lowered⟩
      · exact .inl (same ▸ busy)
      · have apart : waker ≠ caller := by
          intro equal
          rw [equal, shift.here] at lowered
          exact calm chip lowered
        exact .inr ⟨waker, chip, (shift.others waker apart).trans lowered⟩

end Shift

-----------------------------------------------------------------------------------------
-- Each turn keeps the locks consistent
-----------------------------------------------------------------------------------------

/-- Waking those who sleep moves no lock and nobody who is counted. -/
theorem hasChip_wake_iff {chip : Chip} {other : τ}
    (woken : after.callers = locks.callers.mapValues Stage.wake)
    : locks.HasChip other chip ↔ after.HasChip other chip := by
  unfold HasChip
  rw [woken, Table.get?_mapValues]
  cases locks.callers.get? other <;> simp

theorem Turn.chips (turn : Turn locks after) (consistent : locks.Consistent)
    : ∀ chip caller, after.chips.get? chip = some caller ↔ after.HasChip caller chip := by
  intro wanted other
  have owners := consistent.chips wanted other
  cases turn with
  | stays => exact owners
  | enters absent entry =>
      exact owners.trans (Shift.hasChip_iff (.of_insert absent rfl) entry.bare.1)
  | takesChip waits free =>
      exact Shift.chips_of_taken (.of_move waits rfl) consistent free rfl
  | takesCount waits granted free =>
      exact owners.trans (Shift.hasChip_iff (.of_move waits rfl) granted.keeps.1)
  | raises about =>
      exact owners.trans (Shift.hasChip_iff (.of_move about rfl) rfl)
  | lowers about =>
      exact owners.trans (Shift.hasChip_iff (.of_move about rfl) rfl)
  | @rouses caller chip about =>
      have moved : locks.HasChip other wanted
          ↔ (locks.move caller (.rousing chip)).HasChip other wanted :=
        Shift.hasChip_iff (.of_move about rfl) rfl
      exact owners.trans (moved.trans (hasChip_wake_iff rfl))
  | leavesCount about yielded =>
      exact owners.trans (Shift.hasChip_iff (.of_move about rfl) yielded.keeps.1)
  | turnsBack tests busy =>
      exact owners.trans (Shift.hasChip_iff (.of_move tests rfl) rfl)
  | floods tests idle =>
      exact owners.trans (Shift.hasChip_iff (.of_move tests rfl) rfl)
  | finishes works =>
      exact owners.trans (Shift.hasChip_iff (.of_move works rfl) rfl)
  | unlocks about =>
      exact Shift.chips_of_freed (.of_erase about rfl) consistent rfl
  | departs about departed =>
      exact owners.trans (Shift.hasChip_iff (.of_erase about rfl) departed.bare.1.symm)

theorem Turn.holder (turn : Turn locks after) (consistent : locks.Consistent)
    : after.callers.Owned Stage.hasCount after.holder := by
  have owned := consistent.holder
  cases turn with
  | stays => exact owned
  | enters absent entry => exact owned.kept (.of_insert absent rfl) entry.bare.2.1
  | takesChip waits free => exact owned.kept (Shift.of_move waits rfl) rfl
  | takesCount waits granted free =>
      rw [free] at owned
      exact owned.taken (Shift.of_move waits rfl) granted.keeps.2.1
  | raises about => exact owned.kept (Shift.of_move about rfl) rfl
  | lowers about => exact owned.kept (Shift.of_move about rfl) rfl
  | @rouses caller chip about =>
      have moved : (locks.move caller (.rousing chip)).callers.Owned Stage.hasCount locks.holder :=
        owned.kept (Shift.of_move about rfl) rfl
      exact moved.mapValues Stage.hasCount_wake
  | leavesCount about yielded =>
      obtain ⟨_, had, leaves, _⟩ := yielded.keeps
      exact owned.left (Shift.of_move about rfl) had leaves
  | turnsBack tests busy => exact owned.kept (Shift.of_move tests rfl) rfl
  | floods tests idle => exact owned.kept (Shift.of_move tests rfl) rfl
  | finishes works => exact owned.kept (Shift.of_move works rfl) rfl
  | unlocks about => exact owned.kept (.of_erase about rfl) rfl
  | departs about departed => exact owned.left (.of_erase about rfl) departed.bare.2.1 rfl

/-- The count goes with the stage of the one that moves. -/
theorem active_of_move {caller : τ} {old stage : Stage}
    (found : locks.callers.get? caller = some old)
    (consistent : locks.active = locks.callers.weight Stage.counted)
    (moved : after.callers = (locks.move caller stage).callers)
    (counted : after.active + old.counted = locks.active + stage.counted)
    : after.active = after.callers.weight Stage.counted := by
  have shifted := weight_move Stage.counted locks stage found
  rw [moved]
  omega

theorem active_of_leave {caller : τ} {old : Stage}
    (found : locks.callers.get? caller = some old)
    (consistent : locks.active = locks.callers.weight Stage.counted)
    (left : after.callers = (locks.leave caller).callers) (same : after.active = locks.active)
    (uncounted : old.counted = 0)
    : after.active = after.callers.weight Stage.counted := by
  have erased := Table.weight_erase Stage.counted locks.callers found
  rw [left, same, consistent]
  simp only [leave]
  omega

/-- The count is raised and lowered by exactly those who begin and end to be counted. -/
theorem Turn.active (turn : Turn locks after)
    (consistent : locks.active = locks.callers.weight Stage.counted)
    : after.active = after.callers.weight Stage.counted := by
  cases turn with
  | stays => exact consistent
  | @enters caller stage absent entry =>
      have inserted := Table.weight_insert_of_new Stage.counted locks.callers stage absent
      rw [entry.bare.2.2, ← consistent] at inserted
      exact inserted.symm
  | takesChip waits free => exact active_of_move waits consistent rfl rfl
  | @takesCount caller old stage waits granted free =>
      exact active_of_move waits consistent rfl (congrArg (locks.active + ·) granted.keeps.2.2.symm)
  | raises about => exact active_of_move about consistent rfl rfl
  | lowers about =>
      have least := Table.le_weight Stage.counted about
      rw [← consistent] at least
      exact active_of_move about consistent rfl (Nat.sub_add_cancel least)
  | @rouses caller chip about =>
      have moved : (locks.move caller (.rousing chip)).active
          = (locks.move caller (.rousing chip)).callers.weight Stage.counted :=
        active_of_move about consistent rfl rfl
      exact moved.trans (Table.weight_mapValues Stage.counted Stage.counted_wake _).symm
  | leavesCount about yielded =>
      exact active_of_move about consistent rfl
        (congrArg (locks.active + ·) yielded.keeps.2.2.2.symm)
  | turnsBack tests busy => exact active_of_move tests consistent rfl rfl
  | floods tests idle => exact active_of_move tests consistent rfl rfl
  | finishes works => exact active_of_move works consistent rfl rfl
  | unlocks about => exact active_of_leave about consistent rfl rfl rfl
  | departs about departed =>
      exact active_of_leave about consistent rfl rfl departed.bare.2.2

/-- Whoever raises the count has it, so that nobody floods. -/
theorem quiet_of_raised {caller : τ} {chip : Chip} (consistent : locks.Consistent)
    (shift : Shift locks after caller (some (.raising chip)) (some (.raised chip)))
    (raised : after.active = locks.active + 1)
    : after.Quiet where
  flooding other floods := by
    rcases shift.cases_of_get? floods with ⟨_, moved⟩ | stayed
    · cases moved
    · have same := consistent.holder.unique shift.here stayed rfl rfl
      rw [← same, shift.here] at stayed
      cases stayed
  parking _ _ := by omega
  parked _ _ := .inl (by omega)

/-- Whoever lowers the count has it, so that nobody is about to sleep; it will wake those who
sleep.
-/
theorem quiet_of_lowered {caller : τ} {chip : Chip} (consistent : locks.Consistent)
    (shift : Shift locks after caller (some (.lowering chip)) (some (.lowered chip)))
    (lowered : after.active = locks.active - 1)
    : after.Quiet where
  flooding other floods := by
    rcases shift.cases_of_get? floods with ⟨_, moved⟩ | stayed
    · cases moved
    · have idle := consistent.quiet.flooding other stayed
      omega
  parking other parks := by
    rcases shift.cases_of_get? parks with ⟨_, moved⟩ | stayed
    · cases moved
    · have same := consistent.holder.unique shift.here stayed rfl rfl
      rw [← same, shift.here] at stayed
      cases stayed
  parked _ _ := .inr ⟨caller, chip, shift.there⟩

/-- After the call to wake, nobody sleeps. -/
theorem quiet_of_roused {caller : τ} {chip : Chip} (quiet : locks.Quiet)
    (shift : Shift locks after caller (some (.lowered chip)) (some (.rousing chip)))
    (same : after.active = locks.active)
    : Quiet { after with callers := after.callers.mapValues Stage.wake } := by
  have asleep_before (other : τ) (stage : Stage) (awake : stage ≠ .waitsFlood)
      (found : (after.callers.mapValues Stage.wake).get? other = some stage)
      : after.callers.get? other = some stage := by
    rw [Table.get?_mapValues] at found
    obtain ⟨old, was, woken⟩ := Option.map_eq_some_iff.mp found
    exact Stage.eq_of_wake woken awake ▸ was
  constructor
  · intro other floods
    rcases shift.cases_of_get? (asleep_before other .flooding nofun floods) with ⟨_, moved⟩ | stayed
    · cases moved
    · exact same ▸ quiet.flooding other stayed
  · intro other parks
    rcases shift.cases_of_get? (asleep_before other .parking nofun parks) with ⟨_, moved⟩ | stayed
    · cases moved
    · exact same ▸ quiet.parking other stayed
  · intro other sleeps
    simp only [Table.get?_mapValues, Option.map_eq_some_iff] at sleeps
    obtain ⟨old, _, woken⟩ := sleeps
    cases old <;> cases woken

/-- Only the one that has the count changes it, so whoever floods meanwhile is nobody, and
whoever sleeps is woken by the one that lowered it last.
-/
theorem Turn.quiet (turn : Turn locks after) (consistent : locks.Consistent) : after.Quiet := by
  have quiet := consistent.quiet
  cases turn with
  | stays => exact quiet
  | enters absent entry =>
      cases entry <;>
        exact Shift.quiet (.of_insert absent rfl) quiet rfl nofun nofun nofun nofun
  | takesChip waits free =>
      exact Shift.quiet (.of_move waits rfl) quiet rfl nofun nofun nofun nofun
  | takesCount waits granted free =>
      cases granted <;>
        exact Shift.quiet (.of_move waits rfl) quiet rfl nofun nofun nofun nofun
  | raises about => exact quiet_of_raised consistent (.of_move about rfl) rfl
  | lowers about => exact quiet_of_lowered consistent (.of_move about rfl) rfl
  | rouses about => exact quiet_of_roused quiet (.of_move about rfl) rfl
  | leavesCount about yielded =>
      cases yielded with
      | raised chip => exact Shift.quiet (.of_move about rfl) quiet rfl nofun nofun nofun nofun
      | roused chip => exact Shift.quiet (.of_move about rfl) quiet rfl nofun nofun nofun nofun
      | parked =>
          have busy := quiet.parking _ about
          exact Shift.quiet (.of_move about rfl) quiet rfl nofun nofun nofun fun _ => busy
  | turnsBack tests busy =>
      exact Shift.quiet (.of_move tests rfl) quiet rfl nofun nofun (fun _ => busy) nofun
  | floods tests idle =>
      exact Shift.quiet (.of_move tests rfl) quiet rfl nofun (fun _ => idle) nofun nofun
  | finishes works =>
      exact Shift.quiet (.of_move works rfl) quiet rfl nofun nofun nofun nofun
  | unlocks about =>
      exact Shift.quiet (.of_erase about rfl) quiet rfl nofun nofun nofun nofun
  | departs about departed =>
      cases departed <;>
        exact Shift.quiet (.of_erase about rfl) quiet rfl nofun nofun nofun nofun

/-- What one step leaves true. -/
theorem Step.consistent (step : Step locks after) (consistent : locks.Consistent)
    : after.Consistent :=
  ⟨step.turn.chips consistent, step.turn.holder consistent, step.turn.active consistent.active,
    step.turn.quiet consistent⟩

/-- What every run leaves true, by induction on its steps. -/
theorem Reachable.consistent (reachable : Reachable locks) : locks.Consistent := by
  induction reachable with
  | start => exact start_consistent
  | step _ next ih => exact next.consistent ih

-----------------------------------------------------------------------------------------
-- Somebody can go on
-----------------------------------------------------------------------------------------

/-- A caller can take a step: by itself, or by being done with the work that it has begun. -/
def CanStep (locks : Locks τ) (caller : τ) : Prop :=
  (locks.advance? caller).isSome ∨ (∃ chip, locks.callers.get? caller = some (.executing chip))
    ∨ locks.callers.get? caller = some .flooding

/-- What a caller waits for that cannot go on: to be woken, for a chip that another one has, or
for the count.
-/
theorem stage_of_stuck {caller : τ} {stage : Stage}
    (found : locks.callers.get? caller = some stage) (stuck : ¬ locks.CanStep caller)
    : stage = .parked
      ∨ (∃ chip owner, stage = .waitsChip chip ∧ locks.chips.get? chip = some owner)
      ∨ (∃ next, stage.Granted next) ∧ ∃ owner, locks.holder = some owner := by
  have taken (next : Stage)
      (moves : locks.advance? caller = (locks.takeCount? caller next).map (·, none))
      : ∃ owner, locks.holder = some owner := by
    cases held : locks.holder with
    | some owner => exact ⟨owner, rfl⟩
    | none => exact absurd (.inl (by simp [moves, takeCount?, held])) stuck
  cases stage with
  | parked => exact .inl rfl
  | waitsChip chip =>
      refine .inr (.inl ?_)
      cases held : locks.chips.get? chip with
      | some owner => exact ⟨chip, owner, rfl, held⟩
      | none => exact absurd (.inl (by simp [advance?, found, Table.contains, held])) stuck
  | waitsRaise chip =>
      exact .inr (.inr ⟨⟨_, .raise chip⟩, taken (.raising chip) (by simp [advance?, found])⟩)
  | waitsLower chip =>
      exact .inr (.inr ⟨⟨_, .lower chip⟩, taken (.lowering chip) (by simp [advance?, found])⟩)
  | waitsFlood => exact .inr (.inr ⟨⟨_, .flood⟩, taken .testing (by simp [advance?, found])⟩)
  | waitsRead => exact .inr (.inr ⟨⟨_, .read⟩, taken .reading (by simp [advance?, found])⟩)
  | executing chip => exact absurd (.inr (.inl ⟨chip, found⟩)) stuck
  | flooding => exact absurd (.inr (.inr found)) stuck
  | testing =>
      refine absurd (.inl ?_) stuck
      simp only [advance?, found]
      split <;> rfl
  | _ => exact absurd (.inl (by simp [advance?, found])) stuck

/-- Whoever waits, somebody can take a step: the one that has the count if anybody has it, else
one that has a chip's lock if anybody has one, else one of those who begin. They cannot all
sleep, since nobody is counted then.
-/
theorem Consistent.live (consistent : locks.Consistent) {caller : τ} {stage : Stage}
    (found : locks.callers.get? caller = some stage)
    : ∃ other, locks.CanStep other := by
  by_contra stuck
  rw [not_exists] at stuck
  have free : ∀ owner, locks.holder ≠ some owner := by
    intro owner held
    have has := (consistent.holder owner).mp held
    cases there : locks.callers.get? owner with
    | none => simp [there] at has
    | some place =>
        rw [there, Option.any_some] at has
        rcases stage_of_stuck there (stuck owner) with rfl | ⟨chip, _, rfl, _⟩ | ⟨⟨_, granted⟩, _⟩
        · cases has
        · cases has
        · cases granted <;> cases has
  have bare (other : τ) (place : Stage) (there : locks.callers.get? other = some place)
      : place = .parked ∨ ∃ chip owner, place = .waitsChip chip
        ∧ locks.chips.get? chip = some owner := by
    rcases stage_of_stuck there (stuck other) with sleeps | waits | ⟨_, owner, held⟩
    · exact .inl sleeps
    · exact .inr waits
    · exact absurd held (free owner)
  rcases bare caller stage found with rfl | ⟨chip, owner, rfl, taken⟩
  · rcases consistent.quiet.parked caller found with busy | ⟨waker, chip, lowered⟩
    · rw [consistent.active] at busy
      obtain ⟨other, place, there, counted⟩ := Table.exists_of_weight_pos busy
      rcases bare other place there with rfl | ⟨_, _, rfl, _⟩
      · cases counted
      · cases counted
    · rcases bare waker _ lowered with same | ⟨_, _, same, _⟩ <;> cases same
  · obtain ⟨place, there, has⟩ :=
      Option.bind_eq_some_iff.mp ((consistent.chips chip owner).mp taken)
    rcases bare owner place there with rfl | ⟨_, _, rfl, _⟩ <;> cases has

-----------------------------------------------------------------------------------------
-- Exclusion
-----------------------------------------------------------------------------------------

/-- What the locks promise to their callers. -/
structure Exclusive (locks : Locks τ) : Prop where
  /-- A chip's lock has one owner, so that at most one caller works on the chip. -/
  chip_alone
    : ∀ chip first second,
        locks.HasChip first chip → locks.HasChip second chip → first = second
  /-- The count is that of the callers that have raised it and not yet lowered it. -/
  counted : locks.active = locks.callers.weight Stage.counted
  /-- While a caller floods, no other one does, and none is counted. -/
  flood_alone
    : ∀ caller other stage,
        locks.callers.get? caller = some .flooding
        → locks.callers.get? other = some stage
        → (stage = .flooding → other = caller) ∧ stage.counted = 0
  /-- Whoever lowers the count finds it above zero. -/
  lowers : ∀ caller chip, locks.callers.get? caller = some (.lowering chip) → 0 < locks.active
  /-- One that sleeps although nobody is counted is woken by the next step of the caller that has
  lowered the count. -/
  woken
    : ∀ caller,
        locks.callers.get? caller = some .parked
        → locks.active = 0
        → ∃ waker chip after,
            locks.callers.get? waker = some (.lowered chip)
            ∧ locks.advance? waker = some (after, none)
            ∧ after.callers.get? caller = some .waitsFlood
  /-- While anybody is there, somebody can take a step. -/
  live
    : ∀ caller stage,
        locks.callers.get? caller = some stage → ∃ other, locks.CanStep other

/-- The next step of a caller that has lowered the count wakes all who sleep. -/
theorem advance?_of_lowered {waker caller : τ} {chip : Chip}
    (lowered : locks.callers.get? waker = some (.lowered chip))
    (sleeps : locks.callers.get? caller = some .parked)
    : ∃ after,
        locks.advance? waker = some (after, none)
        ∧ after.callers.get? caller = some .waitsFlood := by
  have apart : caller ≠ waker := by
    rintro rfl
    rw [lowered] at sleeps
    cases sleeps
  refine ⟨_, by simp only [advance?, lowered]; rfl, ?_⟩
  simp [move, apart, sleeps, Stage.wake]

/-- Wherever any number of callers get to in whatever order they ask, go on and are done, the
locks exclude each other and never lock everybody out. Witness: the invariant that every step
keeps, which ties each lock to where its owner is.
-/
theorem exclusive_of_reachable (reachable : Reachable locks) : locks.Exclusive := by
  have consistent := reachable.consistent
  refine ⟨?_, consistent.active, ?_, ?_, ?_, fun caller stage found => consistent.live found⟩
  · intro chip first second one other
    rw [← consistent.chips] at one other
    exact Option.some.inj (one.symm.trans other)
  · intro caller other stage floods found
    refine ⟨?_, ?_⟩
    · rintro rfl
      exact consistent.holder.unique found floods rfl rfl
    · have idle := consistent.quiet.flooding caller floods
      have least := Table.le_weight Stage.counted found
      rw [← consistent.active] at least
      omega
  · intro caller chip lowers
    have least := Table.le_weight Stage.counted lowers
    rw [← consistent.active] at least
    exact least
  · intro caller sleeps idle
    rcases consistent.quiet.parked caller sleeps with busy | ⟨waker, chip, lowered⟩
    · omega
    · obtain ⟨after, moved, woken⟩ := advance?_of_lowered lowered sleeps
      exact ⟨waker, chip, after, lowered, moved, woken⟩

/-- A caller goes on if it can. -/
def go (locks : Locks τ) (caller : τ) : Locks τ :=
  match locks.advance? caller with
  | some (after, _) => after
  | none => locks

theorem Reachable.go (reachable : Reachable locks) (callers : List τ)
    : Reachable (callers.foldl Locks.go locks) := by
  induction callers generalizing locks with
  | nil => exact reachable
  | cons caller rest ih =>
      refine ih ?_
      unfold Locks.go
      split
      · next moved => exact .step reachable (.advance moved)
      · exact reachable

/-- One caller works on a chip while another falls asleep because it wants to flood. -/
def waitingFlood : Locks Nat :=
  [1, 1, 1].foldl go (([0, 0, 0, 0].foldl go (({} : Locks Nat).askChip 0 .origin)).askFlood 1)

/-- The one at work has counted itself off and not yet woken the one that sleeps. -/
def lastToLeave : Locks Nat :=
  [0, 0].foldl go (waitingFlood.release 0).1

theorem lastToLeave_reachable : Reachable lastToLeave := by
  refine Reachable.go (.step ?_ (.release waitingFlood 0)) [0, 0]
  refine Reachable.go (.step ?_ (.askFlood _ 1)) [1, 1, 1]
  exact Reachable.go (.step .start (.askChip {} 0 .origin)) [0, 0, 0, 0]

theorem exclusive_of_lastToLeave
    : lastToLeave.callers.get? 1 = some .parked ∧ lastToLeave.active = 0
      ∧ Reachable lastToLeave ∧ lastToLeave.Exclusive :=
  ⟨by decide, by decide, lastToLeave_reachable, exclusive_of_reachable lastToLeave_reachable⟩

end Locks

end MeshControl
