import MeshControl.Link.Process
import MeshControl.Proofs.Link.Acceptance

/-! A process and its windows, one on each connection in use. What the process owes is what its
windows hold; its turns leave the routes of all other inboxes alone.
-/

namespace MeshControl.Link

open Scp

-----------------------------------------------------------------------------------------
-- A ledger as a part of another
-----------------------------------------------------------------------------------------

namespace Ledger

/-- One ledger holds all of another one, and failures from before and promises of others. -/
structure Includes (whole part : Ledger) (earlier : List Failure) (others : List Promise)
    : Prop where
  journal : whole.journal = part.journal
  failures : whole.failures = earlier ++ part.failures
  promises : whole.promises.Perm (part.promises ++ others)

/-- What settles a part settles the whole, if the rest stays as it is. -/
theorem Settles.widen {tag : UInt8} {before after wide wider : Ledger} {events : List Event}
    {settled : List Settlement} {earlier : List Failure} {others : List Promise}
    (settles : Settles tag before after events settled)
    (first : Includes wide before earlier others)
    (last : Includes wider after earlier others)
    : Settles tag wide wider events settled where
  journal := by rw [last.journal, settles.journal, first.journal]
  told := settles.told
  failures := by rw [last.failures, settles.failures, first.failures, List.append_assoc]
  promises := by
    have middle := settles.promises.append_right others
    rw [List.append_assoc] at middle
    exact first.promises.trans (middle.trans (last.promises.symm.append_left _))
  lawful := settles.lawful
  repeats := by
    intro datagram member
    obtain ⟨promise, promised, same⟩ := settles.repeats datagram member
    exact ⟨promise, first.promises.mem_iff.mpr (List.mem_append_left _ promised), same⟩

theorem Takes.widen {before after wide wider : Ledger} {events : List Event}
    {taken : List Promise} {earlier : List Failure} {others : List Promise}
    (takes : Takes before after events taken) (first : Includes wide before earlier others)
    (last : Includes wider after earlier others)
    : Takes wide wider events taken where
  journal := by rw [last.journal, takes.journal, first.journal]
  failures := by rw [last.failures, takes.failures, first.failures]
  promises := by
    have swapped : (before.promises ++ others ++ taken).Perm
        (before.promises ++ taken ++ others) := by
      rw [List.append_assoc, List.append_assoc]
      exact List.perm_append_comm.append_left _
    have middle := takes.promises.append_right others
    exact (first.promises.append_right taken).trans
      (swapped.trans (middle.trans last.promises.symm))

/-- A send in a part is a send in the whole. -/
theorem Sends.widen {tag : UInt8} {promise : Promise} {before after wide wider : Ledger}
    {result : Except Halt Unit} {events tried : List Event} {settled : List Settlement}
    {taken others : List Promise} {earlier : List Failure}
    (sends : Sends tag promise before after result events settled tried taken)
    (first : Includes wide before earlier others)
    (last : Includes wider after earlier others)
    : Sends tag promise wide wider result events settled tried taken := by
  obtain ⟨⟨middle, settles, takes⟩, offered⟩ := sends
  let between : Ledger :=
    ⟨middle.journal, earlier ++ middle.failures, middle.promises ++ others⟩
  have held : Includes between middle earlier others := ⟨rfl, rfl, .refl _⟩
  exact ⟨⟨between, settles.widen first held, takes.widen held last⟩, offered⟩

end Ledger

-----------------------------------------------------------------------------------------
-- Dispatchers that many share
-----------------------------------------------------------------------------------------

/-- All routes that lead to an inbox of another owner lead there still. -/
structure Dispatcher.Spares (own : Option Nat) (before after : Dispatcher) : Prop where
  fresh : before.fresh ≤ after.fresh
  routes
    : ∀ {inbox sequence},
        inbox < before.fresh
        → own ≠ some inbox
        → before.routes.get? sequence = some inbox
        → after.routes.get? sequence = some inbox

theorem Dispatcher.Spares.refl (own : Option Nat) (dispatcher : Dispatcher)
    : Spares own dispatcher dispatcher :=
  ⟨Nat.le_refl _, fun _ _ led => led⟩

theorem Dispatcher.Spares.trans {own : Option Nat} {before middle after : Dispatcher}
    (first : Spares own before middle) (second : Spares own middle after)
    : Spares own before after := by
  refine ⟨Nat.le_trans first.fresh second.fresh, ?_⟩
  intro inbox sequence known apart led
  have still_known : inbox < middle.fresh := Nat.lt_of_lt_of_le known first.fresh
  exact second.routes still_known apart (first.routes known apart led)

namespace Station

variable {ρ : Type}

theorem Releases.spares {before after : Station ρ} (released : Releases before after)
    (anchored : before.Anchored)
    : before.line.dispatcher.Spares (some before.window.inbox) after.line.dispatcher := by
  refine ⟨Nat.le_of_eq released.fresh.symm, ?_⟩
  intro inbox sequence _ apart led
  have other : inbox ≠ before.window.inbox := fun same => apart (same ▸ rfl)
  exact (released.others anchored other sequence).mpr led

theorem Admits.spares {before after : Station ρ} {sequence : UInt16}
    (admitted : Admits before after sequence)
    : before.line.dispatcher.Spares (some before.window.inbox) after.line.dispatcher := by
  refine ⟨Nat.le_of_eq admitted.fresh.symm, ?_⟩
  intro inbox number _ apart led
  have other : inbox ≠ before.window.inbox := fun same => apart (same ▸ rfl)
  exact (admitted.others other number).mpr led

/-- A send spares the routes of others and keeps its window anchored. -/
theorem send_spares [Responder ρ] {station after : Station ρ} {request : Request}
    {sequence : UInt16} {handler : Handler} {result : Except Error Unit}
    (anchored : station.Anchored)
    (done : station.send request sequence handler = (result, after))
    : after.Anchored
      ∧ SameOwner station.window after.window
      ∧ station.line.dispatcher.Spares (some station.window.inbox) after.line.dispatcher := by
  cases result with
  | error error =>
      have released := releases_of_send_error done
      exact ⟨released.anchored anchored, released.owner, released.spares anchored⟩
  | ok =>
      obtain ⟨room, released, admitted⟩ := admits_of_send_ok done
      have first := released.spares anchored
      have second := admitted.spares
      rw [released.owner.inbox] at second
      exact ⟨admitted.anchored (released.anchored anchored),
        released.owner.trans admitted.owner, first.trans second⟩

end Station

-----------------------------------------------------------------------------------------
-- Where a process sits
-----------------------------------------------------------------------------------------

/-- The dispatchers of all connections. -/
def Hub.dispatchers {ρ : Type} (hub : Hub ρ) : List Dispatcher :=
  hub.lines.map Line.dispatcher

namespace Process

/-- What a process still owes to its senders. -/
def promises (process : Process) : List Promise :=
  process.windows.values.flatMap Window.promises

/-- The ledger of a process on its connections. -/
def ledger {ρ : Type} (hub : Hub ρ) (process : Process) : Ledger :=
  ⟨hub.journal.toList, process.failures, process.promises⟩

/-- The inbox of a process on a connection. -/
def inbox? (process : Process) (number : Nat) : Option Nat :=
  (process.windows.get? number).map Window.inbox

/-- A window that works for a process: its failures are collected, and its routes lead to it. -/
structure Serves (config : Config) (dispatcher : Dispatcher) (window : Window) : Prop where
  config : window.config = config
  sound : window.Sound
  collected : window.failures = []
  known : window.inbox < dispatcher.fresh
  anchored
    : ∀ sequence,
        window.isOutstanding sequence = true
        → dispatcher.routes.get? sequence = some window.inbox

/-- Each window of a process works for it on its own connection. -/
def Seated (process : Process) (dispatchers : List Dispatcher) : Prop :=
  ∀ number window,
    process.windows.get? number = some window
    → ∃ dispatcher,
        dispatchers[number]? = some dispatcher ∧ Serves process.config dispatcher window

/-- What a process did, as others see it: their routes are as they were, and its inboxes are
the old ones or new.
-/
structure Yields (process later : Process) (before after : List Dispatcher) : Prop where
  length : after.length = before.length
  spared
    : ∀ {number} {old : Dispatcher},
        before[number]? = some old
        → ∃ new, after[number]? = some new ∧ old.Spares (process.inbox? number) new
  kept
    : ∀ {number inbox}, process.inbox? number = some inbox → later.inbox? number = some inbox
  opened
    : ∀ {number inbox},
        process.inbox? number = none
        → later.inbox? number = some inbox
        → ∃ old, before[number]? = some old ∧ old.fresh ≤ inbox

theorem Yields.refl (process : Process) (dispatchers : List Dispatcher)
    : Yields process process dispatchers dispatchers where
  length := rfl
  spared found := ⟨_, found, .refl _ _⟩
  kept known := known
  opened absent known := by
    rw [absent] at known
    cases known

/-- Turns add up: an inbox that was opened in the first is no older one's in the second. -/
theorem Yields.trans {process middle later : Process} {before between after : List Dispatcher}
    (first : Yields process middle before between) (second : Yields middle later between after)
    : Yields process later before after where
  length := second.length.trans first.length
  spared := by
    intro number old found
    obtain ⟨new, listed, early⟩ := first.spared found
    obtain ⟨newer, listed_later, late⟩ := second.spared listed
    refine ⟨newer, listed_later, Nat.le_trans early.fresh late.fresh, ?_⟩
    intro inbox sequence known apart led
    have still_apart : middle.inbox? number ≠ some inbox := by
      intro own
      cases owned : process.inbox? number with
      | some inbox' =>
          rw [first.kept owned] at own
          exact apart (owned.trans own)
      | none =>
          obtain ⟨_, same, newer⟩ := first.opened owned own
          rw [found, Option.some.injEq] at same
          subst same
          omega
    exact late.routes (Nat.lt_of_lt_of_le known early.fresh) still_apart
      (early.routes known apart led)
  kept known := second.kept (first.kept known)
  opened := by
    intro number inbox absent known
    cases owned : middle.inbox? number with
    | some inbox' =>
        rw [second.kept owned, Option.some.injEq] at known
        exact first.opened absent (known ▸ owned)
    | none =>
        obtain ⟨new, listed, newer⟩ := second.opened owned known
        have bound : number < before.length := by
          rw [← first.length]
          exact (List.getElem?_eq_some_iff.mp listed).1
        obtain ⟨new', same, early⟩ := first.spared (List.getElem?_eq_getElem bound)
        rw [listed, Option.some.injEq] at same
        subst same
        exact ⟨_, List.getElem?_eq_getElem bound, Nat.le_trans early.fresh newer⟩

/-- A turn on one connection, at the end of which a window serves the process there. -/
theorem turn_seated {process later : Process} {before : List Dispatcher} {number : Nat}
    {old new : Dispatcher} {window : Window} (seated : process.Seated before)
    (found : before[number]? = some old) (config : later.config = process.config)
    (windows : later.windows = process.windows.insert number window)
    (serves : Serves process.config new window)
    : later.Seated (before.set number new) := by
  have bound := (List.getElem?_eq_some_iff.mp found).1
  intro other held listed
  rw [windows, Table.get?_insert] at listed
  rw [config]
  split at listed
  · next same =>
      cases listed
      subst same
      exact ⟨new, List.getElem?_set_self bound, serves⟩
  · next apart =>
      obtain ⟨dispatcher, known, served⟩ := seated other held listed
      exact ⟨dispatcher, by rwa [List.getElem?_set_ne (Ne.symm apart)], served⟩

/-- A turn on one connection spares all others if it spares them there. -/
theorem turn_yields {process later : Process} {before : List Dispatcher} {number : Nat}
    {old new : Dispatcher} {window : Window} (found : before[number]? = some old)
    (windows : later.windows = process.windows.insert number window)
    (spares : old.Spares (process.inbox? number) new)
    (own
      : process.inbox? number = some window.inbox
        ∨ process.inbox? number = none ∧ old.fresh ≤ window.inbox)
    : Yields process later before (before.set number new) := by
  have bound := (List.getElem?_eq_some_iff.mp found).1
  have inboxes (other : Nat)
      : later.inbox? other
        = if other = number then some window.inbox else process.inbox? other := by
    simp only [inbox?, windows, Table.get?_insert]
    split <;> rfl
  refine ⟨List.length_set, ?_, ?_, ?_⟩
  · intro other listed held
    by_cases same : other = number
    · subst same
      rw [found, Option.some.injEq] at held
      subst held
      exact ⟨new, List.getElem?_set_self bound, spares⟩
    · exact ⟨listed, by rwa [List.getElem?_set_ne (Ne.symm same)], .refl _ _⟩
  · intro other inbox known
    rw [inboxes]
    split
    · next same =>
        subst same
        rcases own with own | ⟨absent, _⟩
        · rw [← own, known]
        · rw [absent] at known
          cases known
    · exact known
  · intro other inbox absent known
    rw [inboxes] at known
    split at known
    · next same =>
        subst same
        cases known
        rcases own with own | ⟨_, newer⟩
        · rw [absent] at own
          cases own
        · exact ⟨old, found, newer⟩
    · rw [absent] at known
      cases known

/-- No inbox of one process is one of the other's on the same connection. -/
def Apart (process other : Process) : Prop :=
  ∀ number inbox, process.inbox? number = some inbox → other.inbox? number ≠ some inbox

theorem inbox?_of_window {process : Process} {number : Nat} {window : Window}
    (held : process.windows.get? number = some window)
    : process.inbox? number = some window.inbox := by
  simp [inbox?, held]

/-- A process stays seated while another one works with inboxes of its own. -/
theorem Seated.spared {process later other : Process} {before after : List Dispatcher}
    (seated : other.Seated before) (yields : Yields process later before after)
    (apart : other.Apart process)
    : other.Seated after := by
  intro number window held
  obtain ⟨old, listed, serves⟩ := seated number window held
  obtain ⟨new, listed_later, spares⟩ := yields.spared listed
  have foreign := apart number window.inbox (inbox?_of_window held)
  refine ⟨new, listed_later, serves.config, serves.sound, serves.collected,
    Nat.lt_of_lt_of_le serves.known spares.fresh, ?_⟩
  intro sequence waits
  exact spares.routes serves.known foreign (serves.anchored sequence waits)

/-- Processes that were apart stay apart, since a new inbox is newer than all known ones. -/
theorem Apart.yields {process later other : Process} {before after : List Dispatcher}
    (apart : other.Apart process) (yields : Yields process later before after)
    (seated : other.Seated before)
    : other.Apart later := by
  intro number inbox known same
  cases owned : process.inbox? number with
  | some inbox' =>
      rw [yields.kept owned] at same
      exact apart number inbox known (owned.trans same)
  | none =>
      obtain ⟨old, listed, newer⟩ := yields.opened owned same
      obtain ⟨window, held, rfl⟩ := Option.map_eq_some_iff.mp known
      obtain ⟨_, found, serves⟩ := seated number window held
      rw [listed, Option.some.injEq] at found
      subst found
      exact absurd serves.known (by omega)

theorem Apart.symm {process other : Process} (apart : process.Apart other)
    : other.Apart process :=
  fun number inbox known same => apart number inbox same known

end Process

end MeshControl.Link
