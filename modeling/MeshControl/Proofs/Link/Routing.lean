import MeshControl.Link.Junction
import MeshControl.Proofs.Link.Release
import Mathlib.Data.Set.Subsingleton

/-! Routes of a connection that many windows share. However the windows send, wait, hand out
failures and go away, a sequence number has a route exactly while one window waits for it, and
the route leads to that window's inbox.
-/

namespace MeshControl.Link.Junction

open Scp

variable {ρ : Type}

-----------------------------------------------------------------------------------------
-- Histories of a shared connection
-----------------------------------------------------------------------------------------

/-- What can be done with windows that share a connection, and what can happen to it. -/
inductive Operation
  | openWindow (config : Config)
  | send (number : Nat) (request : Request) (sequence : UInt16) (handler : Handler)
  | finish (number : Nat)
  | takeFailures (number : Nat)
  | drop (number : Nat)
  | arrive (reaction : Reaction)

/-- One completed operation. -/
def perform [Responder ρ] (junction : Junction ρ) : Operation → Junction ρ
  | .openWindow config => (junction.openWindow config).2
  | .send number request sequence handler =>
      (junction.send number request sequence handler).2
  | .finish number => junction.finish number
  | .takeFailures number => (junction.takeFailures number).2
  | .drop number => junction.drop number
  | .arrive reaction => junction.inject reaction

/-- Completed operations, one after the other. -/
def run [Responder ρ] (junction : Junction ρ) (operations : List Operation) : Junction ρ :=
  operations.foldl perform junction

/-- A connection that nobody has used yet. -/
def fresh (connection : Connection ρ) : Junction ρ :=
  { line := { connection } }

/-- The window with this number is there, and one of its requests waits under the sequence
number.
-/
def Awaits (junction : Junction ρ) (number : Nat) (sequence : UInt16) : Prop :=
  ∃ window,
    junction.windows.get? number = some window ∧ window.isOutstanding sequence = true

-----------------------------------------------------------------------------------------
-- What every operation keeps
-----------------------------------------------------------------------------------------

/-- Windows are numbered by their inboxes, and routes lead exactly to those who wait. -/
structure Coherent (junction : Junction ρ) : Prop where
  numbered
    : ∀ {number window},
        junction.windows.get? number = some window
        → window.inbox = number ∧ number < junction.line.dispatcher.fresh
  routed
    : ∀ {sequence number},
        junction.line.dispatcher.routes.get? sequence = some number
        ↔ junction.Awaits number sequence

theorem fresh_coherent (connection : Connection ρ) : (fresh connection).Coherent := by
  constructor
  · intro number window found
    cases found
  · intro sequence number
    constructor
    · intro led
      cases led
    · rintro ⟨window, found, _⟩
      cases found

/-- Among the windows of a coherent junction, a window waits exactly where its routes lead. -/
theorem Coherent.own_routes {junction : Junction ρ} (coherent : junction.Coherent)
    {number : Nat} {window : Window} (found : junction.windows.get? number = some window)
    (sequence : UInt16)
    : junction.line.dispatcher.routes.get? sequence = some number
      ↔ window.isOutstanding sequence = true := by
  rw [coherent.routed]
  constructor
  · rintro ⟨other, same, waits⟩
    rw [found, Option.some.injEq] at same
    exact same ▸ waits
  · intro waits
    exact ⟨window, found, waits⟩

/-- Putting back a window that has worked keeps coherence, if it waits exactly where its routes
lead and the routes of all others are as they were.
-/
theorem Coherent.update {junction : Junction ρ} (coherent : junction.Coherent)
    {number : Nat} {window : Window} (found : junction.windows.get? number = some window)
    {after : Station ρ} (inbox : after.window.inbox = window.inbox)
    (fresh : after.line.dispatcher.fresh = junction.line.dispatcher.fresh)
    (own
      : ∀ sequence,
          after.line.dispatcher.routes.get? sequence = some number
          ↔ after.window.isOutstanding sequence = true)
    (others
      : ∀ sequence other,
          other ≠ number
          → (after.line.dispatcher.routes.get? sequence = some other
            ↔ junction.line.dispatcher.routes.get? sequence = some other))
    : (junction.update number after).Coherent := by
  refine ⟨?_, ?_⟩
  · intro other listed member
    simp only [Junction.update, Table.get?_insert] at member ⊢
    split at member
    · next same =>
        cases member
        subst same
        exact ⟨inbox.trans (coherent.numbered found).1, fresh ▸ (coherent.numbered found).2⟩
    · exact fresh ▸ coherent.numbered member
  · intro sequence other
    simp only [Awaits, Junction.update, Table.get?_insert]
    by_cases same : other = number
    · subst same
      simpa using own sequence
    · rw [others sequence other same, coherent.routed]
      simp [same, Awaits]

/-- A window of a coherent junction is anchored. -/
theorem Coherent.anchored {junction : Junction ρ} (coherent : junction.Coherent)
    {number : Nat} {window : Window} (found : junction.windows.get? number = some window)
    : (junction.station window).Anchored := by
  intro sequence waits
  have led := (coherent.own_routes found sequence).mpr waits
  rw [← (coherent.numbered found).1] at led
  exact led

/-- After requests of one window ended, it still waits exactly where its routes lead. -/
theorem Coherent.own_of_releases {junction : Junction ρ} (coherent : junction.Coherent)
    {number : Nat} {window : Window} (found : junction.windows.get? number = some window)
    {after : Station ρ} (released : (junction.station window).Releases after)
    (sequence : UInt16)
    : after.line.dispatcher.routes.get? sequence = some number
      ↔ after.window.isOutstanding sequence = true := by
  have inbox : after.window.inbox = number :=
    released.owner.inbox.trans (coherent.numbered found).1
  constructor
  · intro led
    cases now : after.window.isOutstanding sequence with
    | true => rfl
    | false =>
        cases waited : window.isOutstanding sequence with
        | true =>
            rw [released.freed sequence waited now] at led
            cases led
        | false =>
            have routes := released.kept sequence (now.trans waited.symm)
            have before := (coherent.own_routes found sequence).mp (routes ▸ led)
            rw [waited] at before
            cases before
  · intro waits
    rw [released.anchored (coherent.anchored found) sequence waits, inbox]

/-- After requests of one window ended, the routes of all others are as they were. -/
theorem Coherent.others_of_releases {junction : Junction ρ} (coherent : junction.Coherent)
    {number : Nat} {window : Window} (found : junction.windows.get? number = some window)
    {after : Station ρ} (released : (junction.station window).Releases after)
    (sequence : UInt16) (other : Nat) (apart : other ≠ number)
    : after.line.dispatcher.routes.get? sequence = some other
      ↔ junction.line.dispatcher.routes.get? sequence = some other := by
  rw [← (coherent.numbered found).1] at apart
  exact released.others (coherent.anchored found) apart sequence

/-- A window that only saw requests end keeps coherence. -/
theorem Coherent.of_releases {junction : Junction ρ} (coherent : junction.Coherent)
    {number : Nat} {window : Window} (found : junction.windows.get? number = some window)
    {after : Station ρ} (released : (junction.station window).Releases after)
    : (junction.update number after).Coherent :=
  coherent.update found released.owner.inbox released.fresh
    (coherent.own_of_releases found released) (coherent.others_of_releases found released)

/-- A window that took a request on keeps coherence, since the number was free. -/
theorem Coherent.of_admits {junction : Junction ρ} (coherent : junction.Coherent)
    {number : Nat} {window : Window} (found : junction.windows.get? number = some window)
    {room after : Station ρ} {sequence : UInt16}
    (released : (junction.station window).Releases room)
    (admitted : room.Admits after sequence)
    : (junction.update number after).Coherent := by
  have inbox : room.window.inbox = number :=
    released.owner.inbox.trans (coherent.numbered found).1
  refine coherent.update found (admitted.owner.inbox.trans released.owner.inbox)
    (admitted.fresh.trans released.fresh) ?_ ?_
  · intro other
    rw [admitted.routes, admitted.waiting]
    by_cases same : other = sequence
    · simp [same, inbox]
    · simpa [same] using coherent.own_of_releases found released other
  · intro other target apart
    rw [admitted.others (inbox ▸ apart)]
    exact coherent.others_of_releases found released other target apart

-----------------------------------------------------------------------------------------
-- Windows come and go
-----------------------------------------------------------------------------------------

/-- A new window has a new inbox, and no route leads there yet. -/
theorem Coherent.openWindow {junction : Junction ρ} (coherent : junction.Coherent)
    (config : Config)
    : (junction.openWindow config).2.Coherent := by
  have unused (window : Window)
      : junction.windows.get? junction.line.dispatcher.fresh ≠ some window :=
    fun found => absurd (coherent.numbered found).2 (Nat.lt_irrefl _)
  simp only [Junction.openWindow, Dispatcher.openInbox]
  constructor
  · intro number window found
    simp only [Table.get?_insert] at found
    split at found
    · next same =>
        cases found
        exact ⟨same.symm, by simp only [same]; omega⟩
    · have known := coherent.numbered found
      exact ⟨known.1, by dsimp only; omega⟩
  · intro sequence number
    dsimp only
    rw [coherent.routed]
    simp only [Awaits, Table.get?_insert]
    by_cases same : number = junction.line.dispatcher.fresh
    · subst same
      constructor
      · rintro ⟨window, found, _⟩
        exact absurd found (unused window)
      · rintro ⟨window, found, waits⟩
        rw [if_pos rfl, Option.some.injEq] at found
        subst found
        cases waits
    · simp [same]

/-- A window that goes away takes the routes of its waiting requests along, and no others. -/
theorem Coherent.drop {junction : Junction ρ} (coherent : junction.Coherent) (number : Nat)
    : (junction.drop number).Coherent := by
  unfold Junction.drop
  cases found : junction.windows.get? number with
  | none => exact coherent
  | some window =>
      have own := coherent.own_routes found
      have held (sequence : UInt16)
          : sequence ∈ window.outstanding.keys ↔ window.isOutstanding sequence = true :=
        Table.mem_keys_iff _ _
      constructor
      · intro other listed member
        have known := coherent.numbered (Table.of_get?_erase member).2
        simp only [Dispatcher.discard, Dispatcher.fresh_foldl_unregister]
        exact known
      · intro sequence other
        simp only [Dispatcher.discard, Awaits, Table.get?_erase]
        rw [Dispatcher.get?_foldl_unregister]
        by_cases same : other = number
        · subst same
          simp only [if_true, reduceCtorEq, false_and, exists_false, iff_false]
          split
          · simp
          · next absent =>
              exact fun led => absurd ((held sequence).mpr ((own sequence).mp led)) absent
        · simp only [same, if_false]
          split
          · next member =>
              have led := (own sequence).mpr ((held sequence).mp member)
              have elsewhere : ¬ junction.Awaits other sequence := by
                rw [← coherent.routed, led, Option.some.injEq]
                exact Ne.symm same
              simpa [Awaits] using elsewhere
          · exact coherent.routed

/-- Handing failures out changes neither who waits nor where the routes lead. -/
theorem Coherent.takeFailures {junction : Junction ρ} (coherent : junction.Coherent)
    (number : Nat)
    : (junction.takeFailures number).2.Coherent := by
  unfold Junction.takeFailures
  cases found : junction.windows.get? number with
  | none => exact coherent
  | some window =>
      have emptied : (junction.station window).Releases
          (junction.station { window with failures := [] }) :=
        .of_same ⟨rfl, rfl⟩ (fun _ => rfl) (.refl _)
      exact coherent.of_releases found emptied

variable [Responder ρ]

/-- A send keeps coherence, whether it succeeds or fails. -/
theorem Coherent.send {junction : Junction ρ} (coherent : junction.Coherent) (number : Nat)
    (request : Request) (sequence : UInt16) (handler : Handler)
    : (junction.send number request sequence handler).2.Coherent := by
  unfold Junction.send
  cases found : junction.windows.get? number with
  | none => exact coherent
  | some window =>
      dsimp only
      generalize sent : (junction.station window).send request sequence handler = outcome
      obtain ⟨result, after⟩ := outcome
      cases result with
      | error error => exact coherent.of_releases found (Station.releases_of_send_error sent)
      | ok _ =>
          obtain ⟨room, released, admitted⟩ := Station.admits_of_send_ok sent
          exact coherent.of_admits found released admitted

/-- Waiting for all requests of a window keeps coherence. -/
theorem Coherent.finish {junction : Junction ρ} (coherent : junction.Coherent) (number : Nat)
    : (junction.finish number).Coherent := by
  unfold Junction.finish
  cases found : junction.windows.get? number with
  | none => exact coherent
  | some window =>
      exact coherent.of_releases found (Station.drain_path 0 (junction.station window)).releases

/-- Every operation keeps coherence, by cases on it. -/
theorem Coherent.perform {junction : Junction ρ} (coherent : junction.Coherent)
    (operation : Operation)
    : (junction.perform operation).Coherent := by
  cases operation with
  | openWindow config => exact coherent.openWindow config
  | send number request sequence handler =>
      exact coherent.send number request sequence handler
  | finish number => exact coherent.finish number
  | takeFailures number => exact coherent.takeFailures number
  | drop number => exact coherent.drop number
  | arrive reaction => exact ⟨coherent.numbered, coherent.routed⟩

/-- Any history keeps coherence, by induction on its operations. -/
theorem Coherent.run {junction : Junction ρ} (coherent : junction.Coherent)
    (operations : List Operation)
    : (junction.run operations).Coherent := by
  induction operations generalizing junction with
  | nil => exact coherent
  | cons operation rest ih => exact ih (coherent.perform operation)

/-- After any history of operations on a connection, and so after each operation of it: a
sequence number is registered exactly while one window waits for it, no two windows wait for the
same number, and a number's route leads to the inbox of the window that waits for it.
Witness: coherence of the windows and the routes, kept by every operation.
-/
theorem registered_iff_unique_wait (connection : Connection ρ) (operations : List Operation)
    (sequence : UInt16)
    : let junction := (fresh connection).run operations
      (junction.line.dispatcher.isRegistered sequence = true
        ↔ ∃! number, junction.Awaits number sequence)
      ∧ {number | junction.Awaits number sequence}.Subsingleton
      ∧ ∀ number,
          junction.Awaits number sequence
          ↔ ∃ window,
              junction.windows.get? number = some window
              ∧ junction.line.dispatcher.routes.get? sequence = some window.inbox := by
  intro junction
  have coherent : junction.Coherent := (fresh_coherent connection).run operations
  have single {first second : Nat} (one : junction.Awaits first sequence)
      (other : junction.Awaits second sequence)
      : first = second := by
    have led := coherent.routed.mpr one
    rw [coherent.routed.mpr other, Option.some.injEq] at led
    exact led.symm
  refine ⟨?_, fun _ one _ other => single one other, ?_⟩
  · rw [Dispatcher.isRegistered, Table.contains, Option.isSome_iff_exists]
    constructor
    · rintro ⟨number, led⟩
      have waits := coherent.routed.mp led
      exact ⟨number, waits, fun _ other => single other waits⟩
    · rintro ⟨number, waits, _⟩
      exact ⟨number, coherent.routed.mpr waits⟩
  · intro number
    rw [← coherent.routed]
    constructor
    · intro led
      obtain ⟨window, found, _⟩ := coherent.routed.mp led
      exact ⟨window, found, by rw [led, (coherent.numbered found).1]⟩
    · rintro ⟨window, found, led⟩
      rw [led, (coherent.numbered found).1]

end MeshControl.Link.Junction
