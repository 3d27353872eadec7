import MeshControl.Proofs.Link.Release

/-! The end of requests. A request that was taken on is a promise to its sender; it ends as one
settlement, of which there are three kinds. A ledger holds what was told, what failed and what
is still promised, and every path of a window balances it: promises only become settlements.
-/

namespace MeshControl.Link

open Scp

-----------------------------------------------------------------------------------------
-- Promises and settlements
-----------------------------------------------------------------------------------------

/-- A request that was taken on, with what its sender wants of the answer. -/
structure Promise where
  request : Request
  handler : Handler

def Outstanding.promise (entry : Outstanding) : Promise :=
  ⟨entry.request, entry.handler⟩

/-- What the requests in a window amount to, oldest first. -/
def Window.promises (window : Window) : List Promise :=
  window.outstanding.values.map Outstanding.promise

/-- How a request ended: with an answer, with an answer that its sender found fault with, or
without one.
-/
inductive Outcome
  | answered (response : Response)
  | rejected (response : Response) (error : Error)
  | failed (error : Error)

/-- The end of a request. -/
structure Settlement where
  promise : Promise
  outcome : Outcome

namespace Settlement

/-- What the sender is told, in this order. -/
def events (settlement : Settlement) : List Event :=
  let request := settlement.promise.request
  let audience := settlement.promise.handler.audience
  match settlement.outcome with
  | .answered response => [.accepted request response audience]
  | .rejected response error =>
      [.accepted request response audience, .failed request error audience]
  | .failed error => [.failed request error audience]

/-- What is kept for whoever collects the failures. -/
def failures (settlement : Settlement) : List Failure :=
  let request := settlement.promise.request
  match settlement.outcome with
  | .answered _ => []
  | .rejected _ error => [{ request, error }]
  | .failed error => [{ request, error }]

/-- An answer ends a request only if it carries the request's own number and a result that the
request accepts; its sender's verdict then tells the two kinds of answers apart.
-/
def Lawful (settlement : Settlement) : Prop :=
  let request := settlement.promise.request
  match settlement.outcome with
  | .answered response =>
      request.sequence = some response.sequence
      ∧ request.accepts response.result = true
      ∧ settlement.promise.handler.check response = .ok ()
  | .rejected response error =>
      request.sequence = some response.sequence
      ∧ request.accepts response.result = true
      ∧ settlement.promise.handler.check response = .error error
  | .failed _ => True

end Settlement

/-- The event tells a sender how a request ended. -/
def Event.isTold : Event → Bool
  | .transmitted .. => false
  | .accepted .. => true
  | .failed .. => true

/-- What senders were told. -/
def told (events : List Event) : List Event :=
  events.filter Event.isTold

/-- The datagram of a transmission. -/
def Event.datagram? : Event → Option Datagram
  | .transmitted _ datagram _ => some datagram
  | _ => none

/-- What went over the connections. -/
def transmissions (events : List Event) : List Datagram :=
  events.filterMap Event.datagram?

@[simp] theorem told_append (first second : List Event)
    : told (first ++ second) = told first ++ told second :=
  List.filter_append first second

@[simp] theorem transmissions_append (first second : List Event)
    : transmissions (first ++ second) = transmissions first ++ transmissions second :=
  List.filterMap_append

theorem Settlement.told_events (settlement : Settlement)
    : told settlement.events = settlement.events := by
  obtain ⟨promise, outcome⟩ := settlement
  cases outcome <;> rfl

theorem Settlement.transmissions_events (settlement : Settlement)
    : transmissions settlement.events = [] := by
  obtain ⟨promise, outcome⟩ := settlement
  cases outcome <;> rfl

-----------------------------------------------------------------------------------------
-- Ledgers
-----------------------------------------------------------------------------------------

/-- What happened, what failed, and what is still promised. -/
structure Ledger where
  journal : List Event
  failures : List Failure
  promises : List Promise

namespace Ledger

/-- From one ledger to a later one exactly these requests ended and none was taken on; in
between, only promised requests went out.
-/
structure Settles (tag : UInt8) (before after : Ledger) (events : List Event)
    (settled : List Settlement) : Prop where
  journal : after.journal = before.journal ++ events
  told : told events = settled.flatMap Settlement.events
  failures : after.failures = before.failures ++ settled.flatMap Settlement.failures
  promises : before.promises.Perm (settled.map Settlement.promise ++ after.promises)
  lawful : ∀ settlement ∈ settled, settlement.Lawful
  repeats
    : ∀ datagram ∈ transmissions events,
        ∃ promise ∈ before.promises, promise.request.datagram tag = datagram

theorem Settles.refl (tag : UInt8) (ledger : Ledger) : Settles tag ledger ledger [] [] where
  journal := (List.append_nil _).symm
  told := rfl
  failures := (List.append_nil _).symm
  promises := .refl _
  lawful := by simp
  repeats := by simp [transmissions]

/-- What is still promised was promised before. -/
theorem Settles.subset {tag : UInt8} {before after : Ledger} {events : List Event}
    {settled : List Settlement} (settles : Settles tag before after events settled)
    : after.promises ⊆ before.promises := by
  intro promise member
  exact settles.promises.mem_iff.mpr (List.mem_append_right _ member)

/-- Settlements of two stretches add up in order. -/
theorem Settles.trans {tag : UInt8} {before middle after : Ledger} {events more : List Event}
    {settled later : List Settlement} (first : Settles tag before middle events settled)
    (second : Settles tag middle after more later)
    : Settles tag before after (events ++ more) (settled ++ later) where
  journal := by rw [second.journal, first.journal, List.append_assoc]
  told := by rw [told_append, first.told, second.told, List.flatMap_append]
  failures := by
    rw [second.failures, first.failures, List.append_assoc, List.flatMap_append]
  promises := by
    rw [List.map_append, List.append_assoc]
    exact first.promises.trans (second.promises.append_left _)
  lawful := by
    intro settlement member
    rcases List.mem_append.mp member with early | late
    · exact first.lawful settlement early
    · exact second.lawful settlement late
  repeats := by
    intro datagram member
    rw [transmissions_append] at member
    rcases List.mem_append.mp member with early | late
    · exact first.repeats datagram early
    · obtain ⟨promise, promised, same⟩ := second.repeats datagram late
      exact ⟨promise, first.subset promised, same⟩

/-- One request ended and nothing else happened. -/
theorem Settles.single {tag : UInt8} {before after : Ledger} {settlement : Settlement}
    (journal : after.journal = before.journal ++ settlement.events)
    (failures : after.failures = before.failures ++ settlement.failures)
    (promises : before.promises.Perm (settlement.promise :: after.promises))
    (lawful : settlement.Lawful)
    : Settles tag before after settlement.events [settlement] where
  journal := journal
  told := by simp [settlement.told_events]
  failures := by simpa using failures
  promises := promises
  lawful := by simpa using lawful
  repeats := by simp [settlement.transmissions_events]

end Ledger

-----------------------------------------------------------------------------------------
-- What holds of every waiting request
-----------------------------------------------------------------------------------------

/-- Every request waits under its own number, with the bytes that it is written as. -/
structure Window.Sound (window : Window) : Prop where
  keyed
    : ∀ {sequence entry},
        window.outstanding.get? sequence = some entry
        → entry.request.sequence = some sequence
  encoded
    : ∀ {sequence entry},
        window.outstanding.get? sequence = some entry
        → entry.datagram = entry.request.datagram window.config.tag

/-- A window in which no other requests wait is as sound as before. -/
theorem Window.Sound.of_subset {before after : Window} (sound : before.Sound)
    (config : after.config = before.config)
    (waited
      : ∀ {sequence entry},
          after.outstanding.get? sequence = some entry
          → before.outstanding.get? sequence = some entry)
    : after.Sound where
  keyed found := sound.keyed (waited found)
  encoded found := config ▸ sound.encoded (waited found)

theorem Window.Sound.of_erase {before after : Window} (sound : before.Sound)
    {sequence : UInt16} (config : after.config = before.config)
    (outstanding : after.outstanding = before.outstanding.erase sequence)
    : after.Sound := by
  refine sound.of_subset config fun found => ?_
  rw [outstanding] at found
  exact (Table.of_get?_erase found).2

/-- Putting a request under its own number, written as its bytes, keeps a window sound. -/
theorem Window.Sound.of_insert {before after : Window} (sound : before.Sound)
    {sequence : UInt16} {entry : Outstanding} (config : after.config = before.config)
    (outstanding : after.outstanding = before.outstanding.insert sequence entry)
    (keyed : entry.request.sequence = some sequence)
    (encoded : entry.datagram = entry.request.datagram before.config.tag)
    : after.Sound := by
  have known {other : UInt16} {held : Outstanding}
      (found : after.outstanding.get? other = some held)
      : (other = sequence ∧ held = entry) ∨ before.outstanding.get? other = some held := by
    rw [outstanding, Table.get?_insert] at found
    split at found
    · next same => exact .inl ⟨same, (Option.some.inj found).symm⟩
    · exact .inr found
  constructor
  · intro other held found
    rcases known found with ⟨rfl, rfl⟩ | old
    · exact keyed
    · exact sound.keyed old
  · intro other held found
    rw [config]
    rcases known found with ⟨rfl, rfl⟩ | old
    · exact encoded
    · exact sound.encoded old

namespace Station

variable {ρ : Type}

-----------------------------------------------------------------------------------------
-- The order in which requests fail
-----------------------------------------------------------------------------------------

/-- Two stations that differ only in the order of what failed and of what happened. -/
structure Reorders (first second : Station ρ) : Prop where
  line : first.line = second.line
  window : first.window = { second.window with failures := first.window.failures }
  failures : first.window.failures.Perm second.window.failures
  journal : first.journal.toList.Perm second.journal.toList

namespace Reorders

variable {first second third : Station ρ}

theorem refl (station : Station ρ) : Reorders station station :=
  ⟨rfl, rfl, .refl _, .refl _⟩

theorem trans (one : Reorders first second) (other : Reorders second third)
    : Reorders first third where
  line := one.line.trans other.line
  window := by rw [one.window, other.window]
  failures := one.failures.trans other.failures
  journal := one.journal.trans other.journal

/-- A request that fails at both is added to both. -/
theorem fail (reorders : Reorders first second) (sequence : UInt16) (error : Error)
    : Reorders (first.fail sequence error) (second.fail sequence error) := by
  have same : first.window.outstanding = second.window.outstanding := by rw [reorders.window]
  unfold Station.fail
  rw [same]
  cases second.window.outstanding.get? sequence with
  | none => exact reorders
  | some entry =>
      refine ⟨?_, ?_, ?_, ?_⟩
      · simp [report, log, release, reorders.line]
      · simp only [report, log, release]
        rw [reorders.window]
      · exact reorders.failures.append_right _
      · simpa [report, log, release] using reorders.journal.append_right _

theorem foldl_fail (reorders : Reorders first second) (sequences : List UInt16) (error : Error)
    : Reorders (sequences.foldl (fun station sequence => station.fail sequence error) first)
        (sequences.foldl (fun station sequence => station.fail sequence error) second) := by
  induction sequences generalizing first second with
  | nil => exact reorders
  | cons sequence rest ih => exact ih (reorders.fail sequence error)

end Reorders

/-- A request waits as before when another one fails. -/
theorem get?_fail_of_ne (station : Station ρ) {sequence other : UInt16}
    (apart : sequence ≠ other) (error : Error)
    : (station.fail other error).window.outstanding.get? sequence
      = station.window.outstanding.get? sequence := by
  rw [outstanding_fail]
  split
  · rfl
  · rw [Table.get?_erase, if_neg apart]

/-- Two requests that fail one after the other may do so in either order. -/
theorem fail_fail_reorders (station : Station ρ) (one other : UInt16) (error : Error)
    : Reorders ((station.fail one error).fail other error)
        ((station.fail other error).fail one error) := by
  by_cases same : one = other
  · rw [same]
    exact .refl _
  have first := station.get?_fail_of_ne same error
  have second := station.get?_fail_of_ne (Ne.symm same) error
  cases waits : station.window.outstanding.get? one with
  | none =>
      rw [fail_of_absent waits, fail_of_absent (first.trans waits)]
      exact .refl _
  | some entry =>
      cases also : station.window.outstanding.get? other with
      | none =>
          rw [fail_of_absent also, fail_of_absent (second.trans also)]
          exact .refl _
      | some held =>
          unfold fail at first second ⊢
          simp only [waits, also] at first second ⊢
          simp only [first, second]
          refine ⟨?_, ?_, ?_, ?_⟩
          · simp [report, log, release, Dispatcher.unregister,
              Table.erase_erase_comm _ one other]
          · simp [report, log, release, Table.erase_erase_comm _ one other]
          · simpa [report, log, release] using .append_left _ (.swap _ _ _)
          · simpa [report, log, release] using .append_left _ (.swap _ _ _)

/-- Some requests may fail in any order, by induction on how the order changes. -/
theorem foldl_fail_reorders {sequences others : List UInt16} (order : sequences.Perm others)
    (station : Station ρ) (error : Error)
    : Reorders (sequences.foldl (fun station sequence => station.fail sequence error) station)
        (others.foldl (fun station sequence => station.fail sequence error) station) := by
  induction order generalizing station with
  | nil => exact .refl station
  | cons sequence _ ih => exact ih (station.fail sequence error)
  | swap one other rest => exact (fail_fail_reorders station other one error).foldl_fail rest error
  | trans _ _ ih_first ih_second => exact (ih_first station).trans (ih_second station)

/-- The order in which the requests of a failed connection end does not matter. In every order of
them it is such a path, and leads to the same window and the same line; only the failures and the
events that the path adds may be in another order.
-/
theorem handleFailure_in_any_order [Responder ρ] {order : List UInt16} (station : Station ρ)
    (all : order.Perm station.window.outstanding.keys) (error : Error)
    : let ended := order.foldl (fun station sequence => station.fail sequence error) station
      Path station ended ∧ Reorders ended (station.handleFailure error) :=
  ⟨foldl_path (fun station sequence => fail_path station sequence error) order station,
    foldl_fail_reorders all station error⟩

-----------------------------------------------------------------------------------------
-- Every move balances the ledger
-----------------------------------------------------------------------------------------

/-- The ledger of a window at work. -/
def ledger (station : Station ρ) : Ledger :=
  ⟨station.journal.toList, station.window.failures, station.window.promises⟩

theorem promises_perm_release {station : Station ρ} {sequence : UInt16}
    {entry : Outstanding}
    (waits : station.window.outstanding.get? sequence = some entry)
    : station.window.promises.Perm
        (entry.promise :: (station.release sequence).window.promises) :=
  (Table.values_perm_erase waits).map Outstanding.promise

theorem mem_promises {window : Window} {sequence : UInt16} {entry : Outstanding}
    (waits : window.outstanding.get? sequence = some entry)
    : entry.promise ∈ window.promises :=
  List.mem_map_of_mem (Table.mem_values_iff.mpr ⟨sequence, waits⟩)

/-- A request that fails is one settlement. -/
theorem fail_settles {station : Station ρ} {sequence : UInt16} {entry : Outstanding}
    (waits : station.window.outstanding.get? sequence = some entry) (error : Error)
    (tag : UInt8)
    : Ledger.Settles tag station.ledger (station.fail sequence error).ledger
        (Settlement.events ⟨entry.promise, .failed error⟩)
        [⟨entry.promise, .failed error⟩] := by
  have released := promises_perm_release waits
  refine .single ?_ ?_ ?_ trivial
  · simp [ledger, fail, waits, report, log, release, Settlement.events, Outstanding.promise]
  · simp [ledger, fail, waits, report, log, release, Settlement.failures, Outstanding.promise]
  · simpa [ledger, fail, waits, report, log, release, Window.promises] using released

/-- A request with an answer that it accepts is one settlement, by its sender's verdict. -/
theorem accept_settles {station : Station ρ} {entry : Outstanding} {response : Response}
    (waits : station.window.outstanding.get? response.sequence = some entry)
    (own : entry.request.sequence = some response.sequence)
    (accepted : entry.request.accepts response.result = true) (tag : UInt8)
    : ∃ settlement,
        Ledger.Settles tag station.ledger (station.accept entry response).ledger
          settlement.events [settlement] := by
  have released := promises_perm_release waits
  cases verdict : entry.handler.check response with
  | ok =>
      refine ⟨⟨entry.promise, .answered response⟩, .single ?_ ?_ ?_ ?_⟩
      · simp [ledger, accept, verdict, log, count, release, Settlement.events,
          Outstanding.promise]
      · simp [ledger, accept, verdict, log, count, release, Settlement.failures]
      · simpa [ledger, accept, verdict, log, count, release, Window.promises] using released
      · exact ⟨own, accepted, verdict⟩
  | error error =>
      refine ⟨⟨entry.promise, .rejected response error⟩, .single ?_ ?_ ?_ ?_⟩
      · simp [ledger, accept, verdict, log, count, release, report, Settlement.events,
          Outstanding.promise]
      · simp [ledger, accept, verdict, log, count, release, report, Settlement.failures,
          Outstanding.promise]
      · simpa [ledger, accept, verdict, log, count, release, report, Window.promises]
          using released
      · exact ⟨own, accepted, verdict⟩

variable [Responder ρ]

/-- A transmission that ends well is written down, and nothing else is; one that fails may
have been too late for that.
-/
theorem journal_of_transmit {station after : Station ρ} {datagram : Datagram}
    {refusal : Option Error} (sent : station.transmit datagram = (refusal, after))
    : (refusal = some .closed ∧ after.journal = station.journal)
      ∨ after.journal
        = station.journal.push
            (.transmitted station.line.connection.number datagram refusal) := by
  unfold transmit at sent
  dsimp only at sent
  split at sent
  · obtain ⟨rfl, rfl⟩ := Prod.mk.inj sent
    exact .inl ⟨rfl, rfl⟩
  · obtain ⟨rfl, rfl⟩ := Prod.mk.inj sent
    exact .inr rfl

/-- A transmission writes down itself, or nothing where the connection was closed. -/
theorem written_of_transmit {station after : Station ρ} {datagram : Datagram}
    {refusal : Option Error} (sent : station.transmit datagram = (refusal, after))
    : ∃ tried,
        after.journal.toList = station.journal.toList ++ tried
        ∧ (∀ event ∈ tried,
          event = .transmitted station.line.connection.number datagram refusal)
        ∧ (refusal = some .closed
          ∨ .transmitted station.line.connection.number datagram refusal ∈ tried) := by
  rcases journal_of_transmit sent with ⟨closed, unwritten⟩ | written
  · exact ⟨[], by rw [unwritten, List.append_nil], by simp, .inl closed⟩
  · refine ⟨[.transmitted station.line.connection.number datagram refusal], ?_, by simp,
      .inr (List.mem_singleton.mpr rfl)⟩
    rw [written, Array.toList_push]

/-- Trying a request again settles nothing, and only its own datagram goes out. -/
theorem renew_settles {station after : Station ρ} {sequence : UInt16} {entry : Outstanding}
    {remaining : Nat} {reason : Reason} {refusal : Option Error} {tag : UInt8}
    (waits : station.window.outstanding.get? sequence = some entry)
    (encoded : entry.datagram = entry.request.datagram tag)
    (sent
      : (station.renew sequence entry remaining reason).transmit entry.datagram
        = (refusal, after))
    : ∃ events, Ledger.Settles tag station.ledger after.ledger events [] := by
  have window := (of_transmit sent).1
  have renewed : station.window.promises.Perm after.window.promises := by
    rw [window]
    exact (promises_perm_release waits).trans
      ((Table.values_insert_perm station.window.outstanding sequence
        (entry.repeated remaining reason)).map Outstanding.promise).symm
  have failures : after.window.failures = station.window.failures := by rw [window]; rfl
  rcases journal_of_transmit sent with ⟨_, unwritten⟩ | written
  · refine ⟨[], ?_, rfl, ?_, ?_, by simp, by simp [transmissions]⟩
    · simp [ledger, unwritten, renew, count]
    · simpa [ledger] using failures
    · simpa [ledger] using renewed
  · refine ⟨[.transmitted station.line.connection.number entry.datagram refusal], ?_, rfl, ?_,
      ?_, by simp, ?_⟩
    · simp [ledger, written, renew, count]
    · simpa [ledger] using failures
    · simpa [ledger] using renewed
    · intro datagram member
      obtain rfl : datagram = entry.datagram := by
        simpa [transmissions, Event.datagram?] using member
      exact ⟨entry.promise, mem_promises waits, encoded.symm⟩

/-- Trying a request again keeps a window sound. -/
theorem sound_of_renew {station after : Station ρ} {sequence : UInt16} {entry : Outstanding}
    {remaining : Nat} {reason : Reason} {refusal : Option Error}
    (sound : station.window.Sound)
    (waits : station.window.outstanding.get? sequence = some entry)
    (sent
      : (station.renew sequence entry remaining reason).transmit entry.datagram
        = (refusal, after))
    : after.window.Sound := by
  have window := (of_transmit sent).1
  have outstanding : after.window.outstanding
      = station.window.outstanding.insert sequence (entry.repeated remaining reason) := by
    rw [window]
    rfl
  have keyed := sound.keyed waits
  have encoded := sound.encoded waits
  exact sound.of_insert (by rw [window]; rfl) outstanding keyed encoded

omit [Responder ρ] in
theorem sound_of_fail {station : Station ρ} {sequence : UInt16} {entry : Outstanding}
    (sound : station.window.Sound)
    (waits : station.window.outstanding.get? sequence = some entry) (error : Error)
    : (station.fail sequence error).window.Sound := by
  have erased : (station.fail sequence error).window.outstanding
      = station.window.outstanding.erase sequence := by rw [outstanding_fail, waits]
  exact sound.of_erase (fail_sameOwner station sequence error).config erased

/-- Every move keeps a window sound, by cases on the move. -/
theorem Move.sound {before after : Station ρ} (move : Move before after)
    (sound : before.window.Sound)
    : after.window.Sound := by
  cases move with
  | hear => exact sound
  | overlook => exact ⟨sound.keyed, sound.encoded⟩
  | lapse => exact ⟨sound.keyed, sound.encoded⟩
  | @accept entry response _ _ =>
      exact sound.of_erase (accept_sameOwner before entry response).config
        (outstanding_accept before entry response)
  | fail waits error => exact sound_of_fail sound waits error
  | renew waits _ sent => exact sound_of_renew sound waits sent
  | @refuse _ _ _ _ _ error waits _ refused =>
      exact sound_of_fail (sound_of_renew sound waits refused) (waits_of_renew refused) error

/-- Every move of a sound window balances its ledger, by cases on the move. -/
theorem Move.settles {before after : Station ρ} (move : Move before after)
    (sound : before.window.Sound)
    : ∃ events settled,
        Ledger.Settles before.window.config.tag before.ledger after.ledger events settled := by
  cases move with
  | hear => exact ⟨[], [], .refl _ _⟩
  | overlook => exact ⟨[], [], .refl _ _⟩
  | lapse => exact ⟨[], [], .refl _ _⟩
  | accept waits accepted =>
      obtain ⟨settlement, settles⟩ := accept_settles waits (sound.keyed waits) accepted _
      exact ⟨_, _, settles⟩
  | fail waits error => exact ⟨_, _, fail_settles waits error _⟩
  | renew waits _ sent =>
      obtain ⟨events, settles⟩ := renew_settles waits (sound.encoded waits) sent
      exact ⟨events, [], settles⟩
  | @refuse _ _ _ _ _ error waits _ refused =>
      obtain ⟨events, settles⟩ := renew_settles waits (sound.encoded waits) refused
      exact ⟨_, _, settles.trans (fail_settles (waits_of_renew refused) error _)⟩

/-- A path keeps a window sound and balances its ledger, by induction on its moves. -/
theorem Path.settles {before after : Station ρ} (path : Path before after)
    (sound : before.window.Sound)
    : after.window.Sound
      ∧ ∃ events settled,
          Ledger.Settles before.window.config.tag before.ledger after.ledger events
            settled := by
  induction path with
  | refl => exact ⟨sound, [], [], .refl _ _⟩
  | tail path move ih =>
      obtain ⟨held, events, settled, settles⟩ := ih
      obtain ⟨more, later, next⟩ := move.settles held
      have config := (Path.releases path).owner.config
      exact ⟨move.sound held, _, _, settles.trans (config ▸ next)⟩

end Station

end MeshControl.Link
