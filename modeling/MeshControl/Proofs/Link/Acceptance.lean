import MeshControl.Halt
import MeshControl.Proofs.Link.Settlement

/-! A send on the ledger: first older requests end, then the new one is offered to the
connection, and only one that went out is promised to be settled.
-/

namespace MeshControl.Link

open Scp

-----------------------------------------------------------------------------------------
-- Requests on the way
-----------------------------------------------------------------------------------------

/-- How offering a request to a connection ends: it is kept back, or refused, or it went out and
is a promise from then on.
-/
inductive Offered (tag : UInt8) (promise : Promise)
    : Except Halt Unit → List Event → List Promise → Prop
  | withheld (halt : Halt) : Offered tag promise (.error halt) [] []
  | refused (connection : Nat) (error : Error)
    : Offered tag promise (.error (.failed error))
        [.transmitted connection (promise.request.datagram tag) (some error)] []
  | sent (connection : Nat)
    : Offered tag promise (.ok ())
        [.transmitted connection (promise.request.datagram tag) none] [promise]

namespace Ledger

/-- From one ledger to a later one these requests were taken on and none ended. -/
structure Takes (before after : Ledger) (events : List Event) (taken : List Promise)
    : Prop where
  journal : after.journal = before.journal ++ events
  failures : after.failures = before.failures
  promises : (before.promises ++ taken).Perm after.promises

theorem Takes.refl (ledger : Ledger) : Takes ledger ledger [] [] where
  journal := (List.append_nil _).symm
  failures := rfl
  promises := by rw [List.append_nil]

theorem Takes.of_journal {before middle after : Ledger} {events : List Event}
    {taken : List Promise}
    (written : middle = { before with journal := before.journal ++ events })
    (took : Takes middle after [] taken)
    : Takes before after events taken := by
  subst written
  exact ⟨by rw [took.journal, List.append_nil], took.failures, took.promises⟩

/-- From one ledger to a later one a request was sent, or not: older ones ended, then it was
offered.
-/
structure Sends (tag : UInt8) (promise : Promise) (before after : Ledger)
    (result : Except Halt Unit) (events : List Event) (settled : List Settlement)
    (tried : List Event) (taken : List Promise) : Prop where
  room : ∃ middle, Settles tag before middle events settled ∧ Takes middle after tried taken
  offered : Offered tag promise result tried taken

/-- From one ledger to a later one these requests ended, and these were taken on before or in
between; what went over the connection is left out.
-/
structure Balances (before after : Ledger) (settled : List Settlement)
    (taken : List Promise) : Prop where
  told : told after.journal = told before.journal ++ settled.flatMap Settlement.events
  failures : after.failures = before.failures ++ settled.flatMap Settlement.failures
  promises
    : (before.promises ++ taken).Perm (settled.map Settlement.promise ++ after.promises)
  lawful : ∀ settlement ∈ settled, settlement.Lawful

theorem Settles.balances {tag : UInt8} {before after : Ledger} {events : List Event}
    {settled : List Settlement} (settles : Settles tag before after events settled)
    : Balances before after settled [] where
  told := by rw [settles.journal, told_append, settles.told]
  failures := settles.failures
  promises := by simpa using settles.promises
  lawful := settles.lawful

/-- An offer tells its sender nothing. -/
theorem told_of_offered {tag : UInt8} {promise : Promise} {result : Except Halt Unit}
    {tried : List Event} {taken : List Promise}
    (offered : Offered tag promise result tried taken)
    : told tried = [] := by
  cases offered <;> rfl

theorem Sends.balances {tag : UInt8} {promise : Promise} {before after : Ledger}
    {result : Except Halt Unit} {events tried : List Event} {settled : List Settlement}
    {taken : List Promise}
    (sends : Sends tag promise before after result events settled tried taken)
    : Balances before after settled taken := by
  obtain ⟨⟨middle, settles, takes⟩, offered⟩ := sends
  refine ⟨?_, ?_, ?_, settles.lawful⟩
  · rw [takes.journal, told_append, told_of_offered offered, settles.balances.told,
      List.append_nil]
  · rw [takes.failures, settles.failures]
  · have regrouped := settles.promises.append_right taken
    rw [List.append_assoc] at regrouped
    exact regrouped.trans (takes.promises.append_left _)

end Ledger

namespace Station

variable {ρ : Type}

theorem ledger_withdraw (station : Station ρ) (sequence : UInt16)
    : (station.withdraw sequence).ledger = station.ledger :=
  rfl

/-- What a send offers is written down, unless the connection is closed. -/
theorem ledger_of_enroll [Responder ρ] {station after : Station ρ} {sequence : UInt16}
    {datagram : Datagram} {refusal : Option Error}
    (tried : (station.enroll sequence).transmit datagram = (refusal, after))
    : (refusal = some .closed ∧ after.ledger = station.ledger)
      ∨ after.ledger
        = { station.ledger with
            journal :=
              station.ledger.journal
                ++ [.transmitted station.line.connection.number datagram refusal] } := by
  have window := (of_transmit tried).1
  rcases journal_of_transmit tried with ⟨closed, unwritten⟩ | written
  · refine .inl ⟨closed, ?_⟩
    simp only [ledger, unwritten, window, enroll]
  · refine .inr ?_
    simp only [ledger, written, window, enroll, Array.toList_push]

/-- A request that went out is one promise more, since none waited under its number. -/
theorem enlist_takes {station : Station ρ} {request : Request} {sequence : UInt16}
    {datagram : Datagram} {handler : Handler}
    (new : station.window.outstanding.get? sequence = none)
    : Ledger.Takes station.ledger
        (station.enlist request sequence datagram handler).ledger [] [⟨request, handler⟩] := by
  refine ⟨(List.append_nil _).symm, rfl, ?_⟩
  simp only [ledger, Window.promises, enlist, outstanding_count]
  rw [Table.values_insert_of_new _ new, List.map_append]
  exact .refl _

/-- A request waits under its own number, with the bytes that it is written as. -/
theorem enlist_sound {station : Station ρ} (sound : station.window.Sound) {request : Request}
    {sequence : UInt16} {tag : UInt8} (handler : Handler)
    (tagged : tag = station.window.config.tag)
    : (station.enlist (request.numbered sequence) sequence
        ((request.numbered sequence).datagram tag) handler).window.Sound := by
  let entry : Outstanding :=
    { request := request.numbered sequence
      datagram := (request.numbered sequence).datagram tag
      remaining := station.window.config.budget - 1
      handler }
  have keyed : entry.request.sequence = some sequence := rfl
  have encoded : entry.datagram = entry.request.datagram station.window.config.tag := by
    rw [← tagged]
  exact sound.of_insert rfl rfl keyed encoded

variable [Responder ρ]

/-- Every send of an anchored window settles older requests and offers its own, by cases on how
it ends.
-/
theorem send_sends {station after : Station ρ} {request : Request} {sequence : UInt16}
    {handler : Handler} {result : Except Error Unit} (sound : station.window.Sound)
    (anchored : station.Anchored)
    (done : station.send request sequence handler = (result, after))
    : after.window.Sound
      ∧ ∃ events settled tried taken,
          Ledger.Sends station.window.config.tag ⟨request.numbered sequence, handler⟩
            station.ledger after.ledger (result.mapError .failed) events settled tried taken := by
  have ending := send_sending station request sequence handler
  rw [done] at ending
  have path := makeRoom_path station
  obtain ⟨held, events, settled, settles⟩ := path.settles sound
  have config := (Path.releases path).owner.config
  cases ending with
  | malformed =>
      exact ⟨sound, [], [], [], [], ⟨_, .refl _ _, .refl _⟩, .withheld _⟩
  | taken => exact ⟨held, events, settled, [], [], ⟨_, settles, .refl _⟩, .withheld _⟩
  | @refused error tried _ _ refused =>
      have window := (of_transmit refused).1
      refine ⟨held.of_subset (by simp [withdraw, window, enroll])
        (by simp [withdraw, window, enroll]), ?_⟩
      rcases ledger_of_enroll refused with ⟨_, unwritten⟩ | written
      · refine ⟨events, settled, [], [], ⟨_, settles, ?_⟩, .withheld _⟩
        rw [ledger_withdraw, unwritten]
        exact .refl _
      · refine ⟨events, settled, _, [], ⟨_, settles, ?_⟩,
          .refused station.makeRoom.line.connection.number error⟩
        rw [ledger_withdraw]
        exact .of_journal written (.refl _)
  | @sent tried _ free went =>
      have window := (of_transmit went).1
      have new : tried.window.outstanding.get? sequence = none := by
        rw [window]
        cases waits : station.makeRoom.window.outstanding.get? sequence with
        | none => simpa [enroll] using waits
        | some entry =>
            have outstanding : station.makeRoom.window.isOutstanding sequence = true := by
              simp [Window.isOutstanding, Table.contains, waits]
            have led := (Path.releases path).anchored anchored sequence outstanding
            rw [free_of_isRegistered free] at led
            cases led
      have steady : tried.window.Sound := by
        rw [window]
        exact ⟨held.keyed, held.encoded⟩
      refine ⟨enlist_sound steady handler (by rw [window, ← config]; rfl), ?_⟩
      refine ⟨events, settled, _, _, ⟨_, settles, ?_⟩,
        .sent station.makeRoom.line.connection.number⟩
      rcases ledger_of_enroll went with ⟨impossible, _⟩ | written
      · cases impossible
      · exact .of_journal written (enlist_takes new)

end Station

end MeshControl.Link
