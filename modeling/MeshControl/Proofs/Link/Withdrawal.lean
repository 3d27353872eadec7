import MeshControl.Proofs.Link.Attempts
import MeshControl.Proofs.Link.Census
import MeshControl.Proofs.Link.Chronicle

/-! Sends that fail. A request that did not go out is nowhere afterwards: what is left is what
making room for it has done to older requests, and the datagram that its connection refused, if it
came that far. Its sender's handler is kept by nobody, so it is never asked and never told.
-/

namespace MeshControl.Link

open Scp

namespace Station

variable {ρ : Type}

-----------------------------------------------------------------------------------------
-- What a failed send leaves of itself
-----------------------------------------------------------------------------------------

/-- From one station to a later one a request was offered and is gone again: the window and all
routes are as they were, and at most one refused transmission was written down.
-/
structure Withdrawn (room last : Station ρ) (datagram : Datagram) : Prop where
  window : last.window = room.window
  dispatcher : last.line.dispatcher = room.line.dispatcher
  journal
    : last.journal = room.journal
      ∨ ∃ error,
          last.journal
          = room.journal.push
              (.transmitted room.line.connection.number datagram (some error))

/-- A number leads where it led, unless its request has ended and it leads nowhere. -/
theorem Releases.route_cases {before after : Station ρ} (released : Releases before after)
    (sequence : UInt16)
    : after.line.dispatcher.routes.get? sequence = before.line.dispatcher.routes.get? sequence
      ∨ before.window.isOutstanding sequence = true
        ∧ after.window.isOutstanding sequence = false
        ∧ after.line.dispatcher.routes.get? sequence = none := by
  have steady := released.kept sequence
  cases waited : before.window.isOutstanding sequence with
  | false =>
      -- No request is taken on where requests only end.
      cases waits : after.window.isOutstanding sequence with
      | false => exact .inl (steady (waits.trans waited.symm))
      | true => exact absurd (released.waited sequence waits) (by simp [waited])
  | true =>
      cases waits : after.window.isOutstanding sequence with
      | true => exact .inl (steady (waits.trans waited.symm))
      | false => exact .inr ⟨rfl, rfl, released.freed sequence waited waits⟩

variable [Responder ρ]

/-- A number that was taken for a refused datagram is given back, and no other is. -/
theorem withdrawn_of_refused {room after : Station ρ} {sequence : UInt16} {datagram : Datagram}
    {error : Error} (free : room.line.dispatcher.isRegistered sequence = false)
    (refused : (room.enroll sequence).transmit datagram = (some error, after))
    : Withdrawn room (after.withdraw sequence) datagram := by
  obtain ⟨window, dispatcher⟩ := of_transmit refused
  refine ⟨window.trans rfl, ?_, ?_⟩
  · have restored : (room.line.dispatcher.routes.insert sequence room.window.inbox).erase sequence
        = room.line.dispatcher.routes :=
      (Table.erase_insert ..).trans (Table.erase_of_get?_eq_none (free_of_isRegistered free))
    simp only [withdraw, Dispatcher.unregister, dispatcher, enroll, restored]
  · rcases journal_of_transmit refused with ⟨-, unwritten⟩ | written
    · exact .inl unwritten
    · exact .inr ⟨error, written⟩

/-- A request that may go out and fails is withdrawn once room was made, by cases on how it failed.
-/
theorem withdrawn_of_send_error {station after : Station ρ} {request : Request}
    {sequence : UInt16} {handler : Handler} {error : Error} (valid : request.validate = .ok ())
    (failed : station.send request sequence handler = (.error error, after))
    : Withdrawn station.makeRoom after
        ((request.numbered sequence).datagram station.window.config.tag) := by
  have ending := send_sending station request sequence handler
  rw [failed] at ending
  cases ending with
  | malformed invalid =>
      rw [valid] at invalid
      cases invalid
  | taken => exact ⟨rfl, rfl, .inl rfl⟩
  | refused _ free tried => exact withdrawn_of_refused free tried

/-- A send that fails does so whatever its sender wants of the answer. -/
theorem send_error_of_handler {station after : Station ρ} {request : Request}
    {sequence : UInt16} {handler : Handler} {error : Error}
    (failed : station.send request sequence handler = (.error error, after)) (other : Handler)
    : station.send request sequence other = (.error error, after) := by
  rw [send_eq] at failed ⊢
  split
  · next invalid =>
      rw [invalid] at failed
      exact failed
  · next datagram encoded =>
      rw [encoded] at failed
      dsimp only at failed
      split
      · next taken =>
          rw [if_pos taken] at failed
          exact failed
      · next free =>
          rw [if_neg free] at failed
          split
          · next tried =>
              rw [tried] at failed
              exact failed
          · next tried =>
              rw [tried] at failed
              cases failed

/-- Nothing is counted for a request that did not go out. -/
theorem requests_of_send_error {station after : Station ρ} {request : Request}
    {sequence : UInt16} {handler : Handler} {error : Error}
    (failed : station.send request sequence handler = (.error error, after))
    : after.window.counters.requests = station.window.counters.requests :=
  (send_score failed).requests

end Station

namespace Junction

variable {ρ : Type}

/-- A window that is put back as it was changes nothing. -/
theorem update_station {junction : Junction ρ} {number : Nat} {window : Window}
    (listed : junction.windows.get? number = some window)
    : junction.update number (junction.station window) = junction := by
  simp only [update, station, Table.insert_of_get? listed]

/-- From one junction to a later one, requests of one window may have ended, and nothing else has
changed for it or for the others: no route was added or led elsewhere, and every route that is
gone belonged to a request of that window that has ended.
-/
structure Freed (junction after : Junction ρ) (number : Nat) (before later : Window) : Prop where
  others
    : ∀ other,
        other ≠ number → after.windows.get? other = junction.windows.get? other
  added
    : ∀ sequence owner,
        after.line.dispatcher.routes.get? sequence = some owner
        → junction.line.dispatcher.routes.get? sequence = some owner
  removed
    : ∀ sequence owner,
        junction.line.dispatcher.routes.get? sequence = some owner
        → after.line.dispatcher.routes.get? sequence = some owner
          ∨ owner = number
            ∧ before.isOutstanding sequence = true
            ∧ later.isOutstanding sequence = false
  waiting
    : ∀ sequence, later.isOutstanding sequence = true → before.isOutstanding sequence = true

/-- What the moves of one window end is freed at the junction. -/
theorem freed_of_releases {junction : Junction ρ} (coherent : junction.Coherent) {number : Nat}
    {window : Window} (listed : junction.windows.get? number = some window)
    {after : Station ρ} (released : (junction.station window).Releases after)
    : Freed junction (junction.update number after) number window after.window where
  others := by
    intro other apart
    simp [update, apart]
  added := by
    intro sequence owner led
    rcases released.route_cases sequence with same | ⟨-, -, gone⟩
    · exact same.symm.trans led
    · cases gone.symm.trans led
  removed := by
    intro sequence owner led
    rcases released.route_cases sequence with same | ⟨waited, ended, -⟩
    · exact .inl (same.trans led)
    · have own := (coherent.own_routes listed sequence).mpr waited
      exact .inr ⟨Option.some.inj (led.symm.trans own), waited, ended⟩
  waiting := released.waited

variable [Responder ρ]

/-- A window that is gone sends nothing. -/
theorem send_of_missing {junction : Junction ρ} {number : Nat}
    (missing : junction.windows.get? number = none) (request : Request) (sequence : UInt16)
    (handler : Handler)
    : junction.send number request sequence handler = (.error .closed, junction) := by
  simp only [Junction.send, missing]

/-- What a window does in a send takes effect. -/
theorem send_of_listed {junction : Junction ρ} {number : Nat} {window : Window}
    (listed : junction.windows.get? number = some window) {request : Request}
    {sequence : UInt16} {handler : Handler} {result : Except Error Unit} {last : Station ρ}
    (sent : (junction.station window).send request sequence handler = (result, last))
    : junction.send number request sequence handler = (result, junction.update number last) := by
  simp only [Junction.send, listed]
  rw [sent]

/-- A send that fails leaves nothing of its request behind, in any window of any history. It fails
in the same way whatever its sender wanted to do with the answer, so that nobody is left who could
ask or tell that sender. A request that may not go out, and one for a window that is gone, change
nothing at all. Any other has had room made for it, in which requests taken on before may have
ended; apart from that no request waits, nothing is counted, written down or kept for collection,
and no route is added or taken away, except for a record of the transmission that was refused.
-/
theorem send_error_leaves_nothing (connection : Connection ρ) (operations : List Operation)
    {number : Nat} {request : Request} {sequence : UInt16} {handler : Handler} {error : Error}
    (failed
      : (((fresh connection).run operations).send number request sequence handler).1
        = .error error)
    : let junction := (fresh connection).run operations
      let after := (junction.send number request sequence handler).2
      (∀ other, junction.send number request sequence other = (.error error, after))
      ∧ (junction.windows.get? number = none → after = junction)
      ∧ (∀ fault, request.validate = .error fault → after = junction)
      ∧ ∀ window,
          junction.windows.get? number = some window
          → let start := junction.station window
            let datagram := (request.numbered sequence).datagram window.config.tag
            ∃ last,
              after = junction.update number last
              ∧ last.window.counters.requests = window.counters.requests
              ∧ Freed junction after number window last.window
              ∧ (request.validate = .ok ()
                → start.makeRoom.Withdrawn last datagram
                  ∧ ∃ events settled,
                      Ledger.Settles window.config.tag start.ledger start.makeRoom.ledger
                        events settled) := by
  intro junction after
  obtain ⟨_, books⟩ :=
    (fresh_chronicle connection).run (fresh_coherent connection) operations
  have coherent : junction.Coherent := (fresh_coherent connection).run operations
  cases listed : junction.windows.get? number with
  | none =>
      have gone := send_of_missing listed request sequence
      have unchanged : after = junction := congrArg Prod.snd (gone handler)
      have closed : error = .closed :=
        Except.error.inj (failed.symm.trans (congrArg Prod.fst (gone handler)))
      refine ⟨fun other => ?_, fun _ => unchanged, fun _ _ => unchanged, ?_⟩
      · rw [unchanged, closed]
        exact gone other
      · intro _ impossible
        cases impossible
  | some window =>
      let start := junction.station window
      generalize ended : start.send request sequence handler = outcome
      obtain ⟨result, last⟩ := outcome
      have placed := send_of_listed listed ended
      obtain rfl : result = .error error := (congrArg Prod.fst placed).symm.trans failed
      have left : after = junction.update number last := congrArg Prod.snd placed
      refine ⟨fun other => ?_, fun none => ?_, fun fault invalid => ?_, ?_⟩
      · rw [left]
        exact send_of_listed listed (Station.send_error_of_handler ended other)
      · cases none
      · have stayed : last = start :=
          congrArg Prod.snd (ended.symm.trans (start.send_of_invalid sequence handler invalid))
        rw [left, stayed]
        exact update_station listed
      · intro same found
        obtain rfl := Option.some.inj found
        refine ⟨last, left, Station.requests_of_send_error ended, ?_, fun valid => ?_⟩
        · rw [left]
          exact freed_of_releases coherent listed (Station.releases_of_send_error ended)
        · have sound := (books.accounts listed).sound
          exact ⟨Station.withdrawn_of_send_error valid ended,
            ((Station.makeRoom_path start).settles sound).2⟩

/-- Two windows on a connection that takes one datagram and refuses the next; the first has a
request on the way.
-/
def firstOfTwo : List Operation :=
  [.openWindow {}, .openWindow {}, .send 0 (Operation.getVersion .origin 0) 5 {}]

/-- The second window may not use the number of the first, whose route stays where it is. -/
theorem second_leaves_first
    : let junction := (fresh refusingConnection).run firstOfTwo
      let after := (junction.send 1 (Operation.getVersion .origin 0) 5 {}).2
      junction.line.dispatcher.routes.get? 5 = some 0
      ∧ after.line.dispatcher.routes.get? 5 = some 0 := by
  intro junction after
  have refused : (((fresh refusingConnection).run firstOfTwo).send 1
      (Operation.getVersion .origin 0) 5 {}).1
      = .error (.invalidParameter "sequence" "5" "이 연결에서 응답을 기다리는 중") := by cbv
  have led : junction.line.dispatcher.routes.get? 5 = some 0 := by cbv
  have present : (junction.windows.get? 1).isSome = true := by cbv
  obtain ⟨window, listed⟩ := Option.isSome_iff_exists.mp present
  obtain ⟨_, _, _, kept⟩ := send_error_leaves_nothing refusingConnection firstOfTwo refused
  obtain ⟨last, _, _, freed, _⟩ := kept window listed
  refine ⟨led, ?_⟩
  rcases freed.removed 5 0 led with still | ⟨other, _⟩
  · exact still
  · cases other

end Junction

end MeshControl.Link
