import MeshControl.Proofs.Link.Chronicle

/-! Careers of requests. A request that a window offers to its connection is sent, sent again while
its budget lasts, and ends at most once. A career says how far it has come; each move of a window
is the next part of one career at most.
-/

namespace MeshControl.Link

open Scp

/-- Any request may end with an error. -/
theorem Settlement.lawful_failed (promise : Promise) (error : Error)
    : Settlement.Lawful ⟨promise, .failed error⟩ :=
  trivial

-----------------------------------------------------------------------------------------
-- Offers and careers
-----------------------------------------------------------------------------------------

/-- A request that is offered to the connection for the first time. -/
structure Offer where
  /-- The number of the window that offers it, and the window's settings. -/
  number : Nat
  config : Config
  promise : Promise
  /-- Why it could not be sent, in which case its window does not keep it. -/
  refusal : Option Error

/-- The bytes of a request, under its sequence number and with the tag of its window. -/
def Offer.datagram (offer : Offer) : Datagram :=
  offer.promise.request.datagram offer.config.tag

/-- The requests of one window among those that were offered and kept. -/
def kept (number : Nat) (offers : List Offer) : List Promise :=
  (offers.filter fun offer => offer.number = number ∧ offer.refusal.isNone).map Offer.promise

theorem kept_append (number : Nat) (first second : List Offer)
    : kept number (first ++ second) = kept number first ++ kept number second := by
  simp only [kept, List.filter_append, List.map_append]

/-- How far a request has come: how often it was sent, the error of the transmission that the
connection refused, and how it ended.
-/
structure Career where
  offer : Offer
  sends : Nat := 0
  refused : Option Error := none
  outcome : Option Outcome := none

namespace Career

/-- What happened to a request, in order: transmissions of the same bytes, of which only the last
may be refused, then its end.
-/
def events (place : Nat) (career : Career) : List Event :=
  List.replicate career.sends (.transmitted place career.offer.datagram none)
    ++ career.refused.toList.map (fun error =>
        .transmitted place career.offer.datagram (some error))
    ++ career.outcome.toList.flatMap fun outcome =>
        Settlement.events ⟨career.offer.promise, outcome⟩

/-- A career that the rules allow: the request is written as its own check lets it be, goes out as
often as its budget allows at most, at least once if its window keeps it, and after a refusal it
has ended.
-/
structure Lawful (career : Career) : Prop where
  encoded
    : career.offer.promise.request.encode career.offer.config.tag = .ok career.offer.datagram
  bounded : career.sends + career.refused.toList.length ≤ career.offer.config.budget
  begun : career.offer.refusal = none → 0 < career.sends
  unsent : career.offer.refusal ≠ none → career.sends = 0 ∧ career.outcome = none
  broken
    : ∀ error,
        career.refused = some error
        → career.offer.refusal = some error ∨ career.outcome = some (.failed error)
  settled
    : ∀ outcome,
        career.outcome = some outcome
        → Settlement.Lawful ⟨career.offer.promise, outcome⟩

/-- The career of a request that waits in a window: nothing refused or ended it, and what it was
sent and what it has left make up the budget.
-/
structure Waits (career : Career) (number : Nat) (config : Config) (sequence : UInt16)
    (entry : Outstanding) : Prop where
  sender : career.offer.number = number
  settings : career.offer.config = config
  promise : career.offer.promise = entry.promise
  numbered : entry.request.sequence = some sequence
  datagram : entry.datagram = career.offer.datagram
  admitted : career.offer.refusal = none
  unbroken : career.refused = none
  unsettled : career.outcome = none
  budget : career.sends + entry.remaining = config.budget

/-- The request was sent once more. -/
def send (career : Career) : Career :=
  { career with sends := career.sends + 1 }

/-- The connection refused the request. -/
def refuse (career : Career) (error : Error) : Career :=
  { career with refused := some error }

/-- The request ended. -/
def settle (career : Career) (outcome : Outcome) : Career :=
  { career with outcome := some outcome }

theorem events_send {career : Career} (place : Nat) (unbroken : career.refused = none)
    (unsettled : career.outcome = none)
    : career.send.events place
      = career.events place ++ [.transmitted place career.offer.datagram none] := by
  simp [events, send, unbroken, unsettled, List.replicate_succ']

theorem events_refuse {career : Career} (place : Nat) (error : Error)
    (unbroken : career.refused = none) (unsettled : career.outcome = none)
    : (career.refuse error).events place
      = career.events place ++ [.transmitted place career.offer.datagram (some error)] := by
  simp [events, refuse, unbroken, unsettled]

theorem events_settle {career : Career} (place : Nat) (outcome : Outcome)
    (unsettled : career.outcome = none)
    : (career.settle outcome).events place
      = career.events place ++ Settlement.events ⟨career.offer.promise, outcome⟩ := by
  simp [events, settle, unsettled]

/-- A request that waits may be sent again if it has a time left. -/
theorem Waits.send {career : Career} {number : Nat} {config : Config} {sequence : UInt16}
    {entry : Outstanding} (waits : career.Waits number config sequence entry) {remaining : Nat}
    (left : entry.remaining = remaining + 1) (reason : Reason)
    : career.send.Waits number config sequence (entry.repeated remaining reason) where
  sender := waits.sender
  settings := waits.settings
  promise := waits.promise
  numbered := waits.numbered
  datagram := waits.datagram
  admitted := waits.admitted
  unbroken := waits.unbroken
  unsettled := waits.unsettled
  budget := by
    have budget := waits.budget
    simp only [Career.send, Outstanding.repeated]
    omega

theorem Lawful.send {career : Career} (lawful : career.Lawful) {number : Nat} {config : Config}
    {sequence : UInt16} {entry : Outstanding} (waits : career.Waits number config sequence entry)
    (left : entry.remaining ≠ 0)
    : career.send.Lawful where
  encoded := lawful.encoded
  bounded := by
    have budget := waits.budget
    rw [← waits.settings] at budget
    simp only [Career.send, waits.unbroken, Option.toList_none, List.length_nil]
    omega
  begun := fun _ => Nat.succ_pos career.sends
  unsent := fun refused => absurd waits.admitted refused
  broken := lawful.broken
  settled := lawful.settled

/-- The end of a request that waits is lawful if its settlement is. -/
theorem Lawful.settle {career : Career} (lawful : career.Lawful) {number : Nat} {config : Config}
    {sequence : UInt16} {entry : Outstanding} (waits : career.Waits number config sequence entry)
    {outcome : Outcome} (settled : Settlement.Lawful ⟨entry.promise, outcome⟩)
    : (career.settle outcome).Lawful where
  encoded := lawful.encoded
  bounded := lawful.bounded
  begun := lawful.begun
  unsent := fun refused => absurd waits.admitted refused
  broken := fun error broken => by
    rw [Career.settle, waits.unbroken] at broken
    cases broken
  settled := fun ending ended => by
    obtain rfl := Option.some.inj ended
    rw [Career.settle, waits.promise]
    exact settled

/-- A request that waits and has a time left may be refused, with which it ends. -/
theorem Lawful.refuse {career : Career} (lawful : career.Lawful) {number : Nat}
    {config : Config} {sequence : UInt16} {entry : Outstanding}
    (waits : career.Waits number config sequence entry) (left : entry.remaining ≠ 0)
    (error : Error)
    : ((career.refuse error).settle (.failed error)).Lawful where
  encoded := lawful.encoded
  bounded := by
    have budget := waits.budget
    rw [← waits.settings] at budget
    simp only [Career.settle, Career.refuse, Option.toList_some, List.length_singleton]
    omega
  begun := lawful.begun
  unsent := fun refused => absurd waits.admitted refused
  broken := fun reason broken => by
    obtain rfl := Option.some.inj broken
    exact .inr rfl
  settled := fun ending ended => by
    obtain rfl := Option.some.inj ended
    trivial

/-- A request that may go out is written as its bytes. -/
theorem encode_of_valid {offer : Offer} (valid : offer.promise.request.validate = .ok ())
    : offer.promise.request.encode offer.config.tag = .ok offer.datagram := by
  unfold Request.encode
  rw [valid]
  rfl

/-- The career of a request before it is offered. -/
def blank (offer : Offer) : Career :=
  { offer }

/-- A request that the connection refuses at once has no career to speak of. -/
theorem lawful_blank {offer : Offer}
    (encoded : offer.promise.request.encode offer.config.tag = .ok offer.datagram)
    (refused : offer.refusal ≠ none)
    : (blank offer).Lawful where
  encoded := encoded
  bounded := Nat.zero_le _
  begun := fun admitted => absurd admitted refused
  unsent := fun _ => ⟨rfl, rfl⟩
  broken := fun _ broken => nomatch broken
  settled := fun _ ended => nomatch ended

/-- Nor has one whose refusal was written down. -/
theorem Lawful.refuse_blank {offer : Offer} {error : Error} (lawful : (blank offer).Lawful)
    (refused : offer.refusal = some error)
    : ((blank offer).refuse error).Lawful where
  encoded := lawful.encoded
  bounded := Nat.le_max_right offer.config.sends 1
  begun := lawful.begun
  unsent := lawful.unsent
  broken := fun reason broken => by
    obtain rfl := Option.some.inj broken
    exact .inl refused
  settled := lawful.settled

/-- A request that was sent once and is kept may wait. -/
theorem lawful_send_blank {offer : Offer}
    (encoded : offer.promise.request.encode offer.config.tag = .ok offer.datagram)
    (kept : offer.refusal = none)
    : (blank offer).send.Lawful where
  encoded := encoded
  bounded := Nat.le_max_right offer.config.sends 1
  begun := fun _ => Nat.one_pos
  unsent := fun refused => absurd kept refused
  broken := fun _ broken => nomatch broken
  settled := fun _ ended => nomatch ended

end Career

-----------------------------------------------------------------------------------------
-- What a move does to the request that it is about
-----------------------------------------------------------------------------------------

namespace Station

variable {ρ : Type}

/-- From one station to a later one, only the request under one number changed, and these events
were written down.
-/
structure Alters (before after : Station ρ) (sequence : UInt16) (events : List Event) : Prop where
  journal : after.journal.toList = before.journal.toList ++ events
  place : after.line.connection.number = before.line.connection.number
  config : after.window.config = before.window.config
  others
    : ∀ other,
        other ≠ sequence
        → after.window.outstanding.get? other = before.window.outstanding.get? other

theorem Alters.trans {before middle after : Station ρ} {sequence : UInt16}
    {events more : List Event} (first : Alters before middle sequence events)
    (second : Alters middle after sequence more)
    : Alters before after sequence (events ++ more) where
  journal := by rw [second.journal, first.journal, List.append_assoc]
  place := second.place.trans first.place
  config := second.config.trans first.config
  others := fun other apart => (second.others other apart).trans (first.others other apart)

/-- Ending a request changes nothing else. -/
theorem fail_alters {station : Station ρ} {sequence : UInt16} {entry : Outstanding}
    (waits : station.window.outstanding.get? sequence = some entry) (error : Error)
    : Alters station (station.fail sequence error) sequence
        (Settlement.events ⟨entry.promise, .failed error⟩) where
  journal := (fail_settles waits error 0).journal
  place := by rw [line_fail waits error, release]
  config := (fail_sameOwner station sequence error).config
  others := fun other apart => by
    rw [outstanding_fail, waits]
    simp [Table.get?_erase, apart]

/-- Taking an answer ends its request in the way that the sender's verdict tells. -/
theorem accept_alters {station : Station ρ} {entry : Outstanding} {response : Response}
    (own : entry.request.sequence = some response.sequence)
    (accepted : entry.request.accepts response.result = true)
    : ∃ outcome,
        Settlement.Lawful ⟨entry.promise, outcome⟩
        ∧ Alters station (station.accept entry response) response.sequence
            (Settlement.events ⟨entry.promise, outcome⟩) := by
  have place : (station.accept entry response).line.connection.number
      = station.line.connection.number := by rw [line_accept, release]
  have config := (accept_sameOwner station entry response).config
  have others (other : UInt16) (apart : other ≠ response.sequence)
      : (station.accept entry response).window.outstanding.get? other
        = station.window.outstanding.get? other := by
    simp [outstanding_accept, Table.get?_erase, apart]
  cases verdict : entry.handler.check response with
  | ok =>
      refine ⟨.answered response, ⟨own, accepted, verdict⟩, ?_, place, config, others⟩
      simp [accept, verdict, log, count, release, Settlement.events, Outstanding.promise]
  | error error =>
      refine ⟨.rejected response error, ⟨own, accepted, verdict⟩, ?_, place, config, others⟩
      simp [accept, verdict, log, count, release, report, Settlement.events,
        Outstanding.promise]

/-- From one station to a later one, the request under one number changed alone, and its bytes were
sent: they are written down unless the connection was closed.
-/
def Tries (before after : Station ρ) (sequence : UInt16) (datagram : Datagram)
    (refusal : Option Error) : Prop :=
  (refusal = some .closed ∧ Alters before after sequence [])
  ∨ Alters before after sequence
      [.transmitted before.line.connection.number datagram refusal]

/-- What is sent was written down. -/
theorem Tries.sent {before after : Station ρ} {sequence : UInt16} {datagram : Datagram}
    (tries : Tries before after sequence datagram none)
    : Alters before after sequence
        [.transmitted before.line.connection.number datagram none] :=
  tries.resolve_left fun closed => nomatch closed.1

/-- A refused try is the next part of a career: unless the connection was closed, the career has one
more transmission, its last.
-/
theorem Tries.refuses {before after : Station ρ} {sequence : UInt16} {career : Career}
    {error : Error} {place : Nat}
    (tries : Tries before after sequence career.offer.datagram (some error))
    (located : before.line.connection.number = place) (unbroken : career.refused = none)
    (unsettled : career.outcome = none)
    : ∃ (next : Career) (events : List Event),
        (next = career ∨ next = career.refuse error)
        ∧ Alters before after sequence events
        ∧ next.events place = career.events place ++ events := by
  rcases tries with ⟨_, alters⟩ | alters
  · exact ⟨career, [], .inl rfl, alters, (List.append_nil _).symm⟩
  · exact ⟨career.refuse error, _, .inr rfl, located ▸ alters,
      Career.events_refuse place error unbroken unsettled⟩

/-- A wait stays on its connection. -/
theorem number_await (line : Line ρ) (inbox : Nat) (limit : Duration)
    : (line.await inbox limit).2.connection.number = line.connection.number := by
  unfold Line.await
  split
  · split <;> rfl
  · rfl

variable [Responder ρ]

/-- So does a transmission. -/
theorem number_of_transmit {station after : Station ρ} {datagram : Datagram}
    {refusal : Option Error} (sent : station.transmit datagram = (refusal, after))
    : after.line.connection.number = station.line.connection.number := by
  have transmitted : after = (station.transmit datagram).2 := by rw [sent]
  rw [transmitted]
  unfold transmit Connection.send
  dsimp only
  split <;> rfl

/-- A change of the request before its bytes are sent is part of the same try. -/
theorem Tries.of_transmit {station ready after : Station ρ} {sequence : UInt16}
    {datagram : Datagram} {refusal : Option Error}
    (readied : Alters station ready sequence [])
    (sent : ready.transmit datagram = (refusal, after))
    : Tries station after sequence datagram refusal := by
  have window := (Station.of_transmit sent).1
  have transmits {events : List Event}
      (written : after.journal.toList = ready.journal.toList ++ events)
      : Alters station after sequence events :=
    readied.trans
      ⟨written, number_of_transmit sent, by rw [window], fun other _ => by rw [window]⟩
  rcases journal_of_transmit sent with ⟨closed, unwritten⟩ | written
  · exact .inl ⟨closed, transmits (by rw [unwritten, List.append_nil])⟩
  · refine .inr (transmits ?_)
    rw [written, Array.toList_push, readied.place]

/-- A request that is tried again changes alone. -/
theorem renew_tries {station after : Station ρ} {sequence : UInt16} {entry : Outstanding}
    {remaining : Nat} {reason : Reason} {refusal : Option Error}
    (sent
      : (station.renew sequence entry remaining reason).transmit entry.datagram
        = (refusal, after))
    : Tries station after sequence entry.datagram refusal := by
  have paid : Alters station (station.renew sequence entry remaining reason) sequence [] :=
    ⟨(List.append_nil _).symm, rfl, rfl, fun other apart => by
      simp [renew, Table.get?_insert, apart]⟩
  exact .of_transmit paid sent

/-- So does a request that is tried for the first time. -/
theorem enroll_tries {room after : Station ρ} {sequence : UInt16} {datagram : Datagram}
    {refusal : Option Error} (sent : (room.enroll sequence).transmit datagram = (refusal, after))
    : Tries room after sequence datagram refusal := by
  have enrolled : Alters room (room.enroll sequence) sequence [] :=
    ⟨(List.append_nil _).symm, rfl, rfl, fun _ _ => rfl⟩
  exact .of_transmit enrolled sent

end Station

end MeshControl.Link
