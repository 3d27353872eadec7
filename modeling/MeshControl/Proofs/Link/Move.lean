import MeshControl.Link.Station
import Mathlib.Logic.Relation

/-! What a window does while it waits, taken apart into moves. Each move is one change that the
others do not share; a step, a wait and a send are paths of moves, so a fact that every move
keeps holds after all of them.
-/

namespace MeshControl.Scp.Request

/-- The request under a sequence number. -/
def numbered (request : Request) (sequence : UInt16) : Request :=
  { request with sequence := some sequence }

/-- A number does not matter for whether a request may go out. -/
@[simp] theorem validate_numbered (request : Request) (sequence : UInt16)
    : (request.numbered sequence).validate = request.validate :=
  rfl

/-- A request that may go out is written under any number, by its own check. -/
theorem encode_numbered (request : Request) (sequence : UInt16) (tag : UInt8)
    : (request.numbered sequence).encode tag
      = request.validate.map fun _ => (request.numbered sequence).datagram tag := by
  unfold encode
  rw [validate_numbered]
  cases request.validate <;> rfl

end MeshControl.Scp.Request

namespace MeshControl.Link

open Scp

/-- A waiting request with one more reason to send it again and one time less to do so. -/
def Outstanding.repeated (entry : Outstanding) (remaining : Nat) (reason : Reason)
    : Outstanding :=
  { entry with reasons := entry.reasons ++ [reason], remaining }

namespace Station

variable {ρ : Type} [Responder ρ]

-----------------------------------------------------------------------------------------
-- Moves and paths
-----------------------------------------------------------------------------------------

/-- A waiting request after one more repetition was paid for, and before it is sent. -/
def renew (station : Station ρ) (sequence : UInt16) (entry : Outstanding) (remaining : Nat)
    (reason : Reason) : Station ρ :=
  { station with
    window :=
      { station.window with
        outstanding :=
          station.window.outstanding.insert sequence
            (entry.repeated remaining reason) } }.count
    (countRepetition reason)

/-- One change of a window at work on its connection. A repetition that the connection refuses
is one change with the end of its request, because the two are never seen apart.
-/
inductive Move : Station ρ → Station ρ → Prop
  | hear {station : Station ρ} {result : Except Error Datagram} {line : Line ρ}
    (waited
      : station.line.await station.window.inbox station.window.config.timeout
        = (result, line))
    : Move station { station with line }
  | overlook (station : Station ρ)
    : Move station
        (station.count fun counters => { counters with stale := counters.stale + 1 })
  | lapse (station : Station ρ)
    : Move station
        (station.count fun counters => { counters with timeouts := counters.timeouts + 1 })
  | accept {station : Station ρ} {entry : Outstanding} {response : Response}
    (waits : station.window.outstanding.get? response.sequence = some entry)
    (accepted : entry.request.accepts response.result = true)
    : Move station (station.accept entry response)
  | fail {station : Station ρ} {sequence : UInt16} {entry : Outstanding}
    (waits : station.window.outstanding.get? sequence = some entry) (error : Error)
    : Move station (station.fail sequence error)
  | renew {station after : Station ρ} {sequence : UInt16} {entry : Outstanding}
    {remaining : Nat} {reason : Reason}
    (waits : station.window.outstanding.get? sequence = some entry)
    (left : entry.remaining = remaining + 1)
    (sent
      : (station.renew sequence entry remaining reason).transmit entry.datagram
        = (none, after))
    : Move station after
  | refuse {station after : Station ρ} {sequence : UInt16} {entry : Outstanding}
    {remaining : Nat} {reason : Reason} {error : Error}
    (waits : station.window.outstanding.get? sequence = some entry)
    (left : entry.remaining = remaining + 1)
    (refused
      : (station.renew sequence entry remaining reason).transmit entry.datagram
        = (some error, after))
    : Move station (after.fail sequence error)

/-- Any number of moves. -/
abbrev Path : Station ρ → Station ρ → Prop :=
  Relation.ReflTransGen Move

-----------------------------------------------------------------------------------------
-- Everything that a wait does is a path
-----------------------------------------------------------------------------------------

omit [Responder ρ] in
theorem fail_of_absent {station : Station ρ} {sequence : UInt16}
    (absent : station.window.outstanding.get? sequence = none) (error : Error)
    : station.fail sequence error = station := by
  simp [fail, absent]

/-- Ending a request is a move, or nothing if it does not wait. -/
theorem fail_path (station : Station ρ) (sequence : UInt16) (error : Error)
    : Path station (station.fail sequence error) := by
  cases waits : station.window.outstanding.get? sequence with
  | none => rw [fail_of_absent waits]
  | some entry => exact .single (.fail waits error)

/-- Sending a request again is a move, whether it is sent, refused, or has ended. -/
theorem resend_path (station : Station ρ) (sequence : UInt16) (reason : Reason)
    : Path station (station.resend sequence reason) := by
  unfold resend
  cases waits : station.window.outstanding.get? sequence with
  | none => exact .refl
  | some entry =>
      dsimp only
      split
      · exact .single (.fail waits _)
      · next remaining left =>
          generalize sent
            : ((station.renew sequence entry remaining reason).transmit entry.datagram) = outcome
          obtain ⟨refusal, after⟩ := outcome
          simp only [Station.renew, Outstanding.repeated] at sent
          rw [sent]
          cases refusal with
          | none => exact .single (.renew waits left sent)
          | some error => exact .single (.refuse waits left sent)

/-- One path after another for each of some requests, by induction on them. -/
theorem foldl_path {act : Station ρ → UInt16 → Station ρ}
    (act_path : ∀ station sequence, Path station (act station sequence))
    (sequences : List UInt16) (station : Station ρ)
    : Path station (sequences.foldl act station) := by
  induction sequences generalizing station with
  | nil => exact .refl
  | cons sequence rest ih => exact (act_path station sequence).trans (ih (act station sequence))

/-- Taking in an answer is a path, by the branches of its handling. -/
theorem handleDatagram_path (station : Station ρ) (datagram : Datagram)
    : Path station (station.handleDatagram datagram) := by
  unfold handleDatagram
  split
  · next response _ =>
      unfold handleResponse
      cases waits : station.window.outstanding.get? response.sequence with
      | none => exact .single (.overlook station)
      | some entry =>
          dsimp only
          split
          · next accepted => exact .single (.accept waits accepted)
          · split
            · exact resend_path station response.sequence _
            · split <;> exact fail_path station response.sequence _
  · unfold handleUnreadable
    split
    · exact .refl
    · split
      · exact .refl
      · exact fail_path station _ _

/-- A wait in vain is a path: it is counted, then every waiting request is sent again. -/
theorem handleSilence_path (station : Station ρ) : Path station station.handleSilence :=
  .head (.lapse station)
    (foldl_path (fun station sequence => resend_path station sequence .silence) _ _)

/-- A failed connection is a path: every waiting request ends. -/
theorem handleFailure_path (station : Station ρ) (error : Error)
    : Path station (station.handleFailure error) :=
  foldl_path (fun station sequence => fail_path station sequence error) _ _

/-- One wait with what comes of it is a path. -/
theorem step_path (station : Station ρ) : Path station station.step := by
  unfold step
  split
  · next datagram line waited => exact .head (.hear waited) (handleDatagram_path _ datagram)
  · next error line waited =>
      split
      · exact .head (.hear waited) (handleSilence_path _)
      · exact .head (.hear waited) (handleFailure_path _ error)

/-- Waiting until few requests are left is a path, by the recursion of the wait. -/
theorem drain_path (limit : Nat) (station : Station ρ)
    : Path station (station.drain limit) := by
  fun_induction drain limit station with
  | case1 station few => exact .refl
  | case2 station many ih => exact (step_path station).trans ih

/-- A wait ends only when few enough requests are left. -/
theorem inProgress_drain_le (limit : Nat) (station : Station ρ)
    : (station.drain limit).window.inProgress ≤ limit := by
  fun_induction drain limit station with
  | case1 station few => exact few
  | case2 station many ih => exact ih

/-- Emptying a full window is a path. -/
theorem makeRoom_path (station : Station ρ) : Path station station.makeRoom := by
  unfold makeRoom
  dsimp only
  split
  · exact drain_path _ station
  · exact .refl

-----------------------------------------------------------------------------------------
-- The ways a send can end
-----------------------------------------------------------------------------------------

/-- The sequence number of a request that is about to go out leads to the window's inbox. -/
def enroll (station : Station ρ) (sequence : UInt16) : Station ρ :=
  { station with
    line :=
      { station.line with
        dispatcher :=
          { station.line.dispatcher with
            routes :=
              station.line.dispatcher.routes.insert sequence station.window.inbox } } }

/-- The sequence number of a request that did not go out is free again. -/
def withdraw (station : Station ρ) (sequence : UInt16) : Station ρ :=
  { station with
    line :=
      { station.line with dispatcher := station.line.dispatcher.unregister sequence } }

/-- A request that went out waits in the window. -/
def enlist (station : Station ρ) (request : Request) (sequence : UInt16)
    (datagram : Datagram) (handler : Handler) : Station ρ :=
  let entry : Outstanding :=
    { request, datagram, remaining := station.window.config.budget - 1, handler }
  let station := station.count fun counters =>
    { counters with requests := counters.requests + 1 }
  { station with
    window :=
      { station.window with
        outstanding := station.window.outstanding.insert sequence entry } }

/-- A send that may go out makes room, takes the number, and puts the request on its way. -/
theorem send_eq (station : Station ρ) (request : Request) (sequence : UInt16) (handler : Handler)
    : station.send request sequence handler
      = match (request.numbered sequence).encode station.window.config.tag with
        | .error error => (.error error, station)
        | .ok datagram =>
            if station.makeRoom.line.dispatcher.isRegistered sequence = true then
              (.error (.invalidParameter "sequence" (toString sequence)
                  "이 연결에서 응답을 기다리는 중"), station.makeRoom)
            else
              match (station.makeRoom.enroll sequence).transmit datagram with
              | (some error, after) => (.error error, after.withdraw sequence)
              | (none, after) =>
                  (.ok (), after.enlist (request.numbered sequence) sequence datagram handler) := by
  unfold Station.send
  dsimp only [Request.numbered]
  generalize ({ request with sequence := some sequence } : Request).encode
    station.window.config.tag = encoded
  cases encoded with
  | error error => rfl
  | ok datagram =>
      dsimp only
      unfold Dispatcher.register
      cases station.makeRoom.line.dispatcher.isRegistered sequence with
      | true => rfl
      | false =>
          generalize tried : (station.makeRoom.enroll sequence).transmit datagram = outcome
          obtain ⟨refusal, after⟩ := outcome
          simp only [enroll] at tried
          simp only [Bool.false_eq_true, if_false, tried]
          cases refusal <;> rfl

/-- A request that may not go out leaves everything as it was. -/
theorem send_of_invalid (station : Station ρ) {request : Request} (sequence : UInt16)
    (handler : Handler) {error : Error} (invalid : request.validate = .error error)
    : station.send request sequence handler = (.error error, station) := by
  rw [send_eq, request.encode_numbered sequence station.window.config.tag, invalid]
  rfl

/-- The four ways a send can end: the request may not go out at all, its number is in use after
room was made, the connection refuses it, or it went out and waits.
-/
inductive Sending (station : Station ρ) (request : Request) (sequence : UInt16)
    (handler : Handler) : Except Error Unit × Station ρ → Prop
  | malformed {error : Error} (invalid : request.validate = .error error)
    : Sending station request sequence handler (.error error, station)
  | taken {error : Error} (valid : request.validate = .ok ())
    (used : station.makeRoom.line.dispatcher.isRegistered sequence = true)
    : Sending station request sequence handler (.error error, station.makeRoom)
  | refused {error : Error} {after : Station ρ} (valid : request.validate = .ok ())
    (free : station.makeRoom.line.dispatcher.isRegistered sequence = false)
    (tried
      : (station.makeRoom.enroll sequence).transmit
          ((request.numbered sequence).datagram station.window.config.tag)
        = (some error, after))
    : Sending station request sequence handler (.error error, after.withdraw sequence)
  | sent {after : Station ρ} (valid : request.validate = .ok ())
    (free : station.makeRoom.line.dispatcher.isRegistered sequence = false)
    (tried
      : (station.makeRoom.enroll sequence).transmit
          ((request.numbered sequence).datagram station.window.config.tag)
        = (none, after))
    : Sending station request sequence handler
        (.ok (),
          after.enlist (request.numbered sequence) sequence
            ((request.numbered sequence).datagram station.window.config.tag) handler)

/-- Every send ends in one of these ways, by the checks it makes in turn. -/
theorem send_sending (station : Station ρ) (request : Request) (sequence : UInt16)
    (handler : Handler)
    : Sending station request sequence handler
        (station.send request sequence handler) := by
  rw [send_eq, request.encode_numbered sequence station.window.config.tag]
  cases valid : request.validate with
  | error error => exact .malformed valid
  | ok _ =>
      simp only [Except.map]
      cases free : station.makeRoom.line.dispatcher.isRegistered sequence with
      | true => exact .taken valid free
      | false =>
          simp only [Bool.false_eq_true, if_false]
          generalize tried
            : ((station.makeRoom.enroll sequence).transmit
                ((request.numbered sequence).datagram station.window.config.tag)) = outcome
          obtain ⟨refusal, after⟩ := outcome
          cases refusal with
          | some error => exact .refused valid free tried
          | none => exact .sent valid free tried

/-- A fact that every move keeps is kept by a path, by induction on its moves. -/
theorem Path.keeps {before after : Station ρ} (path : Path before after)
    {Holds : Station ρ → Prop}
    (kept : ∀ {station next}, Move station next → Holds station → Holds next)
    (holds : Holds before)
    : Holds after := by
  induction path with
  | refl => exact holds
  | tail _ move ih => exact kept move ih

end Station

end MeshControl.Link
