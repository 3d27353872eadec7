import MeshControl.Link.Connection
import MeshControl.Scp.Response

/-!
Peers that follow a script: one list of cues for each datagram they get. A peer whose script has
ended answers every request with success.
-/

namespace MeshControl.Link

open Scp Sdp

/-- One thing that a scripted peer does. -/
inductive Cue
  | answer (code : UInt16) (data : List UInt8) (sequence : Option UInt16)
  | raw (bytes : Datagram)
  | receiveError (error : Error)
  | sendError (error : Error)
  | close
deriving DecidableEq, Repr, Inhabited

/-- The address and the number that answers carry. -/
structure Correspondent where
  header : Header
  sequence : UInt16
deriving DecidableEq, Repr, Inhabited

/-- Cues in order; the first refusal ends them. -/
def Cue.perform (correspondent : Correspondent) : List Cue → Reaction
  | [] => {}
  | cue :: rest =>
      let later := perform correspondent rest
      match cue with
      | answer code data sequence =>
          let datagram := Response.datagramWithCode correspondent.header code
            (sequence.getD correspondent.sequence) data
          { later with arrivals := .datagram datagram :: later.arrivals }
      | raw bytes => { later with arrivals := .datagram bytes :: later.arrivals }
      | receiveError error => { later with arrivals := .failure error :: later.arrivals }
      | sendError error => { refusal := some error }
      | close => { later with closes := true }

/-- What a scripted peer still has to do: the cues for each of the next datagrams. -/
structure Script where
  turns : List (List Cue) := []
deriving DecidableEq, Repr, Inhabited

namespace Script

/-- The cues of a peer that answers with success. -/
def success : List Cue :=
  [.answer ResultCode.ok.code [] none]

/-- Whom a scripted peer answers: the sender of the request. -/
def correspondent (datagram : Datagram) : Correspondent :=
  match Request.decode datagram with
  | .ok request => ⟨request.header.reply, request.sequence.getD 0⟩
  | .error _ => ⟨(Header.toMonitor .origin .replyExpected).reply, 0⟩

instance : Responder Script where
  react script datagram :=
    match script.turns with
    | [] => (Cue.perform (correspondent datagram) success, script)
    | cues :: rest => (Cue.perform (correspondent datagram) cues, ⟨rest⟩)

end Script

end MeshControl.Link
