import MeshControl.Board.State
import MeshControl.Link.Connection

/-!
A board at the end of a connection. Requests reach it over the network, if there is a route, and
its answers come back cut to the room that the receiver has.
-/

namespace MeshControl.Board

open Scp Link

/-- The most bytes of a datagram on the network. -/
def maxDatagram : Nat := 65507

/-- A board on the network. -/
structure Peer where
  board : State
  /-- The board takes in datagrams. -/
  running : Bool := true
  /-- There is a route from the host to the board. -/
  reachable : Bool := true
  /-- The room for an answer. -/
  room : Nat := 65536
deriving Inhabited

/-- What becomes of one datagram for a board. -/
inductive Outcome
  /-- There is no route. -/
  | unreachable
  /-- It is no request. -/
  | ignored (error : Error)
  /-- It goes unanswered. -/
  | dropped
  /-- The answer is too long for the network. -/
  | lost
  | answered (datagram : Datagram)
deriving DecidableEq, Repr

namespace Peer

/-- A board gets a datagram. -/
def deliver (peer : Peer) (datagram : Datagram) : Outcome × Peer :=
  if !peer.reachable then (.unreachable, peer)
  else if !peer.running then (.dropped, peer)
  else
    match Request.decode datagram with
    | .error error => (.ignored error, peer)
    | .ok request =>
        let (reply, board) := peer.board.handle request
        let peer := { peer with board }
        match reply with
        | none => (.dropped, peer)
        | some (result, data) =>
            let answer :=
              Response.encode request.header.reply result (request.sequence.getD 0) data
            if answer.length > maxDatagram then (.lost, peer) else (.answered answer, peer)

/-- The error of a datagram that has no route. -/
def noRoute : Error := .io .noRoute

instance : Responder Peer where
  react peer datagram :=
    let (outcome, after) := peer.deliver datagram
    let reaction : Reaction := match outcome with
      | .unreachable => { refusal := some noRoute }
      | .answered answer => { arrivals := [.datagram (answer.take peer.room)] }
      | _ => {}
    (reaction, after)

end Peer

/-- A connection to a board, as a session opens it. -/
def connection (peer : Peer) : Connection Peer :=
  { number := 0, name := "board", chip := .origin, peer }

end MeshControl.Board
