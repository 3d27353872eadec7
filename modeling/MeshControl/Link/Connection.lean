import MeshControl.Error
import MeshControl.Machine.Chip
import MeshControl.Wire.Word

/-!
Connections to peers. What a peer sends back is decided by a `Responder`: for each datagram that
is sent to it, it gives a reaction and its next state. Whatever arrives waits in order until it is
read.
-/

namespace MeshControl.Link

/-- What waits at a connection: a datagram, or an error that the next reader gets. -/
inductive Arrival
  | datagram (bytes : Datagram)
  | failure (error : Error)
deriving DecidableEq, Repr, Inhabited

/-- What one transmission brings about. -/
structure Reaction where
  /-- What arrives, in order. -/
  arrivals : List Arrival := []
  /-- Why the transmission failed, if it did. -/
  refusal : Option Error := none
  /-- The connection is closed by it. -/
  closes : Bool := false
deriving DecidableEq, Repr, Inhabited

/-- A kind of peer, by its state. -/
class Responder (ρ : Type) where
  /-- The reaction to one datagram, and the state after it. -/
  react : ρ → Datagram → Reaction × ρ

/-- A connection to a peer. -/
structure Connection (ρ : Type) where
  /-- The place among the connections of its owner. -/
  number : Nat
  /-- The name in reports. -/
  name : String
  /-- The chip at the other end. -/
  chip : Chip
  peer : ρ
  /-- What has arrived and was not read yet, oldest first. -/
  pending : List Arrival := []
  closed : Bool := false
deriving Repr, Inhabited

namespace Connection

variable {ρ : Type}

/-- A reaction takes effect: its arrivals wait behind the others. -/
def absorb (connection : Connection ρ) (reaction : Reaction) : Connection ρ :=
  { connection with
    pending := connection.pending ++ reaction.arrivals
    closed := connection.closed || reaction.closes }

/-- Sends a datagram to the peer, and tells why it could not be sent. -/
def send [Responder ρ] (connection : Connection ρ) (datagram : Datagram)
    : Option Error × Connection ρ :=
  if connection.closed then (some .closed, connection)
  else
    let (reaction, peer) := Responder.react connection.peer datagram
    (reaction.refusal, { connection.absorb reaction with peer })

/-- No more is sent or read. -/
def close (connection : Connection ρ) : Connection ρ :=
  { connection with closed := true }

end Connection

end MeshControl.Link
