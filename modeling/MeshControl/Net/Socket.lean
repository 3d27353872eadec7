import MeshControl.Error
import MeshControl.Net.Address
import MeshControl.Table
import MeshControl.Wire.Word

/-!
Sockets on a network. Datagrams wait at the socket that they were sent to, with the address of
their sender, until they are read. A socket that has a peer reads only what its peer sent; what
others sent is thrown away when it comes first.
-/

namespace MeshControl.Net

/-- An open or closed socket. -/
structure Socket where
  address : Address
  /-- The only sender that is listened to, and the receiver of what is sent without an address. -/
  peer : Option Address := none
  /-- The room for one datagram; what is longer is cut. -/
  room : Nat := 65536
  /-- Datagrams with their senders, oldest first. -/
  queue : List (Address × Datagram) := []
  closed : Bool := false
deriving Inhabited

namespace Socket

/-- Room for datagrams of another size, at least a byte. -/
def withRoom (socket : Socket) (room : Nat) : Socket :=
  { socket with room := max room 1 }

/-- A wait that found nothing. -/
def nothing (limit : Duration) : Error :=
  .timeout "receive" limit

/-- The next datagram, from whomever, with its sender. -/
def receiveFrom (socket : Socket) (limit : Duration)
    : Except Error (Datagram × Address) × Socket :=
  if socket.closed then (.error .closed, socket)
  else
    match socket.queue with
    | [] => (.error (nothing limit), socket)
    | (sender, datagram) :: queue =>
        (.ok (datagram.take socket.room, sender), { socket with queue })

/-- Looks for the next datagram of a peer until the time is up. `elapsed` tells how many
nanoseconds of it are gone at each look; with none gone only an empty queue ends the search.
-/
def listen (socket : Socket) (peer : Address) (limit : Duration) (elapsed : Nat → Nat)
    (look : Nat) (queue : List (Address × Datagram))
    : Except Error Datagram × List (Address × Datagram) :=
  let remaining : Duration := ⟨limit.nanoseconds - elapsed look⟩
  if remaining.nanoseconds = 0 then (.error (nothing limit), queue)
  else if socket.closed then (.error .closed, queue)
  else
    match queue with
    | [] => (.error (nothing remaining), [])
    | (sender, datagram) :: later =>
        if sender = peer then (.ok (datagram.take socket.room), later)
        else listen socket peer limit elapsed (look + 1) later

/-- The next datagram that the socket listens to; a wait of no length reads nothing from a peer. -/
def receive (socket : Socket) (limit : Duration) (elapsed : Nat → Nat := fun _ => 0)
    : Except Error Datagram × Socket :=
  match socket.peer with
  | none =>
      let (result, socket) := socket.receiveFrom limit
      (result.map Prod.fst, socket)
  | some peer =>
      let (result, queue) := socket.listen peer limit elapsed 0 socket.queue
      (result, { socket with queue })

/-- Something waits, from whomever. -/
def isReady (socket : Socket) : Except Error Bool :=
  if socket.closed then .error .closed else .ok (!socket.queue.isEmpty)

/-- Gives the socket up. -/
def close (socket : Socket) : Socket :=
  { socket with closed := true }

/-- A datagram comes in; a closed socket takes in nothing. -/
def deliver (socket : Socket) (sender : Address) (datagram : Datagram) : Socket :=
  if socket.closed then socket
  else { socket with queue := socket.queue ++ [(sender, datagram)] }

end Socket

/-- The sockets of a host, by address. -/
structure Network where
  sockets : Table Address Socket := .empty
  /-- There is a route between the sockets. -/
  routed : Bool := true
deriving Inhabited

namespace Network

/-- Opens a socket. -/
def bind (network : Network) (socket : Socket) : Network :=
  { network with sockets := network.sockets.insert socket.address socket }

/-- A socket changes. -/
def modify (network : Network) (address : Address) (change : Socket → Socket) : Network :=
  match network.sockets.get? address with
  | none => network
  | some socket => { network with sockets := network.sockets.insert address (change socket) }

/-- Sends a datagram to an address, whether or not anyone is there. -/
def sendTo (network : Network) (sender : Socket) (datagram : Datagram) (target : Address)
    : Except Error Unit × Network :=
  if sender.closed then (.error .closed, network)
  else if !network.routed then (.error (.io .noRoute), network)
  else (.ok (), network.modify target fun socket => socket.deliver sender.address datagram)

/-- Sends a datagram to the peer. -/
def send (network : Network) (sender : Socket) (datagram : Datagram)
    : Except Error Unit × Network :=
  match sender.peer with
  | none => (.error .notSendable, network)
  | some peer => network.sendTo sender datagram peer

end Network

end MeshControl.Net
