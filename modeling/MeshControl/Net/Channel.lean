import MeshControl.Boot.Message
import MeshControl.Machine.Chip
import MeshControl.Net.Socket

/-!
What a socket is for: a plain socket, or a channel to a chip's monitor, to a management processor
or to a board that boots. Channels are sorted into pools by what they can do.
-/

namespace MeshControl.Net

open Text

/-- The port that a board boots on. -/
def bootPort : UInt16 := 54321

/-- What a socket is for. -/
inductive Role
  | plain
  | monitor (chip : Chip)
  | management (cabinet frame : UInt8) (boards : List UInt8)
  | boot
deriving DecidableEq, Repr

/-- A socket with what it is for. -/
structure Channel where
  role : Role
  socket : Socket

/-- A value that may be missing. -/
def someText : Option Address → String
  | some address => "Some(" ++ address.text ++ ")"
  | none => "None"

/-- The kind of a channel that takes requests or boot messages. -/
inductive Kind
  | requests
  | management
  | boot
deriving DecidableEq, Repr

/-- The name of the kind. -/
def Kind.name : Kind → String
  | requests => "Scp"
  | management => "Bmp"
  | boot => "Boot"

namespace Channel

/-- The name of what the channel is for. -/
def roleName : Role → String
  | .plain => "Udp"
  | .monitor _ => "Scamp"
  | .management .. => "Bmp"
  | .boot => "Boot"

/-- What the channel is for and where it leads. -/
def text (channel : Channel) : String :=
  let remote := "remote=" ++ someText channel.socket.peer
  let details := match channel.role with
    | .plain => s!"local={channel.socket.address.text}, "
    | .monitor chip => s!"chip={chip.x},{chip.y}, "
    | .management cabinet frame boards =>
        s!"cabinet={cabinet}, frame={frame}, boards=" ++ bracketed (boards.map toString) ++ ", "
    | .boot => ""
  roleName channel.role ++ "Connection(" ++ details ++ remote ++ ")"

/-- The kind of the channel, if it is more than a plain socket. -/
def kind? (channel : Channel) : Option Kind :=
  match channel.role with
  | .plain => none
  | .monitor _ => some .requests
  | .management .. => some .management
  | .boot => some .boot

/-- The chip that requests go to; a management processor is addressed like the one in the corner. -/
def chip (channel : Channel) : Chip :=
  match channel.role with
  | .monitor chip => chip
  | _ => .origin

/-- A channel to a board that boots: only the host of the address counts. -/
def toBoot (here remote : Address) : Channel :=
  ⟨.boot, { address := here, peer := some { remote with port := bootPort } }⟩

/-- Sends a boot message. -/
def sendBoot (network : Network) (channel : Channel) (message : Boot.Message)
    : Except Error Unit × Network :=
  network.send channel.socket message.encode

/-- The next boot message. -/
def receiveBoot (channel : Channel) (limit : Duration) : Except Error Boot.Message × Channel :=
  let (result, socket) := channel.socket.receive limit
  (result.bind Boot.Message.decode, { channel with socket })

end Channel

/-- Channels by kind, each in the order in which they were found. -/
structure Pools where
  requests : List Channel := []
  management : List Channel := []
  boot : List Channel := []
deriving Inhabited

namespace Pools

/-- Sorts channels into pools; plain sockets belong to none. -/
def classify (channels : List Channel) : Pools where
  requests := channels.filter fun channel => channel.kind? == some .requests
  management := channels.filter fun channel => channel.kind? == some .management
  boot := channels.filter fun channel => channel.kind? == some .boot

/-- The channels of one pool, each as written. -/
def poolText (channels : List Channel) : String :=
  bracketed (channels.map Channel.text)

/-- The pools as written. -/
def text (pools : Pools) : String :=
  "ConnectionPools"
    ++ Error.fields
      [("scp_connections", poolText pools.requests),
        ("bmp_connections", poolText pools.management),
        ("boot_connections", poolText pools.boot)]

/-- Closes every channel. -/
def closeAll (pools : Pools) : Pools :=
  let close := fun (channel : Channel) => { channel with socket := channel.socket.close }
  { requests := pools.requests.map close
    management := pools.management.map close
    boot := pools.boot.map close }

end Pools

end MeshControl.Net
