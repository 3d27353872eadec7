import MeshControl.Board.Link
import MeshControl.Link.Transcript
import MeshControl.Probe.Run
import MeshControl.VirtualBoard.Options
import Std.Async.Signal
import Std.Async.Timer
import Std.Async.UDP

/-!
Two programs in one, chosen by the first word of the command line: `scp-probe` puts one query to a
board, `virtual-board` is a board. What they say and send is decided elsewhere; here datagrams go
over the network and lines to the terminal.
-/

namespace MeshControl.Main

open Std.Async Link

/-- The pause or limit that a span is. -/
def pause (span : Duration) : Std.Time.Millisecond.Offset :=
  .ofNat ((span.nanoseconds + 999999) / 1000000)

/-- An address as the network takes it. -/
def toNetwork (address : Net.Address) : Std.Net.SocketAddress :=
  match address.host with
  | .bytes a b c d => .v4 ⟨.ofParts a b c d, address.port⟩
  | .halves groups _ => .v6 ⟨⟨groups⟩, address.port⟩

/-- An address as the network gives it. -/
def ofNetwork : Std.Net.SocketAddress → Net.Address
  | .v4 address =>
      let octets := address.addr.octets
      ⟨.bytes octets[0] octets[1] octets[2] octets[3], address.port⟩
  | .v6 address => ⟨.halves address.addr.segments 0, address.port⟩

/-- A failure that the network reports. -/
def failure (error : IO.Error) : Error :=
  .io (.other (toString error))

/-- Writes what a program leaves behind, and gives its exit code. -/
def emit (output : Probe.Output) : IO UInt32 := do
  IO.print output.shown
  IO.eprint output.complaint
  return output.code.toUInt32

/-! ### The probe -/

/-- What one sender sends before the alarm; others are not listened to. -/
partial def awaitFrom (socket : UDP.Socket) (sender : Std.Net.SocketAddress) (room : Nat)
    (alarm : Selector Unit) : Async (List Arrival) := do
  let arrival? ← Selectable.one #[
    .case (socket.recvSelector room.toUInt64) fun arrival => return some arrival,
    .case alarm fun _ => return none]
  match arrival? with
  | none => return []
  | some (bytes, from?) =>
      if from? == some sender then return [.datagram bytes.toList]
      else awaitFrom socket sender room alarm

/-- A peer that is busy wants the request again, a little later. -/
def isBusy : Arrival → Bool
  | .failure _ => false
  | .datagram bytes =>
      match Scp.Response.peek bytes with
      | .error _ => false
      | .ok (code, _) => (Scp.ResultCode.ofCode? code).any Scp.ResultCode.isRetry

/-- Sends a datagram, and waits for what it brings about. -/
def exchange (socket : UDP.Socket) (options : Probe.Options) (datagram : Datagram)
    : Async Reaction := do
  let target := toNetwork options.target
  try
    socket.send ⟨datagram.toArray⟩ (some target)
    let alarm ← Selector.sleep (pause options.config.timeout)
    let arrivals ← awaitFrom socket target options.config.room alarm
    if arrivals.any isBusy then sleep (pause options.config.retryDelay)
    return { arrivals }
  catch error => return { refusal := some (failure error) }

/-- Puts a query: while the peer has to be asked something, asks it and begins again. -/
partial def converse (socket : UDP.Socket) (options : Probe.Options) (query : Probe.Query)
    (known : List Reaction) : Async Probe.Output := do
  let (output, transcript) := Probe.perform ({ known } : Transcript) options query
  match transcript.asked with
  | none => return output
  | some datagram => converse socket options query (known ++ [← exchange socket options datagram])

/-- The probe. -/
def probe (words : List String) : IO UInt32 := do
  match Probe.job words with
  | .done output => emit output
  | .ask options query =>
      let output ← try
          let socket ← UDP.Socket.mk
          socket.bind (toNetwork ⟨.bytes 0 0 0 0, 0⟩)
          (converse socket options query []).block
        catch error => pure (Probe.outputOfError (failure error))
      emit output

/-! ### The virtual board -/

/-- What the board waits for. -/
inductive Happening
  | datagram (bytes : ByteArray) (sender : Option Std.Net.SocketAddress)
  | reportIsDue
  | stop

/-- Writes a line down at once. -/
def note (line : String) : IO Unit := do
  IO.println ("INFO " ++ line)
  (← IO.getStdout).flush

/-- A request is lost by chance. -/
def isLost (share : Float) : IO Bool := do
  return share > 0 && Float.ofNat (← IO.rand 0 999999) < share * 1000000

/-- Takes in one datagram, and sends what it is answered with. -/
def handle (socket : UDP.Socket) (options : VirtualBoard.Options) (board : Board.State)
    (bytes : ByteArray) (sender : Option Std.Net.SocketAddress) : Async Board.State := do
  let dropNext := if ← isLost options.loss then 1 else 0
  let (outcome, peer) := ({ board := { board with dropNext } } : Board.Peer).deliver bytes.toList
  if let .answered answer := outcome then
    try socket.send ⟨answer.toArray⟩ sender
    catch error => note ("virtual_board: " ++ toString error)
  return { peer.board with dropNext := 0 }

/-- The board runs until it is stopped. -/
partial def serve (socket : UDP.Socket) (options : VirtualBoard.Options) (stop : Signal.Waiter)
    (report : Selector Unit) (board : Board.State) : Async Unit := do
  let happening ← Selectable.one #[
    .case (socket.recvSelector 65536) fun (bytes, sender) => return .datagram bytes sender,
    .case report fun _ => return .reportIsDue,
    .case stop.selector fun _ => return Happening.stop]
  match happening with
  | .datagram bytes sender =>
      serve socket options stop report (← handle socket options board bytes sender)
  | .reportIsDue =>
      note (VirtualBoard.report board.tally)
      let report ← Selector.sleep (pause (.ofSeconds options.interval))
      serve socket options stop report board
  | .stop => return

/-- The virtual board. -/
def virtualBoard (words : List String) : IO UInt32 := do
  match VirtualBoard.Options.parse words with
  | .error refusal => emit (Probe.outputOfRefusal VirtualBoard.help refusal)
  | .ok options =>
      try
        let socket ← UDP.Socket.mk
        socket.bind (toNetwork options.bind)
        let address := (ofNetwork (← socket.getSockName)).text
        (VirtualBoard.opening options address).forM note
        let stop ← Signal.Waiter.mk .sigint false
        let run : Async Unit := do
          let report ← Selector.sleep (pause (.ofSeconds options.interval))
          serve socket options stop report { settings := options.settings }
        run.block
        (VirtualBoard.closing address).forM note
        return 0
      catch error => emit (Probe.outputOfError (failure error))

end MeshControl.Main

/-- Runs the program that the first word names. -/
def main (words : List String) : IO UInt32 := do
  match words with
  | "scp-probe" :: words => MeshControl.Main.probe words
  | "virtual-board" :: words => MeshControl.Main.virtualBoard words
  | _ =>
      IO.eprint (MeshControl.Probe.help ++ MeshControl.VirtualBoard.help)
      return 2
