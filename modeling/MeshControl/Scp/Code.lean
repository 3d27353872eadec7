/-!
Command codes and result codes. Each kind has a code on the wire and a name; `ofCode?_code` says
that a code reads back as what it stands for, `code_of_ofCode?` that no other number does.
-/

namespace MeshControl.Scp

/-- What a request asks for. -/
inductive Command
  | ver
  | run
  | read
  | write
  | aplx
  | fill
  | count
  | remap
  | linkRead
  | linkWrite
  | applicationRun
  | nearestNeighbour
  | applicationCopyRun
  | signal
  | floodFillData
  | applicationSignal
  | led
  | ipTag
  | serialRom
  | allocate
  | router
  | droppedPackets
  | info
  | sync
  | bmpInfo
  | flashCopy
  | flashErase
  | flashWrite
  | reset
  | bmpPower
  | tube
deriving DecidableEq, Repr, Inhabited

namespace Command

/-- The code on the wire. -/
def code : Command → UInt16
  | ver => 0
  | run => 1
  | read => 2
  | write => 3
  | aplx => 4
  | fill => 5
  | count => 15
  | remap => 16
  | linkRead => 17
  | linkWrite => 18
  | applicationRun => 19
  | nearestNeighbour => 20
  | applicationCopyRun => 21
  | signal => 22
  | floodFillData => 23
  | applicationSignal => 24
  | led => 25
  | ipTag => 26
  | serialRom => 27
  | allocate => 28
  | router => 29
  | droppedPackets => 30
  | info => 31
  | sync => 32
  | bmpInfo => 48
  | flashCopy => 49
  | flashErase => 50
  | flashWrite => 51
  | reset => 55
  | bmpPower => 57
  | tube => 64

/-- The name in messages. -/
def name : Command → String
  | ver => "Ver"
  | run => "Run"
  | read => "Read"
  | write => "Write"
  | aplx => "Aplx"
  | fill => "Fill"
  | count => "Count"
  | remap => "Remap"
  | linkRead => "LinkRead"
  | linkWrite => "LinkWrite"
  | applicationRun => "Ar"
  | nearestNeighbour => "Nnp"
  | applicationCopyRun => "AppCopyRun"
  | signal => "Sig"
  | floodFillData => "Ffd"
  | applicationSignal => "As"
  | led => "Led"
  | ipTag => "IpTag"
  | serialRom => "Srom"
  | allocate => "Alloc"
  | router => "Rtr"
  | droppedPackets => "Dpri"
  | info => "Info"
  | sync => "Sync"
  | bmpInfo => "BmpInfo"
  | flashCopy => "FlashCopy"
  | flashErase => "FlashErase"
  | flashWrite => "FlashWrite"
  | reset => "Reset"
  | bmpPower => "BmpPower"
  | tube => "Tube"

/-- Every command, by ascending code. -/
def all : List Command :=
  [ver, run, read, write, aplx, fill, count, remap, linkRead, linkWrite, applicationRun,
   nearestNeighbour, applicationCopyRun, signal, floodFillData, applicationSignal, led, ipTag,
   serialRom, allocate, router, droppedPackets, info, sync, bmpInfo, flashCopy, flashErase,
   flashWrite, reset, bmpPower, tube]

/-- The command with a given code. -/
def ofCode? (code : UInt16) : Option Command :=
  all.find? fun command => command.code == code

/-- A command's code reads back as the command. -/
theorem ofCode?_code (command : Command) : ofCode? command.code = some command := by
  cases command <;> rfl

/-- Only its own code stands for a command. -/
theorem code_of_ofCode? {code : UInt16} {command : Command} (h : ofCode? code = some command)
    : command.code = code := by
  simpa using List.find?_some h

end Command

/-- How a request went. -/
inductive ResultCode
  | ok
  | badLength
  | badSum
  | badCommand
  | badArgument
  | badPort
  | timeout
  | noRoute
  | badCpu
  | deadChip
  | noBuffer
  | p2pNoReply
  | p2pReject
  | p2pBusy
  | p2pTimeout
  | transmitFailed
deriving DecidableEq, Repr, Inhabited

namespace ResultCode

/-- The code on the wire. -/
def code : ResultCode → UInt16
  | ok => 0x80
  | badLength => 0x81
  | badSum => 0x82
  | badCommand => 0x83
  | badArgument => 0x84
  | badPort => 0x85
  | timeout => 0x86
  | noRoute => 0x87
  | badCpu => 0x88
  | deadChip => 0x89
  | noBuffer => 0x8a
  | p2pNoReply => 0x8b
  | p2pReject => 0x8c
  | p2pBusy => 0x8d
  | p2pTimeout => 0x8e
  | transmitFailed => 0x8f

/-- The name in messages. -/
def name : ResultCode → String
  | ok => "Ok"
  | badLength => "Len"
  | badSum => "Sum"
  | badCommand => "Cmd"
  | badArgument => "Arg"
  | badPort => "Port"
  | timeout => "Timeout"
  | noRoute => "Route"
  | badCpu => "Cpu"
  | deadChip => "Dead"
  | noBuffer => "Buf"
  | p2pNoReply => "P2pNoReply"
  | p2pReject => "P2pReject"
  | p2pBusy => "P2pBusy"
  | p2pTimeout => "P2pTimeout"
  | transmitFailed => "PktTx"

/-- Every result, by ascending code. -/
def all : List ResultCode :=
  [ok, badLength, badSum, badCommand, badArgument, badPort, timeout, noRoute, badCpu,
   deadChip, noBuffer, p2pNoReply, p2pReject, p2pBusy, p2pTimeout, transmitFailed]

/-- The result with a given code. -/
def ofCode? (code : UInt16) : Option ResultCode :=
  all.find? fun result => result.code == code

/-- Results after which the same request is worth sending again. -/
def isRetry : ResultCode → Bool
  | timeout | p2pTimeout | badLength | p2pNoReply => true
  | _ => false

/-- A result's code reads back as the result. -/
theorem ofCode?_code (result : ResultCode) : ofCode? result.code = some result := by
  cases result <;> rfl

/-- Only its own code stands for a result. -/
theorem code_of_ofCode? {code : UInt16} {result : ResultCode} (h : ofCode? code = some result)
    : result.code = code := by
  simpa using List.find?_some h

end ResultCode

end MeshControl.Scp
