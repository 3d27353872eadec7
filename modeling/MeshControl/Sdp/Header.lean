import MeshControl.Error
import MeshControl.Machine.Chip
import MeshControl.Text.Hexadecimal
import MeshControl.Wire.Word

/-!
The addressed header of a datagram: where it goes, where it comes from, and whether it wants an
answer. Fields that a sender leaves open are filled in when the header is written, so a header
that was read has them all.
-/

namespace MeshControl.Sdp

open Text

/-- Whether an answer is wanted, and whether the datagram may be passed from chip to chip. -/
inductive Flag
  | replyNotExpected
  | replyNotExpectedDirect
  | replyExpected
  | replyExpectedDirect
deriving DecidableEq, Repr, Inhabited

namespace Flag

/-- The byte on the wire. -/
def code : Flag → UInt8
  | replyNotExpected => 0x07
  | replyNotExpectedDirect => 0x27
  | replyExpected => 0x87
  | replyExpectedDirect => 0xa7

def name : Flag → String
  | replyNotExpected => "ReplyNotExpected"
  | replyNotExpectedDirect => "ReplyNotExpectedNoP2p"
  | replyExpected => "ReplyExpected"
  | replyExpectedDirect => "ReplyExpectedNoP2p"

def all : List Flag :=
  [replyNotExpected, replyNotExpectedDirect, replyExpected, replyExpectedDirect]

/-- The flag that a byte stands for. -/
def ofCode? (code : UInt8) : Option Flag :=
  all.find? fun flag => flag.code == code

/-- The highest bit asks for an answer. -/
def expectsReply (flag : Flag) : Bool :=
  flag.code &&& 0x80 != 0

/-- A flag's byte reads back as the flag. -/
theorem ofCode?_code (flag : Flag) : ofCode? flag.code = some flag := by
  cases flag <;> rfl

/-- Only its own byte stands for a flag. -/
theorem code_of_ofCode? {code : UInt8} {flag : Flag} (h : ofCode? code = some flag)
    : flag.code = code := by
  simpa using List.find?_some h

end Flag

/-- The port that the host answers on. -/
def hostPort : UInt8 := 7

/-- The processor number that stands for the host. -/
def hostCpu : UInt8 := 31

/-- The tag of a datagram whose sender names none. -/
def defaultTag : UInt8 := 0xff

/-- Where a datagram goes and where it comes from. -/
structure Header where
  flag : Flag
  tag : Option UInt8 := none
  destinationPort : UInt8 := 0
  destinationCpu : UInt8 := 0
  destination : Chip
  sourcePort : Option UInt8 := none
  sourceCpu : Option UInt8 := none
  sourceX : Option UInt8 := none
  sourceY : Option UInt8 := none
deriving DecidableEq, Repr, Inhabited

namespace Header

/-- The number of bytes of a header. -/
def size : Nat := 8

/-- A header that asks a processor of a chip for an answer. -/
def toCore (chip : Chip) (cpu : UInt8) (flag : Flag) : Header :=
  { flag, destinationCpu := cpu, destination := chip }

/-- A header that asks a chip's monitor, its processor 0. -/
def toMonitor (chip : Chip) (flag : Flag) : Header :=
  toCore chip 0 flag

/-- A header may go out if its source is open or the host's, and its destination fits its bits. -/
def validate (header : Header) : Except Error Unit := do
  if let some port := header.sourcePort then
    if port ≠ hostPort then
      throw (.invalidParameter "sdp_header.source_port" (toString port)
        s!"호스트 송신 포트는 {hostPort} 이어야 함")
  if let some cpu := header.sourceCpu then
    if cpu ≠ hostCpu then
      throw (.invalidParameter "sdp_header.source_cpu" (toString cpu)
        s!"호스트 송신 CPU 는 {hostCpu} 이어야 함")
  if header.destinationPort > 7 then
    throw (.invalidParameter "sdp_header.destination_port" (toString header.destinationPort)
      "포트는 3비트")
  if header.destinationCpu > 31 then
    throw (.invalidParameter "sdp_header.destination_cpu" (toString header.destinationCpu)
      "CPU 는 5비트")

/-- A port and a processor in one byte; what does not fit is cut off. -/
def endpoint (port cpu : UInt8) : UInt8 :=
  ((port &&& 0x7) <<< 5) ||| (cpu &&& 0x1f)

/-- The header on the wire, with the host as the source where none is named. -/
def encode (header : Header) (tag : UInt8) : List UInt8 :=
  [header.flag.code,
    header.tag.getD tag,
    endpoint header.destinationPort header.destinationCpu,
    endpoint (header.sourcePort.getD hostPort) (header.sourceCpu.getD hostCpu),
    header.destination.y,
    header.destination.x,
    header.sourceY.getD 0,
    header.sourceX.getD 0]

/-- Reads a header from the front of some bytes. -/
def decode (bytes : List UInt8) : Except Error Header :=
  match bytes with
  | code :: tag :: target :: source :: y :: x :: sourceY :: sourceX :: _ =>
      match Flag.ofCode? code with
      | none => .error (.invalidPacket "SDP" ("알 수 없는 플래그 " ++ marked 2 code.toNat))
      | some flag =>
          .ok
            { flag
              tag := some tag
              destinationPort := target >>> 5
              destinationCpu := target &&& 0x1f
              destination := ⟨x, y⟩
              sourcePort := some (source >>> 5)
              sourceCpu := some (source &&& 0x1f)
              sourceX := some sourceX
              sourceY := some sourceY }
  | _ => .error (.invalidPacket "SDP" s!"헤더 길이 부족: {bytes.length}")

/-- The header of an answer: source and destination change places. -/
def reply (header : Header) : Header :=
  { flag := .replyNotExpected
    tag := header.tag
    destinationPort := header.sourcePort.getD hostPort
    destinationCpu := header.sourceCpu.getD hostCpu
    destination := ⟨header.sourceX.getD 0, header.sourceY.getD 0⟩
    sourcePort := some header.destinationPort
    sourceCpu := some header.destinationCpu
    sourceX := some header.destination.x
    sourceY := some header.destination.y }

@[simp] theorem length_encode (header : Header) (tag : UInt8)
    : (header.encode tag).length = size :=
  rfl

end Header

end MeshControl.Sdp
