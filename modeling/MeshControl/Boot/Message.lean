import MeshControl.Error
import MeshControl.Wire.Word

/-!
Boot messages: the datagrams that load the first program into a board. Words have the most
significant byte first.
-/

namespace MeshControl.Boot

open Text

/-- What a boot message does. -/
inductive Opcode
  | floodFillStart
  | floodFillBlock
  | floodFillControl
  | hello
deriving DecidableEq, Repr, Inhabited

namespace Opcode

/-- The word on the wire. -/
def code : Opcode → UInt32
  | floodFillStart => 0x1
  | floodFillBlock => 0x3
  | floodFillControl => 0x5
  | hello => 0x41

def name : Opcode → String
  | floodFillStart => "FloodFillStart"
  | floodFillBlock => "FloodFillBlock"
  | floodFillControl => "FloodFillControl"
  | hello => "Hello"

def all : List Opcode :=
  [floodFillStart, floodFillBlock, floodFillControl, hello]

/-- The operation that a word stands for. -/
def ofCode? (code : UInt32) : Option Opcode :=
  all.find? fun opcode => opcode.code == code

/-- An operation's word reads back as the operation. -/
theorem ofCode?_code (opcode : Opcode) : ofCode? opcode.code = some opcode := by
  cases opcode <;> rfl

/-- Only its own word stands for an operation. -/
theorem code_of_ofCode? {code : UInt32} {opcode : Opcode} (h : ofCode? code = some opcode)
    : opcode.code = code := by
  simpa using List.find?_some h

end Opcode

/-- The version that every boot message carries. -/
def version : UInt16 := 1

/-- The most data of a boot message: 256 words. -/
def maxData : Nat := 1024

/-- The number of bytes before the data. -/
def headerSize : Nat := 18

/-- A boot message. -/
structure Message where
  opcode : Opcode
  operand1 : UInt32
  operand2 : UInt32
  operand3 : UInt32
  data : List UInt8
deriving DecidableEq, Repr, Inhabited

namespace Message

/-- The message, if its data are not too long. -/
def check (message : Message) : Except Error Message :=
  if message.data.length > maxData then
    .error (.invalidParameter "data" (toString message.data.length) "부트 메시지는 최대 256 워드")
  else .ok message

/-- The message as a datagram. -/
def encode (message : Message) : Datagram :=
  Wire.halfBig version ++ Wire.wordBig message.opcode.code ++ Wire.wordBig message.operand1
    ++ Wire.wordBig message.operand2 ++ Wire.wordBig message.operand3 ++ message.data

/-- Reads a message from a datagram, whatever its version. -/
def decode (bytes : Datagram) : Except Error Message :=
  if bytes.length < headerSize then
    .error (.invalidPacket "boot" s!"길이 {bytes.length} < {headerSize}")
  else
    let code := Wire.wordBigAt bytes 2
    match Opcode.ofCode? code with
    | none => .error (.invalidPacket "boot" ("알 수 없는 연산 코드 " ++ marked 1 code.toNat))
    | some opcode =>
        check
          { opcode
            operand1 := Wire.wordBigAt bytes 6
            operand2 := Wire.wordBigAt bytes 10
            operand3 := Wire.wordBigAt bytes 14
            data := bytes.drop headerSize }

end Message

end MeshControl.Boot
