import MeshControl.Scp.Code
import MeshControl.Sdp.Header

/-!
Requests: a header, a command with three arguments, a sequence number by which the answer is
known, and data. What counts as success and what the operation is called stay with the sender.
-/

namespace MeshControl.Scp

open Sdp

/-- The zero bytes in front of every datagram. -/
def padding : Nat := 2

/-- Where command or result stand in a datagram. -/
def codeOffset : Nat := padding + Header.size

/-- The most data that one request carries. -/
def maxData : Nat := 256

/-- The shortest datagram that can be a request. -/
def minRequestSize : Nat := codeOffset + 16

/-- One request to a chip. -/
structure Request where
  header : Header
  command : Command
  sequence : Option UInt16 := none
  arg1 : UInt32 := 0
  arg2 : UInt32 := 0
  arg3 : UInt32 := 0
  data : List UInt8 := []
  operation : String := "SCP request"
  accepted : List ResultCode := [.ok]
deriving DecidableEq, Repr, Inhabited

namespace Request

/-- The result is a success for this request. -/
def accepts (request : Request) (result : ResultCode) : Bool :=
  request.accepted.contains result

/-- The header may go out and the data fit. -/
def validate (request : Request) : Except Error Unit := do
  request.header.validate
  if request.data.length > maxData then
    throw (.invalidParameter "data" (toString request.data.length)
      s!"페이로드는 최대 {maxData} 바이트")

/-- The request as a datagram, whether or not it may go out; an open sequence number is zero. -/
def datagram (request : Request) (tag : UInt8) : Datagram :=
  [0, 0] ++ request.header.encode tag
    ++ Wire.half request.command.code
    ++ Wire.half (request.sequence.getD 0)
    ++ Wire.word request.arg1
    ++ Wire.word request.arg2
    ++ Wire.word request.arg3
    ++ request.data

/-- The request as a datagram, if it may go out. -/
def encode (request : Request) (tag : UInt8) : Except Error Datagram := do
  request.validate
  return request.datagram tag

/-- Reads a request from a datagram. -/
def decode (bytes : Datagram) : Except Error Request := do
  if bytes.length < minRequestSize then
    throw (.invalidPacket "SCP request" s!"길이 {bytes.length} < {minRequestSize}")
  let header ← Header.decode (bytes.drop padding)
  let code := Wire.halfAt bytes codeOffset
  match Command.ofCode? code with
  | none => throw (.invalidPacket "SCP request" s!"알 수 없는 명령 {code}")
  | some command =>
      return {
        header
        command
        sequence := some (Wire.halfAt bytes (codeOffset + 2))
        arg1 := Wire.wordAt bytes (codeOffset + 4)
        arg2 := Wire.wordAt bytes (codeOffset + 8)
        arg3 := Wire.wordAt bytes (codeOffset + 12)
        data := bytes.drop minRequestSize }

end Request

end MeshControl.Scp
