import MeshControl.Scp.Request

/-!
Responses: a header, a result code, the sequence number of the request that is answered, and
data. `peek` reads the two numbers without looking at the rest, so an answer finds its request
even where it cannot be read in full.
-/

namespace MeshControl.Scp

open Sdp Text

/-- Where the data of a response start. -/
def payloadOffset : Nat := codeOffset + 4

/-- One answer from a chip. -/
structure Response where
  header : Header
  result : ResultCode
  sequence : UInt16
  payload : List UInt8
deriving DecidableEq, Repr, Inhabited

namespace Response

/-- The result code, known or not, and the sequence number. -/
def peek (bytes : Datagram) : Except Error (UInt16 × UInt16) :=
  if bytes.length < payloadOffset then
    .error (.invalidPacket "SCP response" s!"길이 {bytes.length} < {payloadOffset}")
  else
    .ok (Wire.halfAt bytes codeOffset, Wire.halfAt bytes (codeOffset + 2))

/-- Reads a response from a datagram. -/
def decode (bytes : Datagram) : Except Error Response := do
  let (code, sequence) ← peek bytes
  let header ← Header.decode (bytes.drop padding)
  match ResultCode.ofCode? code with
  | none =>
      throw (.invalidPacket "SCP response" ("알 수 없는 결과 코드 " ++ marked 1 code.toNat))
  | some result =>
      return { header, result, sequence, payload := bytes.drop payloadOffset }

/-- The first word of the data. -/
def firstWord (response : Response) : Except Error UInt32 :=
  if response.payload.length < 4 then
    .error (.invalidPacket "SCP response" "데이터 워드 없음")
  else
    .ok (Wire.wordAt response.payload 0)

/-- A datagram with any code in the place of the result. -/
def datagramWithCode (header : Header) (code sequence : UInt16) (payload : List UInt8)
    : Datagram :=
  [0, 0] ++ header.encode defaultTag ++ Wire.half code ++ Wire.half sequence ++ payload

/-- The response as a datagram. -/
def encode (header : Header) (result : ResultCode) (sequence : UInt16) (payload : List UInt8)
    : Datagram :=
  datagramWithCode header result.code sequence payload

end Response

end MeshControl.Scp
