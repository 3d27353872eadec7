import Mathlib.Tactic.IntervalCases
import MeshControl.Scp.Response

/-! Requests and responses on the wire. Every one reads back from its datagram with the fields
filled in that its sender left open, and with ports and processors cut to their bits.
-/

namespace MeshControl

-----------------------------------------------------------------------------------------
-- Words
-----------------------------------------------------------------------------------------

namespace Wire

/-- What follows a part stands behind it. -/
theorem drop_add {bytes part rest : List UInt8} {offset width : Nat}
    (here : bytes.drop offset = part ++ rest) (length : part.length = width)
    : bytes.drop (offset + width) = rest := by
  rw [← List.drop_drop, here, ← length, List.drop_left]

/-- A half word reads back from where it was written. -/
theorem halfAt_of_drop {bytes after : List UInt8} {offset : Nat} {value : UInt16}
    (written : bytes.drop offset = half value ++ after)
    : halfAt bytes offset = value := by
  have read : field bytes offset 2 = half value := by
    rw [field, written, ← length_half value, List.take_left]
  have bound : value.toNat < capacity 2 := value.toNat_lt
  rw [halfAt, read, half, combine_split, Nat.mod_eq_of_lt bound, UInt16.ofNat_toNat]

theorem wordAt_of_drop {bytes after : List UInt8} {offset : Nat} {value : UInt32}
    (written : bytes.drop offset = word value ++ after)
    : wordAt bytes offset = value := by
  have read : field bytes offset 4 = word value := by
    rw [field, written, ← length_word value, List.take_left]
  have bound : value.toNat < capacity 4 := value.toNat_lt
  rw [wordAt, read, word, combine_split, Nat.mod_eq_of_lt bound, UInt32.ofNat_toNat]

end Wire

-----------------------------------------------------------------------------------------
-- Headers
-----------------------------------------------------------------------------------------

namespace Sdp.Header

/-- The port of an endpoint is in its upper bits. -/
theorem endpoint_shiftRight (port cpu : UInt8)
    : endpoint port cpu >>> 5 = port &&& 7 := by
  apply UInt8.eq_of_toBitVec_eq
  simp only [endpoint, UInt8.toBitVec_shiftRight, UInt8.toBitVec_or, UInt8.toBitVec_shiftLeft,
    UInt8.toBitVec_and]
  ext index bound
  interval_cases index <;> simp

theorem endpoint_and (port cpu : UInt8)
    : endpoint port cpu &&& 0x1f = cpu &&& 0x1f := by
  apply UInt8.eq_of_toBitVec_eq
  simp only [endpoint, UInt8.toBitVec_or, UInt8.toBitVec_shiftLeft, UInt8.toBitVec_and]
  ext index bound
  interval_cases index <;> simp

/-- What is read of a header that was written with this tag. -/
def onWire (header : Header) (tag : UInt8) : Header where
  flag := header.flag
  tag := some (header.tag.getD tag)
  destinationPort := header.destinationPort &&& 7
  destinationCpu := header.destinationCpu &&& 0x1f
  destination := header.destination
  sourcePort := some (header.sourcePort.getD hostPort &&& 7)
  sourceCpu := some (header.sourceCpu.getD hostCpu &&& 0x1f)
  sourceX := some (header.sourceX.getD 0)
  sourceY := some (header.sourceY.getD 0)

theorem decode_encode (header : Header) (tag : UInt8) (rest : List UInt8)
    : decode (header.encode tag ++ rest) = .ok (header.onWire tag) := by
  simp only [encode, List.cons_append, decode, Flag.ofCode?_code, endpoint_shiftRight,
    endpoint_and, onWire]

end Sdp.Header

-----------------------------------------------------------------------------------------
-- Requests
-----------------------------------------------------------------------------------------

namespace Scp.Request

open Sdp

/-- What is read of a request that was written with this tag; what counts as success and what
the operation is called stay behind.
-/
def onWire (request : Request) (tag : UInt8) : Request where
  header := request.header.onWire tag
  command := request.command
  sequence := some (request.sequence.getD 0)
  arg1 := request.arg1
  arg2 := request.arg2
  arg3 := request.arg3
  data := request.data

/-- Every request reads back from its datagram, field after field. -/
theorem decode_datagram (request : Request) (tag : UInt8)
    : decode (request.datagram tag) = .ok (request.onWire tag) := by
  let bytes := request.datagram tag
  have at_header : bytes.drop padding
      = request.header.encode tag ++ (Wire.half request.command.code
        ++ (Wire.half (request.sequence.getD 0) ++ (Wire.word request.arg1
        ++ (Wire.word request.arg2 ++ (Wire.word request.arg3 ++ request.data))))) := by
    simp only [bytes, datagram, List.append_assoc]
    rfl
  have at_code := Wire.drop_add at_header (Header.length_encode _ _)
  have at_sequence := Wire.drop_add at_code (Wire.length_half _)
  have at_arg1 := Wire.drop_add at_sequence (Wire.length_half _)
  have at_arg2 := Wire.drop_add at_arg1 (Wire.length_word _)
  have at_arg3 := Wire.drop_add at_arg2 (Wire.length_word _)
  have at_data := Wire.drop_add at_arg3 (Wire.length_word _)
  have code : Wire.halfAt bytes codeOffset = request.command.code :=
    Wire.halfAt_of_drop at_code
  have sequence : Wire.halfAt bytes (codeOffset + 2) = request.sequence.getD 0 :=
    Wire.halfAt_of_drop at_sequence
  have arg1 : Wire.wordAt bytes (codeOffset + 4) = request.arg1 :=
    Wire.wordAt_of_drop at_arg1
  have arg2 : Wire.wordAt bytes (codeOffset + 8) = request.arg2 :=
    Wire.wordAt_of_drop at_arg2
  have arg3 : Wire.wordAt bytes (codeOffset + 12) = request.arg3 :=
    Wire.wordAt_of_drop at_arg3
  have data : bytes.drop minRequestSize = request.data := at_data
  have long : ¬ bytes.length < minRequestSize := by
    simp [bytes, datagram, minRequestSize, codeOffset, padding, Header.size]
    omega
  change decode bytes = _
  simp only [decode, long, if_false, at_header, Header.decode_encode, code,
    Command.ofCode?_code, sequence, arg1, arg2, arg3, data]
  rfl

end Scp.Request

-----------------------------------------------------------------------------------------
-- Responses
-----------------------------------------------------------------------------------------

namespace Scp.Response

open Sdp

@[simp] theorem length_encode (header : Header) (result : ResultCode) (sequence : UInt16)
    (payload : List UInt8)
    : (encode header result sequence payload).length = payloadOffset + payload.length := by
  simp [encode, datagramWithCode, payloadOffset, codeOffset, padding, Header.size]
  omega

/-- Every response reads back from its datagram, field after field. -/
theorem decode_encode (header : Header) (result : ResultCode) (sequence : UInt16)
    (payload : List UInt8)
    : decode (encode header result sequence payload)
      = .ok { header := header.onWire defaultTag, result, sequence, payload } := by
  let bytes := encode header result sequence payload
  have at_header : bytes.drop padding
      = header.encode defaultTag ++ (Wire.half result.code
        ++ (Wire.half sequence ++ payload)) := by
    simp only [bytes, encode, datagramWithCode, List.append_assoc]
    rfl
  have at_code := Wire.drop_add at_header (Header.length_encode _ _)
  have at_sequence := Wire.drop_add at_code (Wire.length_half _)
  have at_payload := Wire.drop_add at_sequence (Wire.length_half _)
  have code_read : Wire.halfAt bytes codeOffset = result.code := Wire.halfAt_of_drop at_code
  have sequence_read : Wire.halfAt bytes (codeOffset + 2) = sequence :=
    Wire.halfAt_of_drop at_sequence
  have payload_read : bytes.drop payloadOffset = payload := at_payload
  have long : ¬ bytes.length < payloadOffset := by
    simp [bytes]
  have peeked : peek bytes = .ok (result.code, sequence) := by
    simp only [peek, long, if_false, code_read, sequence_read]
  change decode bytes = _
  simp only [decode, peeked, at_header, Header.decode_encode, ResultCode.ofCode?_code,
    payload_read, bind, Except.bind]
  rfl

/-- What can be read in full has a result code and a sequence number to be found by. -/
theorem peek_of_decode {bytes : Datagram} {response : Response}
    (read : decode bytes = .ok response)
    : peek bytes = .ok (response.result.code, response.sequence) := by
  unfold decode at read
  cases peeked : peek bytes with
  | error error =>
      rw [peeked] at read
      cases read
  | ok found =>
      obtain ⟨code, sequence⟩ := found
      cases header : Header.decode (bytes.drop padding) with
      | error error =>
          rw [peeked, header] at read
          cases read
      | ok header =>
          simp only [peeked, header, bind, Except.bind] at read
          split at read
          · cases read
          · next result known =>
              cases read
              simp [ResultCode.code_of_ofCode? known]

end Scp.Response

end MeshControl
