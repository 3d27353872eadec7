import MeshControl.Board.Link
import MeshControl.Proofs.Scp.Canonical

/-! How an answer comes back to whoever asked. The header of an answer is the header of the
request with its two ends swapped. Nothing of it is cut off when it is written, since a request
that was read has ends that fit; so whoever reads the answer finds the ends of the request in it.
-/

namespace MeshControl

-----------------------------------------------------------------------------------------
-- Headers
-----------------------------------------------------------------------------------------

namespace Sdp.Header

/-- No field is open, and ports and processors fit their bits. -/
structure Complete (header : Header) : Prop where
  tag : ∃ tag, header.tag = some tag
  destinationPort : header.destinationPort &&& 7 = header.destinationPort
  destinationCpu : header.destinationCpu &&& 0x1f = header.destinationCpu
  sourcePort : ∃ port, header.sourcePort = some port ∧ port &&& 7 = port
  sourceCpu : ∃ cpu, header.sourceCpu = some cpu ∧ cpu &&& 0x1f = cpu
  sourceX : ∃ x, header.sourceX = some x
  sourceY : ∃ y, header.sourceY = some y

/-- What is read of any header is complete: its ends were cut when it was written. -/
theorem complete_onWire (header : Header) (tag : UInt8) : (header.onWire tag).Complete where
  tag := ⟨_, rfl⟩
  destinationPort := by simp [onWire, UInt8.and_assoc]
  destinationCpu := by simp [onWire, UInt8.and_assoc]
  sourcePort := ⟨_, rfl, by simp [UInt8.and_assoc]⟩
  sourceCpu := ⟨_, rfl, by simp [UInt8.and_assoc]⟩
  sourceX := ⟨_, rfl⟩
  sourceY := ⟨_, rfl⟩

theorem complete_of_decode {bytes : List UInt8} {header : Header}
    (read : decode bytes = .ok header)
    : header.Complete := by
  rw [← ((decode_eq_ok_iff defaultTag).mp read).2]
  exact header.complete_onWire defaultTag

/-- A complete header loses nothing on its way, whatever the tag of the one who writes it. -/
theorem Complete.onWire {header : Header} (complete : header.Complete) (tag : UInt8)
    : header.onWire tag = header := by
  obtain ⟨_, tagged⟩ := complete.tag
  obtain ⟨_, port, portBits⟩ := complete.sourcePort
  obtain ⟨_, cpu, cpuBits⟩ := complete.sourceCpu
  obtain ⟨_, x⟩ := complete.sourceX
  obtain ⟨_, y⟩ := complete.sourceY
  simp only [Header.onWire, tagged, port, cpu, x, y, Option.getD_some, portBits, cpuBits,
    complete.destinationPort, complete.destinationCpu]
  rw [← tagged, ← port, ← cpu, ← x, ← y]

/-- The header of an answer is complete, since the ends that it swaps fit the same bits. -/
theorem Complete.reply {header : Header} (complete : header.Complete) : header.reply.Complete where
  tag := complete.tag
  destinationPort := by
    obtain ⟨_, port, bits⟩ := complete.sourcePort
    simp only [Header.reply, port, Option.getD_some, bits]
  destinationCpu := by
    obtain ⟨_, cpu, bits⟩ := complete.sourceCpu
    simp only [Header.reply, cpu, Option.getD_some, bits]
  sourcePort := ⟨_, rfl, complete.destinationPort⟩
  sourceCpu := ⟨_, rfl, complete.destinationCpu⟩
  sourceX := ⟨_, rfl⟩
  sourceY := ⟨_, rfl⟩

/-- The answer to an answer has the ends of the request again. -/
theorem Complete.reply_reply {header : Header} (complete : header.Complete)
    : header.reply.reply = { header with flag := .replyNotExpected } := by
  obtain ⟨_, port, _⟩ := complete.sourcePort
  obtain ⟨_, cpu, _⟩ := complete.sourceCpu
  obtain ⟨_, x⟩ := complete.sourceX
  obtain ⟨_, y⟩ := complete.sourceY
  simp only [Header.reply, Option.getD_some, port, cpu, x, y]

/-- One header goes back the way that the other came, under the same tag. -/
structure Answers (answer question : Header) : Prop where
  flag : answer.flag = .replyNotExpected
  tag : answer.tag = question.tag
  sourcePort : answer.sourcePort = some question.destinationPort
  sourceCpu : answer.sourceCpu = some question.destinationCpu
  sourceX : answer.sourceX = some question.destination.x
  sourceY : answer.sourceY = some question.destination.y
  destinationPort : question.sourcePort = some answer.destinationPort
  destinationCpu : question.sourceCpu = some answer.destinationCpu
  destinationX : question.sourceX = some answer.destination.x
  destinationY : question.sourceY = some answer.destination.y

theorem Complete.answers {header : Header} (complete : header.Complete)
    : header.reply.Answers header := by
  obtain ⟨_, port, _⟩ := complete.sourcePort
  obtain ⟨_, cpu, _⟩ := complete.sourceCpu
  obtain ⟨_, x⟩ := complete.sourceX
  obtain ⟨_, y⟩ := complete.sourceY
  constructor <;> simp only [Header.reply, Option.getD_some, port, cpu, x, y]

end Sdp.Header

-----------------------------------------------------------------------------------------
-- Answers
-----------------------------------------------------------------------------------------

namespace Scp

open Sdp

/-- Bytes are read as the answer to a request, with a result and data. -/
structure Response.Correlates (request : Request) (result : ResultCode) (data : List UInt8)
    (bytes : Datagram) (response : Response) : Prop where
  read : Response.decode bytes = .ok response
  peeked : Response.peek bytes = .ok (response.result.code, response.sequence)
  result : response.result = result
  sequence : request.sequence = some response.sequence
  payload : response.payload = data
  header : response.header.Answers request.header
  back : response.header.reply = { request.header with flag := .replyNotExpected }

/-- A request that was read has a sequence number and a header without open fields. -/
theorem Request.complete_of_decode {bytes : Datagram} {request : Request}
    (read : decode bytes = .ok request)
    : (∃ sequence, request.sequence = some sequence) ∧ request.header.Complete := by
  refine ⟨?_, Header.complete_of_decode (reads_of_decode read defaultTag).header⟩
  rw [decode_eq] at read
  split_ifs at read
  split at read
  · cases read
  · split at read
    · cases read
    · cases read
      exact ⟨_, rfl⟩

/-- The answer to a complete request is read as such. -/
theorem Response.exists_correlates {request : Request} {sequence : UInt16}
    (numbered : request.sequence = some sequence) (complete : request.header.Complete)
    (result : ResultCode) (data : List UInt8)
    : ∃ response,
        Correlates request result data
          (encode request.header.reply result (request.sequence.getD 0) data) response := by
  rw [numbered, Option.getD_some]
  have read := decode_encode request.header.reply result sequence data
  rw [complete.reply.onWire] at read
  exact ⟨_, {
    read
    peeked := peek_of_decode read
    result := rfl
    sequence := numbered
    payload := rfl
    header := complete.answers
    back := complete.reply_reply }⟩

end Scp

namespace Board

open Sdp Scp

/-- What a board answers, it answers to the request that it has read. -/
theorem Peer.exists_encode_of_answered {peer after : Peer} {bytes answer : Datagram}
    (answered : peer.deliver bytes = (.answered answer, after))
    : ∃ request result data,
        Request.decode bytes = .ok request
        ∧ answer
          = Response.encode request.header.reply result (request.sequence.getD 0) data := by
  unfold Peer.deliver at answered
  split at answered
  · cases answered
  · split at answered
    · cases answered
    · split at answered
      · cases answered
      · next request read =>
          dsimp only at answered
          split at answered
          · cases answered
          · next result data _ =>
              split at answered
              · cases answered
              · cases answered
                exact ⟨request, result, data, read, rfl⟩

/-- The answer to whatever is read as a request, with any result and any data, is read with this
result, these data, the number and the tag of the request, and the ends of its header swapped, by
which the flag asks for no answer. A glance at it shows the same result and number, and an answer
to it goes where the request went. Whatever a board answers is such an answer.
Witness: a header that was read is complete, and so is the one of its answer.
-/
theorem answers_correlate {bytes : Datagram} {request : Request}
    (read : Request.decode bytes = .ok request)
    : (∀ (result : ResultCode) (data : List UInt8),
        ∃ response,
          Response.Correlates request result data
            (Response.encode request.header.reply result (request.sequence.getD 0) data)
            response)
      ∧ ∀ (peer after : Peer) (answer : Datagram),
          peer.deliver bytes = (.answered answer, after)
          → ∃ result data response, Response.Correlates request result data answer response := by
  obtain ⟨⟨sequence, numbered⟩, complete⟩ := Request.complete_of_decode read
  have correlated := Response.exists_correlates numbered complete
  refine ⟨correlated, fun peer after answer answered => ?_⟩
  obtain ⟨told, result, data, known, rfl⟩ := Peer.exists_encode_of_answered answered
  cases read.symm.trans known
  exact ⟨result, data, correlated result data⟩

/-- The ends of the request use every bit of their bytes. A processor that is not the host's asks a
chip that the board does not have, and is told so.
-/
theorem answers_correlate_everyBit
    : let header : Header :=
        { flag := .replyExpectedDirect
          tag := some 9
          destinationPort := 7
          destinationCpu := 31
          destination := ⟨255, 254⟩
          sourcePort := some 5
          sourceCpu := some 30
          sourceX := some 1
          sourceY := some 128 }
      let request : Request := { header, command := .ver, sequence := some 0xfffe }
      let peer : Peer := { board := {} }
      Request.decode (request.datagram 0) = .ok request
      ∧ (∃ response,
          Response.Correlates request .timeout [1, 2, 3]
            (Response.encode header.reply .timeout 0xfffe [1, 2, 3]) response)
      ∧ ∃ answer after,
          peer.deliver (request.datagram 0) = (.answered answer, after)
          ∧ ∃ result data response, Response.Correlates request result data answer response := by
  intro header request peer
  have kept : request.onWire 0 = request := by decide
  have read := request.decode_datagram 0
  rw [kept] at read
  obtain ⟨correlates, delivered⟩ := answers_correlate read
  have answered : peer.deliver (request.datagram 0)
      = (.answered (Response.encode header.reply .noRoute 0xfffe []),
        { peer with board := (peer.board.handle request).2 }) := by
    rw [Peer.deliver, read]
    rfl
  exact ⟨read, correlates .timeout [1, 2, 3], _, _, answered, delivered _ _ _ answered⟩

end Board

end MeshControl
