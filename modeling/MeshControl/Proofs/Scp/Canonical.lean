import MeshControl.Proofs.Scp.Codec

/-! Which bytes are requests, and what becomes of them when they are written again. A request that
may go out reads back as itself with its open fields filled in; bytes that are read as a request
are written as they were, but for the two in front, if they name the host as their source and do
not carry too much.
-/

namespace MeshControl

-----------------------------------------------------------------------------------------
-- Words
-----------------------------------------------------------------------------------------

namespace Wire

theorem length_field {bytes : List UInt8} {offset width : Nat}
    (within : offset + width ≤ bytes.length)
    : (field bytes offset width).length = width := by
  simp only [field, List.length_take, List.length_drop]
  omega

/-- A field and what follows it are all that follows the field's start. -/
theorem field_append_drop (bytes : List UInt8) (offset width : Nat)
    : field bytes offset width ++ bytes.drop (offset + width) = bytes.drop offset := by
  rw [field, ← List.drop_drop, List.take_append_drop]

/-- A half word that was read is written as the bytes that it was read from. -/
theorem half_halfAt {bytes : List UInt8} {offset : Nat} (within : offset + 2 ≤ bytes.length)
    : half (halfAt bytes offset) = field bytes offset 2 := by
  have length := length_field within
  have bound : combine (field bytes offset 2) < 2 ^ 16 := by
    have := combine_lt (field bytes offset 2)
    rwa [length] at this
  have written := split_combine (field bytes offset 2)
  rw [length] at written
  rw [half, halfAt, UInt16.toNat_ofNat', Nat.mod_eq_of_lt bound, written]

theorem word_wordAt {bytes : List UInt8} {offset : Nat} (within : offset + 4 ≤ bytes.length)
    : word (wordAt bytes offset) = field bytes offset 4 := by
  have length := length_field within
  have bound : combine (field bytes offset 4) < 2 ^ 32 := by
    have := combine_lt (field bytes offset 4)
    rwa [length] at this
  have written := split_combine (field bytes offset 4)
  rw [length] at written
  rw [word, wordAt, UInt32.toNat_ofNat', Nat.mod_eq_of_lt bound, written]

end Wire

-----------------------------------------------------------------------------------------
-- Headers
-----------------------------------------------------------------------------------------

namespace Sdp.Header

/-- The header with the fields filled in that its sender left open. -/
def filled (header : Header) (tag : UInt8) : Header :=
  { header with
    tag := some (header.tag.getD tag)
    sourcePort := some (header.sourcePort.getD hostPort)
    sourceCpu := some (header.sourceCpu.getD hostCpu)
    sourceX := some (header.sourceX.getD 0)
    sourceY := some (header.sourceY.getD 0) }

/-- The source is open or the host's, and the destination fits its bits. -/
structure Sendable (header : Header) : Prop where
  sourcePort : header.sourcePort.getD hostPort = hostPort
  sourceCpu : header.sourceCpu.getD hostCpu = hostCpu
  destinationPort : header.destinationPort ≤ 7
  destinationCpu : header.destinationCpu ≤ 31

/-- The checks of a header in turn, of which the first that fails is told. -/
theorem validate_eq (header : Header)
    : header.validate
      = if header.sourcePort.getD hostPort ≠ hostPort then
          .error (.invalidParameter "sdp_header.source_port"
            (toString (header.sourcePort.getD hostPort)) s!"호스트 송신 포트는 {hostPort} 이어야 함")
        else if header.sourceCpu.getD hostCpu ≠ hostCpu then
          .error (.invalidParameter "sdp_header.source_cpu"
            (toString (header.sourceCpu.getD hostCpu)) s!"호스트 송신 CPU 는 {hostCpu} 이어야 함")
        else if header.destinationPort > 7 then
          .error (.invalidParameter "sdp_header.destination_port"
            (toString header.destinationPort) "포트는 3비트")
        else if header.destinationCpu > 31 then
          .error (.invalidParameter "sdp_header.destination_cpu" (toString header.destinationCpu)
            "CPU 는 5비트")
        else .ok () := by
  unfold validate
  cases header.sourcePort <;> cases header.sourceCpu
  all_goals
    simp only [Option.getD_none, Option.getD_some, ne_eq, not_true_eq_false, if_false]
    split_ifs <;> rfl

/-- A header passes its checks, or one of its fields is refused. -/
theorem validate_cases (header : Header)
    : header.Sendable ∧ header.validate = .ok ()
      ∨ ¬ header.Sendable
        ∧ ∃ parameter value problem,
          header.validate = .error (.invalidParameter parameter value problem) := by
  rw [validate_eq]
  split_ifs with port cpu portBits cpuBits
  · exact .inr ⟨fun sendable => port sendable.sourcePort, _, _, _, rfl⟩
  · exact .inr ⟨fun sendable => cpu sendable.sourceCpu, _, _, _, rfl⟩
  · exact .inr ⟨fun sendable => UInt8.not_le.mpr portBits sendable.destinationPort, _, _, _, rfl⟩
  · exact .inr ⟨fun sendable => UInt8.not_le.mpr cpuBits sendable.destinationCpu, _, _, _, rfl⟩
  · exact .inl ⟨⟨not_not.mp port, not_not.mp cpu, UInt8.not_lt.mp portBits,
      UInt8.not_lt.mp cpuBits⟩, rfl⟩

/-- Of a header that may go out nothing is cut off. -/
theorem Sendable.onWire {header : Header} (sendable : header.Sendable) (tag : UInt8)
    : header.onWire tag = header.filled tag := by
  have port : header.destinationPort &&& 7 = header.destinationPort := by
    have := UInt8.le_iff_toNat_le.mp sendable.destinationPort
    apply UInt8.toNat_inj.mp
    rw [UInt8.toNat_and]
    exact (Nat.and_two_pow_sub_one_eq_mod _ 3).trans (Nat.mod_eq_of_lt (Nat.lt_succ_of_le this))
  have cpu : header.destinationCpu &&& 0x1f = header.destinationCpu := by
    have := UInt8.le_iff_toNat_le.mp sendable.destinationCpu
    apply UInt8.toNat_inj.mp
    rw [UInt8.toNat_and]
    exact (Nat.and_two_pow_sub_one_eq_mod _ 5).trans (Nat.mod_eq_of_lt (Nat.lt_succ_of_le this))
  simp only [Header.onWire, filled, port, cpu, sendable.sourcePort, sendable.sourceCpu]
  rfl

/-- A port and a processor that were read of a byte are written as that byte. -/
theorem endpoint_read (byte : UInt8) : endpoint (byte >>> 5) (byte &&& 0x1f) = byte := by
  apply UInt8.eq_of_toBitVec_eq
  simp only [endpoint, UInt8.toBitVec_shiftRight, UInt8.toBitVec_or, UInt8.toBitVec_shiftLeft,
    UInt8.toBitVec_and]
  ext index bound
  interval_cases index <;> simp

/-- Reading accepts exactly what writing produces of a header without open fields. -/
theorem decode_eq_ok_iff {bytes : List UInt8} {header : Header} (tag : UInt8)
    : decode bytes = .ok header
      ↔ (∃ rest, bytes = header.encode tag ++ rest) ∧ header.onWire tag = header := by
  constructor
  · intro read
    unfold decode at read
    split at read
    · next code tag target source y x sourceY sourceX rest =>
        split at read
        · cases read
        · next flag known =>
            obtain rfl := Except.ok.inj read
            refine ⟨⟨rest, ?_⟩, ?_⟩
            · simp [encode, endpoint_read, Flag.code_of_ofCode? known]
            · have cut (byte : UInt8) : (byte >>> 5) &&& (7 : UInt8) = byte >>> 5 := by
                rw [← endpoint_shiftRight _ (byte &&& 0x1f), endpoint_read]
              simp [Header.onWire, cut, UInt8.and_assoc]
    · cases read
  · rintro ⟨⟨rest, rfl⟩, complete⟩
    rw [decode_encode, complete]

/-- Bytes are read as a header exactly if there are enough of them and the first is a flag. -/
theorem exists_decode_iff (bytes : List UInt8)
    : (∃ header, decode bytes = .ok header)
      ↔ size ≤ bytes.length ∧ ∃ flag : Flag, bytes[0]? = some flag.code := by
  constructor
  · rintro ⟨header, read⟩
    obtain ⟨⟨rest, rfl⟩, _⟩ := (decode_eq_ok_iff 0).mp read
    exact ⟨by simp, header.flag, rfl⟩
  · rintro ⟨long, flag, first⟩
    unfold decode
    split
    · next code _ _ _ _ _ _ _ _ =>
        obtain rfl : code = flag.code := by simpa using first
        rw [Flag.ofCode?_code]
        exact ⟨_, rfl⟩
    · next short =>
        exfalso
        match bytes, long, short with
        | _ :: _ :: _ :: _ :: _ :: _ :: _ :: _ :: _, _, short => exact short _ _ _ _ _ _ _ _ _ rfl

/-- A header without open fields may go out exactly if its source byte is the host's. -/
theorem sendable_iff {header : Header} {tag : UInt8} (complete : header.onWire tag = header)
    : header.Sendable
      ↔ endpoint (header.sourcePort.getD hostPort) (header.sourceCpu.getD hostCpu) = 0xff := by
  have port : header.destinationPort &&& 7 = header.destinationPort :=
    congrArg destinationPort complete
  have cpu : header.destinationCpu &&& 0x1f = header.destinationCpu :=
    congrArg destinationCpu complete
  have source : header.sourcePort.getD hostPort &&& 7 = header.sourcePort.getD hostPort := by
    rw [← congrArg sourcePort complete]
    simp [Header.onWire, UInt8.and_assoc]
  have processor : header.sourceCpu.getD hostCpu &&& 0x1f = header.sourceCpu.getD hostCpu := by
    rw [← congrArg sourceCpu complete]
    simp [Header.onWire, UInt8.and_assoc]
  constructor
  · rintro ⟨port, cpu, _, _⟩
    rw [port, cpu]
    rfl
  · intro byte
    refine ⟨?_, ?_, ?_, ?_⟩
    · rw [← source, ← endpoint_shiftRight _ (header.sourceCpu.getD hostCpu), byte]
      rfl
    · rw [← processor, ← endpoint_and (header.sourcePort.getD hostPort), byte]
      rfl
    · rw [← port, UInt8.le_iff_toNat_le, UInt8.toNat_and]
      exact Nat.and_le_right
    · rw [← cpu, UInt8.le_iff_toNat_le, UInt8.toNat_and]
      exact Nat.and_le_right

end Sdp.Header

-----------------------------------------------------------------------------------------
-- Requests
-----------------------------------------------------------------------------------------

namespace Scp.Request

open Sdp

/-- The request with the fields filled in that its sender left open. -/
def filled (request : Request) (tag : UInt8) : Request :=
  { request with
    header := request.header.filled tag
    sequence := some (request.sequence.getD 0) }

/-- The header may go out and the data fit. -/
structure Sendable (request : Request) : Prop where
  header : request.header.Sendable
  data : request.data.length ≤ maxData

/-- The header is checked before the data. -/
theorem validate_eq (request : Request)
    : request.validate
      = match request.header.validate with
        | .error error => .error error
        | .ok () =>
            if request.data.length > maxData then
              .error (.invalidParameter "data" (toString request.data.length)
                s!"페이로드는 최대 {maxData} 바이트")
            else .ok () := by
  unfold validate
  cases request.header.validate with
  | error error => rfl
  | ok => rfl

/-- A request passes its checks, or something of it is refused. -/
theorem validate_cases (request : Request)
    : request.Sendable ∧ request.validate = .ok ()
      ∨ ¬ request.Sendable
        ∧ ∃ parameter value problem,
          request.validate = .error (.invalidParameter parameter value problem) := by
  rw [validate_eq]
  rcases request.header.validate_cases with ⟨sendable, passed⟩ | ⟨unsendable, _, _, _, refused⟩
  · rw [passed]
    dsimp only
    split_ifs with much
    · exact .inr ⟨fun both => Nat.not_le.mpr much both.data, _, _, _, rfl⟩
    · exact .inl ⟨⟨sendable, Nat.not_lt.mp much⟩, rfl⟩
  · rw [refused]
    exact .inr ⟨fun both => unsendable both.header, _, _, _, rfl⟩

theorem sendable_of_validate {request : Request} (valid : request.validate = .ok ())
    : request.Sendable := by
  rcases request.validate_cases with ⟨sendable, _⟩ | ⟨_, _, _, _, refused⟩
  · exact sendable
  · rw [valid] at refused
    cases refused

/-- Bytes are read in turn: enough of them, a header, and the code of a command. -/
theorem decode_eq (bytes : Datagram)
    : decode bytes
      = if bytes.length < minRequestSize then
          .error (.invalidPacket "SCP request" s!"길이 {bytes.length} < {minRequestSize}")
        else
          match Header.decode (bytes.drop padding) with
          | .error error => .error error
          | .ok header =>
              match Command.ofCode? (Wire.halfAt bytes codeOffset) with
              | none =>
                  .error (.invalidPacket "SCP request"
                    s!"알 수 없는 명령 {Wire.halfAt bytes codeOffset}")
              | some command =>
                  .ok {
                    header
                    command
                    sequence := some (Wire.halfAt bytes (codeOffset + 2))
                    arg1 := Wire.wordAt bytes (codeOffset + 4)
                    arg2 := Wire.wordAt bytes (codeOffset + 8)
                    arg3 := Wire.wordAt bytes (codeOffset + 12)
                    data := bytes.drop minRequestSize } := by
  unfold decode
  split_ifs with short
  · rfl
  · cases Header.decode (bytes.drop padding) with
    | error error => rfl
    | ok header => rfl

/-- What bytes are and how they are written, if they are read as a request: their header has no
open fields, and but for the two in front they are what the request is written as.
-/
structure Reads (bytes : Datagram) (request : Request) (tag : UInt8) : Prop where
  long : minRequestSize ≤ bytes.length
  header : Header.decode (bytes.drop padding) = .ok request.header
  command : Wire.halfAt bytes codeOffset = request.command.code
  data : request.data = bytes.drop minRequestSize
  written : request.datagram tag = [0, 0] ++ bytes.drop padding

theorem reads_of_decode {bytes : Datagram} {request : Request}
    (read : decode bytes = .ok request) (tag : UInt8)
    : Reads bytes request tag := by
  rw [decode_eq] at read
  split_ifs at read with short
  have long := Nat.not_lt.mp short
  simp only [minRequestSize, codeOffset, padding, Header.size] at long
  split at read
  · cases read
  · next header found =>
      split at read
      · cases read
      · next command known =>
          obtain rfl := Except.ok.inj read
          have code := Command.code_of_ofCode? known
          refine ⟨Nat.not_lt.mp short, found, code.symm, rfl, ?_⟩
          obtain ⟨⟨rest, front⟩, _⟩ := (Header.decode_eq_ok_iff tag).mp found
          have written : header.encode tag = Wire.field bytes padding Header.size := by
            rw [Wire.field, front, ← Header.length_encode header tag, List.take_left]
          simp only [datagram, written, code, Option.getD_some, codeOffset, padding, Header.size,
            minRequestSize]
          rw [Wire.half_halfAt (by omega), Wire.half_halfAt (by omega),
            Wire.word_wordAt (by omega), Wire.word_wordAt (by omega),
            Wire.word_wordAt (by omega)]
          simp only [List.append_assoc, Wire.field_append_drop]

/-- Bytes are read as a request exactly if there are enough of them, the third is a flag, and a
command has the code in its place.
-/
theorem exists_decode_iff (bytes : Datagram)
    : (∃ request, decode bytes = .ok request)
      ↔ minRequestSize ≤ bytes.length
        ∧ (∃ flag : Flag, bytes[padding]? = some flag.code)
        ∧ ∃ command : Command, Wire.halfAt bytes codeOffset = command.code := by
  have first : (bytes.drop padding)[0]? = bytes[padding]? := List.getElem?_drop
  constructor
  · rintro ⟨request, read⟩
    have reads := reads_of_decode read 0
    obtain ⟨_, flagged⟩ := (Header.exists_decode_iff _).mp ⟨_, reads.header⟩
    exact ⟨reads.long, first ▸ flagged, _, reads.command⟩
  · rintro ⟨long, flagged, command, code⟩
    have room : Header.size ≤ (bytes.drop padding).length := by
      simp only [minRequestSize, codeOffset, padding, Header.size, List.length_drop] at *
      omega
    obtain ⟨header, found⟩ := (Header.exists_decode_iff _).mpr ⟨room, first ▸ flagged⟩
    rw [decode_eq, if_neg (Nat.not_lt.mpr long), found, code, Command.ofCode?_code]
    exact ⟨_, rfl⟩

/-- Bytes that were read as a request may go out again exactly if they name the host as their
source and do not carry too much.
-/
theorem Reads.sendable_iff {bytes : Datagram} {request : Request} {tag : UInt8}
    (reads : Reads bytes request tag)
    : request.Sendable
      ↔ bytes[padding + 3]? = some 0xff ∧ bytes.length ≤ minRequestSize + maxData := by
  obtain ⟨⟨rest, front⟩, complete⟩ := (Header.decode_eq_ok_iff tag).mp reads.header
  have source : bytes[padding + 3]?
      = some (Header.endpoint (request.header.sourcePort.getD hostPort)
          (request.header.sourceCpu.getD hostCpu)) := by
    rw [← List.getElem?_drop, front]
    rfl
  have length : request.data.length = bytes.length - minRequestSize := by
    rw [reads.data, List.length_drop]
  have long := reads.long
  rw [source, Option.some_inj, ← Header.sendable_iff complete]
  constructor
  · rintro ⟨header, data⟩
    exact ⟨header, by omega⟩
  · rintro ⟨header, few⟩
    exact ⟨header, by omega⟩

/-- What requests are on the wire, in both directions. A request that passes its checks is written,
and what is written reads back as the request with its open fields filled in: the tag it was
written with, the host's port and processor and the corner chip as its source, and the sequence
number zero; the name of the operation and the results that count as success are not written.
Bytes are read as a request exactly if there are at least 26 of them, the third is one of the
flags, and the code of a command follows the header; written again, under any tag, they are as
they were, but for zeros in front, if the host's byte stands for their source and they carry
no more than a request may, and else a parameter is refused.
Witness: the fields of a datagram are all of it, and each is written as it was read.
-/
theorem codec_exact
    : (∀ (request : Request) (tag : UInt8),
        request.validate = .ok ()
        → ∃ bytes,
            request.encode tag = .ok bytes
            ∧ decode bytes
              = .ok { request.filled tag with operation := "SCP request", accepted := [.ok] })
      ∧ ∀ bytes : Datagram,
          ((∃ request, decode bytes = .ok request)
            ↔ 26 ≤ bytes.length
              ∧ (∃ flag : Flag, bytes[2]? = some flag.code)
              ∧ ∃ command : Command, Wire.halfAt bytes 10 = command.code)
          ∧ ∀ (request : Request) (tag : UInt8),
              decode bytes = .ok request
              → if bytes[5]? = some 0xff ∧ bytes.length ≤ 26 + 256 then
                  request.encode tag = .ok ([0, 0] ++ bytes.drop 2)
                else
                  ∃ parameter value problem,
                    request.encode tag = .error (.invalidParameter parameter value problem) := by
  refine ⟨fun request tag valid => ?_, fun bytes => ⟨exists_decode_iff bytes, ?_⟩⟩
  · have sendable := sendable_of_validate valid
    refine ⟨request.datagram tag, by rw [encode, valid]; rfl, ?_⟩
    rw [decode_datagram, Request.onWire, sendable.header.onWire]
    rfl
  · intro request tag read
    have reads := reads_of_decode read tag
    have sendable_iff : request.Sendable ↔ bytes[5]? = some 0xff ∧ bytes.length ≤ 26 + 256 :=
      reads.sendable_iff
    rcases request.validate_cases with ⟨sendable, passed⟩ | ⟨unsendable, _, _, _, refused⟩
    · rw [if_pos (sendable_iff.mp sendable), encode, passed]
      exact congrArg Except.ok reads.written
    · rw [if_neg fun both => unsendable (sendable_iff.mpr both), encode, refused]
      exact ⟨_, _, _, rfl⟩

/-- A request whose sender left everything open that may be reads back filled in; one that another
processor than the host sent is read as well, but may not go out again.
-/
theorem codec_exact_openFields
    : let header := Header.toCore ⟨3, 4⟩ 17 .replyExpected
      let own : Request := { header, command := .read, arg1 := 0x60000000, arg2 := 5 }
      let foreign := { own with header := { header with sourceCpu := some 3 } }
      (own.validate = .ok ()
        ∧ ∃ bytes, own.encode 9 = .ok bytes ∧ decode bytes = .ok (own.filled 9))
      ∧ decode (foreign.datagram 9) = .ok (foreign.onWire 9)
      ∧ ∃ parameter value problem,
          (foreign.onWire 9).encode 9 = .error (.invalidParameter parameter value problem) := by
  intro header own foreign
  have read := foreign.decode_datagram 9
  have again := (codec_exact.2 (foreign.datagram 9)).2 _ 9 read
  rw [if_neg (by decide)] at again
  exact ⟨⟨rfl, codec_exact.1 own 9 rfl⟩, read, again⟩

end Scp.Request

end MeshControl
