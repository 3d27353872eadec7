import MeshControl.Boot.Message
import MeshControl.Proofs.Scp.Canonical

/-! Boot messages on the wire. What is written is read back, but for messages with too much data;
and bytes are a message exactly if they are what the message is written as, whatever stands in
front in place of the version.
-/

namespace MeshControl

-----------------------------------------------------------------------------------------
-- Words with the most significant byte first
-----------------------------------------------------------------------------------------

namespace Wire

@[simp] theorem length_wordBig (value : UInt32) : (wordBig value).length = 4 := by
  rw [wordBig, List.length_reverse, length_word]

theorem wordBigAt_of_drop {bytes after : List UInt8} {offset : Nat} {value : UInt32}
    (written : bytes.drop offset = wordBig value ++ after)
    : wordBigAt bytes offset = value := by
  have read : field bytes offset 4 = wordBig value := by
    rw [field, written, ← length_wordBig value, List.take_left]
  have bound : value.toNat < capacity 4 := value.toNat_lt
  rw [wordBigAt, read, wordBig, List.reverse_reverse, word, combine_split, Nat.mod_eq_of_lt bound,
    UInt32.ofNat_toNat]

theorem wordBig_wordBigAt {bytes : List UInt8} {offset : Nat} (within : offset + 4 ≤ bytes.length)
    : wordBig (wordBigAt bytes offset) = field bytes offset 4 := by
  have length : (field bytes offset 4).reverse.length = 4 := by
    rw [List.length_reverse, length_field within]
  have bound : combine (field bytes offset 4).reverse < 2 ^ 32 := by
    have := combine_lt (field bytes offset 4).reverse
    rwa [length] at this
  have written := split_combine (field bytes offset 4).reverse
  rw [length] at written
  rw [wordBig, word, wordBigAt, UInt32.toNat_ofNat', Nat.mod_eq_of_lt bound, written,
    List.reverse_reverse]

end Wire

namespace Boot

/-- The bytes of an operation's word: all but the last are zero. -/
theorem Opcode.wordBig_code (opcode : Opcode)
    : Wire.wordBig opcode.code = [0, 0, 0, opcode.code.toUInt8] := by
  cases opcode <;> rfl

namespace Message

-----------------------------------------------------------------------------------------
-- What is written
-----------------------------------------------------------------------------------------

theorem check_eq_ok_iff {message accepted : Message}
    : message.check = .ok accepted ↔ accepted = message ∧ message.data.length ≤ maxData := by
  unfold check
  split_ifs with much
  · simp [Nat.not_le.mpr much]
  · simp [Nat.not_lt.mp much, eq_comm]

theorem drop_encode (message : Message)
    : message.encode.drop 2
      = Wire.wordBig message.opcode.code ++ (Wire.wordBig message.operand1
        ++ (Wire.wordBig message.operand2 ++ (Wire.wordBig message.operand3 ++ message.data))) := by
  simp only [encode, List.append_assoc]
  rfl

theorem encode_eq (message : Message) : message.encode = [0, 1] ++ message.encode.drop 2 := by
  rw [drop_encode]
  simp only [encode, List.append_assoc]
  rfl

theorem length_encode (message : Message)
    : message.encode.length = headerSize + message.data.length := by
  rw [encode_eq, drop_encode]
  simp [headerSize]
  omega

/-- Every message reads back from its datagram, field after field, if it may be one. -/
theorem decode_encode (message : Message) : decode message.encode = message.check := by
  have at_code := message.drop_encode
  have at_operand1 := Wire.drop_add at_code (Wire.length_wordBig _)
  have at_operand2 := Wire.drop_add at_operand1 (Wire.length_wordBig _)
  have at_operand3 := Wire.drop_add at_operand2 (Wire.length_wordBig _)
  have at_data : message.encode.drop headerSize = message.data :=
    Wire.drop_add at_operand3 (Wire.length_wordBig _)
  have code := Wire.wordBigAt_of_drop at_code
  have operand1 : Wire.wordBigAt message.encode 6 = message.operand1 :=
    Wire.wordBigAt_of_drop at_operand1
  have operand2 : Wire.wordBigAt message.encode 10 = message.operand2 :=
    Wire.wordBigAt_of_drop at_operand2
  have operand3 : Wire.wordBigAt message.encode 14 = message.operand3 :=
    Wire.wordBigAt_of_drop at_operand3
  have long : ¬ message.encode.length < headerSize := by
    rw [length_encode]
    omega
  simp only [decode, long, if_false, code, Opcode.ofCode?_code, operand1, operand2, operand3,
    at_data]

-----------------------------------------------------------------------------------------
-- What is read
-----------------------------------------------------------------------------------------

/-- The version does not matter to a reader. -/
theorem decode_version (high low : UInt8) (rest : List UInt8)
    : decode (high :: low :: rest) = decode (0 :: 1 :: rest) :=
  rfl

/-- What is read of enough bytes with the code of an operation, if the data are not too long. -/
def ofFields (bytes : Datagram) (opcode : Opcode) : Message where
  opcode := opcode
  operand1 := Wire.wordBigAt bytes 6
  operand2 := Wire.wordBigAt bytes 10
  operand3 := Wire.wordBigAt bytes 14
  data := bytes.drop headerSize

theorem decode_of_code {bytes : Datagram} {opcode : Opcode} (long : headerSize ≤ bytes.length)
    (code : Wire.wordBigAt bytes 2 = opcode.code)
    : decode bytes = (ofFields bytes opcode).check := by
  simp only [decode, Nat.not_lt.mpr long, if_false, code, Opcode.ofCode?_code, ofFields]

/-- Bytes are read in turn: enough of them, the code of an operation, and data that fit. -/
theorem decode_cases {bytes : Datagram} {message : Message} (read : decode bytes = .ok message)
    : headerSize ≤ bytes.length
      ∧ bytes.length ≤ headerSize + maxData
      ∧ ∃ opcode : Opcode,
          Wire.wordBigAt bytes 2 = opcode.code ∧ message = ofFields bytes opcode := by
  have long : headerSize ≤ bytes.length := by
    by_contra short
    rw [decode, if_pos (Nat.not_le.mp short)] at read
    cases read
  cases known : Opcode.ofCode? (Wire.wordBigAt bytes 2) with
  | none =>
      simp only [decode, Nat.not_lt.mpr long, if_false, known] at read
      cases read
  | some opcode =>
      have code := (Opcode.code_of_ofCode? known).symm
      rw [decode_of_code long code, check_eq_ok_iff] at read
      obtain ⟨same, few⟩ := read
      rw [ofFields, List.length_drop] at few
      exact ⟨long, by omega, opcode, code, same⟩

/-- Fields that were read are written as the bytes that they were read from. -/
theorem encode_ofFields {bytes : Datagram} {opcode : Opcode} (long : headerSize ≤ bytes.length)
    (code : Wire.wordBigAt bytes 2 = opcode.code)
    : (ofFields bytes opcode).encode = [0, 1] ++ bytes.drop 2 := by
  rw [headerSize] at long
  rw [encode_eq, drop_encode]
  simp only [ofFields, ← code, headerSize]
  rw [Wire.wordBig_wordBigAt (by omega), Wire.wordBig_wordBigAt (by omega),
    Wire.wordBig_wordBigAt (by omega), Wire.wordBig_wordBigAt (by omega),
    Wire.field_append_drop bytes 14 4, Wire.field_append_drop bytes 10 4,
    Wire.field_append_drop bytes 6 4, Wire.field_append_drop bytes 2 4]

/-- A word is the code of an operation exactly if it has the bytes of one of the four. -/
theorem exists_code_iff {bytes : Datagram} (long : headerSize ≤ bytes.length)
    : (∃ opcode : Opcode, Wire.wordBigAt bytes 2 = opcode.code)
      ↔ ∃ code ∈ [0x01, 0x03, 0x05, 0x41], Wire.field bytes 2 4 = [0, 0, 0, code] := by
  have within : 2 + 4 ≤ bytes.length := by
    rw [headerSize] at long
    omega
  constructor
  · rintro ⟨opcode, code⟩
    refine ⟨opcode.code.toUInt8, ?_, ?_⟩
    · cases opcode <;> decide
    · rw [← Wire.wordBig_wordBigAt within, code, Opcode.wordBig_code]
  · rintro ⟨code, member, read⟩
    have known : ∃ opcode : Opcode, opcode.code = UInt32.ofNat (Wire.combine [code, 0, 0, 0]) := by
      simp only [List.mem_cons, List.not_mem_nil, or_false] at member
      rcases member with rfl | rfl | rfl | rfl
      · exact ⟨.floodFillStart, rfl⟩
      · exact ⟨.floodFillBlock, rfl⟩
      · exact ⟨.floodFillControl, rfl⟩
      · exact ⟨.hello, rfl⟩
    obtain ⟨opcode, same⟩ := known
    exact ⟨opcode, by rw [Wire.wordBigAt, read, same]; rfl⟩

theorem exists_decode_iff (bytes : Datagram)
    : (∃ message, decode bytes = .ok message)
      ↔ headerSize ≤ bytes.length
        ∧ bytes.length ≤ headerSize + maxData
        ∧ ∃ opcode : Opcode, Wire.wordBigAt bytes 2 = opcode.code := by
  constructor
  · rintro ⟨message, read⟩
    obtain ⟨long, few, opcode, code, _⟩ := decode_cases read
    exact ⟨long, few, opcode, code⟩
  · rintro ⟨long, few, opcode, code⟩
    refine ⟨ofFields bytes opcode, ?_⟩
    rw [decode_of_code long code, check_eq_ok_iff, ofFields, List.length_drop]
    exact ⟨rfl, by omega⟩

/-- Bytes are read as a message exactly if they are what it is written as, but for the two in
front, and if they are not too many.
-/
theorem decode_eq_ok_iff {bytes : Datagram} {message : Message}
    : decode bytes = .ok message
      ↔ message.encode = [0, 1] ++ bytes.drop 2 ∧ bytes.length ≤ headerSize + maxData := by
  constructor
  · intro read
    obtain ⟨long, few, opcode, code, rfl⟩ := decode_cases read
    exact ⟨encode_ofFields long code, few⟩
  · rintro ⟨written, few⟩
    have length := congrArg List.length written
    rw [length_encode, List.length_append, List.length_drop] at length
    match bytes, written, length, few with
    | [], _, length, _ | [_], _, length, _ =>
        simp only [headerSize, List.length_cons, List.length_nil] at length
        omega
    | high :: low :: rest, written, length, few =>
        have same : message.encode = 0 :: 1 :: rest := written
        rw [decode_version, ← same, decode_encode, check_eq_ok_iff]
        simp only [List.length_cons, List.length_nil] at length few
        exact ⟨rfl, by omega⟩

/-- What boot messages are on the wire, in both directions. A message is read from what it is
written as exactly if it is accepted, which it is with at most 1024 bytes of data. Bytes are read
as a message exactly if there are 18 of them and at most 1024 more, and the word behind the version
is one of four; and a message is what is read of them exactly if it is written as they are, but
for the version, which is written as one whatever was read.
-/
theorem reads_as_written
    : (∀ message : Message,
        decode message.encode = message.check
        ∧ ∀ accepted, message.check = .ok accepted
          ↔ accepted = message ∧ message.data.length ≤ 1024)
      ∧ ∀ bytes : Datagram,
          ((∃ message, decode bytes = .ok message)
            ↔ 18 ≤ bytes.length
              ∧ bytes.length ≤ 18 + 1024
              ∧ ∃ code ∈ [0x01, 0x03, 0x05, 0x41], (bytes.drop 2).take 4 = [0, 0, 0, code])
          ∧ ∀ message,
              decode bytes = .ok message
              ↔ message.encode = [0x00, 0x01] ++ bytes.drop 2 ∧ bytes.length ≤ 18 + 1024 := by
  refine ⟨fun message => ⟨decode_encode message, fun _ => check_eq_ok_iff⟩, fun bytes => ?_⟩
  refine ⟨?_, fun _ => decode_eq_ok_iff⟩
  rw [exists_decode_iff]
  exact and_congr_right fun long => and_congr_right fun _ => exists_code_iff long

/-- A message whose datagram has another version in front is read as well. -/
example
    : decode [7, 9, 0, 0, 0, 0x41, 0, 0, 0, 1, 0, 0, 0, 2, 0, 0, 0, 3, 0x61, 0x62]
      = .ok ⟨.hello, 1, 2, 3, [0x61, 0x62]⟩ := by
  rfl

end Message

end Boot

end MeshControl
