import Mathlib.Data.BitVec
import MeshControl.Router.Filter

/-! Filters and their words. Fields lie apart in a word, so what is put into one is read from it
and from no other; what an open field is filled with survives both ways, and each filter and each
word has one normal form.
-/

namespace MeshControl.Router.Filter

-----------------------------------------------------------------------------------------
-- One field of a word
-----------------------------------------------------------------------------------------

section Field

variable {width : Nat} {field : BitVec width} {offset : Nat} {word : BitVec 32}

theorem getLsbD_place (field : BitVec width) (offset bit : Nat)
    : (place offset field).getLsbD bit
      = (decide (bit < 32) && decide (offset ≤ bit) && field.getLsbD (bit - offset)) := by
  rw [place, BitVec.getLsbD_shiftLeft, BitVec.getLsbD_setWidth]
  by_cases inside : bit < 32
  · have later : bit - offset < 32 := by omega
    by_cases before : bit < offset
    · simp [before, Nat.not_le.mpr before]
    · simp [inside, before, later, Nat.not_lt.mp before]
  · simp [inside]

theorem getLsbD_fieldAt (width offset : Nat) (word : BitVec 32) (bit : Nat)
    : (fieldAt width offset word).getLsbD bit
      = (decide (bit < width) && word.getLsbD (offset + bit)) := by
  rw [fieldAt, BitVec.getLsbD_setWidth, BitVec.getLsbD_ushiftRight]

theorem fieldAt_or (width offset : Nat) (word other : BitVec 32)
    : fieldAt width offset (word ||| other)
      = fieldAt width offset word ||| fieldAt width offset other := by
  refine BitVec.eq_of_getLsbD_eq fun bit _ => ?_
  simp only [getLsbD_fieldAt, BitVec.getLsbD_or, Bool.and_or_distrib_left]

/-- What was put into a field is read from it. -/
theorem fieldAt_place (field : BitVec width) (inside : offset + width ≤ 32)
    : fieldAt width offset (place offset field) = field := by
  refine BitVec.eq_of_getLsbD_eq fun bit within => ?_
  rw [getLsbD_fieldAt, getLsbD_place]
  have low : offset + bit < 32 := by omega
  simp [within, low]

/-- What was put into a field is not seen in another. -/
theorem fieldAt_place_apart {other otherWidth : Nat} (field : BitVec width)
    (apart : offset + width ≤ other ∨ other + otherWidth ≤ offset)
    : fieldAt otherWidth other (place offset field) = 0 := by
  refine BitVec.eq_of_getLsbD_eq fun bit within => ?_
  rw [getLsbD_fieldAt, getLsbD_place]
  by_cases before : other + bit < offset
  · simp [Nat.not_le.mpr before]
  · have beyond : width ≤ other + bit - offset := by omega
    simp [BitVec.getLsbD_of_ge _ _ beyond]

end Field

/-- A filter is read from the word that its fields make. -/
theorem disassemble_assemble (filter : Filter) : disassemble filter.assemble = filter := by
  have is_set (flag : Bool) : (BitVec.ofBool flag == 1#1) = flag := by cases flag <;> rfl
  have is_clear (flag : Bool) : (BitVec.ofBool (!flag) == 0#1) = flag := by cases flag <;> rfl
  simp (disch := omega) [disassemble, assemble, fieldAt_or, fieldAt_place, fieldAt_place_apart,
    interruptOffset, modeOffset, destinationsOffset, sourcesOffset, payloadOffset,
    defaultRoutingOffset, emergencyRoutingOffset, packetTypesOffset, is_set, is_clear]

-----------------------------------------------------------------------------------------
-- Open fields
-----------------------------------------------------------------------------------------

theorem allIfEmpty_allIfEmpty {width : Nat} (field : BitVec width)
    : allIfEmpty (allIfEmpty field) = allIfEmpty field := by
  unfold allIfEmpty
  split
  · split <;> rfl
  · rfl

theorem normalize_normalize (filter : Filter) : filter.normalize.normalize = filter.normalize := by
  simp only [normalize, allIfEmpty_allIfEmpty]

theorem ofWord_word (filter : Filter) : ofWord filter.word = filter.normalize := by
  rw [ofWord, word, disassemble_assemble, normalize_normalize]

theorem normalize_ofWord (word : BitVec 32) : (ofWord word).normalize = ofWord word :=
  normalize_normalize _

/-- A filled field has the bits that were chosen, or all of them where none was. -/
theorem getLsbD_allIfEmpty {width : Nat} (field : BitVec width) (bit : Nat)
    : (allIfEmpty field).getLsbD bit = true
      ↔ bit < width ∧ (field.getLsbD bit = true ∨ field = 0) := by
  by_cases empty : field = 0
  · simp [allIfEmpty, empty]
  · have within : field.getLsbD bit = true → bit < width := BitVec.lt_of_getLsbD
    simp only [allIfEmpty, empty, if_false, or_false]
    exact ⟨fun chosen => ⟨within chosen, chosen⟩, And.right⟩

-----------------------------------------------------------------------------------------
-- The bits of a word
-----------------------------------------------------------------------------------------

/-- A row of bits of a word. -/
structure Row where
  first : Nat
  size : Nat

namespace Row

def Has (row : Row) (bit : Nat) : Prop :=
  row.first ≤ bit ∧ bit < row.first + row.size

theorem has_mk {first size bit : Nat}
    : (Row.mk first size).Has bit ↔ first ≤ bit ∧ bit < first + size :=
  .rfl

/-- No bit of the row is set. -/
def Clear (row : Row) (word : BitVec 32) : Prop :=
  ∀ bit, row.Has bit → word.getLsbD bit = false

end Row

/-- The fields in which values are chosen: destinations, sources, payload, default routing,
emergency routing and packet types.
-/
def choices : List Row :=
  [⟨16, 9⟩, ⟨14, 2⟩, ⟨12, 2⟩, ⟨10, 2⟩, ⟨4, 4⟩, ⟨0, 4⟩]

/-- The bits that belong to no field. -/
def unused : List Nat :=
  [9, 25, 26, 27, 28, 29, 31]

theorem fieldAt_eq_zero_iff {width offset : Nat} {word : BitVec 32}
    : fieldAt width offset word = 0 ↔ (Row.mk offset width).Clear word := by
  constructor
  · intro zero bit has
    rw [Row.has_mk] at has
    have read := getLsbD_fieldAt width offset word (bit - offset)
    have within : bit - offset < width := by omega
    rw [zero, Nat.add_sub_cancel' has.1] at read
    simpa [within] using read.symm
  · intro clear
    refine BitVec.eq_of_getLsbD_eq fun bit within => ?_
    rw [getLsbD_fieldAt, clear _ ⟨by simp, by simpa using within⟩]
    simp

/-- A field that is read, filled and put back. -/
theorem getLsbD_place_allIfEmpty {width offset : Nat} (inside : offset + width ≤ 32)
    (word : BitVec 32) (bit : Nat)
    : (place offset (allIfEmpty (fieldAt width offset word))).getLsbD bit = true
      ↔ (Row.mk offset width).Has bit
        ∧ (word.getLsbD bit = true ∨ (Row.mk offset width).Clear word) := by
  simp only [getLsbD_place, Bool.and_eq_true, decide_eq_true_eq, getLsbD_allIfEmpty,
    fieldAt_eq_zero_iff, getLsbD_fieldAt, Row.has_mk]
  constructor
  · rintro ⟨⟨_, above⟩, below, chosen⟩
    rw [Nat.add_sub_cancel' above] at chosen
    exact ⟨⟨above, by omega⟩, chosen.imp_left And.right⟩
  · rintro ⟨⟨above, below⟩, chosen⟩
    rw [Nat.add_sub_cancel' above]
    exact ⟨⟨by omega, above⟩, by omega, chosen.imp_left fun set => ⟨by omega, set⟩⟩

/-- A bit that is read and put back. -/
theorem getLsbD_place_bit {offset : Nat} (inside : offset < 32) (word : BitVec 32) (bit : Nat)
    : (place offset (fieldAt 1 offset word)).getLsbD bit = true
      ↔ bit = offset ∧ word.getLsbD bit = true := by
  simp only [getLsbD_place, getLsbD_fieldAt, Bool.and_eq_true, decide_eq_true_eq]
  constructor
  · rintro ⟨⟨_, above⟩, below, set⟩
    obtain rfl : bit = offset := by omega
    exact ⟨rfl, by simpa using set⟩
  · rintro ⟨rfl, set⟩
    exact ⟨⟨inside, Nat.le_refl _⟩, by omega, by simpa using set⟩

/-- A bit belongs to a field, or it is one of the two that stand alone, or it is unused. -/
theorem used_iff (bit : Nat)
    : bit < 32 ∧ bit ∉ unused ↔ bit = 30 ∨ bit = 8 ∨ ∃ row ∈ choices, row.Has bit := by
  simp only [choices, unused, Row.has_mk, List.mem_cons, List.not_mem_nil, or_false,
    exists_eq_or_imp, exists_eq_left, not_or]
  omega

/-- A word that is read and written back has the two bits that stand alone as they were, and in
each field the bits that were set, or all where none was.
-/
theorem getLsbD_word_ofWord (word : BitVec 32) (bit : Nat)
    : (ofWord word).word.getLsbD bit = true
      ↔ bit = 30 ∧ word.getLsbD bit = true
        ∨ bit = 8 ∧ word.getLsbD bit = true
        ∨ ∃ row ∈ choices, row.Has bit ∧ (word.getLsbD bit = true ∨ row.Clear word) := by
  have interrupt (field : BitVec 1) : BitVec.ofBool (field == 1) = field := by
    revert field; decide
  have mode (field : BitVec 1) : BitVec.ofBool (!(field == 0)) = field := by
    revert field; decide
  rw [Filter.word, normalize_ofWord]
  simp only [ofWord, normalize, disassemble, assemble, BitVec.getLsbD_or, Bool.or_eq_true,
    interrupt, mode, interruptOffset, modeOffset, destinationsOffset, sourcesOffset, payloadOffset,
    defaultRoutingOffset, emergencyRoutingOffset, packetTypesOffset]
  rw [getLsbD_place_bit (by decide), getLsbD_place_bit (by decide)]
  repeat rw [getLsbD_place_allIfEmpty (by decide)]
  simp only [choices, List.mem_cons, List.not_mem_nil, or_false, exists_eq_or_imp, exists_eq_left,
    or_assoc]

/-- Each filter that is written to a word and read again is the same filter with every open field
filled. Each word that is read and written back is the same word without its unused bits and with
every field filled in which no bit was set, and there it stays: to read and write it again changes
neither the filter nor the word.
-/
theorem normal_forms
    : (∀ filter : Filter,
        ofWord filter.word
        = { filter with
            destinations := if filter.destinations = 0 then .allOnes 9 else filter.destinations
            sources := if filter.sources = 0 then .allOnes 2 else filter.sources
            payload := if filter.payload = 0 then .allOnes 2 else filter.payload
            defaultRouting :=
              if filter.defaultRouting = 0 then .allOnes 2 else filter.defaultRouting
            emergencyRouting :=
              if filter.emergencyRouting = 0 then .allOnes 4 else filter.emergencyRouting
            packetTypes := if filter.packetTypes = 0 then .allOnes 4 else filter.packetTypes })
      ∧ ∀ word : BitVec 32,
          let normal := (ofWord word).word
          (∀ bit,
            normal.getLsbD bit = true
            ↔ bit < 32 ∧ bit ∉ unused
              ∧ (word.getLsbD bit = true ∨ ∃ row ∈ choices, row.Has bit ∧ row.Clear word))
          ∧ ofWord normal = ofWord word
          ∧ (ofWord normal).word = normal := by
  refine ⟨ofWord_word, fun word => ?_⟩
  intro normal
  have again : ofWord normal = ofWord word := (ofWord_word _).trans (normalize_ofWord word)
  refine ⟨fun bit => ?_, again, by rw [again]⟩
  rw [getLsbD_word_ofWord, ← and_assoc, used_iff]
  constructor
  · rintro (⟨alone, set⟩ | ⟨alone, set⟩ | ⟨row, member, has, filled⟩)
    · exact ⟨.inl alone, .inl set⟩
    · exact ⟨.inr (.inl alone), .inl set⟩
    · refine ⟨.inr (.inr ⟨row, member, has⟩), ?_⟩
      exact filled.imp_right fun clear => ⟨row, member, has, clear⟩
  · rintro ⟨used, set | ⟨row, member, has, clear⟩⟩
    · rcases used with alone | alone | ⟨row, member, has⟩
      · exact .inl ⟨alone, set⟩
      · exact .inr (.inl ⟨alone, set⟩)
      · exact .inr (.inr ⟨row, member, has, .inl set⟩)
    · exact .inr (.inr ⟨row, member, has, .inr clear⟩)

/-- A word without any bit counts every packet. -/
example : (ofWord 0).word = 0x01fffcff := by
  decide

end MeshControl.Router.Filter
