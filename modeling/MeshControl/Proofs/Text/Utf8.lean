import MeshControl.Text.Utf8

/-! Bytes that encode text are read as that text: `decodeLossy_encode`. A character is read byte by
byte, so its proof follows the number of its bytes: the first one tells how many more there are
and which of them may come next, and each of the others adds six bits.
-/

namespace MeshControl.Text.Utf8

-----------------------------------------------------------------------------------------
-- The first byte
-----------------------------------------------------------------------------------------

theorem start_one {value : Nat} (small : value ≤ 127)
    : start (UInt8.ofNat value) = ([Char.ofNat value], none) := by
  have read := UInt8.toNat_ofNat_of_lt' (by omega : value < 256)
  have below : UInt8.ofNat value < 0x80 := by
    rw [UInt8.lt_iff_toNat_lt, read]
    exact Nat.lt_succ_of_le small
  rw [start, if_pos below, read]

/-- A byte that begins a character of several bytes. -/
theorem start_lead {value : Nat} {pending : Pending} (small : value < 256) (high : 128 ≤ value)
    (lead : Pending.ofLead? (UInt8.ofNat value) = some pending)
    : start (UInt8.ofNat value) = ([], some pending) := by
  have above : ¬ UInt8.ofNat value < 0x80 := by
    rw [UInt8.lt_iff_toNat_lt, UInt8.toNat_ofNat_of_lt' small]
    exact Nat.not_lt.mpr high
  simp only [start, above, if_false, lead]

theorem start_two {high : Nat} (least : 2 ≤ high) (greatest : high < 32)
    : start (UInt8.ofNat (high + 192)) = ([], some ⟨1, 0x80, 0xbf, high⟩) := by
  have read := UInt8.toNat_ofNat_of_lt' (by omega : high + 192 < 256)
  refine start_lead (by omega) (by omega) ?_
  simp only [Pending.ofLead?, UInt8.lt_iff_toNat_lt, read]
  rw [if_neg (by simp; omega), if_pos (by simp; omega)]
  simp

theorem start_three {high : Nat} (greatest : high < 16)
    : start (UInt8.ofNat (high + 224))
      = ([],
          some ⟨2, if high = 0 then 0xa0 else 0x80, if high = 13 then 0x9f else 0xbf, high⟩) := by
  have read := UInt8.toNat_ofNat_of_lt' (by omega : high + 224 < 256)
  refine start_lead (by omega) (by omega) ?_
  simp only [Pending.ofLead?, UInt8.lt_iff_toNat_lt, ← UInt8.toNat_inj, read]
  rw [if_neg (by simp), if_neg (by simp), if_pos (by simp; omega)]
  simp

theorem start_four {high : Nat} (greatest : high < 5)
    : start (UInt8.ofNat (high + 240))
      = ([],
          some ⟨3, if high = 0 then 0x90 else 0x80, if high = 4 then 0x8f else 0xbf, high⟩) := by
  have read := UInt8.toNat_ofNat_of_lt' (by omega : high + 240 < 256)
  refine start_lead (by omega) (by omega) ?_
  simp only [Pending.ofLead?, UInt8.lt_iff_toNat_lt, ← UInt8.toNat_inj, read]
  rw [if_neg (by simp), if_neg (by simp), if_neg (by simp), if_pos (by simp; omega)]
  simp

-----------------------------------------------------------------------------------------
-- The other bytes
-----------------------------------------------------------------------------------------

theorem decodeFrom_step {state next : Option Pending} {byte : UInt8} {text : List Char}
    (stepped : step state byte = (text, next)) (rest : List UInt8)
    : decodeFrom state (byte :: rest) = text ++ decodeFrom next rest := by
  rw [decodeFrom, stepped]

theorem decodeFrom_lead {byte : UInt8} {pending : Pending}
    (lead : start byte = ([], some pending)) (rest : List UInt8)
    : decodeFrom none (byte :: rest) = decodeFrom (some pending) rest :=
  decodeFrom_step (by rw [step, lead]) rest

section More

variable {pending : Pending} {low : Nat}

/-- A byte that may come next adds its six bits. -/
theorem step_more (least : pending.least.toNat ≤ low + 128)
    (greatest : low + 128 ≤ pending.greatest.toNat)
    : step (some pending) (UInt8.ofNat (low + 128))
      = if pending.missing ≤ 1 then ([Char.ofNat (pending.bits * 64 + low)], none)
        else ([], some ⟨pending.missing - 1, 0x80, 0xbf, pending.bits * 64 + low⟩) := by
  have small : low + 128 < 256 := Nat.lt_of_le_of_lt greatest pending.greatest.toNat_lt
  have read := UInt8.toNat_ofNat_of_lt' small
  have bits : low + 128 - 0x80 = low := Nat.add_sub_cancel _ _
  simp only [step, UInt8.le_iff_toNat_le, read, bits]
  rw [if_pos ⟨least, greatest⟩]

theorem decodeFrom_more (least : pending.least.toNat ≤ low + 128)
    (greatest : low + 128 ≤ pending.greatest.toNat) (more : 1 < pending.missing)
    (rest : List UInt8)
    : decodeFrom (some pending) (UInt8.ofNat (low + 128) :: rest)
      = decodeFrom (some ⟨pending.missing - 1, 0x80, 0xbf, pending.bits * 64 + low⟩) rest :=
  decodeFrom_step (by rw [step_more least greatest, if_neg (Nat.not_le.mpr more)]) rest

theorem decodeFrom_last (least : pending.least.toNat ≤ low + 128)
    (greatest : low + 128 ≤ pending.greatest.toNat) (last : pending.missing ≤ 1)
    (rest : List UInt8)
    : decodeFrom (some pending) (UInt8.ofNat (low + 128) :: rest)
      = Char.ofNat (pending.bits * 64 + low) :: decodeFrom none rest :=
  decodeFrom_step (by rw [step_more least greatest, if_pos last]) rest

end More

-----------------------------------------------------------------------------------------
-- Characters
-----------------------------------------------------------------------------------------

/-- Six bits after the mark of a byte that begins no character. -/
theorem tail_le {low : Nat} (six : low < 64) : low + 128 ≤ (0xbf : UInt8).toNat :=
  Nat.add_le_add_right (Nat.le_of_lt_succ six) 128

section Bounds

variable {special : Prop} [Decidable special] {bound : UInt8} {low : Nat}

/-- The next byte is not below its least value, where the first byte makes that a special one. -/
theorem least_le (tight : special → bound.toNat ≤ low + 128)
    : (if special then bound else 0x80).toNat ≤ low + 128 := by
  split
  · next here => exact tight here
  · exact Nat.le_add_left ..

theorem le_greatest (six : low < 64) (tight : special → low + 128 ≤ bound.toNat)
    : low + 128 ≤ (if special then bound else 0xbf).toNat := by
  split
  · next here => exact tight here
  · exact tail_le six

end Bounds

section Several

variable {high upper middle low : Nat} (rest : List UInt8)

theorem decodeFrom_two (least : 2 ≤ high) (greatest : high < 32) (last : low < 64)
    : decodeFrom none (UInt8.ofNat (high + 192) :: UInt8.ofNat (low + 128) :: rest)
      = Char.ofNat (high * 64 + low) :: decodeFrom none rest := by
  rw [decodeFrom_lead (start_two least greatest),
    decodeFrom_last (Nat.le_add_left ..) (tail_le last) (Nat.le_refl _)]

/-- Neither what fewer bytes could say nor a surrogate. -/
theorem decodeFrom_three (greatest : high < 16) (next : middle < 64) (last : low < 64)
    (shortest : high = 0 → 32 ≤ middle) (proper : high = 13 → middle < 32)
    : decodeFrom none
        (UInt8.ofNat (high + 224) :: UInt8.ofNat (middle + 128) :: UInt8.ofNat (low + 128) :: rest)
      = Char.ofNat ((high * 64 + middle) * 64 + low) :: decodeFrom none rest := by
  have above : (if high = 0 then (0xa0 : UInt8) else 0x80).toNat ≤ middle + 128 :=
    least_le fun zero => Nat.add_le_add_right (shortest zero) 128
  have below : middle + 128 ≤ (if high = 13 then (0x9f : UInt8) else 0xbf).toNat :=
    le_greatest next fun surrogate =>
      Nat.add_le_add_right (Nat.le_of_lt_succ (proper surrogate)) 128
  rw [decodeFrom_lead (start_three greatest), decodeFrom_more above below (by simp),
    decodeFrom_last (Nat.le_add_left ..) (tail_le last) (Nat.le_refl _)]

/-- Neither what fewer bytes could say nor beyond the last code point. -/
theorem decodeFrom_four (greatest : high < 5) (next : upper < 64) (other : middle < 64)
    (last : low < 64) (shortest : high = 0 → 16 ≤ upper) (inside : high = 4 → upper < 16)
    : decodeFrom none
        (UInt8.ofNat (high + 240) :: UInt8.ofNat (upper + 128) :: UInt8.ofNat (middle + 128)
          :: UInt8.ofNat (low + 128) :: rest)
      = Char.ofNat (((high * 64 + upper) * 64 + middle) * 64 + low) :: decodeFrom none rest := by
  have above : (if high = 0 then (0x90 : UInt8) else 0x80).toNat ≤ upper + 128 :=
    least_le fun zero => Nat.add_le_add_right (shortest zero) 128
  have below : upper + 128 ≤ (if high = 4 then (0x8f : UInt8) else 0xbf).toNat :=
    le_greatest next fun highest =>
      Nat.add_le_add_right (Nat.le_of_lt_succ (inside highest)) 128
  rw [decodeFrom_lead (start_four greatest), decodeFrom_more above below (by simp),
    decodeFrom_more (Nat.le_add_left ..) (tail_le other) (by simp),
    decodeFrom_last (Nat.le_add_left ..) (tail_le last) (Nat.le_refl _)]

end Several

/-- The bytes of one character are read as that character, whatever comes behind them. -/
theorem decodeFrom_encodeChar (c : Char) (rest : List UInt8)
    : decodeFrom none (String.utf8EncodeChar c ++ rest) = c :: decodeFrom none rest := by
  have valid : c.toNat < 0xd800 ∨ 0xdfff < c.toNat ∧ c.toNat < 0x110000 := c.valid
  have whole {value : Nat} (same : value = c.toNat) : Char.ofNat value = c :=
    same ▸ Char.ofNat_toNat c
  rw [String.utf8EncodeChar, Char.toNat_val]
  split
  · next one => exact decodeFrom_step (by rw [step, start_one one, whole rfl]) rest
  split
  · simp only [List.cons_append, List.nil_append]
    rw [decodeFrom_two rest (by omega) (by omega) (by omega), whole (by omega)]
  split
  · simp only [List.cons_append, List.nil_append]
    rw [decodeFrom_three rest (by omega) (by omega) (by omega) (by omega) (by omega),
      whole (by omega)]
  · simp only [List.cons_append, List.nil_append]
    rw [decodeFrom_four rest (by omega) (by omega) (by omega) (by omega) (by omega) (by omega),
      whole (by omega)]

theorem decodeLossy_encode (text : List Char) : decodeLossy (encode text) = text := by
  unfold decodeLossy
  induction text with
  | nil => rfl
  | cons c rest ih => rw [encode, List.flatMap_cons, decodeFrom_encodeChar, ← encode, ih]

end MeshControl.Text.Utf8
