import Mathlib.Tactic.IntervalCases
import MeshControl.Flood.Block

/-! Sizes and ranges of up to 64 bits, in exact numbers: what fits is let through, what does not is
refused, and what is so large that a sum of the check does not fit either stops the program.
-/

namespace MeshControl

open Scp

-----------------------------------------------------------------------------------------
-- Ranges
-----------------------------------------------------------------------------------------

namespace Operation

/-- What is told of a range that goes beyond the end of the address space. -/
def beyond (base : UInt32) (count : UInt64) : Error :=
  .invalidParameter "base_address" (Text.marked 8 base.toNat)
    s!"{count} 바이트가 주소 공간 끝을 넘음"

/-- A range passes the check exactly if it ends within the address space. One whose end is so far
out that 64 bits cannot hold it is not even refused.
-/
theorem checkAddressRange_eq (base : UInt32) (count : UInt64)
    : checkAddressRange base count
      = if base.toNat + count.toNat ≤ 2 ^ 32 then .ok ()
        else if base.toNat + count.toNat < 2 ^ 64 then .error (.failed (beyond base count))
        else .error .overflow := by
  have long : base.toUInt64.toNat = base.toNat := UInt32.toNat_toUInt64 base
  unfold checkAddressRange
  by_cases fits : base.toNat + count.toNat < 2 ^ 64
  · obtain ⟨last, summed, exact_sum⟩ := longSum_of_fits (a := base.toUInt64) (long ▸ fits)
    have further : last > 0x100000000 ↔ ¬ base.toNat + count.toNat ≤ 2 ^ 32 := by
      rw [gt_iff_lt, UInt64.lt_iff_toNat_lt, exact_sum, long]
      simp only [UInt64.reduceToNat]
      omega
    rw [summed, if_pos fits]
    by_cases inside : base.toNat + count.toNat ≤ 2 ^ 32
    · rw [if_pos inside]
      exact if_neg (further.not.mpr (not_not_intro inside))
    · rw [if_neg inside]
      exact if_pos (further.mpr inside)
  · rw [longSum_of_beyond (long ▸ Nat.le_of_not_lt fits), if_neg fits, if_neg (by omega)]
    rfl

/-- A range that ends within the address space passes the check. -/
theorem checkAddressRange_of_inside {base : UInt32} {count : Nat}
    (inside : base.toNat + count ≤ 2 ^ 32)
    : checkAddressRange base (UInt64.ofNat count) = .ok () := by
  have size : (UInt64.ofNat count).toNat = count := by
    rw [UInt64.toNat_ofNat']
    omega
  rw [checkAddressRange_eq, size, if_pos inside]

end Operation

-----------------------------------------------------------------------------------------
-- Sizes of floods
-----------------------------------------------------------------------------------------

namespace Flood

open Operation

/-- The size of some data, rounded up to whole words. -/
def roundedUp (size : Nat) : Nat :=
  (size + 3) / 4 * 4

/-- Clearing the lowest two bits rounds down to whole words. -/
theorem toNat_and_not_three (size : UInt64)
    : (size &&& ~~~(3 : UInt64)).toNat = size.toNat / 4 * 4 := by
  have shifted : size &&& ~~~(3 : UInt64) = (size >>> 2) <<< 2 := by
    apply UInt64.eq_of_toBitVec_eq
    simp only [UInt64.toBitVec_and, UInt64.toBitVec_not, UInt64.toBitVec_shiftLeft,
      UInt64.toBitVec_shiftRight]
    ext index bound
    interval_cases index <;> simp
  have bound := size.toNat_lt
  have two : UInt64.toNat 2 % 64 = 2 := rfl
  rw [shifted, UInt64.toNat_shiftLeft, UInt64.toNat_shiftRight, two, Nat.shiftLeft_eq,
    Nat.shiftRight_eq_div_pow]
  omega

/-- The padded size is that of the whole words, unless the padding goes beyond a long word. -/
theorem paddedSize_eq (bytes : UInt64)
    : paddedSize bytes
      = if bytes.toNat + 3 < 2 ^ 64 then .ok (UInt64.ofNat (roundedUp bytes.toNat))
        else .error .overflow := by
  unfold paddedSize
  by_cases fits : bytes.toNat + 3 < 2 ^ 64
  · obtain ⟨padded, summed, exact_sum⟩ := longSum_of_fits (b := 3) fits
    have three : UInt64.toNat 3 = 3 := rfl
    rw [summed, if_pos fits, roundedUp, ← three, ← exact_sum, ← toNat_and_not_three,
      UInt64.ofNat_toNat]
    rfl
  · rw [longSum_of_beyond (Nat.le_of_not_lt fits), if_neg fits]
    rfl

/-- There is a block for every 256 bytes that are begun, unless the padding goes beyond a long
word.
-/
theorem blockCount_eq (bytes : UInt64)
    : blockCount bytes
      = if bytes.toNat + 3 < 2 ^ 64 then
          .ok (UInt64.ofNat ((bytes.toNat + (maxData - 1)) / maxData))
        else .error .overflow := by
  unfold blockCount
  by_cases fits : bytes.toNat + 3 < 2 ^ 64
  · obtain ⟨padded, summed, exact_sum⟩ := longSum_of_fits (b := 3) fits
    have three : UInt64.toNat 3 = 3 := rfl
    rw [three] at exact_sum
    have widened : (padded / 4 + 64).toNat = (bytes.toNat + 3) / 4 + 64 := by
      rw [UInt64.toNat_add, UInt64.toNat_div, exact_sum]
      exact Nat.mod_eq_of_lt (by simp only [UInt64.reduceToNat]; omega)
    have rounded : (padded / 4 + 64 - 1).toNat = (bytes.toNat + 3) / 4 + 63 := by
      rw [UInt64.toNat_sub_of_le _ _ (by rw [UInt64.le_iff_toNat_le, widened]; simp), widened]
      rfl
    have count : ((padded / 4 + 64 - 1) / 64).toNat
        = (bytes.toNat + (maxData - 1)) / maxData := by
      rw [UInt64.toNat_div, rounded]
      simp only [UInt64.reduceToNat, maxData]
      omega
    rw [summed, if_pos fits, ← count, UInt64.ofNat_toNat]
    rfl
  · rw [longSum_of_beyond (Nat.le_of_not_lt fits), if_neg fits]
    rfl

/-- A flood may have so many bytes: there are some, they need no more blocks than can be numbered,
and the whole words that they fill end within the address space.
-/
def Fits (base : UInt32) (count : Nat) : Prop :=
  1 ≤ count ∧ count ≤ 255 * 256 ∧ base.toNat + roundedUp count ≤ 2 ^ 32

instance (base : UInt32) (count : Nat) : Decidable (Fits base count) :=
  inferInstanceAs (Decidable (_ ∧ _ ∧ _))

/-- What is told of a size that does not fit. -/
def refusal (base : UInt32) (count : Nat) : Error :=
  if 1 ≤ count ∧ count ≤ 255 * 256 then beyond base (UInt64.ofNat (roundedUp count))
  else .invalidParameter "n_bytes" (toString count) s!"1..={maxBlocks * maxData} 바이트여야 함"

/-- The check looks at the number of blocks first, and then at the range. -/
theorem checkSize_of_bounded (base : UInt32) {bytes : UInt64} (bounded : bytes.toNat + 3 < 2 ^ 64)
    : checkSize base bytes
      = if 1 ≤ bytes.toNat ∧ bytes.toNat ≤ 255 * 256 then
          (checkAddressRange base (UInt64.ofNat (roundedUp bytes.toNat))).map fun _ =>
            UInt8.ofNat ((bytes.toNat + (maxData - 1)) / maxData)
        else .error (.failed (.invalidParameter "n_bytes" (toString bytes.toNat)
          s!"1..={maxBlocks * maxData} 바이트여야 함")) := by
  have refused_iff
      : (bytes = 0
          ∨ UInt64.ofNat ((bytes.toNat + (maxData - 1)) / maxData) > UInt64.ofNat maxBlocks)
        ↔ ¬ (1 ≤ bytes.toNat ∧ bytes.toNat ≤ 255 * 256) := by
    have most : (UInt64.ofNat maxBlocks).toNat = 255 := rfl
    have count : (UInt64.ofNat ((bytes.toNat + (maxData - 1)) / maxData)).toNat
        = (bytes.toNat + (maxData - 1)) / maxData := by
      rw [UInt64.toNat_ofNat']
      exact Nat.mod_eq_of_lt (by simp only [maxData]; omega)
    rw [gt_iff_lt, UInt64.lt_iff_toNat_lt, count, most, ← UInt64.toNat_inj]
    simp only [UInt64.toNat_zero, maxData]
    omega
  unfold checkSize
  rw [blockCount_eq, paddedSize_eq, if_pos bounded, if_pos bounded]
  simp only [bind, Except.bind]
  by_cases countable : 1 ≤ bytes.toNat ∧ bytes.toNat ≤ 255 * 256
  · rw [if_neg (refused_iff.not.mpr (not_not_intro countable)), if_pos countable]
    cases checkAddressRange base (UInt64.ofNat (roundedUp bytes.toNat)) with
    | error halt => rfl
    | ok => exact congrArg Except.ok (UInt64.toUInt8_ofNat' _)
  · rw [if_pos (refused_iff.mpr countable), if_neg countable]
    rfl

/-- In exact numbers, a size passes the check exactly if it fits. For the three largest sizes the
padding goes beyond a long word.
-/
theorem checkSize_exact (base : UInt32) (bytes : UInt64)
    : checkSize base bytes
      = if Fits base bytes.toNat then
          .ok (UInt8.ofNat ((bytes.toNat + (maxData - 1)) / maxData))
        else if 2 ^ 64 ≤ bytes.toNat + 3 then .error .overflow
        else .error (.failed (refusal base bytes.toNat)) := by
  have base_bound := base.toNat_lt
  by_cases vast : 2 ^ 64 ≤ bytes.toNat + 3
  · have unfit : ¬ Fits base bytes.toNat := fun fits => by
      have few := fits.2.1
      omega
    rw [if_neg unfit, if_pos vast, checkSize, blockCount_eq, if_neg (Nat.not_lt.mpr vast)]
    rfl
  · have bounded : bytes.toNat + 3 < 2 ^ 64 := Nat.lt_of_not_le vast
    rw [checkSize_of_bounded base bounded]
    by_cases countable : 1 ≤ bytes.toNat ∧ bytes.toNat ≤ 255 * 256
    · have size : (UInt64.ofNat (roundedUp bytes.toNat)).toNat = roundedUp bytes.toNat := by
        rw [UInt64.toNat_ofNat']
        exact Nat.mod_eq_of_lt (by simp only [roundedUp]; omega)
      have told : base.toNat + roundedUp bytes.toNat < 2 ^ 64 := by
        simp only [roundedUp]
        omega
      rw [if_pos countable, checkAddressRange_eq, size, if_pos told]
      by_cases inside : base.toNat + roundedUp bytes.toNat ≤ 2 ^ 32
      · rw [if_pos inside, if_pos ⟨countable.1, countable.2, inside⟩]
        rfl
      · rw [if_neg inside, if_neg (fun fits => inside fits.2.2), if_neg vast, refusal,
          if_pos countable]
        rfl
    · rw [if_neg countable, if_neg (fun fits => countable ⟨fits.1, fits.2.1⟩), if_neg vast,
        refusal, if_neg countable]

/-- A size that passes the check fits, and comes out as its number of blocks. -/
theorem fits_of_checkSize {base : UInt32} {bytes : UInt64} {blocks : UInt8}
    (checked : checkSize base bytes = .ok blocks)
    : Fits base bytes.toNat
      ∧ blocks = UInt8.ofNat ((bytes.toNat + (maxData - 1)) / maxData) := by
  rw [checkSize_exact] at checked
  split at checked
  · next fits => exact ⟨fits, (Except.ok.inj checked).symm⟩
  · split at checked
    · cases checked
    · cases checked

/-- A size that fits passes the check. -/
theorem checkSize_of_inside {base : UInt32} {size : Nat} (some_data : 0 < size)
    (few : size ≤ maxBlocks * maxData) (inside : base.toNat + roundedUp size ≤ 2 ^ 32)
    : ∃ blocks, checkSize base (UInt64.ofNat size) = .ok blocks := by
  have asked : (UInt64.ofNat size).toNat = size := by
    rw [UInt64.toNat_ofNat']
    simp only [maxBlocks, maxData] at few
    omega
  exact ⟨_, by rw [checkSize_exact, asked, if_pos ⟨some_data, few, inside⟩]⟩

end Flood

end MeshControl
