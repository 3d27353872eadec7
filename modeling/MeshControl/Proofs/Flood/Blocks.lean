import Mathlib.Tactic.IntervalCases
import MeshControl.Flood.Transfer
import MeshControl.Proofs.Flood.Sizes
import MeshControl.Proofs.Scp.Codec

/-! The blocks of a flood and the requests that deliver them: every block of some data fits its
request, and every request of a flood carries the flood's number to the chips.
-/

namespace MeshControl

open Scp

-----------------------------------------------------------------------------------------
-- Numbers of floods on the wire
-----------------------------------------------------------------------------------------

namespace Operation

/-- The request for a block, whether or not its data fit. -/
def dataRequest (id : UInt8) (block : Flood.Block) : Request where
  header := .toMonitor .everywhere .replyExpected
  command := .floodFillData
  arg1 := 0x3f1e0000 ||| id.toUInt32
  arg2 := (block.number.toUInt32 <<< 16)
    ||| (UInt32.ofNat ((block.data.length + 3) / 4 - 1) <<< 8)
  arg3 := block.address
  data := block.data
  operation := "flood fill data"

theorem floodFillData_of_fits (id : UInt8) {block : Flood.Block}
    (some_data : 0 < block.data.length) (fits : block.data.length ≤ maxData)
    : floodFillData id block.number block.address block.data
      = .ok (dataRequest id block) := by
  have checked : checkLength "data" block.data.length = .ok () := by
    rw [checkLength, if_neg (by omega)]
  rw [floodFillData, checked]
  rfl

theorem kind_start (id blocks : UInt8) (chip : Option Chip)
    : (floodFillStart id blocks chip).arg1 >>> 24 = 6 := by
  apply UInt32.eq_of_toBitVec_eq
  simp only [floodFillStart, UInt32.toBitVec_shiftRight, UInt32.toBitVec_or,
    UInt32.toBitVec_shiftLeft, UInt8.toBitVec_toUInt32]
  ext index bound
  interval_cases index <;> simp

theorem number_start (id blocks : UInt8) (chip : Option Chip)
    : ((floodFillStart id blocks chip).arg1 >>> 16).toUInt8 = id := by
  apply UInt8.eq_of_toBitVec_eq
  simp only [floodFillStart, UInt32.toBitVec_toUInt8, UInt32.toBitVec_shiftRight,
    UInt32.toBitVec_or, UInt32.toBitVec_shiftLeft, UInt8.toBitVec_toUInt32]
  ext index bound
  interval_cases index <;> simp

/-- A start announces its blocks in the second byte. -/
theorem blocks_start (id blocks : UInt8) (chip : Option Chip)
    : ((floodFillStart id blocks chip).arg1 >>> 8) &&& 0xff = blocks.toUInt32 := by
  apply UInt32.eq_of_toBitVec_eq
  simp only [floodFillStart, UInt32.toBitVec_and, UInt32.toBitVec_shiftRight,
    UInt32.toBitVec_or, UInt32.toBitVec_shiftLeft, UInt8.toBitVec_toUInt32]
  ext index bound
  interval_cases index <;> simp

theorem floodId_start (id blocks : UInt8) (chip : Option Chip)
    : floodId (floodFillStart id blocks chip) = id := by
  rw [floodId, if_pos ⟨rfl, kind_start id blocks chip⟩, number_start]

theorem kind_end (id application : UInt8) (processors : UInt32) (wait : Bool)
    : (floodFillEnd id application processors wait).arg1 >>> 24 = 15 := by
  apply UInt32.eq_of_toBitVec_eq
  simp only [floodFillEnd, UInt32.toBitVec_shiftRight, UInt32.toBitVec_or,
    UInt8.toBitVec_toUInt32]
  ext index bound
  interval_cases index <;> simp

/-- The bytes of a word, by their place. -/
theorem toNat_byte (word : UInt32) {shift : UInt32} (within : shift.toNat < 32)
    : ((word >>> shift) &&& 0xff).toNat = word.toNat / 2 ^ shift.toNat % 256 := by
  have mask : (255 : Nat) = 2 ^ 8 - 1 := rfl
  rw [UInt32.toNat_and, UInt32.toNat_shiftRight, Nat.mod_eq_of_lt within,
    Nat.shiftRight_eq_div_pow]
  simp only [UInt32.reduceToNat]
  rw [mask, Nat.and_two_pow_sub_one_eq_mod]

/-- Two bytes in one word, as a block carries its number and its size. -/
theorem toNat_pair (number size : UInt8)
    : ((number.toUInt32 <<< 16) ||| (size.toUInt32 <<< 8)).toNat
      = number.toNat * 2 ^ 16 + size.toNat * 2 ^ 8 := by
  have number_bound := number.toNat_lt
  have size_bound := size.toNat_lt
  have high : (number.toUInt32 <<< 16).toNat = number.toNat <<< 16 := by
    rw [UInt32.toNat_shiftLeft, UInt8.toNat_toUInt32]
    simp only [UInt32.reduceToNat, Nat.reduceMod, Nat.shiftLeft_eq]
    omega
  have low : (size.toUInt32 <<< 8).toNat = size.toNat * 2 ^ 8 := by
    rw [UInt32.toNat_shiftLeft, UInt8.toNat_toUInt32]
    simp only [UInt32.reduceToNat, Nat.reduceMod, Nat.shiftLeft_eq]
    omega
  rw [UInt32.toNat_or, high, low, ← Nat.shiftLeft_add_eq_or_of_lt (by omega), Nat.shiftLeft_eq]

/-- A block carries its number and its size in words, less one, in two bytes of a word. -/
theorem bytes_data (id : UInt8) {block : Flood.Block} (some_data : 0 < block.data.length)
    (fits : block.data.length ≤ maxData)
    : (((dataRequest id block).arg2 >>> 16) &&& 0xff).toNat = block.number.toNat
      ∧ (((dataRequest id block).arg2 >>> 8) &&& 0xff).toNat
        = (block.data.length + 3) / 4 - 1 := by
  have few : (block.data.length + 3) / 4 - 1 < 256 := by
    simp only [maxData] at fits
    omega
  have size : UInt32.ofNat ((block.data.length + 3) / 4 - 1)
      = (UInt8.ofNat ((block.data.length + 3) / 4 - 1)).toUInt32 := by
    apply UInt32.toNat_inj.mp
    rw [UInt32.toNat_ofNat', UInt8.toNat_toUInt32, UInt8.toNat_ofNat']
    omega
  have pair := toNat_pair block.number (UInt8.ofNat ((block.data.length + 3) / 4 - 1))
  rw [← size, UInt8.toNat_ofNat', Nat.mod_eq_of_lt few] at pair
  have number_bound := block.number.toNat_lt
  have word : (dataRequest id block).arg2.toNat
      = block.number.toNat * 2 ^ 16 + ((block.data.length + 3) / 4 - 1) * 2 ^ 8 :=
    pair
  rw [toNat_byte _ (by decide), toNat_byte _ (by decide), word]
  simp only [UInt32.reduceToNat]
  omega

/-- The lowest byte of a word with a number in it. -/
theorem toUInt8_or_of_low {word : UInt32} (low : word.toUInt8 = 0) (id : UInt8)
    : (word ||| id.toUInt32).toUInt8 = id := by
  rw [UInt32.toUInt8_or, low, UInt8.toUInt8_toUInt32, UInt8.zero_or]

theorem floodId_data (id : UInt8) (block : Flood.Block)
    : floodId (dataRequest id block) = id := by
  rw [floodId, if_neg (by simp [dataRequest])]
  exact toUInt8_or_of_low rfl id

theorem floodId_end (id application : UInt8) (processors : UInt32) (wait : Bool)
    : floodId (floodFillEnd id application processors wait) = id := by
  rw [floodId, if_neg (by simp [kind_end])]
  exact toUInt8_or_of_low rfl id

/-- A request keeps its number over the wire. -/
theorem floodId_onWire (request : Request) (tag : UInt8)
    : floodId (request.onWire tag) = floodId request :=
  rfl

end Operation

-----------------------------------------------------------------------------------------
-- Blocks
-----------------------------------------------------------------------------------------

namespace Flood

open Operation Link

theorem length_padToWord (bytes : List UInt8)
    : (padToWord bytes).length = (bytes.length + 3) / 4 * 4 := by
  simp only [padToWord, List.length_append, List.length_replicate]
  omega

theorem lt_pieces_iff (data : List UInt8) (index : Nat)
    : index < pieces data ↔ index * maxData < data.length := by
  simp only [pieces, maxData]
  omega

/-- The size of a block: a whole datagram's, or what is left, rounded up to whole words. -/
theorem length_blockAt (base : UInt32) (data : List UInt8) (index : Nat)
    : (blockAt base data index).data.length
      = (min maxData (data.length - index * maxData) + 3) / 4 * 4 := by
  simp only [blockAt, length_padToWord, Wire.field, List.length_take, List.length_drop]

/-- A block has its share of the data, once these are filled up to a whole word. -/
theorem data_blockAt (base : UInt32) {data : List UInt8} {index : Nat}
    (within : index * maxData < data.length)
    : (blockAt base data index).data
      = Wire.field (padToWord data) (index * maxData) maxData := by
  simp only [blockAt, Wire.field, padToWord, maxData] at within ⊢
  rw [List.drop_append_of_le_length (Nat.le_of_lt within), List.take_append,
    List.length_take, List.length_drop, List.take_replicate]
  congr 2
  omega

/-- Every block of some data goes into one request. -/
theorem deliver_blockAt (id : UInt8) (base : UInt32) {data : List UInt8} {index : Nat}
    (within : index * maxData < data.length)
    : deliver id (blockAt base data index)
      = { request := .ok (dataRequest id (blockAt base data index)) } := by
  have length := length_blockAt base data index
  simp only [maxData] at length within
  have some_data : 0 < (blockAt base data index).data.length := by omega
  have fits : (blockAt base data index).data.length ≤ maxData := by
    simp only [maxData]
    omega
  rw [deliver, floodFillData_of_fits id some_data fits]
  rfl

end Flood

end MeshControl
