import MeshControl.Proofs.Flood.Blocks

/-! Data that are cut into blocks. What is cut is put together again by the blocks in order, each of
which stands where the one before it ends; and it is cut exactly if a flood may have it.
-/

namespace MeshControl

open Scp

-----------------------------------------------------------------------------------------
-- Pieces put together
-----------------------------------------------------------------------------------------

/-- The first fields of one width, one after the other, are the first bytes; by induction on their
number.
-/
theorem Wire.flatten_fields (bytes : List UInt8) (width count : Nat)
    : ((List.range count).map fun index => field bytes (index * width) width).flatten
      = bytes.take (count * width) := by
  induction count with
  | zero => simp
  | succ count ih =>
      rw [List.range_succ, List.map_append, List.flatten_append, ih, List.map_singleton,
        List.flatten_singleton, Nat.succ_mul, List.take_add, field]

namespace Flood

/-- The blocks of some data, however many these are. -/
def blocksOf (base : UInt32) (data : List UInt8) : List Block :=
  (List.range (pieces data)).map (blockAt base data)

@[simp] theorem length_blocksOf (base : UInt32) (data : List UInt8)
    : (blocksOf base data).length = pieces data := by
  simp [blocksOf]

/-- The blocks together have the data and what fills up their last word. -/
theorem flatMap_blocksOf (base : UInt32) (data : List UInt8)
    : (blocksOf base data).flatMap Block.data = padToWord data := by
  have shares : (blocksOf base data).map Block.data
      = (List.range (pieces data)).map fun index =>
          Wire.field (padToWord data) (index * maxData) maxData := by
    rw [blocksOf, List.map_map]
    refine List.map_congr_left fun index member => data_blockAt base ?_
    exact (lt_pieces_iff data index).mp (List.mem_range.mp member)
  rw [List.flatMap_def, shares, Wire.flatten_fields]
  refine List.take_of_length_le ?_
  rw [length_padToWord]
  simp only [pieces, maxData]
  omega

/-- Data are cut into blocks if they fit, and refused if they do not. -/
theorem split_eq (base : UInt32) {data : List UInt8} (bounded : data.length + 3 < 2 ^ 64)
    : split base data
      = if Fits base data.length then .ok (blocksOf base data)
        else .error (.failed (refusal base data.length)) := by
  have size : (UInt64.ofNat data.length).toNat = data.length := by
    rw [UInt64.toNat_ofNat']
    exact Nat.mod_eq_of_lt (by omega)
  rw [split, checkSize_exact, size]
  split
  · rfl
  · rw [if_neg (Nat.not_le.mpr bounded)]
    rfl

-----------------------------------------------------------------------------------------
-- What blocks are
-----------------------------------------------------------------------------------------

/-- Some blocks are what data from an address on are cut into. -/
structure Cut (base : UInt32) (data : List UInt8) (blocks : List Block) : Prop where
  count : blocks.length = (data.length + 255) / 256
  /-- As many are announced as there are. -/
  announced : blockCount (UInt64.ofNat data.length) = .ok (UInt64.ofNat blocks.length)
  few : blocks.length ≤ 255
  number : ∀ index (within : index < blocks.length), blocks[index].number.toNat = index
  /-- No address goes around the end of the address space. -/
  address
    : ∀ index (within : index < blocks.length),
        blocks[index].address.toNat = base.toNat + 256 * index
  whole
    : ∀ index (within : index + 1 < blocks.length), blocks[index].data.length = 256
  last
    : ∀ index (within : index < blocks.length),
        index + 1 = blocks.length
        → 4 ≤ blocks[index].data.length
          ∧ blocks[index].data.length ≤ 256
          ∧ blocks[index].data.length % 4 = 0
  together
    : ∃ zeros < 4, blocks.flatMap Block.data = data ++ List.replicate zeros 0

/-- Data that fit are cut into blocks as they must be. -/
theorem cut_blocksOf {base : UInt32} {data : List UInt8} (fits : Fits base data.length)
    : Cut base data (blocksOf base data) := by
  obtain ⟨some_data, few, inside⟩ := fits
  have base_bound := base.toNat_lt
  have size : (UInt64.ofNat data.length).toNat = data.length := by
    rw [UInt64.toNat_ofNat']
    exact Nat.mod_eq_of_lt (by omega)
  have count : (blocksOf base data).length = (data.length + 255) / 256 := length_blocksOf _ _
  have block (index : Nat) (within : index < (blocksOf base data).length)
      : (blocksOf base data)[index] = blockAt base data index := by
    simp [blocksOf]
  have share (index : Nat) := length_blockAt base data index
  simp only [roundedUp] at inside
  simp only [maxData] at share
  refine ⟨count, ?_, by omega, ?_, ?_, ?_, ?_, ?_⟩
  · rw [blockCount_eq, size, if_pos (by omega), count]
    rfl
  · intro index within
    rw [block]
    simp only [blockAt, UInt8.toNat_ofNat']
    omega
  · intro index within
    rw [block]
    simp only [blockAt, UInt32.toNat_add, UInt32.toNat_ofNat', maxData]
    omega
  · intro index within
    rw [block, share]
    omega
  · intro index within last
    rw [block, share]
    omega
  · refine ⟨(4 - data.length % 4) % 4, Nat.mod_lt _ (by decide), ?_⟩
    rw [flatMap_blocksOf, padToWord]

/-- Data are cut exactly if there are 1 to 65280 bytes whose whole words end within the address
space. There are as many blocks as are announced, 255 at most. Each has its place as its number and
stands where the one before it ends; all but the last have 256 bytes, and the last has some whole
words. Put together they are the data and fewer than four zeros. The bound is that of all data in
memory: their size, padded, is a number of 64 bits.
Witness: every block is its share of the data filled up to a whole word.
-/
theorem split_loses_nothing (base : UInt32) {data : List UInt8}
    (bounded : data.length + 3 < 2 ^ 64)
    : let fits :=
        1 ≤ data.length
        ∧ data.length ≤ 65280
        ∧ base.toNat + (data.length + 3) / 4 * 4 ≤ 2 ^ 32
      (fits → ∃ blocks, split base data = .ok blocks ∧ Cut base data blocks)
      ∧ (¬ fits → split base data = .error (.failed (refusal base data.length))) := by
  have cut := split_eq base bounded
  exact ⟨fun fits => ⟨_, cut.trans (if_pos fits), cut_blocksOf fits⟩,
    fun unfit => cut.trans (if_neg unfit)⟩

/-- At the end of the address space 513 bytes make two whole blocks and a word, and a byte further
on they do not fit.
-/
theorem split_loses_nothing_lastWord
    : let data := List.replicate 513 (7 : UInt8)
      data.length + 3 < 2 ^ 64
      ∧ (∃ blocks, split 0xfffffdfc data = .ok blocks ∧ Cut 0xfffffdfc data blocks)
      ∧ split 0xfffffdfd data = .error (.failed (refusal 0xfffffdfd 513)) := by
  have size : (List.replicate 513 (7 : UInt8)).length = 513 := List.length_replicate
  have bounded : (List.replicate 513 (7 : UInt8)).length + 3 < 2 ^ 64 := by
    rw [size]
    decide
  have inside := (split_loses_nothing 0xfffffdfc bounded).1
  have outside := (split_loses_nothing 0xfffffdfd bounded).2
  rw [size] at inside outside
  exact ⟨bounded, inside (by decide), outside (by decide)⟩

end Flood

end MeshControl
