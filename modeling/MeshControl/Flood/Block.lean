import MeshControl.Operation.FloodFill

/-!
Data for a flood: cut into numbered blocks, each as large as a datagram allows, the last one
filled up with zeros to a whole word; and the numbers that tell floods apart.
-/

namespace MeshControl.Flood

open Scp Operation

/-- Where the numbers of floods begin. -/
def firstPosition : Fin 126 := 0

/-- The number of the next flood; 126 numbers are used in turn, and 0 is not one of them. -/
structure Ids where
  position : Fin 126 := firstPosition
deriving DecidableEq, Repr, Inhabited

namespace Ids

/-- The next number, and the numbers after it. -/
def draw (ids : Ids) : UInt8 × Ids :=
  (UInt8.ofNat (ids.position.val + 1), ⟨ids.position + 1⟩)

/-- The numbers after some were drawn and thrown away. -/
def skip (ids : Ids) (count : Nat) : Ids :=
  ⟨ids.position + Fin.ofNat 126 count⟩

/-- The next numbers in order. -/
def take (ids : Ids) : Nat → List UInt8
  | 0 => []
  | count + 1 => ids.draw.1 :: take ids.draw.2 count

end Ids

/-- The number of words in a block. -/
def blockWords : UInt64 := 64

/-- The most blocks of a flood. -/
def maxBlocks : Nat := 255

/-- A piece of a flood's data. -/
structure Block where
  number : UInt8
  /-- Where the block goes. -/
  address : UInt32
  data : List UInt8
deriving DecidableEq, Repr, Inhabited

/-- The number of blocks for so many bytes. Only the padding can go beyond a long word. -/
def blockCount (bytes : UInt64) : Except Halt UInt64 := do
  let padded ← longSum bytes 3
  return (padded / 4 + blockWords - 1) / blockWords

/-- So many bytes, rounded up to whole words. -/
def paddedSize (bytes : UInt64) : Except Halt UInt64 := do
  let padded ← longSum bytes 3
  return padded &&& ~~~3

/-- The number of blocks, if there are neither none nor too many and the range has an end. -/
def checkSize (base : UInt32) (bytes : UInt64) : Except Halt UInt8 := do
  let blocks ← blockCount bytes
  if bytes = 0 ∨ blocks > UInt64.ofNat maxBlocks then
    throw (.failed (.invalidParameter "n_bytes" (toString bytes)
      s!"1..={maxBlocks * maxData} 바이트여야 함"))
  checkAddressRange base (← paddedSize bytes)
  return blocks.toUInt8

/-- Bytes with zeros up to a whole word. -/
def padToWord (bytes : List UInt8) : List UInt8 :=
  bytes ++ List.replicate ((4 - bytes.length % 4) % 4) 0

/-- One of the blocks of some data. -/
def blockAt (base : UInt32) (data : List UInt8) (index : Nat) : Block where
  number := UInt8.ofNat index
  address := base + UInt32.ofNat (index * maxData)
  data := padToWord (Wire.field data (index * maxData) maxData)

/-- How many pieces of a datagram's size some data have, the last one perhaps shorter. -/
def pieces (data : List UInt8) : Nat :=
  (data.length + (maxData - 1)) / maxData

/-- Cuts data into blocks. -/
def split (base : UInt32) (data : List UInt8) : Except Halt (List Block) := do
  let _ ← checkSize base (UInt64.ofNat data.length)
  return (List.range (pieces data)).map (blockAt base data)

end MeshControl.Flood
