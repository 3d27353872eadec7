import MeshControl.Operation.Application
import MeshControl.Operation.Memory

/-!
Requests that flood data over the whole mesh: a start that announces a number of blocks, the
blocks, and an end that puts them into memory.
-/

namespace MeshControl.Operation

open Scp Sdp

/-- The word that names a single chip: its group of four by four, and its bit in the group. -/
def chipMask (chip : Chip) : UInt32 :=
  let x := chip.x.toUInt32
  let y := chip.y.toUInt32
  ((x &&& 0xfc) <<< 24) + ((y &&& 0xfc) <<< 16) + 0x30000
    + ((1 : UInt32) <<< ((y &&& 3) * 4 + (x &&& 3)))

/-- The word that names every chip. -/
def everyChipMask : UInt32 := 0xffff

/-- How chips pass a flood on: over every link, with repetitions. -/
def forwarding : UInt32 := 0x3f1a

/-- Announces blocks, for one chip or for all. -/
def floodFillStart (id blocks : UInt8) (chip : Option Chip) : Request where
  header := .toMonitor .everywhere .replyExpected
  command := .nearestNeighbour
  arg1 := (0x06000000 : UInt32) ||| (id.toUInt32 <<< 16) ||| (blocks.toUInt32 <<< 8)
  arg2 := match chip with
    | some chip => chipMask chip
    | none => everyChipMask
  arg3 := 0x80000000 ||| forwarding
  operation := "flood fill start"

/-- Delivers one block. -/
def floodFillData (id block : UInt8) (address : UInt32) (data : List UInt8)
    : Except Error Request := do
  checkLength "data" data.length
  let words := (data.length + 3) / 4
  return {
    header := .toMonitor .everywhere .replyExpected
    command := .floodFillData
    arg1 := 0x3f1e0000 ||| id.toUInt32
    arg2 := (block.toUInt32 <<< 16) ||| (UInt32.ofNat (words - 1) <<< 8)
    arg3 := address
    data
    operation := "flood fill data" }

/-- Ends a flood; processors that are named start at once. -/
def floodFillEnd (id application : UInt8) (processors : UInt32) (wait : Bool) : Request where
  header := .toMonitor .everywhere .replyExpected
  command := .nearestNeighbour
  arg1 := 0x0f000000 ||| id.toUInt32
  arg2 := launchWord application processors wait
  arg3 := forwarding
  operation := "flood fill end"

/-- The flood that a request belongs to. -/
def floodId (request : Request) : UInt8 :=
  if request.command = .nearestNeighbour ∧ request.arg1 >>> 24 = 6 then
    (request.arg1 >>> 16).toUInt8
  else request.arg1.toUInt8

end MeshControl.Operation
