import MeshControl.Board.Memory
import MeshControl.Core.State
import MeshControl.Machine.Topology
import MeshControl.Operation.FloodFill
import MeshControl.Operation.Version
import MeshControl.Scp.Response

/-!
A board that is not there: it answers requests as the monitors of a machine do. It keeps the
memory of its chips, what their processors run, and the floods that were announced. For tests it
can let requests go unanswered, or ask for them again.
-/

namespace MeshControl.Board

open Scp Operation

/-- What a board is like. -/
structure Settings where
  machine : Topology := ⟨8, 8⟩
  /-- Every request is lost. -/
  losesAll : Bool := false
  name : String := "SC&MP"
  hardware : String := "SpiNNaker"
  major : UInt32 := 4
  minor : UInt32 := 0
  patch : UInt32 := 0
deriving DecidableEq, Repr, Inhabited

/-- A share of the requests that is lost stands for all of them, or for none if it is below one. -/
def losesAll (share : Float) : Bool :=
  share ≥ 1

/-- How many requests came in, went unanswered, and were answered. -/
structure Tally where
  received : Nat := 0
  dropped : Nat := 0
  replied : Nat := 0
deriving DecidableEq, Repr, Inhabited

/-- A flood that was announced and has not ended. -/
structure Flood where
  targets : List Chip
  /-- The first delivery of each block: where it goes, and its bytes. -/
  blocks : List (Option (UInt32 × List UInt8))
deriving DecidableEq, Repr, Inhabited

namespace Flood

/-- A flood of so many blocks, none of which has come. -/
def announced (targets : List Chip) (blocks : Nat) : Flood :=
  ⟨targets, List.replicate blocks none⟩

/-- Takes in a block; a second delivery changes nothing, and a number out of range is refused. -/
def deliver? (flood : Flood) (number : Nat) (address : UInt32) (data : List UInt8)
    : Option Flood :=
  match flood.blocks[number]? with
  | none => none
  | some (some _) => some flood
  | some none => some { flood with blocks := flood.blocks.set number (some (address, data)) }

/-- Every block has come. -/
def isComplete (flood : Flood) : Bool :=
  flood.blocks.all Option.isSome

/-- The blocks that have come, by ascending number. -/
def delivered (flood : Flood) : List (UInt32 × List UInt8) :=
  flood.blocks.filterMap id

end Flood

/-- What a processor runs, and in which state it is. -/
structure Running where
  application : UInt8
  state : Core.State
deriving DecidableEq, Repr, Inhabited

/-- A board with everything it has been told. -/
structure State where
  settings : Settings := {}
  memories : Table Chip Memory := .empty
  cores : Table (Chip × UInt8) Running := .empty
  floods : Table UInt8 Flood := .empty
  /-- How many of the next requests go unanswered. -/
  dropNext : Nat := 0
  /-- How many of the next requests are answered with a timeout, and not carried out. -/
  retryNext : Nat := 0
  tally : Tally := {}
deriving Inhabited

/-- What the board answers. -/
abbrev Reply := ResultCode × List UInt8

namespace State

/-- Bytes of a chip's memory. -/
def readMemory (state : State) (chip : Chip) (address : UInt32) (length : Nat) : List UInt8 :=
  match state.memories.get? chip with
  | some memory => memory.read address length
  | none => List.replicate length 0

/-- Puts bytes into a chip's memory. -/
def writeMemory (state : State) (chip : Chip) (address : UInt32) (data : List UInt8) : State :=
  let memory := (state.memories.get? chip).getD {}
  { state with memories := state.memories.insert chip (memory.write address data) }

/-- How many processors of the machine run an application and are in a state. -/
def countCores (state : State) (application : UInt8) (core : Core.State) : Nat :=
  state.cores.values.countP fun running => running == ⟨application, core⟩

/-- How many of these processors belong to the board of a socket. -/
def countCoresOf (state : State) (socket : Chip) (application : UInt8) (core : Core.State)
    : Nat :=
  state.cores.entries.countP fun entry =>
    entry.2 == ⟨application, core⟩
      && state.settings.machine.nearestEthernet entry.1.1 == some socket

/-- The processors that programs run on. -/
def applicationCores : List UInt8 :=
  (List.range 17).map fun index => UInt8.ofNat (index + 1)

/-- Starts the processors that a word names. -/
def startCores (state : State) (chip : Chip) (word : UInt32) : State :=
  let running : Running :=
    { application := (word >>> 24).toUInt8
      state := if word &&& waitBit ≠ 0 then .sync0 else .running }
  let named := applicationCores.filter fun number =>
    word &&& ((1 : UInt32) <<< number.toUInt32) != 0
  { state with
    cores := named.foldl (fun cores number => cores.insert (chip, number) running) state.cores }

/-- Answers a request for the version of a processor. -/
def version (state : State) (chip : Chip) (cpu : UInt8) : Reply :=
  let settings := state.settings
  let version : Version :=
    { chip
      cpu
      physicalCpu := cpu
      name := settings.name
      hardware := settings.hardware
      major := settings.major
      minor := settings.minor
      patch := settings.patch
      buildDate := 0 }
  (.ok, version.encode)

/-- Answers a request for a count. -/
def count (state : State) (chip : Chip) (request : Request) : Reply :=
  match Core.State.ofCode? ((request.arg2 >>> 16) &&& 0xf).toUInt8 with
  | none => (.badArgument, [])
  | some core =>
      (.ok, Wire.word (UInt32.ofNat (state.countCoresOf chip request.arg2.toUInt8 core)))

/-- The number of the lowest bit that is set in the lower half of a word; 32 if none is. -/
def lowestBit (word : UInt32) : UInt32 :=
  let bit? := (List.range 16).find? fun index => word.toNat.testBit index
  UInt32.ofNat (bit?.getD 32)

/-- The chips that a flood is for. -/
def floodTargets (state : State) (mask : UInt32) : List Chip :=
  if mask &&& 0xffff = 0xffff then state.settings.machine.chips
  else
    -- The upper half names a block of sixteen chips, the lower half one chip of the block.
    let bit := lowestBit (mask &&& 0xffff)
    let x := ((mask >>> 24) &&& 0xfc).toUInt8 ||| (bit &&& 3).toUInt8
    let y := ((mask >>> 16) &&& 0xfc).toUInt8 ||| (bit >>> 2).toUInt8
    if state.settings.machine.contains ⟨x, y⟩ then [⟨x, y⟩] else []

/-- Takes in the announcement of a flood. -/
def floodStart (state : State) (request : Request) : Reply × State :=
  let id := (request.arg1 >>> 16).toUInt8
  let blocks := ((request.arg1 >>> 8) &&& 0xff).toNat
  let flood := Flood.announced (state.floodTargets request.arg2) blocks
  ((.ok, []), { state with floods := state.floods.insert id flood })

/-- Puts the blocks of a flood into the memory of a chip. -/
def fill (state : State) (blocks : List (UInt32 × List UInt8)) (chip : Chip) : State :=
  let memory := (state.memories.get? chip).getD {}
  let memory := blocks.foldl (fun memory block => memory.write block.1 block.2) memory
  { state with memories := state.memories.insert chip memory }

/-- Ends a flood: if every block has come, the data go into memory and programs start. -/
def floodEnd (state : State) (request : Request) : Reply × State :=
  let id := request.arg1.toUInt8
  match state.floods.get? id with
  | none => ((.ok, []), state)
  | some flood =>
      -- A flood that lacks blocks is over all the same.
      let state := { state with floods := state.floods.erase id }
      if !flood.isComplete then ((.badArgument, []), state)
      else
        let state := flood.targets.foldl (fun state chip => state.fill flood.delivered chip) state
        let state :=
          -- Application 0 stands for a flood that starts nothing.
          if request.arg2 >>> 24 ≠ 0 then
            flood.targets.foldl (fun state chip => state.startCores chip request.arg2) state
          else state
        ((.ok, []), state)

/-- Takes in a block of a flood. -/
def floodData (state : State) (request : Request) : Reply × State :=
  let id := request.arg1.toUInt8
  let number := ((request.arg2 >>> 16) &&& 0xff).toNat
  let size := (((request.arg2 >>> 8) &&& 0xff).toNat + 1) * 4
  let flood? := (state.floods.get? id).bind fun flood =>
    flood.deliver? number request.arg3 (request.data.take size)
  match flood? with
  | none => ((.badArgument, []), state)
  | some flood => ((.ok, []), { state with floods := state.floods.insert id flood })

/-- Commands that are for one chip, and fail where there is none. -/
def concernsChip : Command → Bool
  | .ver | .read | .write | .applicationRun => true
  | _ => false

/-- Carries a request out. -/
def perform (state : State) (request : Request) : Reply × State :=
  let chip := request.header.destination
  if concernsChip request.command && !state.settings.machine.contains chip then
    ((.noRoute, []), state)
  else
    match request.command with
    | .ver => (state.version chip request.header.destinationCpu, state)
    | .read => ((.ok, state.readMemory chip request.arg1 request.arg2.toNat), state)
    | .write =>
        ((.ok, []),
          state.writeMemory chip request.arg1 (request.data.take request.arg2.toNat))
    | .applicationRun => ((.ok, []), state.startCores chip request.arg1)
    | .signal => (state.count chip request, state)
    | .nearestNeighbour =>
        if request.arg1 >>> 24 = 6 then state.floodStart request
        else if request.arg1 >>> 24 = 15 then state.floodEnd request
        else ((.badCommand, []), state)
    | .floodFillData => state.floodData request
    | _ => ((.badCommand, []), state)

/-- Takes in a request; none if it goes unanswered. -/
def handle (state : State) (request : Request) : Option Reply × State :=
  let tally := { state.tally with received := state.tally.received + 1 }
  if state.dropNext > 0 then
    (none,
      { state with
        dropNext := state.dropNext - 1
        tally := { tally with dropped := tally.dropped + 1 } })
  else if state.settings.losesAll then
    (none, { state with tally := { tally with dropped := tally.dropped + 1 } })
  else
    let state := { state with tally := { tally with replied := tally.replied + 1 } }
    if state.retryNext > 0 then
      (some (.timeout, []), { state with retryNext := state.retryNext - 1 })
    else
      let (reply, state) := state.perform request
      (some reply, state)

end State

end MeshControl.Board
