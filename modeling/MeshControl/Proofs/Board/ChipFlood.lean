import MeshControl.Proofs.Board.Assembly
import MeshControl.Proofs.Board.Words
import MeshControl.Proofs.Flood.Blocks

/-! A flood for one chip, from the requests that are made for it to what it leaves on the board. The
word that names the chip is read as that chip, every block comes with all of its bytes, and the end
starts the processors that it was made for.
-/

namespace MeshControl

open Scp Operation

-----------------------------------------------------------------------------------------
-- Over the wire
-----------------------------------------------------------------------------------------

namespace Scp.Request

/-- A request as it is read from its datagram, if it may go out. -/
def overWire (request : Request) (tag : UInt8) : Except Error Request := do
  let datagram ← request.encode tag
  decode datagram

theorem overWire_of_valid {request : Request} (valid : request.validate = .ok ()) (tag : UInt8)
    : request.overWire tag = .ok (request.onWire tag) := by
  rw [← decode_datagram, overWire, encode, valid]
  rfl

end Scp.Request

-----------------------------------------------------------------------------------------
-- The word that names a chip
-----------------------------------------------------------------------------------------

namespace Operation

theorem toNat_and_three (word : UInt32) : (word &&& 3).toNat = word.toNat % 4 := by
  have mask : (3 : Nat) = 2 ^ 2 - 1 := rfl
  rw [UInt32.toNat_and]
  simp only [UInt32.reduceToNat]
  rw [mask, Nat.and_two_pow_sub_one_eq_mod]

/-- Of the lowest byte, all but two bits: it is rounded down to a multiple of four. -/
theorem toNat_and_fc (word : UInt32) : (word &&& 0xfc).toNat = word.toNat % 256 / 4 * 4 := by
  have shifted : word &&& (0xfc : UInt32) = ((word &&& (0xff : UInt32)) >>> 2) <<< 2 := by
    apply UInt32.eq_of_toBitVec_eq
    simp only [UInt32.toBitVec_and, UInt32.toBitVec_shiftLeft, UInt32.toBitVec_shiftRight]
    ext index bound
    interval_cases index <;> simp
  have mask : (255 : Nat) = 2 ^ 8 - 1 := rfl
  rw [shifted, UInt32.toNat_shiftLeft, UInt32.toNat_shiftRight, UInt32.toNat_and]
  simp only [UInt32.reduceToNat, Nat.reduceMod]
  rw [mask, Nat.and_two_pow_sub_one_eq_mod, Nat.shiftLeft_eq, Nat.shiftRight_eq_div_pow]
  omega

/-- The bit of a chip in its group of four by four. -/
def groupBit (chip : Chip) : Nat :=
  chip.y.toNat % 4 * 4 + chip.x.toNat % 4

theorem groupBit_lt (chip : Chip) : groupBit chip < 16 := by
  simp only [groupBit]
  omega

/-- The word that names a chip has its group above, with two bits between, and below the one bit of
the chip in the group.
-/
theorem toNat_chipMask (chip : Chip)
    : (chipMask chip).toNat
      = chip.x.toNat / 4 * 4 * 2 ^ 24 + chip.y.toNat / 4 * 4 * 2 ^ 16 + 3 * 2 ^ 16
        + 2 ^ groupBit chip := by
  have x_bound := chip.x.toNat_lt
  have y_bound := chip.y.toNat_lt
  have few := groupBit_lt chip
  have place : ((chip.y.toUInt32 &&& 3) * 4 + (chip.x.toUInt32 &&& 3)).toNat = groupBit chip := by
    rw [UInt32.toNat_add, UInt32.toNat_mul, toNat_and_three, toNat_and_three,
      UInt8.toNat_toUInt32, UInt8.toNat_toUInt32]
    simp only [UInt32.reduceToNat, groupBit]
    omega
  have bit : 2 ^ groupBit chip < 2 ^ 16 := Nat.pow_lt_pow_right (by decide) few
  have low : ((1 : UInt32) <<< ((chip.y.toUInt32 &&& 3) * 4 + (chip.x.toUInt32 &&& 3))).toNat
      = 2 ^ groupBit chip := by
    have within : groupBit chip < 32 := by omega
    rw [UInt32.toNat_shiftLeft, place, Nat.mod_eq_of_lt within]
    simp only [UInt32.reduceToNat, Nat.one_shiftLeft]
    exact Nat.mod_eq_of_lt (Nat.lt_trans bit (by decide))
  generalize 2 ^ groupBit chip = value at bit low ⊢
  rw [chipMask, UInt32.toNat_add, UInt32.toNat_add, UInt32.toNat_add, low, UInt32.toNat_shiftLeft,
    UInt32.toNat_shiftLeft, toNat_and_fc, toNat_and_fc, UInt8.toNat_toUInt32,
    UInt8.toNat_toUInt32]
  simp only [UInt32.reduceToNat, Nat.reduceMod, Nat.shiftLeft_eq]
  omega

end Operation

namespace Board

namespace State

/-- The lowest bit of a word with one bit. -/
theorem lowestBit_of_toNat {word : UInt32} {bit : Nat} (few : bit < 16)
    (alone : word.toNat = 2 ^ bit)
    : lowestBit word = UInt32.ofNat bit := by
  have found : (List.range 16).find? (fun index => word.toNat.testBit index) = some bit := by
    rw [List.find?_range_eq_some, alone]
    refine ⟨by simp, List.mem_range.mpr few, fun index below => ?_⟩
    simp only [Nat.testBit_two_pow, Bool.not_eq_true', decide_eq_false_iff_not]
    omega
  rw [lowestBit, found]
  rfl

/-- A coordinate is put together from the group and the place in the group. -/
theorem or_of_quarter {group rest coordinate : UInt8}
    (high : group.toNat = coordinate.toNat / 4 * 4) (low : rest.toNat = coordinate.toNat % 4)
    : group ||| rest = coordinate := by
  have small : coordinate.toNat % 4 < 2 ^ 2 := Nat.mod_lt _ (by decide)
  have shifted : coordinate.toNat / 4 * 4 = (coordinate.toNat / 4) <<< 2 := by
    rw [Nat.shiftLeft_eq]
  rw [← UInt8.toNat_inj, UInt8.toNat_or, high, low, shifted,
    ← Nat.shiftLeft_add_eq_or_of_lt small, Nat.shiftLeft_eq]
  omega

/-- A flood for one chip is for that chip, if the machine has it. -/
theorem floodTargets_chipMask (state : State) (chip : Chip)
    : state.floodTargets (chipMask chip)
      = if state.settings.machine.contains chip then [chip] else [] := by
  have x_bound := chip.x.toNat_lt
  have y_bound := chip.y.toNat_lt
  have few := groupBit_lt chip
  have word := toNat_chipMask chip
  have bit : 2 ^ groupBit chip < 2 ^ 15 + 1 :=
    Nat.lt_succ_of_le (Nat.pow_le_pow_right (by decide) (by omega))
  have low : (chipMask chip &&& 0xffff).toNat = 2 ^ groupBit chip := by
    have mask : (65535 : Nat) = 2 ^ 16 - 1 := rfl
    rw [UInt32.toNat_and, word]
    simp only [UInt32.reduceToNat]
    rw [mask, Nat.and_two_pow_sub_one_eq_mod]
    generalize 2 ^ groupBit chip = value at bit
    omega
  have place := lowestBit_of_toNat few low
  have number : (UInt32.ofNat (groupBit chip)).toNat = groupBit chip := by
    rw [UInt32.toNat_ofNat']
    omega
  generalize 2 ^ groupBit chip = value at bit word low
  have single : ¬ chipMask chip &&& 0xffff = 0xffff := by
    rw [← UInt32.toNat_inj, low]
    simp only [UInt32.reduceToNat]
    omega
  have x_read : ((chipMask chip >>> 24) &&& 0xfc).toUInt8
      ||| (UInt32.ofNat (groupBit chip) &&& 3).toUInt8 = chip.x := by
    apply or_of_quarter
    · rw [UInt32.toNat_toUInt8, toNat_and_fc, UInt32.toNat_shiftRight, word]
      simp only [UInt32.reduceToNat, Nat.reduceMod, Nat.shiftRight_eq_div_pow]
      omega
    · rw [UInt32.toNat_toUInt8, toNat_and_three, number, groupBit]
      omega
  have y_read : ((chipMask chip >>> 16) &&& 0xfc).toUInt8
      ||| (UInt32.ofNat (groupBit chip) >>> 2).toUInt8 = chip.y := by
    apply or_of_quarter
    · rw [UInt32.toNat_toUInt8, toNat_and_fc, UInt32.toNat_shiftRight, word]
      simp only [UInt32.reduceToNat, Nat.reduceMod, Nat.shiftRight_eq_div_pow]
      omega
    · rw [UInt32.toNat_toUInt8, UInt32.toNat_shiftRight, number, groupBit]
      simp only [UInt32.reduceToNat, Nat.reduceMod, Nat.shiftRight_eq_div_pow]
      omega
  rw [floodTargets, if_neg single]
  simp only [place, x_read, y_read]

-----------------------------------------------------------------------------------------
-- The requests of a flood for one chip
-----------------------------------------------------------------------------------------

/-- A block with its number. -/
def numberedBlock (blocks : List (UInt32 × List UInt8)) (number : Nat)
    : MeshControl.Flood.Block :=
  let block := blocks.getD number (0, [])
  ⟨UInt8.ofNat number, block.1, block.2⟩

/-- The request that brings a block of a flood, as it is read from its datagram. -/
def blockRequest (id tag : UInt8) (blocks : List (UInt32 × List UInt8)) (number : Nat)
    : Except Error Request := do
  let block := numberedBlock blocks number
  let request ← floodFillData id block.number block.address block.data
  request.overWire tag

/-- The requests of a flood for one chip, as they are read from their datagrams: the start, the
blocks in some order, and the end.
-/
def chipFlood (id tag : UInt8) (chip : Chip) (blocks : List (UInt32 × List UInt8))
    (order : List Nat) (application : UInt8) (processors : UInt32) (wait : Bool)
    : Except Error (List Request) := do
  let start ← (floodFillStart id (UInt8.ofNat blocks.length) (some chip)).overWire tag
  let data ← order.mapM (blockRequest id tag blocks)
  let stop ← (floodFillEnd id application processors wait).overWire tag
  return start :: data ++ [stop]

/-- What a flood can bring: some blocks, no more than a byte counts, none of them empty or longer
than a request takes.
-/
structure Floodable (blocks : List (UInt32 × List UInt8)) : Prop where
  some_blocks : 0 < blocks.length
  few : blocks.length ≤ 255
  sized : ∀ block ∈ blocks, 0 < block.2.length ∧ block.2.length ≤ maxData

/-- The request for a block, whether or not it may be made. -/
def blockOnWire (id tag : UInt8) (blocks : List (UInt32 × List UInt8)) (number : Nat) : Request :=
  (dataRequest id (numberedBlock blocks number)).onWire tag

section Requests

variable {id tag : UInt8} {blocks : List (UInt32 × List UInt8)} {order : List Nat}

theorem Floodable.numberedBlock (floodable : Floodable blocks) {number : Nat}
    (within : number < blocks.length)
    : 0 < (numberedBlock blocks number).data.length
      ∧ (numberedBlock blocks number).data.length ≤ maxData := by
  simp only [State.numberedBlock, List.getD_eq_getElem _ _ within]
  exact floodable.sized _ (List.getElem_mem within)

theorem blockRequest_eq (floodable : Floodable blocks) {number : Nat}
    (within : number < blocks.length)
    : blockRequest id tag blocks number = .ok (blockOnWire id tag blocks number) := by
  obtain ⟨some_data, fits⟩ := floodable.numberedBlock within
  have valid : (dataRequest id (numberedBlock blocks number)).validate = .ok () := by
    have short : ¬ (dataRequest id (numberedBlock blocks number)).data.length > maxData :=
      Nat.not_lt.mpr fits
    rw [Request.validate, if_neg short]
    rfl
  simp only [blockRequest, floodFillData_of_fits id some_data fits]
  exact Request.overWire_of_valid valid tag

/-- Every request of a flood may go out; by induction on the blocks as they are sent. -/
theorem chipFlood_eq (floodable : Floodable blocks)
    (known : ∀ number ∈ order, number < blocks.length) (chip : Chip) (application : UInt8)
    (processors : UInt32) (wait : Bool)
    : chipFlood id tag chip blocks order application processors wait
      = .ok
          ((floodFillStart id (UInt8.ofNat blocks.length) (some chip)).onWire tag
            :: order.map (blockOnWire id tag blocks)
            ++ [(floodFillEnd id application processors wait).onWire tag]) := by
  have data : order.mapM (blockRequest id tag blocks)
      = .ok (order.map (blockOnWire id tag blocks)) := by
    induction order with
    | nil => rfl
    | cons number rest ih =>
        obtain ⟨within, later⟩ := List.forall_mem_cons.mp known
        rw [List.mapM_cons, blockRequest_eq floodable within, ih later]
        rfl
  rw [chipFlood, data, Request.overWire_of_valid rfl, Request.overWire_of_valid rfl]
  rfl

/-- A block is read with its number and all of its bytes, whatever their number. -/
theorem blockFor?_blockOnWire (floodable : Floodable blocks) {number : Nat}
    (within : number < blocks.length)
    : blockFor? id (blockOnWire id tag blocks number)
      = some (number, blocks.getD number (0, [])) := by
  obtain ⟨some_data, fits⟩ := floodable.numberedBlock within
  have few := floodable.few
  let request := dataRequest id (numberedBlock blocks number)
  let data := (numberedBlock blocks number).data
  obtain ⟨place, words⟩ := bytes_data id some_data fits
  have own : request.arg1.toUInt8 = id := toUInt8_or_of_low rfl id
  have same : (numberedBlock blocks number).number.toNat = number := by
    rw [numberedBlock, UInt8.toNat_ofNat']
    omega
  -- The words that a block counts are as many bytes as it has, or a few more.
  have whole : data.take ((((request.arg2 >>> 8) &&& 0xff).toNat + 1) * 4) = data := by
    refine List.take_of_length_le ?_
    rw [words]
    change (numberedBlock blocks number).data.length ≤ _
    omega
  change (if request.command = .floodFillData ∧ request.arg1.toUInt8 = id then
      some
        (((request.arg2 >>> 16) &&& 0xff).toNat, (numberedBlock blocks number).address,
          data.take ((((request.arg2 >>> 8) &&& 0xff).toNat + 1) * 4))
    else none) = _
  rw [if_pos ⟨rfl, own⟩, place, whole, same]
  rfl

/-- However often each block was sent, and in whatever order, what came first of each is the block.
-/
theorem firstBlock?_map (floodable : Floodable blocks)
    (known : ∀ number ∈ order, number < blocks.length) {number : Nat} (sent : number ∈ order)
    : firstBlock? id (order.map (blockOnWire id tag blocks)) number
      = some (blocks.getD number (0, [])) := by
  have brought : (order.map (blockOnWire id tag blocks)).filterMap (blockFor? id)
      = order.map fun number => (number, blocks.getD number (0, [])) := by
    rw [List.filterMap_map, ← List.filterMap_eq_map]
    refine List.filterMap_congr fun number member => ?_
    exact blockFor?_blockOnWire floodable (known number member)
  rw [firstBlock?, brought]
  exact List.lookup_graph _ sent

theorem delivered_map (floodable : Floodable blocks)
    (all : ∀ number, number ∈ order ↔ number < blocks.length)
    : ∀ number < blocks.length, Delivered id (order.map (blockOnWire id tag blocks)) number := by
  intro number within
  rw [← firstBlock?_isSome_iff,
    firstBlock?_map floodable (fun _ => (all _).mp) ((all number).mpr within)]
  rfl

theorem firstBlocks_map (floodable : Floodable blocks)
    (all : ∀ number, number ∈ order ↔ number < blocks.length)
    : firstBlocks id (order.map (blockOnWire id tag blocks)) blocks.length = blocks := by
  have each : ∀ number ∈ List.range blocks.length,
      firstBlock? id (order.map (blockOnWire id tag blocks)) number
        = (some ∘ fun number => blocks.getD number (0, [])) number := by
    intro number member
    exact firstBlock?_map floodable (fun _ => (all _).mp)
      ((all number).mpr (List.mem_range.mp member))
  rw [firstBlocks, List.filterMap_congr each, List.filterMap_eq_map]
  refine List.ext_getElem (by simp) fun index _ within => ?_
  simp [within]

end Requests

-----------------------------------------------------------------------------------------
-- What a flood leaves
-----------------------------------------------------------------------------------------

section Stores

variable {id : UInt8} {state : State} {targets : List Chip} {count : Nat}
  {requests : List Request}

/-- Requests that prepare floods change no memory and no processor; by induction on them. -/
theorem stores_after_of_prepares (prepare : ∀ request ∈ requests, Prepares request)
    (state : State)
    : (state.after requests).memories = state.memories
      ∧ (state.after requests).cores = state.cores := by
  induction requests generalizing state with
  | nil => exact ⟨rfl, rfl⟩
  | cons first rest ih =>
      obtain ⟨now, later⟩ := List.forall_mem_cons.mp prepare
      obtain ⟨memories, cores⟩ := stores_handle_of_prepares now state
      obtain ⟨memories_after, cores_after⟩ := ih later (state.handle first).2
      exact ⟨memories_after.trans memories, cores_after.trans cores⟩

/-- A board after the end of a flood: each of its chips has what the blocks leave of the memory, and
runs what the end starts, if it starts an application. All else is as it was.
-/
structure Filled (blocks : List (UInt32 × List UInt8)) (targets : List Chip) (word : UInt32)
    (before after : State) : Prop where
  memories
    : ∀ chip,
        after.memories.get? chip
        = if chip ∈ targets then
            some (blocks.foldl (fun memory block => memory.write block.1 block.2)
              ((before.memories.get? chip).getD {}))
          else before.memories.get? chip
  cores
    : ∀ core,
        after.cores.get? core
        = if word >>> 24 ≠ 0 ∧ core.1 ∈ targets ∧ core.2 ∈ named word then some (started word)
          else before.cores.get? core

theorem filled_floodEnd {flood : Flood} {stop : Request}
    (known : state.floods.get? stop.arg1.toUInt8 = some flood)
    (complete : flood.isComplete = true) (distinct : flood.targets.Nodup)
    : Filled flood.delivered flood.targets stop.arg2 state (state.floodEnd stop).2 := by
  let closed := { state with floods := state.floods.erase stop.arg1.toUInt8 }
  let filled := flood.targets.foldl (fun state chip => state.fill flood.delivered chip) closed
  have memories := get?_foldl_fill flood.delivered distinct closed
  have cores : filled.cores = state.cores :=
    foldl_kept State.cores
      (fun state chip => (rfl : (state.fill flood.delivered chip).cores = _)) _ _
  have begun_memories :=
    foldl_kept State.memories fun state chip =>
      (rfl : (state.startCores chip stop.arg2).memories = _)
  have begun := get?_foldl_startCores flood.targets stop.arg2 filled
  rw [cores] at begun
  by_cases starts : stop.arg2 >>> 24 = 0
  · have last : (state.floodEnd stop).2 = filled := by
      simp [floodEnd, known, complete, starts, filled, closed]
    rw [last]
    exact ⟨memories, fun core => by simp [cores, starts]⟩
  · have last : (state.floodEnd stop).2
        = flood.targets.foldl (fun state chip => state.startCores chip stop.arg2) filled := by
      simp [floodEnd, known, complete, starts, filled, closed]
    rw [last]
    exact ⟨fun chip => by rw [begun_memories, memories], fun core => by simp [begun, starts]⟩

/-- So it is on a board that has gathered all of the blocks. -/
theorem Gathers.filled (gathers : Gathers id targets count requests state) {stop : Request}
    (closes : Closes id stop) (distinct : targets.Nodup)
    (whole : ∀ number < count, Delivered id requests number)
    : Filled (firstBlocks id requests count) targets stop.arg2 state (state.handle stop).2 := by
  obtain ⟨command, kind, rfl⟩ := closes
  obtain ⟨tally, handled⟩ := handle_of_willing gathers.willing gathers.lossless stop
  let told := state.adjusted 0 0 tally
  have performed : told.perform stop = told.floodEnd stop := by
    simp [perform_eq, command, concernsChip, carryOut, kind]
  have known : told.floods.get? stop.arg1.toUInt8
      = some (.gathered stop.arg1.toUInt8 targets count requests) :=
    gathers.flood
  have complete := (Flood.isComplete_gathered_iff targets count requests).mpr whole
  have filled := filled_floodEnd known complete distinct
  rw [Flood.delivered_gathered] at filled
  rw [handled, performed]
  exact ⟨filled.memories, filled.cores⟩

/-- Before the end, the board has gathered the blocks for the chip, if the machine has it, and its
memories and processors are as they were.
-/
theorem gathers_chipFlood (willing : state.refusals = 0)
    (lossless : state.settings.losesAll = false) {blocks : List (UInt32 × List UInt8)}
    (few : blocks.length ≤ 255) (id tag : UInt8) (chip : Chip) (order : List Nat)
    : let start := (floodFillStart id (UInt8.ofNat blocks.length) (some chip)).onWire tag
      let data := order.map (blockOnWire id tag blocks)
      let before := state.after (start :: data)
      let targets := if state.settings.machine.contains chip then [chip] else []
      Gathers id targets blocks.length data before
      ∧ before.memories = state.memories
      ∧ before.cores = state.cores := by
  intro start data before targets
  have opens : Opens id start :=
    ⟨rfl, kind_start id _ (some chip), number_start id _ (some chip)⟩
  have brings : ∀ request ∈ data, request.command = .floodFillData := by
    intro request member
    obtain ⟨number, _, rfl⟩ := List.mem_map.mp member
    rfl
  have between : ∀ request ∈ data, ¬ Opens id request ∧ ¬ Closes id request := by
    intro request member
    have command := brings request member
    simp [Opens, Closes, command]
  have count : ((start.arg1 >>> 8) &&& 0xff).toNat = blocks.length := by
    have announced : (start.arg1 >>> 8) &&& 0xff = (UInt8.ofNat blocks.length).toUInt32 :=
      blocks_start id _ (some chip)
    rw [announced, UInt8.toNat_toUInt32, UInt8.toNat_ofNat']
    omega
  have named_chip : state.floodTargets start.arg2 = targets := floodTargets_chipMask state chip
  have gathers := ((gathers_of_opens willing lossless opens).2).after between
  rw [count, named_chip] at gathers
  refine ⟨gathers, stores_after_of_prepares ?_ state⟩
  exact List.forall_mem_cons.mpr
    ⟨.inr ⟨id, opens⟩, fun request member => .inl (brings request member)⟩

/-- A flood for one chip, on a board that refuses nothing and loses nothing, whatever it was told
before. Each block is sent at least once, in any order. Where the machine has the chip, its memory
is left as writing the blocks to it one after the other leaves it, by ascending number, and the
processors whose bits were given run the application, unless this is 0: they wait, or run at once.
No other memory and no other processor changes; and where the machine has no such chip, none does.
Witness: what the board has gathered before the end, which is each block once.
-/
theorem single_chip_flood (state : State) (chip : Chip) (id tag application : UInt8) (wait : Bool)
    {processors : UInt32} {blocks : List (UInt32 × List UInt8)} {order : List Nat}
    (willing : state.refusals = 0) (lossless : state.settings.losesAll = false)
    (floodable : Floodable blocks) (all : ∀ number, number ∈ order ↔ number < blocks.length)
    (runs : RunnableMask processors)
    : ∃ requests,
        chipFlood id tag chip blocks order application processors wait = .ok requests
        ∧ let last := state.after requests
          let there := state.settings.machine.contains chip = true
          (∀ other,
            last.memories.get? other
            = if there ∧ other = chip then
                (state.writeBlocks chip blocks).memories.get? chip
              else state.memories.get? other)
          ∧ ∀ core,
              last.cores.get? core
              = if there ∧ application ≠ 0 ∧ core.1 = chip
                    ∧ processors.toNat.testBit core.2.toNat = true then
                  some ⟨application, if wait then .sync0 else .running⟩
                else state.cores.get? core := by
  let start := (floodFillStart id (UInt8.ofNat blocks.length) (some chip)).onWire tag
  let data := order.map (blockOnWire id tag blocks)
  let stop := (floodFillEnd id application processors wait).onWire tag
  let before := state.after (start :: data)
  let targets := if state.settings.machine.contains chip then [chip] else []
  refine ⟨start :: data ++ [stop],
    chipFlood_eq floodable (fun _ => (all _).mp) chip application processors wait, ?_⟩
  intro last there
  have last_is : last = (before.handle stop).2 := by
    change List.foldl _ state (start :: data ++ [stop]) = _
    rw [List.foldl_append]
    rfl
  obtain ⟨gathers, memories, cores⟩
      : Gathers id targets blocks.length data before
        ∧ before.memories = state.memories
        ∧ before.cores = state.cores :=
    gathers_chipFlood willing lossless floodable.few id tag chip order
  have closes : Closes id stop :=
    ⟨rfl, kind_end id application processors wait, toUInt8_or_of_low rfl id⟩
  have target (other : Chip) : other ∈ targets ↔ there ∧ other = chip := by
    simp only [targets, there]
    split <;> simp [*]
  have distinct : targets.Nodup := by
    simp only [targets]
    split <;> simp
  have whole : ∀ number < blocks.length, Delivered id data number := delivered_map floodable all
  have written : firstBlocks id data blocks.length = blocks := firstBlocks_map floodable all
  have some_blocks : blocks ≠ [] := List.length_pos_iff.mp floodable.some_blocks
  have word : stop.arg2 = launchWord application processors wait := rfl
  have filled := gathers.filled closes distinct whole
  rw [last_is]
  constructor
  · intro other
    rw [filled.memories, written, memories, get?_writeBlocks state chip some_blocks]
    simp only [target]
    split
    · next here => rw [here.2]
    · rfl
  · intro core
    rw [filled.cores, cores, word, started_of_runs runs]
    refine if_congr ?_ rfl rfl
    rw [launchWord_starts_iff runs, target, mem_named_iff_testBit runs]
    tauto

/-- Block 1 comes first and twice, over a part of where block 0 goes, on a chip in the second group
of four by four; the processors 1 and 2 wait. No other chip has memory then.
-/
theorem single_chip_flood_waiting
    : let blocks : List (UInt32 × List UInt8) := [(0x100, [1, 2, 3, 4, 5]), (0x102, [9])]
      let board : State := {}
      let mask := (Core.Processors.ofList [1, 2]).mask
      Floodable blocks
      ∧ RunnableMask mask
      ∧ ∃ requests,
          chipFlood 5 1 ⟨5, 6⟩ blocks [1, 0, 1] 30 mask true = .ok requests
          ∧ (board.after requests).memories.get? ⟨5, 6⟩
              = (board.writeBlocks ⟨5, 6⟩ blocks).memories.get? ⟨5, 6⟩
          ∧ (board.after requests).memories.get? ⟨6, 5⟩ = none
          ∧ (board.after requests).cores.get? (⟨5, 6⟩, 2) = some ⟨30, .sync0⟩
          ∧ (board.after requests).cores.get? (⟨5, 6⟩, 3) = none := by
  intro blocks board mask
  have floodable : Floodable blocks := ⟨by decide, by decide, by decide⟩
  have runs : RunnableMask mask := by
    have runnable : Runnable (.ofList [1, 2]) := by
      have listed : (Core.Processors.ofList [1, 2]).list = [1, 2] := by decide
      simp [Runnable, listed]
    exact runnable.mask
  have all : ∀ number, number ∈ [1, 0, 1] ↔ number < blocks.length := by
    intro number
    simp [blocks]
    omega
  obtain ⟨requests, made, memories, cores⟩ :=
    single_chip_flood board ⟨5, 6⟩ 5 1 30 true rfl rfl floodable all runs
  refine ⟨floodable, runs, requests, made, ?_, ?_, ?_, ?_⟩
  · rw [memories, if_pos (by decide)]
  · rw [memories, if_neg (by decide)]
    rfl
  · rw [cores, if_pos (by decide)]
    rfl
  · rw [cores, if_neg (by decide)]
    rfl

end Stores

end State

end Board

end MeshControl
