import MeshControl.Proofs.Board.Retransmission

/-! A flood from its announcement to its end, among any other requests. Each block counts at its
first delivery, whatever the order in which blocks come, and nothing goes into memory before the
end: then either all of the blocks do, by ascending number, or none of them.
-/

namespace MeshControl.Board

open Scp Operation

-----------------------------------------------------------------------------------------
-- The requests of one flood
-----------------------------------------------------------------------------------------

/-- The request announces the flood of this number. -/
def Opens (id : UInt8) (request : Request) : Prop :=
  request.command = .nearestNeighbour
  ∧ request.arg1 >>> 24 = 6
  ∧ (request.arg1 >>> 16).toUInt8 = id

/-- The request ends the flood of this number. -/
def Closes (id : UInt8) (request : Request) : Prop :=
  request.command = .nearestNeighbour ∧ request.arg1 >>> 24 = 15 ∧ request.arg1.toUInt8 = id

/-- The request announces a flood, or brings a block of one. -/
def Prepares (request : Request) : Prop :=
  request.command = .floodFillData ∨ ∃ id, Opens id request

instance (id : UInt8) : DecidablePred (Opens id) := fun request =>
  inferInstanceAs (Decidable (request.command = _ ∧ _ ∧ _))

instance (id : UInt8) : DecidablePred (Closes id) := fun request =>
  inferInstanceAs (Decidable (request.command = _ ∧ _ ∧ _))

/-- The block that a request brings for a flood: its number, where it goes, and its bytes. -/
def blockFor? (id : UInt8) (request : Request) : Option (Nat × (UInt32 × List UInt8)) :=
  if request.command = .floodFillData ∧ request.arg1.toUInt8 = id then
    some
      (((request.arg2 >>> 16) &&& 0xff).toNat,
        request.arg3,
        request.data.take ((((request.arg2 >>> 8) &&& 0xff).toNat + 1) * 4))
  else none

/-- What some requests bring for a block of a flood first. -/
def firstBlock? (id : UInt8) (requests : List Request) (number : Nat)
    : Option (UInt32 × List UInt8) :=
  (requests.filterMap (blockFor? id)).lookup number

/-- Some requests bring a block of a flood, at least once. -/
def Delivered (id : UInt8) (requests : List Request) (number : Nat) : Prop :=
  ∃ request ∈ requests, ∃ block, blockFor? id request = some (number, block)

/-- The blocks of a flood of so many that some requests bring, each as it came first, by ascending
number.
-/
def firstBlocks (id : UInt8) (requests : List Request) (count : Nat)
    : List (UInt32 × List UInt8) :=
  (List.range count).filterMap (firstBlock? id requests)

/-- A flood of so many blocks to some chips that has taken in what some requests brought first. -/
def Flood.gathered (id : UInt8) (targets : List Chip) (count : Nat) (requests : List Request)
    : Flood :=
  ⟨targets, (List.range count).map (firstBlock? id requests)⟩

variable {id : UInt8}

theorem firstBlock?_isSome_iff {requests : List Request} {number : Nat}
    : (firstBlock? id requests number).isSome = true ↔ Delivered id requests number := by
  simp only [firstBlock?, List.lookup_isSome_iff, List.mem_filterMap, Delivered, beq_iff_eq]
  constructor
  · rintro ⟨⟨_, block⟩, ⟨request, member, brings⟩, rfl⟩
    exact ⟨request, member, block, brings⟩
  · rintro ⟨request, member, block, brings⟩
    exact ⟨(number, block), ⟨request, member, brings⟩, rfl⟩

/-- A request that brings no block leaves the first ones as they were. -/
theorem firstBlock?_append_of_none {request : Request} (brings : blockFor? id request = none)
    (requests : List Request)
    : firstBlock? id (requests ++ [request]) = firstBlock? id requests := by
  funext number
  simp [firstBlock?, brings]

/-- A block that comes is its number's first one if none came before. -/
theorem firstBlock?_append_of_some {request : Request} {number : Nat}
    {block : UInt32 × List UInt8} (brings : blockFor? id request = some (number, block))
    (requests : List Request) (other : Nat)
    : firstBlock? id (requests ++ [request]) other
      = (firstBlock? id requests other).or (if other = number then some block else none) := by
  rw [firstBlock?, List.filterMap_append, List.lookup_append]
  congr 1
  by_cases same : other = number
  · simp [brings, same]
  · simp [brings, same, List.lookup_cons, beq_false_of_ne same]

/-- A block is no longer than the size that a request can name. -/
theorem length_of_mem_firstBlocks {requests : List Request} {count : Nat}
    {block : UInt32 × List UInt8} (member : block ∈ firstBlocks id requests count)
    : block.2.length ≤ 2 ^ 32 := by
  obtain ⟨number, _, first⟩ := List.mem_filterMap.mp member
  obtain ⟨front, back, split, _⟩ := List.lookup_eq_some_iff.mp first
  have brought : (number, block) ∈ requests.filterMap (blockFor? id) := by simp [split]
  obtain ⟨request, _, brings⟩ := List.mem_filterMap.mp brought
  unfold blockFor? at brings
  split_ifs at brings
  cases brings
  have size : ((request.arg2 >>> 8) &&& 0xff).toNat ≤ 0xff := by
    rw [UInt32.toNat_and]
    exact Nat.and_le_right
  rw [List.length_take]
  omega

/-- A flood has gathered all of its blocks exactly if each was delivered. -/
theorem Flood.isComplete_gathered_iff (targets : List Chip) (count : Nat)
    (requests : List Request)
    : (gathered id targets count requests).isComplete = true
      ↔ ∀ number < count, Delivered id requests number := by
  simp only [gathered, isComplete, List.all_map, List.all_eq_true, List.mem_range,
    Function.comp_apply, firstBlock?_isSome_iff]

theorem Flood.delivered_gathered (targets : List Chip) (count : Nat) (requests : List Request)
    : (gathered id targets count requests).delivered = firstBlocks id requests count := by
  simp [delivered, gathered, firstBlocks, List.filterMap_map]

/-- Taking in a block that comes gives the flood the first ones of all that have come. -/
theorem Flood.deliver?_gathered {request : Request} {number : Nat}
    {block : UInt32 × List UInt8} (brings : blockFor? id request = some (number, block))
    (requests : List Request) (targets : List Chip) (count : Nat)
    : let flood := gathered id targets count requests
      (flood.deliver? number block.1 block.2).getD flood
      = gathered id targets count (requests ++ [request]) := by
  intro flood
  have grown := firstBlock?_append_of_some brings requests
  have place (index : Nat)
      : flood.blocks[index]?
        = if index < count then some (firstBlock? id requests index) else none := by
    by_cases within : index < count <;> simp [flood, gathered, within]
  have size : flood.blocks.length = count := by simp [flood, gathered]
  have kept (unmoved : ∀ index < count,
      (firstBlock? id requests index).or (if index = number then some block else none)
        = firstBlock? id requests index)
      : flood = gathered id targets count (requests ++ [request]) := by
    refine congrArg (Flood.mk targets) (List.map_congr_left fun index listed => ?_)
    rw [grown, unmoved index (List.mem_range.mp listed)]
  unfold deliver?
  rw [place]
  by_cases within : number < count
  · rw [if_pos within]
    cases here : firstBlock? id requests number with
    | some first =>
        refine kept fun index _ => ?_
        by_cases same : index = number
        · rw [same, here, Option.some_or]
        · rw [if_neg same, Option.or_none]
    | none =>
        refine congrArg (Flood.mk targets) (List.ext_getElem? fun index => ?_)
        rw [List.getElem?_set, place, size, List.getElem?_map]
        by_cases same : number = index
        · subst same
          simp [within, grown, here]
        · by_cases inside : index < count
          · simp [same, inside, grown, Ne.symm same]
          · simp [same, inside]
  · rw [if_neg within]
    refine kept fun index inside => ?_
    rw [if_neg (by omega), Option.or_none]

namespace State

-----------------------------------------------------------------------------------------
-- Floods among other requests
-----------------------------------------------------------------------------------------

/-- A block is taken in by the flood that it is for, and by no other. -/
theorem get?_floods_floodData {state : State} {request : Request}
    (command : request.command = .floodFillData)
    : (state.floodData request).2.floods.get? id
      = match blockFor? id request with
        | none => state.floods.get? id
        | some (number, block) =>
            (state.floods.get? id).map fun flood =>
              (flood.deliver? number block.1 block.2).getD flood := by
  simp only [floodData, blockFor?, command, true_and]
  by_cases own : request.arg1.toUInt8 = id
  · subst own
    simp only [if_true]
    cases known : state.floods.get? request.arg1.toUInt8 with
    | none =>
        simp only [Option.bind_none, Option.map_none]
        exact known
    | some flood =>
        simp only [Option.bind_some, Option.map_some]
        cases flood.deliver? ((request.arg2 >>> 16) &&& 0xff).toNat request.arg3
            (request.data.take ((((request.arg2 >>> 8) &&& 0xff).toNat + 1) * 4)) with
        | none => exact known
        | some taken => exact Table.get?_insert_self _ _ _
  · rw [if_neg own]
    split
    · rfl
    · simp [Ne.symm own]

/-- What a request that neither announces nor ends a flood does to it: it takes in the block that
the request brings; by the kinds of requests.
-/
theorem get?_floods_perform {state : State} {request : Request} (unopened : ¬ Opens id request)
    (unclosed : ¬ Closes id request)
    : (state.perform request).2.floods.get? id
      = match blockFor? id request with
        | none => state.floods.get? id
        | some (number, block) =>
            (state.floods.get? id).map fun flood =>
              (flood.deliver? number block.1 block.2).getD flood := by
  have plain (command : request.command ≠ .floodFillData) : blockFor? id request = none := by
    simp [blockFor?, command]
  rw [perform_eq]
  split
  · next barred =>
      rw [plain (fun command => by simp [command, concernsChip] at barred)]
  · cases command : request.command with
    | floodFillData =>
        simp only [carryOut, command]
        exact get?_floods_floodData command
    | nearestNeighbour =>
        rw [plain (by simp [command])]
        simp only [carryOut, command]
        by_cases start : request.arg1 >>> 24 = 6
        · have other : id ≠ (request.arg1 >>> 16).toUInt8 :=
            fun same => unopened ⟨command, start, same.symm⟩
          simp [start, floodStart, other]
        · by_cases stop : request.arg1 >>> 24 = 15
          · have other : id ≠ request.arg1.toUInt8 :=
              fun same => unclosed ⟨command, stop, same.symm⟩
            simp only [stop, if_true, if_neg (by decide : ¬ (15 : UInt32) = 6)]
            rw [floods_floodEnd, Table.get?_erase, if_neg other]
          · simp [start, stop]
    | write | applicationRun =>
        rw [plain (by simp [command])]
        simp only [carryOut, command]
        rfl
    | _ =>
        rw [plain (by simp [command])]
        simp only [carryOut, command]

/-- A board after some requests, one after the other. -/
def after (state : State) (requests : List Request) : State :=
  requests.foldl (fun now request => (now.handle request).2) state

/-- A board that carries out every request has gathered the first blocks that some requests
brought for a flood of so many.
-/
structure Gathers (id : UInt8) (targets : List Chip) (count : Nat) (requests : List Request)
    (state : State) : Prop where
  willing : state.refusals = 0
  lossless : state.settings.losesAll = false
  flood : state.floods.get? id = some (.gathered id targets count requests)

variable {state : State} {targets : List Chip} {count : Nat} {requests : List Request}

/-- The announcement of a flood is granted, and nothing has been gathered then. -/
theorem gathers_of_opens {start : Request} (willing : state.refusals = 0)
    (lossless : state.settings.losesAll = false) (opens : Opens id start)
    : (state.handle start).1 = some (.ok, [])
      ∧ Gathers id (state.floodTargets start.arg2) ((start.arg1 >>> 8) &&& 0xff).toNat []
          (state.handle start).2 := by
  obtain ⟨tally, handled⟩ := handle_of_willing willing lossless start
  obtain ⟨command, kind, rfl⟩ := opens
  have performed : (state.adjusted 0 0 tally).perform start
      = (state.adjusted 0 0 tally).floodStart start := by
    simp [perform_eq, command, concernsChip, carryOut, kind]
  rw [handled, performed]
  refine ⟨rfl, rfl, lossless, ?_⟩
  rw [floodStart, Table.get?_insert_self, Flood.announced, Flood.gathered]
  have none_yet : firstBlock? (start.arg1 >>> 16).toUInt8 [] = fun _ => none := rfl
  rw [none_yet, List.map_const', List.length_range]
  rfl

/-- Any request that neither announces nor ends the flood is gathered with the others. -/
theorem Gathers.handle (gathers : Gathers id targets count requests state) {request : Request}
    (unopened : ¬ Opens id request) (unclosed : ¬ Closes id request)
    : Gathers id targets count (requests ++ [request]) (state.handle request).2 := by
  obtain ⟨tally, handled⟩ := handle_of_willing gathers.willing gathers.lossless request
  have same := perform_sameBoard (state.adjusted 0 0 tally) request
  have known : (state.adjusted 0 0 tally).floods.get? id
      = some (.gathered id targets count requests) :=
    gathers.flood
  rw [handled]
  refine ⟨same.refusals, same.settings ▸ gathers.lossless, ?_⟩
  rw [get?_floods_perform unopened unclosed, known]
  cases brings : blockFor? id request with
  | none => rw [Flood.gathered, Flood.gathered, firstBlock?_append_of_none brings]
  | some found =>
      exact congrArg some (Flood.deliver?_gathered brings requests targets count)

/-- So are all that come between the announcement and the end, by induction on them, the last one
first.
-/
theorem Gathers.after (gathers : Gathers id targets count [] state)
    (between : ∀ request ∈ requests, ¬ Opens id request ∧ ¬ Closes id request)
    : Gathers id targets count requests (state.after requests) := by
  induction requests using List.reverseRecOn with
  | nil => exact gathers
  | append_singleton earlier last ih =>
      have earlier_gathers := ih fun request member =>
        between request (List.mem_append_left _ member)
      obtain ⟨unopened, unclosed⟩ := between last (by simp)
      rw [State.after, List.foldl_append]
      exact earlier_gathers.handle unopened unclosed

-----------------------------------------------------------------------------------------
-- Memory
-----------------------------------------------------------------------------------------

/-- Blocks that go into the memory of a chip one after the other. -/
def writeBlocks (state : State) (chip : Chip) (blocks : List (UInt32 × List UInt8)) : State :=
  blocks.foldl (fun now block => now.writeMemory chip block.1 block.2) state

/-- The memory of that chip is what they leave of it; by induction on them. -/
theorem getD_writeBlocks (state : State) (chip : Chip) (blocks : List (UInt32 × List UInt8))
    : ((state.writeBlocks chip blocks).memories.get? chip).getD {}
      = blocks.foldl (fun memory block => memory.write block.1 block.2)
          ((state.memories.get? chip).getD {}) := by
  induction blocks generalizing state with
  | nil => rfl
  | cons block rest ih =>
      refine (ih (state.writeMemory chip block.1 block.2)).trans ?_
      rw [writeMemory, Table.get?_insert_self, Option.getD_some, List.foldl_cons]

/-- Once a block went into it, the chip has that memory. -/
theorem get?_writeBlocks (state : State) (chip : Chip) {blocks : List (UInt32 × List UInt8)}
    (some_blocks : blocks ≠ [])
    : (state.writeBlocks chip blocks).memories.get? chip
      = some (blocks.foldl (fun memory block => memory.write block.1 block.2)
          ((state.memories.get? chip).getD {})) := by
  obtain ⟨earlier, last, rfl⟩ := (List.eq_nil_or_concat blocks).resolve_left some_blocks
  have before := getD_writeBlocks state chip earlier
  rw [List.concat_eq_append, writeBlocks, List.foldl_append, List.foldl_append, ← before]
  exact Table.get?_insert_self _ _ _

/-- They change that chip, where they reach, and the last one there decides. -/
theorem byteAt_writeBlocks (state : State) (chip : Chip) {blocks : List (UInt32 × List UInt8)}
    (fits : ∀ block ∈ blocks, block.2.length ≤ 2 ^ 32) (address : UInt32)
    : (state.writeBlocks chip blocks).byteAt chip address
      = (writtenBy? blocks address).getD (state.byteAt chip address) := by
  rw [byteAt, getD_writeBlocks]
  exact Memory.get_foldl_write fits _ address

/-- A request that prepares a flood changes no memory and no processor, on any board. -/
theorem stores_handle_of_prepares {request : Request} (prepares : Prepares request) (state : State)
    : (state.handle request).2.memories = state.memories
      ∧ (state.handle request).2.cores = state.cores := by
  have taken (state : State)
      : (state.floodData request).2.memories = state.memories
        ∧ (state.floodData request).2.cores = state.cores := by
    unfold floodData
    dsimp only
    split <;> exact ⟨rfl, rfl⟩
  have performed (state : State)
      : (state.perform request).2.memories = state.memories
        ∧ (state.perform request).2.cores = state.cores := by
    rw [perform_eq]
    split
    · exact ⟨rfl, rfl⟩
    · rcases prepares with command | ⟨_, command, kind, _⟩
      · simp only [carryOut, command]
        exact taken state
      · simp only [carryOut, command, kind, if_true]
        exact ⟨rfl, rfl⟩
  unfold State.handle
  dsimp only
  split
  · exact ⟨rfl, rfl⟩
  · split
    · exact ⟨rfl, rfl⟩
    · split
      · exact ⟨rfl, rfl⟩
      · exact performed _

/-- The end of a flood puts its blocks into the memory of its targets if it is whole, and changes no
other byte: programs that start change no memory.
-/
theorem byteAt_floodEnd {flood : Flood} {stop : Request}
    (known : state.floods.get? stop.arg1.toUInt8 = some flood)
    (fits : ∀ block ∈ flood.delivered, block.2.length ≤ 2 ^ 32) (chip : Chip) (address : UInt32)
    : (state.floodEnd stop).2.byteAt chip address
      = if flood.isComplete ∧ chip ∈ flood.targets then
          (writtenBy? flood.delivered address).getD (state.byteAt chip address)
        else state.byteAt chip address := by
  have begun :=
    foldl_kept State.memories fun state chip =>
      (rfl : (state.startCores chip stop.arg2).memories = _)
  have filled := byteAt_foldl_fill fits flood.targets
    { state with floods := state.floods.erase stop.arg1.toUInt8 } chip address
  simp only [byteAt] at filled ⊢
  simp only [floodEnd, known]
  cases flood.isComplete with
  | false => rfl
  | true =>
      simp only [Bool.not_true, Bool.false_eq_true, if_false, true_and]
      split
      · rw [begun, filled]
      · exact filled

/-- What the end of a flood does on a board that has gathered its blocks. -/
theorem Gathers.conclude (gathers : Gathers id targets count requests state) {stop : Request}
    (closes : Closes id stop)
    : let last := state.handle stop
      ((∀ number < count, Delivered id requests number)
        → last.1 = some (.ok, [])
          ∧ ∀ chip address,
              last.2.byteAt chip address
              = if chip ∈ targets then
                  (state.writeBlocks chip (firstBlocks id requests count)).byteAt chip address
                else state.byteAt chip address)
      ∧ ((¬ ∀ number < count, Delivered id requests number)
        → last.1 = some (.badArgument, [])
          ∧ ∀ chip address, last.2.byteAt chip address = state.byteAt chip address)
      ∧ last.2.floods.get? id = none := by
  obtain ⟨command, kind, rfl⟩ := closes
  obtain ⟨tally, handled⟩ := handle_of_willing gathers.willing gathers.lossless stop
  let told := state.adjusted 0 0 tally
  have performed : told.perform stop = told.floodEnd stop := by
    simp [perform_eq, command, concernsChip, carryOut, kind]
  have known : told.floods.get? stop.arg1.toUInt8
      = some (.gathered stop.arg1.toUInt8 targets count requests) :=
    gathers.flood
  have fits : ∀ block ∈ firstBlocks stop.arg1.toUInt8 requests count,
      block.2.length ≤ 2 ^ 32 :=
    fun block => length_of_mem_firstBlocks
  have reply := reply_floodEnd told stop
  have bytes := byteAt_floodEnd known (by rwa [Flood.delivered_gathered])
  rw [known] at reply
  simp only [Flood.delivered_gathered] at reply bytes
  rw [handled, performed]
  refine ⟨fun whole => ?_, fun lacking => ?_, ?_⟩
  · have complete := (Flood.isComplete_gathered_iff targets count requests).mpr whole
    rw [reply, if_pos complete]
    refine ⟨rfl, fun chip address => ?_⟩
    rw [bytes, byteAt_writeBlocks state chip fits]
    simp only [complete, true_and]
    rfl
  · have incomplete := mt (Flood.isComplete_gathered_iff targets count requests).mp lacking
    rw [reply, if_neg incomplete]
    refine ⟨rfl, fun chip address => ?_⟩
    rw [bytes, if_neg fun both => incomplete both.1]
    rfl
  · rw [floods_floodEnd, Table.get?_erase, if_pos rfl]

/-- A flood is announced on a board that refuses nothing and loses nothing, whatever it was told
before; any requests follow but another announcement or an end of this flood; then it ends. No
request that brings a block changes any memory. If each of the announced blocks came at least
once, the end is granted, and it leaves every target with the bytes that writing its blocks one
after the other leaves, each as it came first, by ascending number; every other chip it leaves
alone. If one did not come, the end is refused, and changes no byte. Either way the flood is gone.
Witness: the blocks that the flood has gathered, each as it came first, kept by every request.
-/
theorem flood_all_or_nothing (state : State) {start stop : Request} {requests : List Request}
    (willing : state.refusals = 0) (lossless : state.settings.losesAll = false)
    (opens : Opens id start) (closes : Closes id stop)
    (between : ∀ request ∈ requests, ¬ Opens id request ∧ ¬ Closes id request)
    : let count := ((start.arg1 >>> 8) &&& 0xff).toNat
      let targets := state.floodTargets start.arg2
      let begun := state.handle start
      let before := begun.2.after requests
      let last := before.handle stop
      begun.1 = some (.ok, [])
      ∧ (∀ (now : State) (data : Request),
          data.command = .floodFillData → (now.handle data).2.memories = now.memories)
      ∧ ((∀ number < count, Delivered id requests number)
        → last.1 = some (.ok, [])
          ∧ ∀ chip address,
              last.2.byteAt chip address
              = if chip ∈ targets then
                  (before.writeBlocks chip (firstBlocks id requests count)).byteAt chip address
                else before.byteAt chip address)
      ∧ ((¬ ∀ number < count, Delivered id requests number)
        → last.1 = some (.badArgument, [])
          ∧ ∀ chip address, last.2.byteAt chip address = before.byteAt chip address)
      ∧ last.2.floods.get? id = none := by
  obtain ⟨granted, gathers⟩ := gathers_of_opens willing lossless opens
  exact ⟨granted, fun now _ command => (stores_handle_of_prepares (.inl command) now).1,
    (gathers.after between).conclude closes⟩

/-- Block 1 comes first and then again with other bytes, a block that was not announced comes and
one of another flood, the chip is written to, and block 0 comes last; where the blocks overlap,
block 1 decides.
-/
theorem flood_all_or_nothing_backwards
    : let block (id number : UInt8) (address : UInt32) (data : List UInt8) : Request :=
        { header := .toMonitor .everywhere .replyExpected
          command := .floodFillData
          arg1 := id.toUInt32
          arg2 := number.toUInt32 <<< 16
          arg3 := address
          data }
      let requests :=
        [block 5 1 0x102 [5, 6, 7, 8], block 5 1 0x200 [9, 9, 9, 9], block 5 2 0 [9],
          floodFillStart 6 1 none, block 6 0 0x300 [9, 9, 9, 9],
          { header := .toMonitor ⟨5, 6⟩ .replyExpected
            command := .write, arg1 := 0x100, arg2 := 1, data := [9] },
          block 5 0 0x100 [1, 2, 3, 4]]
      let before := (State.handle {} (floodFillStart 5 2 (some ⟨5, 6⟩))).2.after requests
      let last := before.handle (floodFillEnd 5 0 0 false)
      (∀ request ∈ requests, ¬ Opens 5 request ∧ ¬ Closes 5 request)
      ∧ (∀ number < 2, Delivered 5 requests number)
      ∧ last.1 = some (.ok, [])
      ∧ (∀ chip address,
          last.2.byteAt chip address
          = if chip ∈ [(⟨5, 6⟩ : Chip)] then
              (before.writeBlocks chip [(0x100, [1, 2, 3, 4]), (0x102, [5, 6, 7, 8])]).byteAt
                chip address
            else before.byteAt chip address)
      ∧ last.2.floods.get? 5 = none := by
  intro block requests before last
  have between : ∀ request ∈ requests, ¬ Opens 5 request ∧ ¬ Closes 5 request := by decide
  have count : (((floodFillStart 5 2 (some ⟨5, 6⟩)).arg1 >>> 8) &&& 0xff).toNat = 2 := by decide
  have targets : State.floodTargets {} (floodFillStart 5 2 (some ⟨5, 6⟩)).arg2 = [⟨5, 6⟩] := by
    decide
  have blocks : firstBlocks 5 requests 2 = [(0x100, [1, 2, 3, 4]), (0x102, [5, 6, 7, 8])] := by
    decide
  have whole : ∀ number < 2, Delivered 5 requests number := by
    have come : ∀ number < 2, (firstBlock? 5 requests number).isSome = true := by decide
    exact fun number within => firstBlock?_isSome_iff.mp (come number within)
  have opens : Opens 5 (floodFillStart 5 2 (some ⟨5, 6⟩)) := by decide
  have closes : Closes 5 (floodFillEnd 5 0 0 false) := by decide
  have told := flood_all_or_nothing {} rfl rfl opens closes between
  rw [count, targets] at told
  obtain ⟨_, _, granted, _, gone⟩ := told
  obtain ⟨reply, bytes⟩ := granted whole
  rw [blocks] at bytes
  subst last before
  exact ⟨between, whole, reply, bytes, gone⟩

end State

end MeshControl.Board
