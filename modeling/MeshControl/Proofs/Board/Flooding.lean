import MeshControl.Proofs.Board.Attached
import MeshControl.Proofs.Flood.Blocks

/-! Floods end to end: the start announces the blocks, each block is kept with the flood, and the
end puts all of them into the memory of every chip, however many requests the board refuses in
between.
-/

namespace MeshControl

open Scp Link Operation

-----------------------------------------------------------------------------------------
-- Blocks are pieces
-----------------------------------------------------------------------------------------

namespace Flood

/-- Each block is a piece of the data filled up to a whole word. -/
theorem blockAt_eq_pieceOf (base : UInt32) {data : List UInt8} {index : Nat}
    (within : index * maxData < data.length)
    : (blockAt base data index).address = (Board.pieceOf base (padToWord data) index).1
      ∧ (blockAt base data index).data = (Board.pieceOf base (padToWord data) index).2 :=
  ⟨rfl, data_blockAt base within⟩

end Flood

namespace Board

open MeshControl.Flood (padToWord pieces blockAt roundedUp maxBlocks length_padToWord lt_pieces_iff
  length_blockAt deliver_blockAt blockAt_eq_pieceOf checkSize_of_inside Ids)

-----------------------------------------------------------------------------------------
-- What a board does with the requests of a flood
-----------------------------------------------------------------------------------------

/-- A board takes in the start of a flood for every chip. -/
theorem perform_start (state : State) (id blocks : UInt8) (sequence : UInt16) (tag : UInt8)
    : state.perform (((floodFillStart id blocks none).numbered sequence).onWire tag)
      = ((.ok, []),
        { state with
          floods :=
            state.floods.insert id
              (.announced state.settings.machine.chips blocks.toNat) }) := by
  let request := ((floodFillStart id blocks none).numbered sequence).onWire tag
  have kind : request.arg1 >>> 24 = 6 := kind_start id blocks none
  have number : (request.arg1 >>> 16).toUInt8 = id := number_start id blocks none
  have announced : (request.arg1 >>> 8) &&& 0xff = blocks.toUInt32 := blocks_start id blocks none
  have everywhere : state.floodTargets request.arg2 = state.settings.machine.chips := by
    change state.floodTargets everyChipMask = _
    rw [State.floodTargets, if_pos (by decide)]
  have performed : state.perform request = state.floodStart request := by
    change (if request.arg1 >>> 24 = 6 then state.floodStart request else _) = _
    rw [if_pos kind]
  rw [performed]
  simp only [State.floodStart, number, announced, everywhere, UInt8.toNat_toUInt32]

/-- A board takes in a block of a flood that it knows. -/
theorem perform_data {state : State} {id : UInt8} {flood taken : Flood}
    (known : state.floods.get? id = some flood) {block : MeshControl.Flood.Block} {words : Nat}
    (size : block.data.length = (words + 1) * 4) (fits : block.data.length ≤ maxData)
    (takes : flood.deliver? block.number.toNat block.address block.data = some taken)
    (sequence : UInt16) (tag : UInt8)
    : state.perform (((dataRequest id block).numbered sequence).onWire tag)
      = ((.ok, []), { state with floods := state.floods.insert id taken }) := by
  let request := ((dataRequest id block).numbered sequence).onWire tag
  obtain ⟨number, count⟩ := bytes_data id (by omega) fits
  have number_read : ((request.arg2 >>> 16) &&& 0xff).toNat = block.number.toNat := number
  have count_read : (((request.arg2 >>> 8) &&& 0xff).toNat + 1) * 4 = block.data.length := by
    have read : ((request.arg2 >>> 8) &&& 0xff).toNat = (block.data.length + 3) / 4 - 1 := count
    omega
  have id_read : request.arg1.toUInt8 = id := toUInt8_or_of_low rfl id
  have performed : state.perform request = state.floodData request := rfl
  have whole : request.data.take block.data.length = block.data := List.take_length
  have address : request.arg3 = block.address := rfl
  rw [performed]
  simp only [State.floodData, number_read, count_read, id_read, known, whole, address,
    Option.bind_some, takes]

/-- A request that ends a flood, and starts no program, reaches the board as such. -/
theorem perform_end (state : State) (id : UInt8) (sequence : UInt16) (tag : UInt8)
    : state.perform (((floodFillEnd id 0 0 false).numbered sequence).onWire tag)
      = state.floodEnd (((floodFillEnd id 0 0 false).numbered sequence).onWire tag) := by
  let request := ((floodFillEnd id 0 0 false).numbered sequence).onWire tag
  have kind : request.arg1 >>> 24 = 15 := kind_end id 0 0 false
  change (if request.arg1 >>> 24 = 6 then _
    else if request.arg1 >>> 24 = 15 then state.floodEnd request else _) = _
  rw [kind, if_neg (by decide), if_pos rfl]

/-- The end of a flood that a board does not know changes nothing. -/
theorem perform_end_unknown {state : State} {id : UInt8} (unknown : state.floods.get? id = none)
    (sequence : UInt16) (tag : UInt8)
    : state.perform (((floodFillEnd id 0 0 false).numbered sequence).onWire tag)
      = ((.ok, []), state) := by
  have id_read : (((floodFillEnd id 0 0 false).numbered sequence).onWire tag).arg1.toUInt8 = id :=
    toUInt8_or_of_low rfl id
  rw [perform_end]
  simp only [State.floodEnd, id_read, unknown]

/-- The end of a whole flood puts its blocks into the memory of its chips. -/
theorem perform_end_known {state : State} {id : UInt8} {flood : Flood}
    (known : state.floods.get? id = some flood) (complete : flood.isComplete = true)
    (sequence : UInt16) (tag : UInt8)
    : state.perform (((floodFillEnd id 0 0 false).numbered sequence).onWire tag)
      = ((.ok, []),
        flood.targets.foldl (fun state chip => state.fill flood.delivered chip)
          { state with floods := state.floods.erase id }) := by
  let request := ((floodFillEnd id 0 0 false).numbered sequence).onWire tag
  have id_read : request.arg1.toUInt8 = id := toUInt8_or_of_low rfl id
  have nothing_starts : request.arg2 >>> 24 = 0 :=
    (by decide : launchWord 0 0 false >>> 24 = 0)
  have performed : state.perform request = state.floodEnd request := perform_end state id _ _
  rw [performed]
  simp only [State.floodEnd, id_read, known, complete, nothing_starts]
  rfl

/-- A flood to some chips of which some blocks have come, of so many pieces of some data. -/
structure Collects (chips : List Chip) (base : UInt32) (data : List UInt8) (count : Nat)
    (come : Nat → Prop) [DecidablePred come] (flood : Flood) : Prop where
  targets : flood.targets = chips
  blocks
    : flood.blocks
      = (List.range count).map fun index =>
          if come index then some (pieceOf base data index) else none

section Collecting

variable {chips : List Chip} {base : UInt32} {data : List UInt8} {count : Nat}

theorem collects_announced (chips : List Chip) (base : UInt32) (data : List UInt8) (count : Nat)
    : Collects chips base data count (fun _ => False) (.announced chips count) where
  targets := rfl
  blocks := by simp [Flood.announced, List.map_const']

/-- A block that comes is kept, and one that comes again changes nothing. -/
theorem Collects.deliver {come : Nat → Prop} [DecidablePred come] {flood : Flood}
    (collects : Collects chips base data count come flood) {index : Nat} (within : index < count)
    : ∃ taken,
        flood.deliver? index (pieceOf base data index).1 (pieceOf base data index).2 = some taken
        ∧ Collects chips base data count (fun other => come other ∨ other = index) taken := by
  have place : flood.blocks[index]?
      = some (if come index then some (pieceOf base data index) else none) := by
    rw [collects.blocks]
    simp [within]
  by_cases here : come index
  · refine ⟨flood, by simp [Flood.deliver?, place, here], collects.targets, ?_⟩
    rw [collects.blocks]
    apply List.map_congr_left
    intro other _
    by_cases same : other = index
    · simp [same, here]
    · simp [same]
  · refine ⟨{ flood with blocks := flood.blocks.set index (some (pieceOf base data index)) },
      by simp [Flood.deliver?, place, here], collects.targets, ?_⟩
    apply List.ext_getElem?
    intro other
    rw [collects.blocks, List.getElem?_set]
    by_cases same : index = other
    · subst same
      simp [within]
    · by_cases bound : other < count
      · simp [same, Ne.symm same, bound]
      · simp [same, bound]

/-- Only which of its blocks have come matters for a flood. -/
theorem Collects.congr {come other : Nat → Prop} [DecidablePred come] [DecidablePred other]
    {flood : Flood} (collects : Collects chips base data count come flood)
    (same : ∀ index < count, come index ↔ other index)
    : Collects chips base data count other flood where
  targets := collects.targets
  blocks := by
    rw [collects.blocks]
    apply List.map_congr_left
    intro index member
    simp only [same index (List.mem_range.mp member)]

/-- A flood whose blocks have all come is complete, and gives them in order. -/
theorem Collects.complete {come : Nat → Prop} [DecidablePred come] {flood : Flood}
    (collects : Collects chips base data count come flood) (all : ∀ index < count, come index)
    : flood.isComplete = true
      ∧ flood.delivered = (List.range count).map (pieceOf base data) := by
  have blocks : flood.blocks
      = (List.range count).map fun index => some (pieceOf base data index) := by
    rw [collects.blocks]
    apply List.map_congr_left
    intro index member
    rw [if_pos (all index (List.mem_range.mp member))]
  constructor
  · simp [Flood.isComplete, blocks]
  · rw [Flood.delivered, blocks, List.filterMap_map]
    exact congrFun List.filterMap_eq_map _

end Collecting

-----------------------------------------------------------------------------------------
-- The three stages
-----------------------------------------------------------------------------------------

/-- The bytes of a flood, on every chip of the machine. -/
def flooded (machine : Topology) (base : UInt32) (data : List UInt8) (chip : Chip)
    (address : UInt32) : Option UInt8 :=
  if chip ∈ machine.chips then written? base data address else none

/-- The board keeps a flood under this number of which some blocks have come, and nothing was
written yet.
-/
def Keeps (before : State) (id : UInt8) (base : UInt32) (data : List UInt8) (count : Nat)
    (come : Nat → Prop) [DecidablePred come] (state : State) : Prop :=
  before.Since (fun _ _ => none) state
    ∧ ∃ flood,
        state.floods.get? id = some flood
        ∧ Collects before.settings.machine.chips base data count come flood

/-- A flood is announced. -/
def announcing (config : Config) (room : Nat) (id : UInt8) (base : UInt32) (data : List UInt8)
    (count : Nat) (before : State) : Errand where
  config
  room
  count := 1
  request := fun _ => floodFillStart id (UInt8.ofNat count) none
  handler := fun _ => {}
  payload := fun _ => []
  Holds := fun served state =>
    before.Since (fun _ _ => none) state
      ∧ (0 ∈ served → Keeps before id base data count (fun _ => False) state)

/-- The blocks of a flood are delivered. -/
def delivering (config : Config) (room : Nat) (id : UInt8) (base : UInt32) (data : List UInt8)
    (before : State) : Errand where
  config
  room
  count := pieces data
  request := fun index => dataRequest id (blockAt base data index)
  handler := fun _ => {}
  payload := fun _ => []
  Holds := fun served =>
    Keeps before id base (padToWord data) (pieces data) (· ∈ served)

/-- A flood is ended. -/
def ending (config : Config) (room : Nat) (id : UInt8) (base : UInt32) (data : List UInt8)
    (count : Nat) (before : State) : Errand where
  config
  room
  count := 1
  request := fun _ => floodFillEnd id 0 0 false
  handler := fun _ => {}
  payload := fun _ => []
  Holds := fun served state =>
    if 0 ∈ served then
      before.Since (flooded before.settings.machine base data) state
        ∧ state.floods.get? id = none
    else Keeps before id base data count (fun _ => True) state

section Stages

variable {config : Config} {room : Nat} {id : UInt8} {base : UInt32} {data : List UInt8}
  {count : Nat} {before : State}

theorem Keeps.adjusted {come : Nat → Prop} [DecidablePred come] {state : State}
    (keeps : Keeps before id base data count come state) (dropNext retryNext : Nat)
    (tally : Tally)
    : Keeps before id base data count come (state.adjusted dropNext retryNext tally) :=
  ⟨keeps.1.adjusted dropNext retryNext tally, keeps.2⟩

theorem announcing_proper (patient : config.timeout.nanoseconds ≠ 0)
    (enough : payloadOffset ≤ room) (few : count < 256)
    : (announcing config room id base data count before).Proper where
  patient := patient
  unnumbered _ _ := rfl
  valid _ _ := rfl
  accepts _ _ := rfl
  refuses _ _ := rfl
  content _ _ _ _ := rfl
  fits _ _ := Reply.fits_empty enough .ok
  adjusted dropNext retryNext tally holds :=
    ⟨holds.1.adjusted dropNext retryNext tally, fun announced =>
      (holds.2 announced).adjusted dropNext retryNext tally⟩
  carriedOut := by
    intro served state index sequence _ holds
    refine ⟨_, perform_start state id (UInt8.ofNat count) sequence config.tag, ?_⟩
    have since : before.Since (fun _ _ => none)
        { state with
          floods :=
            state.floods.insert id
              (.announced state.settings.machine.chips (UInt8.ofNat count).toNat) } :=
      ⟨holds.1.settings, holds.1.bytes⟩
    refine ⟨since, fun _ => ⟨since, _, Table.get?_insert_self _ _ _, ?_⟩⟩
    rw [holds.1.settings, UInt8.toNat_ofNat', Nat.mod_eq_of_lt few]
    exact collects_announced _ base data count

/-- A block has at least one word, and no more than a request takes. -/
theorem length_block_le (base : UInt32) {index : Nat} (within : index * maxData < data.length)
    : (∃ words, (blockAt base data index).data.length = (words + 1) * 4)
      ∧ (blockAt base data index).data.length ≤ maxData := by
  have length := length_blockAt base data index
  simp only [maxData] at length within ⊢
  refine ⟨⟨(min 256 (data.length - index * 256) + 3) / 4 - 1, ?_⟩, ?_⟩
  · omega
  · omega

theorem delivering_proper (patient : config.timeout.nanoseconds ≠ 0)
    (enough : payloadOffset ≤ room) (few : pieces data < 256)
    : (delivering config room id base data before).Proper where
  patient := patient
  unnumbered _ _ := rfl
  valid index within := by
    have fits := length_block_le base ((lt_pieces_iff data index).mp within)
    have short : ¬ (dataRequest id (blockAt base data index)).data.length > maxData :=
      Nat.not_lt.mpr fits.2
    change Request.validate (dataRequest id (blockAt base data index)) = _
    rw [Request.validate, if_neg short]
    rfl
  accepts _ _ := rfl
  refuses _ _ := rfl
  content _ _ _ _ := rfl
  fits _ _ := Reply.fits_empty enough .ok
  adjusted dropNext retryNext tally holds := holds.adjusted dropNext retryNext tally
  carriedOut := by
    intro served state index sequence within holds
    obtain ⟨since, flood, known, collects⟩ := holds
    have begins := (lt_pieces_iff data index).mp within
    obtain ⟨⟨words, size⟩, fits⟩ := length_block_le base begins
    obtain ⟨address, bytes⟩ := blockAt_eq_pieceOf base begins
    obtain ⟨taken, takes, collected⟩ := collects.deliver within
    let block := blockAt base data index
    have number : block.number.toNat = index := by
      change (UInt8.ofNat index).toNat = index
      rw [UInt8.toNat_ofNat', Nat.mod_eq_of_lt (Nat.lt_trans within few)]
    have takes : flood.deliver? block.number.toNat block.address block.data = some taken := by
      rw [number, address, bytes]
      exact takes
    refine ⟨_, perform_data known size fits takes sequence config.tag,
      ⟨since.settings, since.bytes⟩, taken, Table.get?_insert_self _ _ _, ?_⟩
    exact collected.congr fun other _ => by simp

/-- Once all blocks have come, the end puts them into the memory of every chip. -/
theorem Keeps.perform_end {state : State}
    (keeps : Keeps before id base data count (fun _ => True) state)
    (fits : data.length ≤ 2 ^ 32)
    (whole : ∀ index, index < count ↔ index * maxData < data.length) (sequence : UInt16)
    (tag : UInt8)
    : ∃ after,
        state.perform (((floodFillEnd id 0 0 false).numbered sequence).onWire tag)
          = ((.ok, []), after)
        ∧ before.Since (flooded before.settings.machine base data) after
        ∧ after.floods.get? id = none := by
  obtain ⟨since, flood, known, collects⟩ := keeps
  obtain ⟨complete, delivered⟩ := collects.complete fun _ _ => trivial
  refine ⟨_, perform_end_known known complete sequence tag, ?_⟩
  have short : ∀ block ∈ flood.delivered, block.2.length ≤ 2 ^ 32 := by
    rw [delivered]
    intro block member
    obtain ⟨index, _, rfl⟩ := List.mem_map.mp member
    simp only [pieceOf, Wire.field, List.length_take, List.length_drop]
    omega
  rw [delivered] at short ⊢
  rw [collects.targets]
  let erased := { state with floods := state.floods.erase id }
  have filled := State.SameBoard.foldl
    (fun state chip => state.fill_sameBoard ((List.range count).map (pieceOf base data)) chip)
    before.settings.machine.chips erased
  refine ⟨⟨filled.settings.trans since.settings, fun chip address => ?_⟩, ?_⟩
  · have untouched : erased.byteAt chip address = before.byteAt chip address :=
      since.bytes chip address
    have all : ∀ index, index ∈ List.range count ↔ index * maxData < data.length :=
      fun index => List.mem_range.trans (whole index)
    rw [State.byteAt_foldl_fill short, untouched, writtenBy?_all_pieces base fits all, flooded]
    split <;> rfl
  · have kept := State.foldl_kept State.floods fun state chip =>
      (rfl : (state.fill ((List.range count).map (pieceOf base data)) chip).floods = _)
    rw [kept]
    simp

theorem ending_proper (patient : config.timeout.nanoseconds ≠ 0)
    (enough : payloadOffset ≤ room) (fits : data.length ≤ 2 ^ 32)
    (whole : ∀ index, index < count ↔ index * maxData < data.length)
    : (ending config room id base data count before).Proper where
  patient := patient
  unnumbered _ _ := rfl
  valid _ _ := rfl
  accepts _ _ := rfl
  refuses _ _ := rfl
  content _ _ _ _ := rfl
  fits _ _ := Reply.fits_empty enough .ok
  adjusted := by
    intro served state dropNext retryNext tally holds
    simp only [ending] at holds ⊢
    split
    · next ended =>
        rw [if_pos ended] at holds
        exact ⟨holds.1.adjusted dropNext retryNext tally, holds.2⟩
    · next going_on =>
        rw [if_neg going_on] at holds
        exact holds.adjusted dropNext retryNext tally
  carriedOut := by
    intro served state index sequence within holds
    obtain rfl : index = 0 := Nat.lt_one_iff.mp within
    simp only [ending] at holds ⊢
    simp only [List.mem_append, List.mem_singleton, or_true, if_true]
    by_cases ended : 0 ∈ served
    · rw [if_pos ended] at holds
      exact ⟨state, perform_end_unknown holds.2 sequence config.tag, holds⟩
    · rw [if_neg ended] at holds
      exact holds.perform_end fits whole sequence config.tag

end Stages

-----------------------------------------------------------------------------------------
-- The whole flood
-----------------------------------------------------------------------------------------

/-- A hub at rest whose board keeps a flood, and refuses fewer requests than each may be sent. -/
structure Stage (config : Config) (room : Nat) (before : State) (id : UInt8) (base : UInt32)
    (data : List UInt8) (come : Nat → Prop) [DecidablePred come] (hub : Hub Peer)
    (line : Line Peer) : Prop where
  rests : Rests hub line
  room : line.connection.peer.room = room
  spare : line.connection.peer.board.refusals < config.budget
  keeps
    : Keeps before id base (padToWord data) (pieces data) come line.connection.peer.board

section Whole

variable {hub : Hub Peer} {line : Line Peer} {config : Config} {room : Nat} {before : State}
  {id : UInt8} {base : UInt32} {data : List UInt8}

/-- After the start the board keeps the flood, and no block has come. -/
theorem Rests.start (rests : Rests hub line) (patient : config.timeout.nanoseconds ≠ 0)
    (spare : line.connection.peer.board.refusals < config.budget)
    (enough : payloadOffset ≤ line.connection.peer.room)
    (few : pieces data < 256) (id : UInt8) (base : UInt32)
    : ∃ after later,
        MeshControl.Flood.start hub config id (UInt8.ofNat (pieces data)) = (.ok (), after)
        ∧ Stage config line.connection.peer.room line.connection.peer.board id base data
            (fun _ => False) after later := by
  let errand := announcing config line.connection.peer.room id base (padToWord data)
    (pieces data) line.connection.peer.board
  have awaits : errand.Awaits hub line :=
    ⟨rests, rfl, ⟨.refl _, fun none => absurd none List.not_mem_nil⟩, spare⟩
  obtain ⟨after, later, _, done, rests_later, _, fulfilled⟩ :=
    awaits.batch (announcing_proper patient enough few)
      (.inr (by change 1 ≤ sequenceCount; decide)) fun _ _ => rfl
  obtain ⟨served, all, _, keeps⟩ := fulfilled.holds
  exact ⟨after, later, done, rests_later, fulfilled.room, fulfilled.spare,
    keeps ((all 0).mpr Nat.one_pos)⟩

/-- After the deliveries all blocks have come. -/
theorem Stage.deliver (stage : Stage config room before id base data (fun _ => False) hub line)
    (patient : config.timeout.nanoseconds ≠ 0) (enough : payloadOffset ≤ room)
    (few : pieces data < 256)
    : ∃ after later,
        hub.batch config (pieces data)
            (fun index => MeshControl.Flood.deliver id (blockAt base data index))
          = (.ok (), after)
        ∧ Stage config room before id base data (fun _ => True) after later := by
  obtain ⟨rests, same_room, spare, since, flood, known, collects⟩ := stage
  let errand := delivering config room id base data before
  have awaits : errand.Awaits hub line :=
    ⟨rests, same_room, ⟨since, flood, known, collects.congr fun _ _ => by simp⟩, spare⟩
  obtain ⟨after, later, _, done, rests_later, _, fulfilled⟩ :=
    awaits.batch (delivering_proper patient enough few)
      (.inr (Nat.le_trans (Nat.le_of_lt few) (by decide)))
      fun index within => deliver_blockAt id base ((lt_pieces_iff _ _).mp within)
  obtain ⟨served, all, since, flood, known, collects⟩ := fulfilled.holds
  have whole : Collects before.settings.machine.chips base (padToWord data) (pieces data)
      (fun _ => True) flood :=
    collects.congr fun index within => ⟨fun _ => trivial, fun _ => (all index).mpr within⟩
  exact ⟨after, later, done, rests_later, fulfilled.room, fulfilled.spare, since, flood, known,
    whole⟩

/-- After the end the blocks are in the memory of every chip. -/
theorem Stage.finish (stage : Stage config room before id base data (fun _ => True) hub line)
    (patient : config.timeout.nanoseconds ≠ 0) (enough : payloadOffset ≤ room)
    (inside : base.toNat + roundedUp data.length ≤ 2 ^ 32)
    : ∃ after later,
        MeshControl.Flood.finish hub config id = (.ok (), after)
        ∧ Rests after later
        ∧ later.connection.peer.room = room
        ∧ before.Since (flooded before.settings.machine base (padToWord data))
            later.connection.peer.board := by
  obtain ⟨rests, same_room, spare, keeps⟩ := stage
  have length : (padToWord data).length = roundedUp data.length := length_padToWord data
  have fits : (padToWord data).length ≤ 2 ^ 32 := by omega
  have whole (index : Nat)
      : index < pieces data ↔ index * maxData < (padToWord data).length := by
    rw [length, lt_pieces_iff]
    simp only [roundedUp, maxData]
    omega
  let errand := ending config room id base (padToWord data) (pieces data) before
  have awaits : errand.Awaits hub line := ⟨rests, same_room, keeps, spare⟩
  obtain ⟨after, later, _, done, rests_later, _, fulfilled⟩ :=
    awaits.batch (ending_proper patient enough fits whole)
      (.inr (by change 1 ≤ sequenceCount; decide)) fun _ _ => rfl
  obtain ⟨served, ended, holds⟩ := fulfilled.holds
  have all : 0 ∈ served := (ended 0).mpr Nat.one_pos
  simp only [ending, if_pos all] at holds
  exact ⟨after, later, done, rests_later, fulfilled.room, holds.1⟩

/-- A flood over a hub at rest goes well, and puts its bytes on every chip. -/
theorem Rests.flood (rests : Rests hub line) (patient : config.timeout.nanoseconds ≠ 0)
    (spare : line.connection.peer.board.refusals < config.budget)
    (enough : payloadOffset ≤ line.connection.peer.room) (some_data : 0 < data.length)
    (few : data.length ≤ maxBlocks * maxData)
    (inside : base.toNat + roundedUp data.length ≤ 2 ^ 32) (ids : Ids)
    : ∃ after later,
        MeshControl.Flood.write hub ids config base data = (.ok (), after, ids.draw.2)
        ∧ Rests after later
        ∧ later.connection.peer.room = line.connection.peer.room
        ∧ line.connection.peer.board.Since
            (flooded line.connection.peer.board.settings.machine base (padToWord data))
            later.connection.peer.board := by
  have few_blocks : pieces data < 256 := by
    simp only [pieces, maxBlocks, maxData] at few ⊢
    omega
  obtain ⟨blocks, checked⟩ := checkSize_of_inside some_data few inside
  obtain ⟨announced, _, started, stage⟩ :=
    rests.start patient spare enough few_blocks ids.draw.1 base
  obtain ⟨delivered, _, went, stage⟩ := stage.deliver patient enough few_blocks
  obtain ⟨after, later, finished, rests_later, room, since⟩ :=
    stage.finish patient enough inside
  refine ⟨after, later, ?_, rests_later, room, since⟩
  simp only [MeshControl.Flood.write, checked]
  rw [started]
  dsimp only
  rw [went]
  dsimp only
  rw [finished]

end Whole

end Board

-----------------------------------------------------------------------------------------
-- Floods of a session
-----------------------------------------------------------------------------------------

namespace Session

open Board

variable {session : Session Peer} {base : UInt32} {data : List UInt8}

/-- A flood goes well, and puts the data and what fills up their last word on every chip. -/
theorem Attached.flood (attached : session.Attached)
    (patient : session.config.timeout.nanoseconds ≠ 0)
    (spare : session.board.refusals < session.config.budget)
    (enough : payloadOffset ≤ session.peer.room) (some_data : 0 < data.length)
    (few : data.length ≤ Flood.maxBlocks * maxData)
    (inside : base.toNat + Flood.roundedUp data.length ≤ 2 ^ 32)
    : ∃ after,
        session.floodWrite base data = (.ok (), after)
        ∧ session.Served (flooded session.board.settings.machine base (Flood.padToWord data))
            after := by
  obtain ⟨open_still, line, rests⟩ := attached
  have reached := peer_of_rests rests
  rw [board, reached] at spare ⊢
  rw [reached] at enough
  obtain ⟨after, later, wrote, rests_later, room, since⟩ :=
    rests.flood patient spare enough some_data few inside session.ids
  have served := Served.of_hub open_still rests rests_later room since
  have closed_not : ¬ session.closed = true := by simp [open_still]
  let locks := (session.locks.askFlood ()).settle.2
  have flooded_hub : ({ session with locks } : Session Peer).flood base data
      = (.ok (), { session with hub := after, ids := session.ids.draw.2, locks }) := by
    simp only [Session.flood, wrote]
  have went : session.floodWrite base data
      = (.ok (),
          { session with
            hub := after
            ids := session.ids.draw.2
            locks := (locks.release ()).1.settle.2 }) := by
    rw [floodWrite, if_neg closed_not, guarded]
    dsimp only
    rw [flooded_hub]
  exact ⟨_, went, ⟨open_still, later, rests_later⟩, rfl, served.room, served.since⟩

/-- A flood that leaves the board fewer refusals than a request may be sent goes well, whatever the
board was told before. Afterwards every chip of the machine holds the data from the base on and
zeros up to the next whole word, and every other byte of every chip is as it was. Witness: the
three stages, each a batch over the board that the one before it leaves.
-/
theorem floodWrite_reaches_every_chip (attached : session.Attached)
    (patient : session.config.timeout.nanoseconds ≠ 0) {drops retries : Nat}
    (spare : drops + retries < session.config.budget)
    (enough : payloadOffset ≤ session.peer.room) (some_data : 0 < data.length)
    (few : data.length ≤ 65280)
    (inside : base.toNat + Flood.roundedUp data.length ≤ 2 ^ 32)
    : ∃ after,
        (session.refusing drops retries).floodWrite base data = (.ok (), after)
        ∧ after.Attached
        ∧ (∀ chip ∈ session.board.settings.machine.chips,
            (∀ index (within : index < data.length),
              after.board.byteAt chip (base + UInt32.ofNat index) = data[index])
            ∧ ∀ index, data.length ≤ index → index < Flood.roundedUp data.length
                → after.board.byteAt chip (base + UInt32.ofNat index) = 0)
        ∧ ∀ chip (address : UInt32),
            chip ∉ session.board.settings.machine.chips
              ∨ address.toNat < base.toNat
              ∨ base.toNat + Flood.roundedUp data.length ≤ address.toNat
            → after.board.byteAt chip address = session.board.byteAt chip address := by
  obtain ⟨told, refusals⟩ := attached.refusing drops retries
  have bytes_before : (session.refusing drops retries).board.byteAt = session.board.byteAt :=
    funext fun chip => funext fun address => told.since.bytes chip address
  obtain ⟨after, done, served⟩ :=
    told.attached.flood (by rwa [told.config]) (by rwa [refusals, told.config])
      (by rwa [told.room]) some_data few inside
  rw [told.since.settings] at served
  have bytes := served.since.bytes
  rw [bytes_before] at bytes
  have padded_length : (Flood.padToWord data).length = Flood.roundedUp data.length :=
    Flood.length_padToWord data
  -- No address of the range goes around the end of the address space.
  have offset {index : Nat} (within : index < Flood.roundedUp data.length)
      : (base + UInt32.ofNat index - base).toNat = index := by
    rw [UInt32.add_comm, UInt32.add_sub_cancel, UInt32.toNat_ofNat',
      Nat.mod_eq_of_lt (by omega)]
  have written {chip : Chip} (member : chip ∈ session.board.settings.machine.chips) {index : Nat}
      (within : index < Flood.roundedUp data.length)
      : some (after.board.byteAt chip (base + UInt32.ofNat index))
        = (Flood.padToWord data)[index]? := by
    rw [bytes, flooded, if_pos member, written?, offset within,
      List.getElem?_eq_getElem (by omega), Option.getD_some]
  have short : data.length ≤ Flood.roundedUp data.length := by
    simp only [Flood.roundedUp]
    omega
  refine ⟨after, done, served.attached, fun chip member => ⟨?_, ?_⟩, ?_⟩
  · intro index within
    have there := written member (Nat.lt_of_lt_of_le within short)
    rw [Flood.padToWord, List.getElem?_append_left within, List.getElem?_eq_getElem within]
      at there
    exact Option.some.inj there
  · intro index behind within
    have there := written member within
    rw [Flood.padToWord, List.getElem?_append_right behind, List.getElem?_replicate_of_lt]
      at there
    · exact Option.some.inj there
    · simp only [Flood.roundedUp] at within
      omega
  · intro chip address outside
    rw [bytes, flooded]
    split
    · next member =>
        have missed : written? base (Flood.padToWord data) address = none := by
          have address_bound := address.toNat_lt
          have base_bound := base.toNat_lt
          rcases outside with absent | outside
          · exact absurd member absent
          · refine List.getElem?_eq_none ?_
            rw [padded_length, UInt32.toNat_sub]
            omega
        rw [missed]
        rfl
    · rfl

/-- Five bytes that are flooded over two pages reach the far chip of a small machine, with zeros up
to the next whole word, although the board drops one request and puts off another.
-/
theorem floodWrite_reaches_every_chip_despite_refusals
    : ∃ session after,
        Session.open? [Board.connection { board := { settings := { machine := ⟨2, 2⟩ } } }] [] 0
            none {}
          = .ok session
        ∧ (session.refusing 1 1).floodWrite 4092 [1, 2, 3, 4, 5] = (.ok (), after)
        ∧ after.board.byteAt ⟨1, 1⟩ 4096 = 5
        ∧ after.board.byteAt ⟨1, 1⟩ 4099 = 0
        ∧ after.board.byteAt ⟨2, 0⟩ 4096 = session.board.byteAt ⟨2, 0⟩ 4096 := by
  let peer : Peer := { board := { settings := { machine := ⟨2, 2⟩ } } }
  have ready : peer.Ready := ⟨rfl, rfl, rfl⟩
  obtain ⟨session, opened, attached, reached, config⟩ := attached_of_open ready 0 none {}
  have machine : session.board.settings.machine = ⟨2, 2⟩ := by
    rw [board, reached]
  have patient : session.config.timeout.nanoseconds ≠ 0 := by rw [config]; decide
  have spare : 1 + 1 < session.config.budget := by rw [config]; decide
  have enough : payloadOffset ≤ session.peer.room := by rw [reached]; decide
  have some_data : 0 < ([1, 2, 3, 4, 5] : List UInt8).length := by decide
  have inside
      : (4092 : UInt32).toNat + Flood.roundedUp ([1, 2, 3, 4, 5] : List UInt8).length ≤ 2 ^ 32 := by
    decide
  obtain ⟨after, done, _, written, untouched⟩ :=
    floodWrite_reaches_every_chip attached patient spare enough some_data (by decide) inside
  rw [machine] at written untouched
  obtain ⟨data, padding⟩ := written ⟨1, 1⟩ (by decide)
  exact ⟨session, after, opened, done, data 4 (by decide), padding 7 (by decide) (by decide),
    untouched ⟨2, 0⟩ 4096 (.inl (by decide))⟩

end Session

end MeshControl
