import MeshControl.Proofs.Board.Exchange
import MeshControl.Proofs.Board.Memory
import MeshControl.Proofs.Flood.Blocks
import MeshControl.Session

/-! Memory of a chip over a session: what the requests for the pieces of a range do to the board,
put together. Writing puts the data where they belong; reading gives the bytes of the range.
-/

namespace MeshControl

open Scp Link Operation

-----------------------------------------------------------------------------------------
-- Requests for pieces
-----------------------------------------------------------------------------------------

namespace Operation

theorem checkLength_of_fits (parameter : String) {size : Nat} (some_data : 0 < size)
    (fits : size ≤ maxData)
    : checkLength parameter size = .ok () := by
  rw [checkLength, if_neg (by omega)]

/-- The request that writes some data at an address, whether or not they fit. -/
def writeRequest (chip : Chip) (address : UInt32) (data : List UInt8) : Request where
  header := .toCore chip 0 .replyExpected
  command := .write
  arg1 := address
  arg2 := UInt32.ofNat data.length
  arg3 := (AccessUnit.forAccess address data.length).code
  data
  operation := "write memory"

theorem writeMemory_of_fits (chip : Chip) {address : UInt32} {data : List UInt8}
    (some_data : 0 < data.length) (fits : data.length ≤ maxData)
    (inside : address.toNat + data.length ≤ 2 ^ 32)
    : writeMemory chip 0 address data = .ok (writeRequest chip address data) := by
  rw [writeMemory, checkLength_of_fits "data" some_data fits, checkAddressRange_of_inside inside]
  rfl

theorem validate_writeRequest (chip : Chip) (address : UInt32) {data : List UInt8}
    (fits : data.length ≤ maxData)
    : (writeRequest chip address data).validate = .ok () := by
  have short : ¬ (writeRequest chip address data).data.length > maxData := Nat.not_lt.mpr fits
  rw [Request.validate, if_neg short]
  rfl

/-- The request that reads so many bytes at an address, whether or not it may. -/
def readRequest (chip : Chip) (address : UInt32) (size : Nat) : Request where
  header := .toCore chip 0 .replyExpected
  command := .read
  arg1 := address
  arg2 := UInt32.ofNat size
  arg3 := (AccessUnit.forAccess address size).code
  operation := "read memory"

theorem readMemory_of_fits (chip : Chip) {address : UInt32} {size : Nat} (some_data : 0 < size)
    (fits : size ≤ maxData) (inside : address.toNat + size ≤ 2 ^ 32)
    : readMemory chip 0 address size = .ok (readRequest chip address size) := by
  rw [readMemory, checkLength_of_fits "size" some_data fits, checkAddressRange_of_inside inside]
  rfl

end Operation

namespace Board

-----------------------------------------------------------------------------------------
-- What has become of a board
-----------------------------------------------------------------------------------------

/-- A board that is as it was but for some bytes that were written since. -/
structure State.Since (before : State) (written : Chip → UInt32 → Option UInt8) (state : State)
    : Prop where
  settings : state.settings = before.settings
  bytes
    : ∀ chip address,
        state.byteAt chip address = (written chip address).getD (before.byteAt chip address)

/-- Nothing was written yet. -/
theorem State.Since.refl (before : State) : before.Since (fun _ _ => none) before :=
  ⟨rfl, fun _ _ => rfl⟩

theorem State.Since.adjusted {before state : State} {written : Chip → UInt32 → Option UInt8}
    (since : before.Since written state) (dropNext retryNext : Nat) (tally : Tally)
    : before.Since written (state.adjusted dropNext retryNext tally) :=
  ⟨since.settings, since.bytes⟩

/-- Bytes that are written next come over those that were written before. -/
theorem State.Since.write {before state : State} {written : Chip → UInt32 → Option UInt8}
    (since : before.Since written state) (chip : Chip) (base : UInt32) {data : List UInt8}
    (fits : data.length ≤ 2 ^ 32)
    : before.Since
        (fun other address =>
          if other = chip then (written? base data address).or (written other address)
          else written other address)
        (state.writeMemory chip base data) := by
  refine ⟨since.settings, fun other address => ?_⟩
  rw [byteAt_writeMemory state chip base fits, since.bytes]
  split
  · cases written? base data address <;> rfl
  · rfl

-----------------------------------------------------------------------------------------
-- Writing
-----------------------------------------------------------------------------------------

/-- Data are written into the memory of a chip, piece by piece. -/
def writing (config : Config) (room : Nat) (chip : Chip) (base : UInt32) (data : List UInt8)
    (before : State) : Errand where
  config
  room
  count := Flood.pieces data
  request := fun index =>
    writeRequest chip (pieceOf base data index).1 (pieceOf base data index).2
  handler := fun _ => {}
  payload := fun _ => []
  Holds := fun served =>
    before.Since fun other address =>
      if other = chip then writtenBy? (served.map (pieceOf base data)) address else none

section Pieces

variable {base : UInt32} {data : List UInt8} {index : Nat}

/-- A piece that begins within the data has some bytes, no more than a request takes, and ends
where the data do at the latest.
-/
theorem length_pieceOf (within : index * maxData < data.length)
    : 0 < (pieceOf base data index).2.length
      ∧ (pieceOf base data index).2.length ≤ maxData
      ∧ index * maxData + (pieceOf base data index).2.length ≤ data.length := by
  simp only [pieceOf, Wire.field, List.length_take, List.length_drop, maxData] at *
  omega

/-- A piece of a range within the address space is itself within it. -/
theorem pieceOf_inside {length size : Nat} (inside : base.toNat + length ≤ 2 ^ 32)
    (some_size : 0 < size) (within : index * maxData + size ≤ length)
    : (base + UInt32.ofNat (index * maxData)).toNat + size ≤ 2 ^ 32 := by
  rw [UInt32.toNat_add, UInt32.toNat_ofNat']
  omega

end Pieces

/-- A write within the address space orders the requests of its errand. -/
theorem writeOrder_eq (chip : Chip) {config : Config} {room : Nat} {base : UInt32}
    {data : List UInt8} {index : Nat} {before : State}
    (inside : base.toNat + data.length ≤ 2 ^ 32) (within : index < Flood.pieces data)
    : Session.writeOrder chip base data index
      = (writing config room chip base data before).order index := by
  obtain ⟨some_data, fits, ends⟩ := @length_pieceOf base data index
    ((Flood.lt_pieces_iff data index).mp within)
  have made := writeMemory_of_fits chip some_data fits
    (pieceOf_inside inside some_data ends)
  rw [Session.writeOrder]
  exact congrArg (fun request => ({ request } : Order)) made

/-- A board carries a write out. -/
theorem perform_write {state : State} {chip : Chip}
    (known : state.settings.machine.contains chip = true) (address : UInt32)
    {data : List UInt8} (fits : data.length ≤ maxData) (sequence : UInt16) (tag : UInt8)
    : state.perform (((writeRequest chip address data).numbered sequence).onWire tag)
      = ((.ok, []), state.writeMemory chip address data) := by
  have size : (UInt32.ofNat data.length).toNat = data.length := by
    rw [UInt32.toNat_ofNat']
    simp only [maxData] at fits
    omega
  have whole : data.take (UInt32.ofNat data.length).toNat = data := by rw [size, List.take_length]
  change (if State.concernsChip .write && !state.settings.machine.contains chip then
      ((ResultCode.noRoute, []), state)
    else
      ((.ok, []), state.writeMemory chip address (data.take (UInt32.ofNat data.length).toNat))) = _
  rw [known, whole]
  rfl

theorem writing_proper {config : Config} {room : Nat} {chip : Chip} {base : UInt32}
    {data : List UInt8} {before : State} (patient : config.timeout.nanoseconds ≠ 0)
    (enough : payloadOffset ≤ room)
    (known : before.settings.machine.contains chip = true)
    : (writing config room chip base data before).Proper where
  patient := patient
  unnumbered _ _ := rfl
  valid index within :=
    validate_writeRequest chip _ (length_pieceOf ((Flood.lt_pieces_iff data index).mp within)).2.1
  accepts _ _ := rfl
  refuses _ _ := rfl
  content _ _ _ _ := rfl
  fits _ _ := Reply.fits_empty enough .ok
  adjusted dropNext retryNext tally holds := holds.adjusted dropNext retryNext tally
  carriedOut := by
    intro served state index sequence within holds
    have begins := (Flood.lt_pieces_iff data index).mp within
    obtain ⟨_, fits, _⟩ := @length_pieceOf base data index begins
    have known_still : state.settings.machine.contains chip = true := by
      rw [holds.settings, known]
    refine ⟨_, perform_write known_still _ fits sequence _, ?_⟩
    have written := holds.write chip (pieceOf base data index).1
      (Nat.le_trans fits (by decide))
    refine ⟨written.settings, fun other address => ?_⟩
    rw [written.bytes, List.map_append, List.map_singleton, writtenBy?_append]
    by_cases same : other = chip <;> simp [same]

-----------------------------------------------------------------------------------------
-- Reading
-----------------------------------------------------------------------------------------

/-- The bytes of one piece of a range. -/
def bytesOf (byte : UInt32 → UInt8) (base : UInt32) (length index : Nat) : List UInt8 :=
  (List.range (Session.piece length index).2).map fun offset =>
    byte (base + UInt32.ofNat (index * maxData) + UInt32.ofNat offset)

/-- The bytes of a range of a chip's memory are read, piece by piece. -/
def reading (config : Config) (room : Nat) (chip : Chip) (base : UInt32) (length : Nat)
    (before : State) : Errand where
  config
  room
  count := (length + (maxData - 1)) / maxData
  request := fun index =>
    readRequest chip (base + UInt32.ofNat (index * maxData)) (Session.piece length index).2
  handler := fun index =>
    { audience := .slot index, check := Session.checkPiece (Session.piece length index).2 }
  payload := bytesOf (before.byteAt chip) base length
  Holds := fun _ => before.Since fun _ _ => none

section Pieces

variable {base : UInt32} {length index : Nat}

theorem lt_count_iff : index < (length + (maxData - 1)) / maxData ↔ index * maxData < length := by
  simp only [maxData]
  omega

/-- A piece that begins within the range has some bytes, no more than an answer takes, and ends
where the range does at the latest.
-/
theorem piece_bounds (within : index * maxData < length)
    : 0 < (Session.piece length index).2
      ∧ (Session.piece length index).2 ≤ maxData
      ∧ index * maxData + (Session.piece length index).2 ≤ length := by
  simp only [Session.piece, maxData] at *
  omega

@[simp] theorem length_bytesOf (byte : UInt32 → UInt8) (base : UInt32) (length index : Nat)
    : (bytesOf byte base length index).length = (Session.piece length index).2 := by
  simp [bytesOf]

end Pieces

/-- A read within the address space orders the requests of its errand. -/
theorem readOrder_eq (chip : Chip) {config : Config} {room : Nat} {base : UInt32}
    {length index : Nat} {before : State} (inside : base.toNat + length ≤ 2 ^ 32)
    (within : index < (length + (maxData - 1)) / maxData)
    : Session.readOrder chip base length index
      = (reading config room chip base length before).order index := by
  obtain ⟨some_data, fits, ends⟩ := piece_bounds (lt_count_iff.mp within)
  have made := readMemory_of_fits chip some_data fits (pieceOf_inside inside some_data ends)
  simp only [Session.readOrder, Session.piece] at made ⊢
  rw [made]
  rfl

/-- A board carries a read out. -/
theorem perform_read {state : State} {chip : Chip}
    (known : state.settings.machine.contains chip = true) (address : UInt32) {size : Nat}
    (fits : size ≤ maxData) (sequence : UInt16) (tag : UInt8)
    : state.perform (((readRequest chip address size).numbered sequence).onWire tag)
      = ((.ok,
          (List.range size).map fun offset => state.byteAt chip (address + UInt32.ofNat offset)),
        state) := by
  have asked : (UInt32.ofNat size).toNat = size := by
    rw [UInt32.toNat_ofNat']
    simp only [maxData] at fits
    omega
  change (if State.concernsChip .read && !state.settings.machine.contains chip then
      ((ResultCode.noRoute, []), state)
    else ((.ok, state.readMemory chip address (UInt32.ofNat size).toNat), state)) = _
  rw [known, asked, State.readMemory_eq]
  rfl

theorem reading_proper {config : Config} {room : Nat} {chip : Chip} {base : UInt32}
    {length : Nat} {before : State} (patient : config.timeout.nanoseconds ≠ 0)
    (enough : payloadOffset + min length maxData ≤ room)
    (known : before.settings.machine.contains chip = true)
    : (reading config room chip base length before).Proper where
  patient := patient
  unnumbered _ _ := rfl
  valid _ _ := rfl
  accepts _ _ := rfl
  refuses _ _ := rfl
  content index within response payload := by
    have whole : ¬ response.payload.length < (Session.piece length index).2 := by
      rw [payload]
      exact Nat.not_lt.mpr (Nat.le_of_eq (length_bytesOf _ _ _ _).symm)
    exact if_neg whole
  fits index within := by
    have size : (bytesOf (before.byteAt chip) base length index).length ≤ min length maxData := by
      rw [length_bytesOf, Session.piece]
      omega
    constructor
    · refine Nat.le_trans (Nat.add_le_add_left size payloadOffset) ?_
      simp only [payloadOffset, codeOffset, padding, Sdp.Header.size, maxData, maxDatagram]
      omega
    · exact Nat.le_trans (Nat.add_le_add_left size payloadOffset) enough
  adjusted dropNext retryNext tally holds := holds.adjusted dropNext retryNext tally
  carriedOut := by
    intro served state index sequence within holds
    obtain ⟨_, fits, _⟩ := piece_bounds (lt_count_iff.mp within)
    have known_still : state.settings.machine.contains chip = true := by
      rw [holds.settings, known]
    have same : state.byteAt chip = before.byteAt chip := funext (holds.bytes chip)
    have performed := perform_read known_still (base + UInt32.ofNat (index * maxData)) fits
      sequence config.tag
    rw [same] at performed
    exact ⟨state, performed, holds⟩

-----------------------------------------------------------------------------------------
-- Putting the pieces together
-----------------------------------------------------------------------------------------

/-- The bytes of the first pieces of a range are the first bytes of the range; by induction on the
pieces.
-/
theorem flatten_bytesOf (byte : UInt32 → UInt8) (base : UInt32) (length count : Nat)
    : ((List.range count).map (bytesOf byte base length)).flatten
      = (List.range (min length (count * maxData))).map fun index =>
          byte (base + UInt32.ofNat index) := by
  induction count with
  | zero => simp
  | succ count ih =>
      have split : min length ((count + 1) * maxData)
          = min length (count * maxData) + (Session.piece length count).2 := by
        simp only [Session.piece, maxData]
        omega
      rw [List.range_succ, List.map_append, List.flatten_append, ih, split, List.range_add,
        List.map_append, List.map_singleton, List.flatten_singleton, List.map_map]
      congr 1
      apply List.map_congr_left
      intro offset member
      have full : min length (count * maxData) = count * maxData := by
        simp only [List.mem_range, Session.piece] at member
        omega
      simp only [Function.comp_apply, full, UInt32.ofNat_add, UInt32.add_assoc]

/-- One event puts the bytes of its answer in their place. -/
def place (length : Nat) (pieces : Array (List UInt8)) (event : Event) : Array (List UInt8) :=
  match event with
  | .accepted _ response (.slot index) =>
      pieces.setIfInBounds index (response.payload.take (Session.piece length index).2)
  | _ => pieces

theorem assemble_eq_foldl (length count : Nat) (events : Array Event)
    : Session.assemble length count events
      = (events.toList.foldl (place length)
          ((Array.range count).map fun index =>
            List.replicate (Session.piece length index).2 0)).toList.flatten := by
  rw [Array.foldl_toList]
  rfl

/-- What an event tells of a piece of a range is what this piece should be. -/
def Gives (length : Nat) (right : Nat → List UInt8) (event : Event) : Prop :=
  ∀ request response index,
    event = .accepted request response (.slot index)
    → response.payload.take (Session.piece length index).2 = right index

/-- What is heard of the pieces of a range is true of them. -/
def Truthful (byte : UInt32 → UInt8) (base : UInt32) (length : Nat) (event : Event) : Prop :=
  ∀ request response index,
    event = .accepted request response (.slot index)
    → response.payload = bytesOf byte base length index

section Assembly

variable {byte : UInt32 → UInt8} {base : UInt32} {length : Nat} {right : Nat → List UInt8}

@[simp] theorem size_place (length : Nat) (pieces : Array (List UInt8)) (event : Event)
    : (place length pieces event).size = pieces.size := by
  unfold place
  split <;> simp

theorem size_foldl_place (length : Nat) (events : List Event) (pieces : Array (List UInt8))
    : (events.foldl (place length) pieces).size = pieces.size := by
  induction events generalizing pieces with
  | nil => rfl
  | cons event rest ih => rw [List.foldl_cons, ih, size_place]

/-- A true answer is worth its whole piece. -/
theorem Truthful.gives {event : Event} (truthful : Truthful byte base length event)
    : Gives length (bytesOf byte base length) event := by
  intro request response index same
  rw [truthful request response index same,
    List.take_of_length_le (Nat.le_of_eq (length_bytesOf _ _ _ _))]

/-- A right answer makes its own piece right, and no other one wrong. -/
theorem getElem?_place {event : Event} (gives : Gives length right event)
    {pieces : Array (List UInt8)} {index : Nat} (within : index < pieces.size)
    (known
      : pieces[index]? = some (right index)
        ∨ ∃ request response, event = .accepted request response (.slot index))
    : (place length pieces event)[index]? = some (right index) := by
  unfold place
  split
  · next _ response other =>
      rw [gives _ response other rfl, Array.getElem?_setIfInBounds]
      split
      · next same =>
          subst same
          simp [within]
      · next apart =>
          rcases known with known | ⟨_, _, mine⟩
          · exact known
          · cases mine
            exact absurd rfl apart
  · next not_heard =>
      rcases known with known | ⟨request, response, mine⟩
      · exact known
      · exact absurd mine (not_heard request response index)

/-- After all answers every piece is right that one of them was about; by induction on the events.
-/
theorem getElem?_foldl_place {events : List Event}
    (gives : ∀ event ∈ events, Gives length right event)
    {pieces : Array (List UInt8)} {index : Nat} (within : index < pieces.size)
    (known
      : pieces[index]? = some (right index)
        ∨ ∃ request response, Event.accepted request response (.slot index) ∈ events)
    : (events.foldl (place length) pieces)[index]? = some (right index) := by
  induction events generalizing pieces with
  | nil => simpa using known
  | cons event rest ih =>
      have first := gives event List.mem_cons_self
      have later := fun event member => gives event (List.mem_cons_of_mem _ member)
      have placed := size_place length pieces event
      rw [List.foldl_cons]
      rcases known with known | ⟨request, response, member⟩
      · exact ih later (placed ▸ within) (.inl (getElem?_place first within (.inl known)))
      · rcases List.mem_cons.mp member with here | behind
        · exact ih later (placed ▸ within)
            (.inl (getElem?_place first within (.inr ⟨request, response, here.symm⟩)))
        · exact ih later (placed ▸ within) (.inr ⟨request, response, behind⟩)

/-- Right answers for all pieces of a range give the pieces, one after another. -/
theorem assemble_pieces {count : Nat} {events : Array Event}
    (gives : ∀ event ∈ events.toList, Gives length right event)
    (answered
      : ∀ index < count,
          ∃ request response, Event.accepted request response (.slot index) ∈ events.toList)
    : Session.assemble length count events = ((List.range count).map right).flatten := by
  have pieces : (events.toList.foldl (place length)
      ((Array.range count).map fun index =>
        List.replicate (Session.piece length index).2 0)).toList
      = (List.range count).map right := by
    apply List.ext_getElem?
    intro index
    rw [Array.getElem?_toList]
    by_cases within : index < count
    · rw [getElem?_foldl_place gives (by simpa using within) (.inr (answered index within))]
      simp [within]
    · have beyond : ¬ index < (events.toList.foldl (place length)
          ((Array.range count).map fun index =>
            List.replicate (Session.piece length index).2 0)).size := by
        rw [size_foldl_place]
        simpa using within
      rw [Array.getElem?_eq_none (Nat.not_lt.mp beyond)]
      simp [Nat.not_lt.mp within]
  rw [assemble_eq_foldl, pieces]

/-- True answers for all pieces of a range give the bytes of the range. -/
theorem assemble_eq {count : Nat} {events : Array Event}
    (truthful : ∀ event ∈ events.toList, Truthful byte base length event)
    (answered
      : ∀ index < count,
          ∃ request response, Event.accepted request response (.slot index) ∈ events.toList)
    (whole : length ≤ count * maxData)
    : Session.assemble length count events
      = (List.range length).map fun index => byte (base + UInt32.ofNat index) := by
  have all := flatten_bytesOf byte base length count
  rw [Nat.min_eq_left whole] at all
  rw [assemble_pieces (fun event member => (truthful event member).gives) answered, all]

/-- Once a read was carried out, its events give the bytes of the range. -/
theorem assemble_of_fulfilled {config : Config} {room : Nat} {chip : Chip} {before : State}
    {connection : Connection Peer} {events : Array Event}
    (fulfilled
      : (reading config room chip base length before).Fulfilled connection events.toList)
    : Session.assemble length ((length + (maxData - 1)) / maxData) events
      = (List.range length).map fun index =>
          before.byteAt chip (base + UInt32.ofNat index) := by
  have truthful : ∀ event ∈ events.toList,
      Truthful (before.byteAt chip) base length event := by
    intro event member request response index same
    subst same
    obtain ⟨other, _, audience, payload⟩ := fulfilled.heard member
    cases audience
    exact payload
  have answered : ∀ index < (length + (maxData - 1)) / maxData,
      ∃ request response, Event.accepted request response (.slot index) ∈ events.toList := by
    intro index within
    obtain ⟨request, response, member, _⟩ := fulfilled.answered within
    exact ⟨request, response, member⟩
  have whole : length ≤ (length + (maxData - 1)) / maxData * maxData := by
    simp only [maxData]
    omega
  exact assemble_eq truthful answered whole

end Assembly

end Board

end MeshControl
