import Mathlib.Algebra.Group.Nat.Defs
import Mathlib.Data.List.Induction
import MeshControl.Board.State

/-! Memory as a map from addresses to bytes: what one write leaves at every address, whether or
not the pages that it touches were there before.
-/

namespace MeshControl.Board

open Scp

-----------------------------------------------------------------------------------------
-- One chip
-----------------------------------------------------------------------------------------

/-- The byte that a write of some data from an address on puts at another one, if it reaches it.
Addresses go around at the end.
-/
def written? (base : UInt32) (data : List UInt8) (address : UInt32) : Option UInt8 :=
  data[(address - base).toNat]?

/-- The bytes of some data, each with the address where a write from another one on puts it. -/
def puts (base : UInt32) (data : List UInt8) : List (UInt32 × UInt8) :=
  data.zipIdx.map fun entry => (UInt32.ofNat (base.toNat + entry.2), entry.1)

/-- The byte that was put at an address last, if one was. -/
def lastPut? (puts : List (UInt32 × UInt8)) (address : UInt32) : Option UInt8 :=
  puts.reverse.lookup address

theorem puts_cons (base : UInt32) (byte : UInt8) (rest : List UInt8)
    : puts base (byte :: rest) = (base, byte) :: puts (base + 1) rest := by
  have first : UInt32.ofNat (base.toNat + 0) = base := UInt32.ofNat_toNat
  have next (index : Nat)
      : UInt32.ofNat (base.toNat + (index + 1)) = UInt32.ofNat ((base + 1).toNat + index) := by
    have one : (1 : UInt32).toNat = 1 := rfl
    apply UInt32.toNat_inj.mp
    rw [UInt32.toNat_ofNat', UInt32.toNat_ofNat', UInt32.toNat_add, one]
    omega
  rw [puts, List.zipIdx_cons', List.map_cons, List.map_map, first]
  congr 1
  refine List.map_congr_left fun entry _ => ?_
  exact congrArg (·, entry.1) (next entry.2)

theorem lastPut?_append (earlier later : List (UInt32 × UInt8)) (address : UInt32)
    : lastPut? (earlier ++ later) address
      = (lastPut? later address).or (lastPut? earlier address) := by
  rw [lastPut?, List.reverse_append, List.lookup_append]
  rfl

theorem lastPut?_cons (put : UInt32 × UInt8) (later : List (UInt32 × UInt8)) (address : UInt32)
    : lastPut? (put :: later) address
      = (lastPut? later address).or (if address = put.1 then some put.2 else none) := by
  have alone : lastPut? [put] address = if address = put.1 then some put.2 else none := by
    obtain ⟨place, byte⟩ := put
    by_cases here : address = place
    · simp [lastPut?, here]
    · simp [lastPut?, List.lookup_cons, here, beq_false_of_ne here]
  rw [← alone, ← lastPut?_append]
  rfl

namespace Memory

/-- An address is told by its page and its place there. -/
theorem eq_of_pageOf_of_placeOf {first second : UInt32} (page : pageOf first = pageOf second)
    (place : placeOf first = placeOf second)
    : first = second := by
  have pages := congrArg UInt32.toNat page
  have places := congrArg Fin.val place
  have first_bound := first.toNat_lt
  have second_bound := second.toNat_lt
  simp only [pageOf, placeOf, pageSize, UInt32.toNat_ofNat'] at pages places
  rw [Nat.mod_eq_of_lt (by omega), Nat.mod_eq_of_lt (by omega)] at pages
  apply UInt32.toNat_inj.mp
  omega

/-- Memory that was never written is zero. -/
@[simp] theorem get_empty (address : UInt32) : ({} : Memory).get address = 0 := by
  simp [get]

/-- A byte that is put at an address is there, and every other one is as it was. -/
@[simp] theorem get_set (memory : Memory) (address : UInt32) (byte : UInt8) (other : UInt32)
    : (memory.set address byte).get other
      = if other = address then byte else memory.get other := by
  unfold get set
  rw [Std.HashMap.getElem?_alter]
  by_cases page : pageOf address = pageOf other
  · simp only [page, beq_self_eq_true, if_true]
    by_cases place : placeOf address = placeOf other
    · have same := eq_of_pageOf_of_placeOf page place
      simp [same]
    · have apart : other ≠ address := fun same => place (same ▸ rfl)
      have places : (placeOf address).val ≠ (placeOf other).val :=
        fun same => place (Fin.val_inj.mp same)
      cases memory.pages[pageOf other]? with
      | none => simp [apart, places, blankPage]
      | some bytes => simp [apart, places]
  · have apart : other ≠ address := fun same => page (same ▸ rfl)
    simp [page, apart]

/-- After a write every address that it reaches holds the byte of the data, and every other one
what it held; by induction on the data. A write of the whole address space at most meets no
address twice.
-/
theorem get_write (memory : Memory) (base : UInt32) {data : List UInt8}
    (fits : data.length ≤ 2 ^ 32) (address : UInt32)
    : (memory.write base data).get address
      = (written? base data address).getD (memory.get address) := by
  induction data generalizing memory base with
  | nil => simp [write, written?]
  | cons byte rest ih =>
      rw [List.length_cons] at fits
      rw [write, ih (memory.set base byte) (base + 1) (by omega), get_set]
      unfold written?
      have address_bound := address.toNat_lt
      have base_bound := base.toNat_lt
      have next : (base + 1).toNat = (base.toNat + 1) % 2 ^ 32 := UInt32.toNat_add base 1
      by_cases here : address = base
      · have behind : rest[(address - (base + 1)).toNat]? = none := by
          refine List.getElem?_eq_none ?_
          rw [UInt32.toNat_sub, next, here]
          omega
        rw [behind, here]
        simp
      · have apart : address.toNat ≠ base.toNat := fun same => here (UInt32.toNat_inj.mp same)
        have offset : (address - base).toNat = (address - (base + 1)).toNat + 1 := by
          rw [UInt32.toNat_sub, UInt32.toNat_sub, next]
          omega
        rw [offset, List.getElem?_cons_succ, if_neg here]

/-- A write puts its bytes one after the other, and the last one at an address stays; by induction
on the data. Data of any length are written, also such as go around more than once.
-/
theorem get_write_lastPut (memory : Memory) (base : UInt32) (data : List UInt8)
    (address : UInt32)
    : (memory.write base data).get address
      = (lastPut? (puts base data) address).getD (memory.get address) := by
  induction data generalizing memory base with
  | nil => rfl
  | cons byte rest ih =>
      rw [write, ih, get_set, puts_cons, lastPut?_cons]
      by_cases here : address = base
      · subst here
        cases lastPut? (puts (address + 1) rest) address <;> simp
      · simp [here]

/-- What a write of some data puts at each address depends on nothing that was there, however
long the data are.
-/
theorem write_overlays (base : UInt32) (data : List UInt8)
    : ∃ overlay : UInt32 → Option UInt8,
        ∀ (memory : Memory) (address : UInt32),
          (memory.write base data).get address = (overlay address).getD (memory.get address) :=
  ⟨lastPut? (puts base data), fun memory => memory.get_write_lastPut base data⟩

/-- Writing the same data to the same place again changes no byte. -/
theorem get_write_again (memory : Memory) (base : UInt32) (data : List UInt8) (address : UInt32)
    : ((memory.write base data).write base data).get address
      = (memory.write base data).get address := by
  obtain ⟨overlay, overlaid⟩ := write_overlays base data
  rw [overlaid, overlaid]
  cases overlay address <;> rfl

end Memory

-----------------------------------------------------------------------------------------
-- Several writes
-----------------------------------------------------------------------------------------

/-- The byte that some writes, one after the other, leave at an address, if any reaches it: the
last one that does decides.
-/
def writtenBy? (writes : List (UInt32 × List UInt8)) (address : UInt32) : Option UInt8 :=
  writes.foldl (fun last write => (written? write.1 write.2 address).or last) none

theorem writtenBy?_append (writes : List (UInt32 × List UInt8)) (write : UInt32 × List UInt8)
    (address : UInt32)
    : writtenBy? (writes ++ [write]) address
      = (written? write.1 write.2 address).or (writtenBy? writes address) := by
  simp [writtenBy?]

/-- After some writes every address that one of them reaches holds what the last of these put
there; by induction on the writes, the last one first.
-/
theorem Memory.get_foldl_write {writes : List (UInt32 × List UInt8)}
    (fits : ∀ write ∈ writes, write.2.length ≤ 2 ^ 32) (memory : Memory) (address : UInt32)
    : (writes.foldl (fun memory write => memory.write write.1 write.2) memory).get address
      = (writtenBy? writes address).getD (memory.get address) := by
  induction writes using List.reverseRecOn with
  | nil => rfl
  | append_singleton earlier last ih =>
      have last_fits := fits last (by simp)
      have earlier_fit : ∀ write ∈ earlier, write.2.length ≤ 2 ^ 32 :=
        fun write member => fits write (List.mem_append_left _ member)
      rw [List.foldl_append, List.foldl_cons, List.foldl_nil,
        Memory.get_write _ last.1 last_fits address, ih earlier_fit, writtenBy?_append]
      cases written? last.1 last.2 address <;> rfl

-----------------------------------------------------------------------------------------
-- Pieces
-----------------------------------------------------------------------------------------

/-- One of the pieces that some data are written in: where it goes, and its bytes. -/
def pieceOf (base : UInt32) (data : List UInt8) (index : Nat) : UInt32 × List UInt8 :=
  (base + UInt32.ofNat (index * maxData), Wire.field data (index * maxData) maxData)

/-- A piece puts the bytes of the data where the data belong, within its own bounds. -/
theorem written?_pieceOf (base : UInt32) {data : List UInt8} (fits : data.length ≤ 2 ^ 32)
    {index : Nat} (within : index * maxData < data.length) (address : UInt32)
    : written? (pieceOf base data index).1 (pieceOf base data index).2 address
      = if (address - base).toNat / maxData = index then written? base data address
        else none := by
  have shifted : (address - (base + UInt32.ofNat (index * maxData))).toNat
      = ((address - base).toNat + (2 ^ 32 - index * maxData)) % 2 ^ 32 := by
    rw [UInt32.toNat_sub, UInt32.toNat_sub, UInt32.toNat_add, UInt32.toNat_ofNat',
      Nat.mod_eq_of_lt (Nat.lt_of_lt_of_le within fits)]
    have address_bound := address.toNat_lt
    have base_bound := base.toNat_lt
    omega
  have bound := (address - base).toNat_lt
  unfold written? pieceOf Wire.field
  rw [shifted]
  generalize (address - base).toNat = offset at bound
  by_cases inside : offset / maxData = index
  · rw [if_pos inside]
    simp only [maxData] at within inside ⊢
    have place : (offset + (2 ^ 32 - index * 256)) % 2 ^ 32 = offset - index * 256 := by omega
    rw [place, List.getElem?_take_of_lt (by omega), List.getElem?_drop]
    congr 1
    omega
  · rw [if_neg inside]
    simp only [maxData] at within inside ⊢
    refine List.getElem?_eq_none ?_
    rw [List.length_take, List.length_drop]
    -- In front of the piece the offset goes around the end of the address space.
    rcases Nat.lt_or_ge offset (index * 256) with front | behind
    · omega
    · omega

/-- Some pieces put the bytes of the data where the data belong, as far as the pieces go; by
induction on them.
-/
theorem writtenBy?_pieces (base : UInt32) {data : List UInt8} (fits : data.length ≤ 2 ^ 32)
    {indices : List Nat} (within : ∀ index ∈ indices, index * maxData < data.length)
    (address : UInt32)
    : writtenBy? (indices.map (pieceOf base data)) address
      = if (address - base).toNat / maxData ∈ indices then written? base data address
        else none := by
  induction indices using List.reverseRecOn with
  | nil => simp [writtenBy?]
  | append_singleton earlier last ih =>
      have last_within := within last (by simp)
      rw [List.map_append, List.map_singleton, writtenBy?_append,
        written?_pieceOf base fits last_within,
        ih fun index member => within index (List.mem_append_left _ member)]
      by_cases here : (address - base).toNat / maxData = last
      · simp only [here, if_true, List.mem_append, List.mem_singleton, or_true]
        cases written? base data address <;> simp
      · simp [here]

/-- All pieces together put the data where they belong. -/
theorem writtenBy?_all_pieces (base : UInt32) {data : List UInt8} (fits : data.length ≤ 2 ^ 32)
    {indices : List Nat} (all : ∀ index, index ∈ indices ↔ index * maxData < data.length)
    (address : UInt32)
    : writtenBy? (indices.map (pieceOf base data)) address = written? base data address := by
  rw [writtenBy?_pieces base fits fun index member => (all index).mp member]
  split
  · rfl
  · next outside =>
      rw [all] at outside
      refine (List.getElem?_eq_none ?_).symm
      simp only [maxData] at outside
      omega

-----------------------------------------------------------------------------------------
-- All chips
-----------------------------------------------------------------------------------------

namespace State

/-- The byte at an address of a chip; a chip that was never written is all zero. -/
def byteAt (state : State) (chip : Chip) (address : UInt32) : UInt8 :=
  ((state.memories.get? chip).getD {}).get address

/-- A write changes the chip it is for, where it reaches, and nothing else. -/
theorem byteAt_writeMemory (state : State) (chip : Chip) (base : UInt32) {data : List UInt8}
    (fits : data.length ≤ 2 ^ 32) (other : Chip) (address : UInt32)
    : (state.writeMemory chip base data).byteAt other address
      = if other = chip then (written? base data address).getD (state.byteAt other address)
        else state.byteAt other address := by
  unfold byteAt writeMemory
  rw [Table.get?_insert]
  split
  · next same =>
      subst same
      exact Memory.get_write _ base fits address
  · rfl

/-- Reading gives the bytes of the range in order, written or not. -/
theorem readMemory_eq (state : State) (chip : Chip) (base : UInt32) (length : Nat)
    : state.readMemory chip base length
      = (List.range length).map fun index => state.byteAt chip (base + UInt32.ofNat index) := by
  unfold readMemory byteAt
  cases state.memories.get? chip with
  | some memory => rfl
  | none => simp [List.map_const']

/-- Blocks that go into the memory of a chip change that chip, where they reach. -/
theorem byteAt_fill (state : State) {blocks : List (UInt32 × List UInt8)}
    (fits : ∀ block ∈ blocks, block.2.length ≤ 2 ^ 32) (chip other : Chip) (address : UInt32)
    : (state.fill blocks chip).byteAt other address
      = if other = chip then (writtenBy? blocks address).getD (state.byteAt other address)
        else state.byteAt other address := by
  unfold byteAt fill
  rw [Table.get?_insert]
  split
  · next same =>
      subst same
      exact Memory.get_foldl_write fits _ address
  · rfl

/-- Blocks that go into the memories of some chips leave each of these with what they leave of it,
and every other one as it was; by induction on the chips.
-/
theorem get?_foldl_fill (blocks : List (UInt32 × List UInt8)) {chips : List Chip}
    (distinct : chips.Nodup) (state : State) (chip : Chip)
    : (chips.foldl (fun state target => state.fill blocks target) state).memories.get? chip
      = if chip ∈ chips then
          some (blocks.foldl (fun memory block => memory.write block.1 block.2)
            ((state.memories.get? chip).getD {}))
        else state.memories.get? chip := by
  induction chips generalizing state with
  | nil => simp
  | cons target rest ih =>
      obtain ⟨apart, distinct_rest⟩ := List.nodup_cons.mp distinct
      have filled : (state.fill blocks target).memories.get? chip
          = if chip = target then
              some (blocks.foldl (fun memory block => memory.write block.1 block.2)
                ((state.memories.get? target).getD {}))
            else state.memories.get? chip :=
        Table.get?_insert _ _ _ _
      rw [List.foldl_cons, ih distinct_rest, filled]
      by_cases first : chip = target
      · subst first
        simp [apart]
      · simp [first]

/-- Blocks that go into the memories of some chips change those, where they reach, and nothing
else; by induction on the chips. One that is named twice gets the same bytes again.
-/
theorem byteAt_foldl_fill {blocks : List (UInt32 × List UInt8)}
    (fits : ∀ block ∈ blocks, block.2.length ≤ 2 ^ 32) (chips : List Chip) (state : State)
    (chip : Chip) (address : UInt32)
    : (chips.foldl (fun state target => state.fill blocks target) state).byteAt chip address
      = if chip ∈ chips then (writtenBy? blocks address).getD (state.byteAt chip address)
        else state.byteAt chip address := by
  induction chips generalizing state with
  | nil => simp
  | cons target rest ih =>
      rw [List.foldl_cons, ih, byteAt_fill state fits]
      by_cases first : chip = target
      · subst first
        by_cases later : chip ∈ rest
        · cases writtenBy? blocks address <;> simp [later]
        · simp [later]
      · simp [first]

end State

end MeshControl.Board
