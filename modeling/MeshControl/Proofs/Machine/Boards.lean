import MeshControl.Proofs.Machine.Sockets
import Mathlib.Algebra.Order.BigOperators.Group.Finset
import Mathlib.Data.Int.ModEq
import Mathlib.Data.Set.Card

/-! The boards of a machine. The three outlines in a tile leave no place out and do not overlap, so
that on a machine that is closed at its edges every socket is the nearest one of the 48 chips of
its board, and of no others.
-/

namespace MeshControl.Topology

variable {machine : Topology} {chip socket : Chip}

-----------------------------------------------------------------------------------------
-- Outlines
-----------------------------------------------------------------------------------------

/-- The places of a board, counted from its corner. -/
def outline : Finset (Fin 12 × Fin 12) :=
  Finset.univ.filter fun place => onBoard place.1.val place.2.val = true

theorem card_outline : outline.card = 48 := by
  decide +kernel

theorem mem_outline {place : Fin 12 × Fin 12}
    : place ∈ outline ↔ onBoard place.1.val place.2.val = true := by
  simp [outline]

/-- A board holds a place exactly if it is the one that is found: the boards of a tile do not
overlap, place by place, so that it does not matter in which order they are tried.
-/
theorem corner?_eq_some_iff {column row : Int} {corner : Int × Int}
    : corner? column row = some corner
      ↔ corner ∈ tileCorners
        ∧ onBoard (offset column corner.1) (offset row corner.2) = true := by
  constructor
  · intro found
    rw [corner?] at found
    have on := List.find?_some found
    exact ⟨List.mem_of_find?_eq_some found, on⟩
  · rintro ⟨member, on⟩
    have all : ∀ corner ∈ tileCorners, ∀ column row : Fin 12,
        onBoard (offset column.val corner.1) (offset row.val corner.2) = true
        → corner? column.val row.val = some corner := by
      decide
    obtain ⟨x, column_is⟩ := exists_place column
    obtain ⟨y, row_is⟩ := exists_place row
    rw [← corner?_emod, ← column_is, ← row_is]
    refine all corner member x y ?_
    rw [column_is, row_is]
    simpa only [offset, Int.emod_sub_emod] using on

-----------------------------------------------------------------------------------------
-- Around the edges
-----------------------------------------------------------------------------------------

section Edges

variable {size start : Int}

/-- A coordinate that far behind another one, around the edge. -/
def around (size start : Int) (place : Fin 12) : Int :=
  (start + place.val) % size

/-- The offset of a place is found again, whether or not the edge lies between. -/
theorem offset_around (tiles : tileSide ∣ size) (place : Fin 12) {corner : Int}
    (start_is : start % tileSide = corner)
    : offset (around size start place) corner = place.val := by
  have within := place.isLt
  rw [offset, around, ← Int.emod_sub_emod, Int.emod_emod_of_dvd _ tiles]
  simp only [tileSide] at start_is ⊢
  omega

/-- From a place the way leads back to where its board begins. -/
theorem around_sub_emod (place : Fin 12) (bounds : 0 ≤ start ∧ start < size)
    : (around size start place - place.val) % size = start := by
  rw [around, Int.emod_sub_emod, Int.add_sub_cancel, Int.emod_eq_of_lt bounds.1 bounds.2]

/-- Every coordinate is as far behind the one where its board begins as its offset says. -/
theorem around_of_offset {column corner : Int} (bounds : 0 ≤ column ∧ column < size)
    {place : Fin 12} (far : (place.val : Int) = offset column corner)
    : around size ((column - offset column corner) % size) place = column := by
  rw [around, far, Int.emod_add_emod, Int.sub_add_cancel, Int.emod_eq_of_lt bounds.1 bounds.2]

/-- No tile is so wide that it meets itself. -/
theorem around_injective (wide : tileSide ≤ size) : Function.Injective (around size start) := by
  intro first second same
  have cancelled : (first.val : Int) ≡ second.val [ZMOD size] :=
    Int.ModEq.add_left_cancel' start same
  have bound (place : Fin 12) : (place.val : Int) < size :=
    Int.lt_of_lt_of_le (by have := place.isLt; simp only [tileSide]; omega) wide
  have values : (first.val : Int) = second.val := by
    rw [← Int.emod_eq_of_lt (by omega) (bound first),
      ← Int.emod_eq_of_lt (by omega) (bound second)]
    exact cancelled
  exact Fin.ext (by omega)

end Edges

-----------------------------------------------------------------------------------------
-- The chips of a board
-----------------------------------------------------------------------------------------

/-- The chip at a place of the board that begins at a chip, around the edges of the machine. -/
def boardChip (machine : Topology) (socket : Chip) (place : Fin 12 × Fin 12) : Chip :=
  chipAt (around machine.width.toNat socket.x.toNat place.1)
    (around machine.height.toNat socket.y.toNat place.2)

/-- A machine of whole tiles that is not empty. -/
structure Tiled (machine : Topology) : Prop where
  columns : 12 ∣ machine.width.toNat
  rows : 12 ∣ machine.height.toNat
  wide : 0 < machine.width
  high : 0 < machine.height

namespace Tiled

theorem closed (tiled : machine.Tiled) : machine.wraps = true := by
  obtain ⟨columns, rows, _, _⟩ := tiled
  simp only [wraps, Bool.and_eq_true, beq_iff_eq]
  omega

/-- There is room for a tile. -/
theorem room (tiled : machine.Tiled)
    : tileSide ≤ machine.width.toNat ∧ tileSide ≤ machine.height.toNat := by
  obtain ⟨columns, rows, wide, high⟩ := tiled
  simp only [UInt8.lt_iff_toNat_lt, UInt8.reduceToNat] at wide high
  simp only [tileSide]
  omega

theorem large (tiled : machine.Tiled) : machine.isSingleBoard = false := by
  have room := tiled.room
  simp only [tileSide] at room
  simp only [isSingleBoard, Bool.and_eq_false_iff, decide_eq_false_iff_not,
    UInt8.le_iff_toNat_le, UInt8.reduceToNat]
  omega

/-- Around the edges there is always a column of the machine. -/
theorem column_bounds (tiled : machine.Tiled) (column : Int)
    : 0 ≤ column % machine.width.toNat ∧ column % machine.width.toNat < machine.width.toNat := by
  have room := tiled.room.1
  simp only [tileSide] at room
  exact ⟨Int.emod_nonneg _ (by omega), Int.emod_lt_of_pos _ (by omega)⟩

/-- Around the edges there is always a row of the machine. -/
theorem row_bounds (tiled : machine.Tiled) (row : Int)
    : 0 ≤ row % machine.height.toNat ∧ row % machine.height.toNat < machine.height.toNat := by
  have room := tiled.room.2
  simp only [tileSide] at room
  exact ⟨Int.emod_nonneg _ (by omega), Int.emod_lt_of_pos _ (by omega)⟩

/-- A place of a board is on the machine, at its column and its row. -/
theorem toNat_boardChip (tiled : machine.Tiled) (socket : Chip) (place : Fin 12 × Fin 12)
    : ((machine.boardChip socket place).x.toNat : Int)
        = around machine.width.toNat socket.x.toNat place.1
      ∧ ((machine.boardChip socket place).y.toNat : Int)
        = around machine.height.toNat socket.y.toNat place.2 :=
  toNat_chipAt (tiled.column_bounds _) (tiled.row_bounds _)

theorem contains_boardChip (tiled : machine.Tiled) (socket : Chip) (place : Fin 12 × Fin 12)
    : machine.contains (machine.boardChip socket place) = true := by
  obtain ⟨x, y⟩ := tiled.toNat_boardChip socket place
  have column := (tiled.column_bounds (socket.x.toNat + place.1.val)).2
  have row := (tiled.row_bounds (socket.y.toNat + place.2.val)).2
  simp only [around] at x y
  exact contains_iff.mpr (by omega)

/-- Different places of a board are different chips. -/
theorem boardChip_injective (tiled : machine.Tiled) (socket : Chip)
    : Function.Injective (machine.boardChip socket) := by
  intro first second same
  obtain ⟨first_x, first_y⟩ := tiled.toNat_boardChip socket first
  obtain ⟨second_x, second_y⟩ := tiled.toNat_boardChip socket second
  rw [← same] at second_x second_y
  exact Prod.ext (around_injective tiled.room.1 (first_x.symm.trans second_x))
    (around_injective tiled.room.2 (first_y.symm.trans second_y))

/-- On such a machine the way to the socket leads around the edges. -/
theorem nearestEthernet_eq (tiled : machine.Tiled) (contains : machine.contains chip = true)
    {corner : Int × Int} (found : corner? chip.x.toNat chip.y.toNat = some corner)
    : machine.nearestEthernet chip
      = some (chipAt ((chip.x.toNat - offset chip.x.toNat corner.1) % machine.width.toNat)
          ((chip.y.toNat - offset chip.y.toNat corner.2) % machine.height.toNat)) := by
  have nearest := nearestEthernet_nearest contains tiled.large found
  generalize machine.nearestEthernet chip = nearby at nearest
  cases nearest with
  | around _ => rfl
  | nowhere open_edges _ => exact absurd (open_edges.symm.trans tiled.closed) nofun
  | inside column_bounds row_bounds =>
      rw [Int.emod_eq_of_lt column_bounds.1 column_bounds.2,
        Int.emod_eq_of_lt row_bounds.1 row_bounds.2]

/-- The chips whose nearest socket is this one are those on its board. -/
theorem nearestEthernet_eq_some_iff (tiled : machine.Tiled)
    (own : machine.nearestEthernet socket = some socket)
    : machine.nearestEthernet chip = some socket
      ↔ ∃ place ∈ outline, machine.boardChip socket place = chip := by
  obtain ⟨known, corner, member, column_is, row_is⟩ := corner_of_nearest tiled.large own
  obtain ⟨column_bound, row_bound⟩ := contains_iff.mp known
  constructor
  · intro nearest
    have contains := contains_of_nearest nearest
    obtain ⟨chip_column, chip_row⟩ := contains_iff.mp contains
    obtain ⟨corner, cornered⟩ :=
      Option.isSome_iff_exists.mp (corner?_isSome chip.x.toNat chip.y.toNat)
    obtain ⟨column, column_far⟩ := exists_place (chip.x.toNat - corner.1)
    obtain ⟨row, row_far⟩ := exists_place (chip.y.toNat - corner.2)
    have on := (corner?_eq_some_iff.mp cornered).2
    refine ⟨(column, row), ?_, ?_⟩
    · rw [mem_outline, column_far, row_far]
      exact on
    · have here := tiled.nearestEthernet_eq contains cornered
      rw [nearest] at here
      obtain ⟨x, y⟩ := toNat_chipAt
        (tiled.column_bounds (chip.x.toNat - offset chip.x.toNat corner.1))
        (tiled.row_bounds (chip.y.toNat - offset chip.y.toNat corner.2))
      rw [boardChip, Option.some.inj here, x, y, around_of_offset (by omega) column_far,
        around_of_offset (by omega) row_far]
      simp only [chipAt, Int.toNat_natCast, UInt8.ofNat_toNat]
  · rintro ⟨place, on, rfl⟩
    obtain ⟨x, y⟩ := tiled.toNat_boardChip socket place
    obtain ⟨column_tiles, row_tiles⟩ := tiles_of_wraps tiled.closed
    have column_far := offset_around column_tiles place.1 column_is
    have row_far := offset_around row_tiles place.2 row_is
    have cornered : corner? (machine.boardChip socket place).x.toNat
        (machine.boardChip socket place).y.toNat = some corner := by
      rw [x, y]
      refine corner?_eq_some_iff.mpr ⟨member, ?_⟩
      rw [column_far, row_far, ← mem_outline]
      exact on
    rw [tiled.nearestEthernet_eq (tiled.contains_boardChip socket place) cornered, x, y,
      column_far, row_far, around_sub_emod _ (by omega), around_sub_emod _ (by omega)]
    simp only [chipAt, Int.toNat_natCast, UInt8.ofNat_toNat]

/-- A board has 48 chips. -/
theorem ncard_board (tiled : machine.Tiled)
    (own : machine.nearestEthernet socket = some socket)
    : {chip | machine.nearestEthernet chip = some socket}.ncard = 48 := by
  have image : {chip | machine.nearestEthernet chip = some socket}
      = machine.boardChip socket '' (outline : Set (Fin 12 × Fin 12)) := by
    ext chip
    exact tiled.nearestEthernet_eq_some_iff own
  rw [image, Set.ncard_image_of_injective _ (tiled.boardChip_injective socket),
    Set.ncard_coe_finset, card_outline]

end Tiled

-----------------------------------------------------------------------------------------
-- The boards of a machine
-----------------------------------------------------------------------------------------

theorem length_chips (machine : Topology)
    : machine.chips.length = machine.height.toNat * machine.width.toNat := by
  simp [chips, List.length_flatMap]

/-- On a single board all chips share the socket in the corner. -/
theorem nearestEthernet_of_single (single : machine.isSingleBoard = true)
    (known : machine.contains chip = true)
    : machine.nearestEthernet chip = some .origin := by
  simp [nearestEthernet, known, single]

section Occupied

variable (wide : 0 < machine.width) (high : 0 < machine.height)

include wide high

/-- A machine with at least one chip has one in the corner. -/
theorem contains_origin : machine.contains .origin = true := by
  simp only [contains, Chip.origin, wide, high, decide_true, Bool.and_self]

/-- A socket is on the machine, and is its own. -/
theorem own_of_nearest (found : machine.nearestEthernet chip = some socket)
    : machine.contains socket = true ∧ machine.nearestEthernet socket = some socket := by
  cases single : machine.isSingleBoard with
  | true =>
      have corner := nearestEthernet_of_single single (contains_of_nearest found)
      obtain rfl : Chip.origin = socket := Option.some.inj (corner.symm.trans found)
      have known := contains_origin wide high
      exact ⟨known, nearestEthernet_of_single single known⟩
  | false => exact nearestEthernet_socket single found

/-- The sockets that are listed are their own. -/
theorem nearestEthernet_of_mem (member : socket ∈ machine.ethernetChips)
    : machine.contains socket = true ∧ machine.nearestEthernet socket = some socket := by
  unfold ethernetChips at member
  split at member
  · next single =>
      obtain rfl := List.mem_singleton.mp member
      have known := contains_origin wide high
      exact ⟨known, nearestEthernet_of_single single known⟩
  · obtain ⟨listed, own⟩ := List.mem_filter.mp member
    exact ⟨mem_chips_iff.mp listed, beq_iff_eq.mp own⟩

end Occupied

/-- A machine of whole tiles is made up of its boards, so that it has one for every 48 chips. -/
theorem Tiled.length_ethernetChips (tiled : machine.Tiled)
    : machine.ethernetChips.length * 48 = machine.width.toNat * machine.height.toNat := by
  let socketOf (chip : Chip) : Chip := (machine.nearestEthernet chip).getD .origin
  have nearby {chip : Chip} (member : chip ∈ machine.chips)
      : machine.nearestEthernet chip = some (socketOf chip) := by
    obtain ⟨socket, found⟩ := Option.isSome_iff_exists.mp
      (nearestEthernet_isSome (mem_chips_iff.mp member) (.inr tiled.closed))
    simp only [socketOf, found, Option.getD_some]
  have listed : ∀ chip ∈ machine.chips.toFinset, socketOf chip ∈ machine.ethernetChips.toFinset :=
    fun chip member => List.mem_toFinset.mpr
      (mem_ethernetChips_of_nearest (nearby (List.mem_toFinset.mp member)))
  have board : ∀ socket ∈ machine.ethernetChips.toFinset,
      (machine.chips.toFinset.filter fun chip => socketOf chip = socket).card = 48 := by
    intro socket member
    have own := (nearestEthernet_of_mem tiled.wide tiled.high (List.mem_toFinset.mp member)).2
    rw [← tiled.ncard_board own, ← Set.ncard_coe_finset]
    congr 1
    ext chip
    simp only [Finset.coe_filter, List.mem_toFinset, Set.mem_ofPred_eq]
    constructor
    · rintro ⟨listed, rfl⟩
      exact nearby listed
    · intro found
      have member : chip ∈ machine.chips := mem_chips_iff.mpr (contains_of_nearest found)
      exact ⟨member, Option.some.inj ((nearby member).symm.trans found)⟩
  have total := Finset.card_eq_sum_card_fiberwise listed
  rw [Finset.sum_congr rfl board, Finset.sum_const, Nat.nsmul_eq_mul,
    List.toFinset_card_of_nodup machine.nodup_chips,
    List.toFinset_card_of_nodup machine.nodup_ethernetChips, length_chips] at total
  rw [← total, Nat.mul_comm]

/-- The boards of a machine with at least one chip. A chip off the machine has no socket; one that
is found is on the machine and is its own, and the list of sockets has each of those that are found
once. A machine of at most eight columns and rows is one board. One of whole tiles has a socket for
every chip, which it shares with 47 others. Witness: of the three outlines in a tile exactly one
holds a place, and the way from the place to its corner can be gone back, also around the edges.
-/
theorem boards_partition {machine : Topology} (wide : 0 < machine.width)
    (high : 0 < machine.height)
    : (∀ chip, machine.contains chip = false → machine.nearestEthernet chip = none)
      ∧ (∀ chip socket,
        machine.nearestEthernet chip = some socket
        → machine.contains socket = true ∧ machine.nearestEthernet socket = some socket)
      ∧ machine.ethernetChips.Nodup
      ∧ (∀ socket,
        socket ∈ machine.ethernetChips
        ↔ ∃ chip,
            machine.contains chip = true ∧ machine.nearestEthernet chip = some socket)
      ∧ (machine.width ≤ 8
        → machine.height ≤ 8
        → ∀ chip, machine.contains chip = true → machine.nearestEthernet chip = some .origin)
      ∧ (12 ∣ machine.width.toNat
        → 12 ∣ machine.height.toNat
        → (∀ chip,
            machine.contains chip = true
            → ∃ socket ∈ machine.ethernetChips, machine.nearestEthernet chip = some socket)
          ∧ (∀ socket ∈ machine.ethernetChips,
            {chip | machine.nearestEthernet chip = some socket}.ncard = 48)
          ∧ machine.ethernetChips.length
            = machine.width.toNat * machine.height.toNat / 48) := by
  refine ⟨fun chip outside => by simp [nearestEthernet, outside],
    fun chip socket found => own_of_nearest wide high found, machine.nodup_ethernetChips,
    fun socket => ⟨fun member => ?_, fun ⟨_, _, found⟩ => mem_ethernetChips_of_nearest found⟩,
    fun narrow low chip known => ?_, fun columns rows => ?_⟩
  · obtain ⟨known, own⟩ := nearestEthernet_of_mem wide high member
    exact ⟨socket, known, own⟩
  · exact nearestEthernet_of_single (by simp [isSingleBoard, narrow, low]) known
  · have tiled : machine.Tiled := ⟨columns, rows, wide, high⟩
    refine ⟨fun chip known => ?_, fun socket member => ?_, ?_⟩
    · obtain ⟨socket, found⟩ := Option.isSome_iff_exists.mp
        (nearestEthernet_isSome known (.inr tiled.closed))
      exact ⟨socket, mem_ethernetChips_of_nearest found, found⟩
    · exact tiled.ncard_board (nearestEthernet_of_mem wide high member).2
    · rw [← tiled.length_ethernetChips, Nat.mul_div_cancel _ (by decide)]

/-- Six boards around the edges of a machine, one of which has the chip in the upper left corner;
and a machine that is a single board.
-/
theorem boards_partition_twoTiles
    : let machine : Topology := ⟨24, 12⟩
      let single : Topology := ⟨8, 8⟩
      (machine.nearestEthernet ⟨0, 8⟩ = some ⟨20, 4⟩
        ∧ {chip | machine.nearestEthernet chip = some ⟨20, 4⟩}.ncard = 48
        ∧ machine.ethernetChips.length = 6)
      ∧ single.nearestEthernet ⟨7, 7⟩ = some .origin := by
  intro machine single
  obtain ⟨_, _, _, listed, _, tiled⟩ := @boards_partition machine (by decide) (by decide)
  obtain ⟨_, boards, count⟩ := tiled (by decide) (by decide)
  obtain ⟨_, _, _, _, corner, _⟩ := @boards_partition single (by decide) (by decide)
  have found : machine.nearestEthernet ⟨0, 8⟩ = some ⟨20, 4⟩ := by decide
  have member : ⟨20, 4⟩ ∈ machine.ethernetChips := (listed _).mpr ⟨⟨0, 8⟩, by decide, found⟩
  exact ⟨⟨found, boards _ member, count.trans (by decide)⟩,
    corner (by decide) (by decide) ⟨7, 7⟩ (by decide)⟩

end MeshControl.Topology
