import MeshControl.Machine.Topology
import Mathlib.Data.List.Nodup

/-! The chips with a network socket. The one that is found for a chip is listed among them, and is
found for itself; on a single board, and on a machine that is closed at its edges, one is found for
every chip.
-/

namespace MeshControl.Topology

variable {machine : Topology} {chip socket : Chip}

-----------------------------------------------------------------------------------------
-- Chips
-----------------------------------------------------------------------------------------

theorem contains_iff
    : machine.contains chip = true
      ↔ chip.x.toNat < machine.width.toNat ∧ chip.y.toNat < machine.height.toNat := by
  simp [contains, UInt8.lt_iff_toNat_lt]

/-- The chips that are listed are those of the machine. -/
theorem mem_chips_iff : chip ∈ machine.chips ↔ machine.contains chip = true := by
  simp only [chips, List.mem_flatMap, List.mem_map, List.mem_range, contains_iff]
  constructor
  · rintro ⟨row, row_bound, column, column_bound, rfl⟩
    have width := machine.width.toNat_lt
    have height := machine.height.toNat_lt
    simp only [UInt8.toNat_ofNat']
    omega
  · rintro ⟨column_bound, row_bound⟩
    exact ⟨chip.y.toNat, row_bound, chip.x.toNat, column_bound,
      by rw [UInt8.ofNat_toNat, UInt8.ofNat_toNat]⟩

/-- Numbers of one byte are told apart. -/
theorem eq_of_ofNat_eq {first second : Nat} {bound : UInt8} (first_bound : first < bound.toNat)
    (second_bound : second < bound.toNat) (same : UInt8.ofNat first = UInt8.ofNat second)
    : first = second := by
  have values := congrArg UInt8.toNat same
  have byte := bound.toNat_lt
  simp only [UInt8.toNat_ofNat'] at values
  omega

/-- No chip is listed twice. -/
theorem nodup_chips (machine : Topology) : machine.chips.Nodup := by
  rw [chips, List.nodup_flatMap]
  constructor
  · intro row _
    refine List.nodup_range.map_on fun first first_member second second_member same => ?_
    exact eq_of_ofNat_eq (List.mem_range.mp first_member) (List.mem_range.mp second_member)
      (congrArg Chip.x same)
  · refine List.nodup_range.imp_of_mem fun first_member second_member apart => ?_
    intro chip first second
    obtain ⟨_, _, rfl⟩ := List.mem_map.mp first
    obtain ⟨_, _, same⟩ := List.mem_map.mp second
    exact apart (eq_of_ofNat_eq (List.mem_range.mp first_member) (List.mem_range.mp second_member)
      (congrArg Chip.y same).symm)

-----------------------------------------------------------------------------------------
-- Boards in a tile
-----------------------------------------------------------------------------------------

/-- The corner of the board that a place of a tile is on. -/
def corner? (column row : Int) : Option (Int × Int) :=
  tileCorners.find? fun corner => onBoard (offset column corner.1) (offset row corner.2)

/-- Tiles repeat. -/
theorem corner?_emod (column row : Int)
    : corner? (column % tileSide) (row % tileSide) = corner? column row := by
  simp only [corner?, offset, Int.emod_sub_emod]

/-- A coordinate within its tile. -/
theorem exists_place (coordinate : Int)
    : ∃ within : Fin 12, (within.val : Int) = coordinate % tileSide := by
  have nonneg : 0 ≤ coordinate % tileSide := Int.emod_nonneg _ (by decide)
  have bound : coordinate % tileSide < 12 := Int.emod_lt_of_pos _ (by decide)
  exact ⟨⟨(coordinate % tileSide).toNat, by omega⟩, Int.toNat_of_nonneg nonneg⟩

/-- The three boards of a tile leave no place out, place by place. -/
theorem corner?_isSome (column row : Int) : (corner? column row).isSome = true := by
  have all : ∀ column row : Fin 12, (corner? column.val row.val).isSome = true := by decide
  obtain ⟨x, column_is⟩ := exists_place column
  obtain ⟨y, row_is⟩ := exists_place row
  rw [← corner?_emod, ← column_is, ← row_is]
  exact all x y

/-- The corner of a board is on that board, corner by corner. -/
theorem corner?_corner {column row : Int} {corner : Int × Int} (member : corner ∈ tileCorners)
    (column_is : column % tileSide = corner.1) (row_is : row % tileSide = corner.2)
    : corner? column row = some corner := by
  have all : ∀ corner ∈ tileCorners, corner? corner.1 corner.2 = some corner := by decide
  rw [← corner?_emod, column_is, row_is]
  exact all corner member

/-- A place goes back to its corner by its offset. -/
theorem sub_offset_emod {corner : Int × Int} (member : corner ∈ tileCorners) (column row : Int)
    : (column - offset column corner.1) % tileSide = corner.1
      ∧ (row - offset row corner.2) % tileSide = corner.2 := by
  have within : ∀ corner ∈ tileCorners,
      (0 ≤ corner.1 ∧ corner.1 < 12) ∧ 0 ≤ corner.2 ∧ corner.2 < 12 := by
    decide
  obtain ⟨⟨_, _⟩, _, _⟩ := within corner member
  simp only [offset, tileSide]
  constructor <;> omega

-----------------------------------------------------------------------------------------
-- The nearest socket
-----------------------------------------------------------------------------------------

/-- A machine that is closed at its edges consists of whole tiles. -/
theorem tiles_of_wraps (closed : machine.wraps = true)
    : tileSide ∣ (machine.width.toNat : Int) ∧ tileSide ∣ (machine.height.toNat : Int) := by
  have tiles : machine.width.toNat % 12 = 0 ∧ machine.height.toNat % 12 = 0 := by
    simpa [wraps] using closed
  simp only [tileSide]
  omega

/-- A place on a machine, as its chip: a machine has no more than 255 columns and rows. -/
theorem toNat_chipAt {column row : Int}
    (column_bounds : 0 ≤ column ∧ column < machine.width.toNat)
    (row_bounds : 0 ≤ row ∧ row < machine.height.toNat)
    : ((chipAt column row).x.toNat : Int) = column ∧ ((chipAt column row).y.toNat : Int) = row := by
  have width := machine.width.toNat_lt
  have height := machine.height.toNat_lt
  simp only [chipAt, UInt8.toNat_ofNat']
  omega

/-- On a large machine the socket is at the corner of the board: of a board that goes over an edge,
at the other edge if the machine is closed, and nowhere otherwise.
-/
inductive Nearest (machine : Topology) (column row : Int) : Option Chip → Prop
  | around (closed : machine.wraps = true)
    : Nearest machine column row
        (some (chipAt (column % machine.width.toNat) (row % machine.height.toNat)))
  | nowhere (open_edges : machine.wraps = false)
    (outside
      : ¬ ((0 ≤ column ∧ column < machine.width.toNat) ∧ 0 ≤ row ∧ row < machine.height.toNat))
    : Nearest machine column row none
  | inside (column_bounds : 0 ≤ column ∧ column < machine.width.toNat)
    (row_bounds : 0 ≤ row ∧ row < machine.height.toNat)
    : Nearest machine column row (some (chipAt column row))

theorem nearestEthernet_nearest (contains : machine.contains chip = true)
    (large : machine.isSingleBoard = false) {corner : Int × Int}
    (found : corner? chip.x.toNat chip.y.toNat = some corner)
    : Nearest machine (chip.x.toNat - offset chip.x.toNat corner.1)
        (chip.y.toNat - offset chip.y.toNat corner.2) (machine.nearestEthernet chip) := by
  rw [corner?] at found
  have board : boardCorner? chip
      = some ((chip.x.toNat : Int) - offset chip.x.toNat corner.1,
          (chip.y.toNat : Int) - offset chip.y.toNat corner.2) := by
    simp only [boardCorner?, found, Option.map_some]
  unfold nearestEthernet
  simp only [contains, large, board, Bool.not_true, Bool.false_eq_true, if_false]
  split
  · next closed => exact .around closed
  · next open_edges =>
      simp only [Bool.or_eq_true, decide_eq_true_eq, ge_iff_le]
      split
      · exact .nowhere (by simpa using open_edges) (by omega)
      · exact .inside (by omega) (by omega)

/-- The chip at the corner of its board is the one with the socket. -/
theorem nearestEthernet_of_corner (contains : machine.contains chip = true)
    (large : machine.isSingleBoard = false) {corner : Int × Int} (member : corner ∈ tileCorners)
    (column_is : (chip.x.toNat : Int) % tileSide = corner.1)
    (row_is : (chip.y.toNat : Int) % tileSide = corner.2)
    : machine.nearestEthernet chip = some chip := by
  obtain ⟨column_bound, row_bound⟩ := contains_iff.mp contains
  have nearest := nearestEthernet_nearest contains large (corner?_corner member column_is row_is)
  have none_left : offset chip.x.toNat corner.1 = 0 ∧ offset chip.y.toNat corner.2 = 0 := by
    simp only [offset, tileSide] at column_is row_is ⊢
    omega
  have here : chipAt chip.x.toNat chip.y.toNat = chip := by
    simp only [chipAt, Int.toNat_natCast, UInt8.ofNat_toNat]
  rw [none_left.1, none_left.2, Int.sub_zero, Int.sub_zero] at nearest
  generalize machine.nearestEthernet chip = found at nearest
  cases nearest with
  | around _ =>
      rw [Int.emod_eq_of_lt (by omega) (by omega), Int.emod_eq_of_lt (by omega) (by omega), here]
  | nowhere _ outside => omega
  | inside _ _ => rw [here]

/-- Only a chip of the machine has a socket. -/
theorem contains_of_nearest (found : machine.nearestEthernet chip = some socket)
    : machine.contains chip = true := by
  by_contra outside
  simp [nearestEthernet, outside] at found

/-- A socket that is found for a chip is on the machine, and at the corner of a board. -/
theorem corner_of_nearest (large : machine.isSingleBoard = false)
    (found : machine.nearestEthernet chip = some socket)
    : machine.contains socket = true
      ∧ ∃ corner ∈ tileCorners,
          (socket.x.toNat : Int) % tileSide = corner.1
          ∧ (socket.y.toNat : Int) % tileSide = corner.2 := by
  have contains := contains_of_nearest found
  obtain ⟨column_bound, row_bound⟩ := contains_iff.mp contains
  obtain ⟨corner, cornered⟩ :=
    Option.isSome_iff_exists.mp (corner?_isSome chip.x.toNat chip.y.toNat)
  have member : corner ∈ tileCorners := List.mem_of_find?_eq_some cornered
  obtain ⟨column_is, row_is⟩ := sub_offset_emod member chip.x.toNat chip.y.toNat
  have placed {column row : Int} (column_bounds : 0 ≤ column ∧ column < machine.width.toNat)
      (row_bounds : 0 ≤ row ∧ row < machine.height.toNat) (x_is : column % tileSide = corner.1)
      (y_is : row % tileSide = corner.2)
      : machine.contains (chipAt column row) = true
        ∧ ∃ corner ∈ tileCorners,
            ((chipAt column row).x.toNat : Int) % tileSide = corner.1
            ∧ ((chipAt column row).y.toNat : Int) % tileSide = corner.2 := by
    obtain ⟨x, y⟩ := toNat_chipAt column_bounds row_bounds
    exact ⟨contains_iff.mpr (by omega), corner, member, by rw [x, x_is], by rw [y, y_is]⟩
  have nearest := nearestEthernet_nearest contains large cornered
  rw [found] at nearest
  cases nearest with
  | around closed =>
      obtain ⟨columns, rows⟩ := tiles_of_wraps closed
      refine placed ⟨Int.emod_nonneg _ (by omega), Int.emod_lt_of_pos _ (by omega)⟩
        ⟨Int.emod_nonneg _ (by omega), Int.emod_lt_of_pos _ (by omega)⟩ ?_ ?_
      · rw [Int.emod_emod_of_dvd _ columns, column_is]
      · rw [Int.emod_emod_of_dvd _ rows, row_is]
  | inside column_bounds row_bounds => exact placed column_bounds row_bounds column_is row_is

/-- A socket that is found for a chip is on the machine, and is found for itself. -/
theorem nearestEthernet_socket (large : machine.isSingleBoard = false)
    (found : machine.nearestEthernet chip = some socket)
    : machine.contains socket = true ∧ machine.nearestEthernet socket = some socket := by
  obtain ⟨contains, corner, member, column_is, row_is⟩ := corner_of_nearest large found
  exact ⟨contains, nearestEthernet_of_corner contains large member column_is row_is⟩

/-- The sockets that are listed are all that are found. -/
theorem mem_ethernetChips_of_nearest (found : machine.nearestEthernet chip = some socket)
    : socket ∈ machine.ethernetChips := by
  cases single : machine.isSingleBoard with
  | true =>
      have contains := contains_of_nearest found
      have corner : socket = .origin := by
        simpa [nearestEthernet, contains, single, eq_comm] using found
      simp [ethernetChips, single, corner]
  | false =>
      obtain ⟨contains, own⟩ := nearestEthernet_socket single found
      rw [ethernetChips, if_neg (by simp [single]), List.mem_filter]
      exact ⟨mem_chips_iff.mpr contains, by simp [own]⟩

/-- No socket is listed twice. -/
theorem nodup_ethernetChips (machine : Topology) : machine.ethernetChips.Nodup := by
  unfold ethernetChips
  split
  · exact List.nodup_singleton _
  · exact machine.nodup_chips.filter _

/-- On a single board, and on a machine that is closed at its edges, every chip has a socket. -/
theorem nearestEthernet_isSome (contains : machine.contains chip = true)
    (whole : machine.isSingleBoard = true ∨ machine.wraps = true)
    : (machine.nearestEthernet chip).isSome = true := by
  cases single : machine.isSingleBoard with
  | true => simp [nearestEthernet, contains, single]
  | false =>
      have closed : machine.wraps = true := by simpa [single] using whole
      obtain ⟨corner, cornered⟩ :=
        Option.isSome_iff_exists.mp (corner?_isSome chip.x.toNat chip.y.toNat)
      have nearest := nearestEthernet_nearest contains single cornered
      generalize machine.nearestEthernet chip = found at nearest
      cases nearest with
      | around _ => rfl
      | nowhere open_edges _ =>
          rw [closed] at open_edges
          cases open_edges
      | inside _ _ => rfl

end MeshControl.Topology
