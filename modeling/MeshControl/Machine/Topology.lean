import MeshControl.Machine.Chip

/-!
The geometry of a machine: a mesh of boards of 48 chips, three to a tile of twelve by twelve.
Every board has one chip with a network socket, and `nearestEthernet` finds it for each chip.
-/

namespace MeshControl

/-- The size of a machine. -/
structure Topology where
  width : UInt8
  height : UInt8
deriving DecidableEq, Repr, Inhabited

namespace Topology

/-- The first and the last column of each row of a board. -/
def boardRows : List (Int × Int) :=
  [(0, 4), (0, 5), (0, 6), (0, 7), (1, 7), (2, 7), (3, 7), (4, 7)]

/-- The side of a tile. -/
def tileSide : Int := 12

/-- Where the boards of a tile have their corner. -/
def tileCorners : List (Int × Int) :=
  [(0, 0), (4, 8), (8, 4)]

/-- A place, counted from a board's corner, is on the board. -/
def onBoard (column row : Int) : Bool :=
  match boardRows[row.toNat]? with
  | some (first, last) => decide (0 ≤ row) && decide (first ≤ column) && decide (column ≤ last)
  | none => false

/-- A machine no larger than a board's outline is one board. -/
def isSingleBoard (machine : Topology) : Bool :=
  machine.width ≤ 8 && machine.height ≤ 8

/-- A machine of whole tiles is closed at its edges. -/
def wraps (machine : Topology) : Bool :=
  machine.width.toNat % 12 == 0 && machine.height.toNat % 12 == 0

/-- The chip is one of the machine's. -/
def contains (machine : Topology) (chip : Chip) : Bool :=
  chip.x < machine.width && chip.y < machine.height

/-- How far a coordinate is from a corner, within a tile. -/
def offset (coordinate corner : Int) : Int :=
  (coordinate - corner) % tileSide

/-- The corner of the board in the tile that a chip is on. -/
def boardCorner? (chip : Chip) : Option (Int × Int) :=
  let x : Int := chip.x.toNat
  let y : Int := chip.y.toNat
  (tileCorners.find? fun corner => onBoard (offset x corner.1) (offset y corner.2)).map
    fun corner => (x - offset x corner.1, y - offset y corner.2)

/-- The chip at a coordinate that is on the machine. -/
def chipAt (x y : Int) : Chip :=
  ⟨UInt8.ofNat x.toNat, UInt8.ofNat y.toNat⟩

/-- The chip with the network socket of the board that a chip is on. -/
def nearestEthernet (machine : Topology) (chip : Chip) : Option Chip :=
  if !machine.contains chip then none
  else if machine.isSingleBoard then some .origin
  else
    let width : Int := machine.width.toNat
    let height : Int := machine.height.toNat
    match boardCorner? chip with
    | none => none
    | some (x, y) =>
        if machine.wraps then some (chipAt (x % width) (y % height))
        else if x < 0 || y < 0 || x ≥ width || y ≥ height then none
        else some (chipAt x y)

/-- Every chip, row by row. -/
def chips (machine : Topology) : List Chip :=
  (List.range machine.height.toNat).flatMap fun y =>
    (List.range machine.width.toNat).map fun x => ⟨UInt8.ofNat x, UInt8.ofNat y⟩

/-- The chips with a network socket, row by row. -/
def ethernetChips (machine : Topology) : List Chip :=
  if machine.isSingleBoard then [.origin]
  else machine.chips.filter fun chip => machine.nearestEthernet chip == some chip

end Topology

end MeshControl
