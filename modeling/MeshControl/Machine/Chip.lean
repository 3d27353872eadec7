/-!
Chips, by their place in the mesh.
-/

namespace MeshControl

/-- A place in the mesh: column and row. -/
structure Chip where
  x : UInt8
  y : UInt8
deriving DecidableEq, Repr, Hashable, Inhabited

/-- The chip in the corner, where numbering starts. -/
def Chip.origin : Chip := ⟨0, 0⟩

/-- The address that stands for every chip of the machine. -/
def Chip.everywhere : Chip := ⟨255, 255⟩

end MeshControl
