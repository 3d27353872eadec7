import Std.Data.HashMap

/-!
The memory of a chip: every address holds a byte, zero until it is written. Only pages that were
written are kept. Addresses go around at the end.
-/

namespace MeshControl.Board

/-- The number of bytes of a page. -/
def pageSize : Nat := 4096

/-- The bytes of a page. -/
abbrev Page := Vector UInt8 pageSize

/-- A page that was never written. -/
def blankPage : Page := Vector.replicate pageSize 0

/-- The memory of a chip, by page. -/
structure Memory where
  pages : Std.HashMap UInt32 Page := {}
deriving Inhabited

namespace Memory

/-- The page that an address is on. -/
def pageOf (address : UInt32) : UInt32 :=
  UInt32.ofNat (address.toNat / pageSize)

/-- The place of an address on its page. -/
def placeOf (address : UInt32) : Fin pageSize :=
  ⟨address.toNat % pageSize, Nat.mod_lt _ (by decide)⟩

/-- The byte at an address. -/
def get (memory : Memory) (address : UInt32) : UInt8 :=
  match memory.pages[pageOf address]? with
  | some page => page[placeOf address]
  | none => 0

/-- Puts a byte at an address. -/
def set (memory : Memory) (address : UInt32) (byte : UInt8) : Memory :=
  ⟨memory.pages.alter (pageOf address) fun page =>
    some ((page.getD blankPage).set (placeOf address) byte)⟩

/-- Puts bytes at the addresses from one on. -/
def write (memory : Memory) (address : UInt32) : List UInt8 → Memory
  | [] => memory
  | byte :: rest => (memory.set address byte).write (address + 1) rest

/-- The bytes at so many addresses from one on. -/
def read (memory : Memory) (address : UInt32) (length : Nat) : List UInt8 :=
  (List.range length).map fun index => memory.get (address + UInt32.ofNat index)

end Memory

end MeshControl.Board
