import MeshControl.Error
import MeshControl.Machine.Chip
import MeshControl.Table

/-!
Sets of processors: on one chip (`Processors`, `Subset`) and over a machine (`Subsets`), where
chips keep the order in which they came in. `mem_insert` says what an insertion does to a set.
-/

namespace MeshControl.Core

/-- A set of processor numbers, ascending and without repetition. -/
structure Processors where
  list : List UInt8
  ascending : list.Pairwise (· < ·)
deriving DecidableEq, Repr

namespace Processors

/-- Puts a number into its place; one that is there already changes nothing. -/
def place (number : UInt8) : List UInt8 → List UInt8
  | [] => [number]
  | next :: rest =>
      if number < next then number :: next :: rest
      else if number = next then next :: rest
      else next :: place number rest

theorem mem_place {number other : UInt8} {list : List UInt8}
    : other ∈ place number list ↔ other = number ∨ other ∈ list := by
  induction list with
  | nil => simp [place]
  | cons next rest ih =>
      unfold place
      split
      · simp
      · split
        · next same => subst same; simp
        · simp only [List.mem_cons, ih]
          exact or_left_comm

theorem pairwise_place {number : UInt8} {list : List UInt8} (h : list.Pairwise (· < ·))
    : (place number list).Pairwise (· < ·) := by
  induction list with
  | nil => simp [place]
  | cons next rest ih =>
      have tail := List.pairwise_cons.1 h
      unfold place
      split
      · next below =>
          refine List.pairwise_cons.2 ⟨fun other member => ?_, h⟩
          rcases List.mem_cons.1 member with rfl | later
          · exact below
          · exact UInt8.lt_trans below (tail.1 other later)
      · next notBelow =>
          split
          · exact h
          · next apart =>
              refine List.pairwise_cons.2 ⟨fun other member => ?_, ih tail.2⟩
              rcases mem_place.1 member with rfl | later
              · have above : next ≤ other := UInt8.not_lt.1 notBelow
                exact UInt8.lt_of_le_of_ne above (Ne.symm apart)
              · exact tail.1 other later

/-- The set without members. -/
def empty : Processors := ⟨[], .nil⟩

instance : Inhabited Processors := ⟨empty⟩

/-- Takes a processor into the set. -/
def insert (processors : Processors) (number : UInt8) : Processors :=
  ⟨place number processors.list, pairwise_place processors.ascending⟩

/-- The set of the listed processors. -/
def ofList (numbers : List UInt8) : Processors :=
  numbers.foldl insert empty

def contains (processors : Processors) (number : UInt8) : Bool :=
  processors.list.contains number

def size (processors : Processors) : Nat :=
  processors.list.length

/-- A word in which bit `p` stands for processor `p`; higher numbers have no bit. -/
def mask (processors : Processors) : UInt32 :=
  (processors.list.filter (· < 32)).foldl
    (fun mask number => mask ||| ((1 : UInt32) <<< number.toUInt32)) 0

/-- The members between braces. -/
def text (processors : Processors) : String :=
  "\x7b" ++ ", ".intercalate (processors.list.map toString) ++ "\x7d"

/-- An inserted processor is in the set, and so is what was there. -/
theorem mem_insert {processors : Processors} {number other : UInt8}
    : other ∈ (processors.insert number).list ↔ other = number ∨ other ∈ processors.list :=
  mem_place

end Processors

/-- Processors of one chip. -/
structure Subset where
  chip : Chip
  processors : Processors
deriving DecidableEq, Repr, Inhabited

namespace Subset

/-- Some processors of a chip. -/
def ofList (chip : Chip) (numbers : List UInt8) : Subset :=
  ⟨chip, .ofList numbers⟩

/-- Chip and processors, with colons between. -/
def text (subset : Subset) : String :=
  s!"{subset.chip.x}:{subset.chip.y}:" ++ subset.processors.text

/-- Takes in another processor of the chip. -/
def insert (subset : Subset) (number : UInt8) : Subset :=
  { subset with processors := subset.processors.insert number }

end Subset

/--
Processors of many chips, each chip once, in the order in which the chips came in. The index
tells the place of a chip in the list.
-/
structure Subsets where
  list : List Subset := []
  index : Table Chip Nat := .empty
deriving Inhabited

namespace Subsets

/-- The processors of a chip, if the chip came in. -/
def get? (subsets : Subsets) (chip : Chip) : Option Processors :=
  (subsets.index.get? chip).bind fun place => (subsets.list[place]?).map Subset.processors

/-- The chip came in. -/
def isChip (subsets : Subsets) (chip : Chip) : Bool :=
  subsets.index.contains chip

/-- The processor of the chip came in. -/
def isCore (subsets : Subsets) (chip : Chip) (number : UInt8) : Bool :=
  match subsets.get? chip with
  | some processors => processors.contains number
  | none => false

/-- Puts a chip with its processors last. -/
def push (subsets : Subsets) (subset : Subset) : Subsets :=
  ⟨subsets.list ++ [subset], subsets.index.insert subset.chip subsets.list.length⟩

/-- Takes in one processor; a new chip comes last. -/
def addProcessor (subsets : Subsets) (chip : Chip) (number : UInt8) : Subsets :=
  match subsets.index.get? chip with
  | some place => { subsets with list := subsets.list.modify place (·.insert number) }
  | none => subsets.push (.ofList chip [number])

/-- Takes in a new chip with its processors; a chip that is there is refused. -/
def addSubset (subsets : Subsets) (subset : Subset) : Except Error Subsets :=
  if subsets.isChip subset.chip then
    .error (.invalidParameter "core_subset" subset.text "이미 같은 칩의 CoreSubset 이 있음")
  else
    .ok (subsets.push subset)

/-- The chips in the order in which they came in. -/
def chips (subsets : Subsets) : List Chip :=
  subsets.list.map Subset.chip

/-- The chips with their processors, in the order in which the chips came in. -/
def toList (subsets : Subsets) : List Subset :=
  subsets.list

/-- The number of chips. -/
def size (subsets : Subsets) : Nat :=
  subsets.list.length

/-- The number of processors on all chips. -/
def coreCount (subsets : Subsets) : Nat :=
  subsets.list.foldr (fun subset count => subset.processors.size + count) 0

/-- The collection of the listed processors. -/
def ofCores (cores : List (Chip × UInt8)) : Subsets :=
  cores.foldl (fun subsets core => subsets.addProcessor core.1 core.2) {}

end Subsets

end MeshControl.Core
