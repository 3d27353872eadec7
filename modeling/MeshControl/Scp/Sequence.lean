/-!
Sequence numbers: sixteen bits, counted up and around.
-/

namespace MeshControl.Scp

/-- The sequence number after another; zero follows the last. -/
def nextSequence (number : UInt16) : UInt16 :=
  number + 1

/-- Hands out sequence numbers one after the other. -/
structure SequenceGenerator where
  next : UInt16 := 0
deriving DecidableEq, Repr, Inhabited

namespace SequenceGenerator

/-- The next number, and the generator after it. -/
def draw (generator : SequenceGenerator) : UInt16 × SequenceGenerator :=
  (generator.next, ⟨nextSequence generator.next⟩)

/-- The generator after some numbers were drawn and thrown away. -/
def skip (generator : SequenceGenerator) (count : Nat) : SequenceGenerator :=
  ⟨generator.next + UInt16.ofNat count⟩

/-- The next numbers in order. -/
def take (generator : SequenceGenerator) : Nat → List UInt16
  | 0 => []
  | count + 1 => generator.draw.1 :: take generator.draw.2 count

end SequenceGenerator

end MeshControl.Scp
