import MeshControl.Link.Selector
import MeshControl.Link.Station
import MeshControl.Scp.Sequence

/-!
The connections of a machine with all that is shared by those who send on them: the source of
sequence numbers, the choice of connection, and the journal.
-/

namespace MeshControl.Link

open Scp

/-- The shared state of all senders. -/
structure Hub (ρ : Type) where
  lines : List (Line ρ)
  selector : Selector
  sequences : SequenceGenerator := {}
  /-- What has happened on all connections. -/
  journal : Array Event := #[]

namespace Hub

variable {ρ : Type}

/-- The connection with its dispatcher, by number. -/
def line? (hub : Hub ρ) (number : Nat) : Option (Line ρ) :=
  hub.lines[number]?

/-- A connection has changed. -/
def setLine (hub : Hub ρ) (number : Nat) (line : Line ρ) : Hub ρ :=
  { hub with lines := hub.lines.set number line }

/-- A connection changes. -/
def modifyLine (hub : Hub ρ) (number : Nat) (change : Line ρ → Line ρ) : Hub ρ :=
  { hub with lines := hub.lines.modify number change }

/-- What a window did on a connection takes effect. -/
def update (hub : Hub ρ) (number : Nat) (station : Station ρ) : Hub ρ :=
  { hub.setLine number station.line with journal := station.journal }

/-- Answers that nobody waited for, on all connections. -/
def stale (hub : Hub ρ) : Nat :=
  hub.lines.foldr (fun line total => line.dispatcher.stale + total) 0

/-- The connections that a selector may choose from. -/
def candidates (lines : List (Line ρ)) : List Candidate :=
  lines.map fun line => ⟨line.connection.number, line.connection.chip⟩

/-- Something arrives at a connection that no transmission brought about. -/
def inject (hub : Hub ρ) (number : Nat) (reaction : Reaction) : Hub ρ :=
  hub.modifyLine number fun line =>
    { line with connection := line.connection.absorb reaction }

end Hub

/-- The number of all sequence numbers. -/
def sequenceCount : Nat := 65536

/-- The first free sequence number from a generator on, if there is one among so many draws. -/
def nextFree (taken : UInt16 → Bool)
    : Nat → SequenceGenerator → Option (UInt16 × SequenceGenerator)
  | 0, _ => none
  | draws + 1, sequences =>
      let (sequence, after) := sequences.draw
      if taken sequence then nextFree taken draws after else some (sequence, after)

end MeshControl.Link
