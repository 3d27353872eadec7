import MeshControl.Error
import MeshControl.Machine.Topology
import MeshControl.Table

/-!
Which connection a request takes: always the same one, each in turn, or the one closest to the
chip that the request is for.
-/

namespace MeshControl.Link

/-- A connection that may be chosen, with the chip at its other end. -/
structure Candidate where
  number : Nat
  chip : Chip
deriving DecidableEq, Repr, Inhabited

/-- The candidates by chip. -/
structure Directory where
  byChip : Table Chip Candidate
  /-- Whom to take where no candidate is close. -/
  fallback : Candidate
  /-- How many candidates there are, those that have no place among the others included. -/
  count : Nat
deriving Inhabited

namespace Directory

/-- A candidate takes the place of its chip, unless an earlier one has it. -/
def enter (byChip : Table Chip Candidate) (candidate : Candidate) : Table Chip Candidate :=
  if byChip.contains candidate.chip then byChip else byChip.insert candidate.chip candidate

/-- The directory of a pool of candidates, of which there is at least one. Where no other is
close, the candidate at the corner is taken, else the first.
-/
def ofPool (first : Candidate) (others : List Candidate) : Directory :=
  let byChip := (first :: others).foldl enter .empty
  { byChip
    fallback := (byChip.get? .origin).getD first
    count := others.length + 1 }

/-- The candidate at the chip, else the one at the socket of its board. -/
def look (directory : Directory) (topology : Option Topology) (chip : Chip) : Candidate :=
  match directory.byChip.get? chip with
  | some candidate => candidate
  | none =>
      match topology with
      | none => directory.fallback
      | some machine =>
          match machine.nearestEthernet chip with
          | some socket => (directory.byChip.get? socket).getD directory.fallback
          | none => directory.fallback

/-- The candidate closest to a chip. A lone candidate needs no look at the chip. -/
def closest (directory : Directory) (topology : Option Topology) (chip : Chip) : Candidate :=
  if directory.count = 1 then directory.fallback else directory.look topology chip

end Directory

/-- A way to choose a connection. Where candidates take turns, the first stands apart: there
always is one.
-/
inductive Selector
  | fixed (candidate : Candidate)
  | roundRobin (first : Candidate) (others : List Candidate) (turn : Nat)
  | byPlace (directory : Directory) (topology : Option Topology)
deriving Inhabited

namespace Selector

/-- The candidate closest to the destination, of a pool that is not empty. -/
def mostDirect (first : Candidate) (others : List Candidate) (topology : Option Topology)
    : Selector :=
  .byPlace (.ofPool first others) topology

/-- Always the first candidate. -/
def fixed? : List Candidate → Except Error Selector
  | [] => .error .noConnections
  | first :: _ => .ok (.fixed first)

/-- Each candidate in turn. -/
def roundRobin? : List Candidate → Except Error Selector
  | [] => .error .noConnections
  | first :: others => .ok (.roundRobin first others 0)

/-- The candidate closest to the destination. -/
def mostDirect? (topology : Option Topology) : List Candidate → Except Error Selector
  | [] => .error .noConnections
  | first :: others => .ok (.mostDirect first others topology)

/-- Chooses a connection for a destination; turns move on. -/
def select (selector : Selector) (destination : Chip) : Candidate × Selector :=
  match selector with
  | fixed candidate => (candidate, selector)
  | roundRobin first others turn =>
      let candidates := first :: others
      (candidates[turn % candidates.length]?.getD first, roundRobin first others (turn + 1))
  | byPlace directory topology => (directory.closest topology destination, selector)

/-- Tells the size of the machine to a selector that uses it. -/
def setTopology (selector : Selector) (machine : Topology) : Selector :=
  match selector with
  | byPlace directory _ => byPlace directory (some machine)
  | _ => selector

/-- The size of the machine, if the selector was told. -/
def topology? : Selector → Option Topology
  | byPlace _ topology => topology
  | _ => none

end Selector

end MeshControl.Link
