import MeshControl.Link.Dispatcher
import MeshControl.Proofs.Table.Contents

/-! Many callers that wait at one dispatcher at the same time. Each is somewhere in its own wait;
a step is one access of one caller to what they share: its inbox, the turn to read, the
connection, or the routes. Between two steps of one caller, all others may do anything, and
requests may be registered and unregistered.
-/

namespace MeshControl.Link

-----------------------------------------------------------------------------------------
-- Where a datagram belongs
-----------------------------------------------------------------------------------------

/-- Where a datagram belongs. -/
inductive Fate
  /-- To the inbox of the request that it answers. -/
  | owner (inbox : Nat)
  /-- To nobody, since no request waits for it. -/
  | stale
  /-- To nobody, since it is too short to tell. -/
  | short
deriving DecidableEq, Repr

/-- A datagram belongs to the inbox that its number leads to, if it leads anywhere. -/
def Fate.ofRoute : Option Nat → Fate
  | some inbox => .owner inbox
  | none => .stale

/-- Where a datagram belongs: its thirteenth and fourteenth bytes are the number of the request
that it answers, the lower byte first.
-/
def Dispatcher.fate (dispatcher : Dispatcher) (datagram : Datagram) : Fate :=
  if datagram.length < 14 then .short
  else .ofRoute (dispatcher.routes.get? (Wire.halfAt datagram 12))

-----------------------------------------------------------------------------------------
-- Callers
-----------------------------------------------------------------------------------------

/-- How far a wait has got. -/
inductive Phase
  /-- Is about to look into its inbox. -/
  | looking
  /-- Has found nothing there and is about to look at the clock. -/
  | deciding
  /-- Has time left; asks for the turn to read. -/
  | trying
  /-- Has the turn and reads the connection for a while. -/
  | reading
  /-- Has the turn and has read a datagram. -/
  | carrying (datagram : Datagram)
  /-- Is done with reading and about to give the turn back. -/
  | leaving
  /-- Another one has the turn; waits at its inbox for a while. -/
  | waiting
deriving DecidableEq, Repr

/-- The caller has the turn to read. -/
def Phase.hasTurn : Phase → Bool
  | reading
  | carrying _
  | leaving => true
  | _ => false

/-- The datagram that a caller has read and not yet put anywhere. -/
def Phase.carried : Phase → List Datagram
  | carrying datagram => [datagram]
  | _ => []

/-- A caller that may take what lies in its inbox. -/
inductive Phase.Takes : Phase → Prop
  | looking : Takes .looking
  | waiting : Takes .waiting

/-- One wait at an inbox. -/
structure Call where
  inbox : Nat
  phase : Phase

/-- A dispatcher with its connection and all that wait there. -/
structure Desk (τ : Type) where
  /-- What has arrived at the connection and was not read yet. -/
  pending : List Arrival := []
  dispatcher : Dispatcher := {}
  /-- The caller whose turn it is to read. -/
  turn : Option τ := none
  calls : Table τ Call := .empty

/-- What happens at a desk. -/
inductive Act (τ : Type)
  | opens
  | registers (sequence : UInt16) (inbox : Nat)
  | unregisters (sequence : UInt16)
  | arrives (arrival : Arrival)
  /-- A caller begins to wait at an inbox. -/
  | enters (caller : τ) (inbox : Nat)
  /-- A wait ends with a datagram from the inbox. -/
  | returns (caller : τ) (inbox : Nat) (datagram : Datagram)
  /-- A caller looks into its inbox, and nothing is there. -/
  | findsNothing (caller : τ) (inbox : Nat)
  /-- A wait ends because its time is over. -/
  | givesUp (caller : τ) (inbox : Nat)
  | looksOn (caller : τ)
  | takesTurn (caller : τ)
  | missesTurn (caller : τ)
  | reads (caller : τ) (datagram : Datagram)
  /-- Nothing came while a caller read. -/
  | lapses (caller : τ)
  /-- A wait ends because the connection fails. -/
  | fails (caller : τ) (error : Error)
  | routes (caller : τ) (datagram : Datagram) (fate : Fate)
  | leavesTurn (caller : τ)
  | waitsOut (caller : τ)
  /-- A wait ends because no request leads to its inbox any more. -/
  | closes (caller : τ)

namespace Desk

variable {τ : Type} [DecidableEq τ]

/-- A caller is in a phase of its wait. -/
def set (desk : Desk τ) (caller : τ) (inbox : Nat) (phase : Phase) : Desk τ :=
  { desk with calls := desk.calls.insert caller ⟨inbox, phase⟩ }

/-- A caller's wait is over. -/
def finish (desk : Desk τ) (caller : τ) : Desk τ :=
  { desk with calls := desk.calls.erase caller }

/-- One access of one caller, or one change from outside. A look at the inbox and the look at the
clock after it are two steps, since no lock is held from one to the other: what another caller puts
into the inbox between them is not seen by the first, and does not matter to the second. Where a
datagram is put away or a wait fails, more is one step, since nobody sees what lies between. Time is
not modelled: whoever may wait longer may also find its time over. A registration that is refused
changes nothing, and is no step.
-/
inductive Step (desk : Desk τ) : Act τ → Desk τ → Prop
  | opens : Step desk .opens { desk with dispatcher := desk.dispatcher.openInbox.2 }
  | registers {sequence : UInt16} {inbox : Nat} {registered : Dispatcher}
    (known : inbox < desk.dispatcher.fresh)
    (accepted : desk.dispatcher.register sequence inbox = .ok registered)
    : Step desk (.registers sequence inbox) { desk with dispatcher := registered }
  | unregisters (sequence : UInt16)
    : Step desk (.unregisters sequence)
        { desk with dispatcher := desk.dispatcher.unregister sequence }
  | arrives (arrival : Arrival)
    : Step desk (.arrives arrival) { desk with pending := desk.pending ++ [arrival] }
  | enters {caller : τ} {inbox : Nat} (absent : desk.calls.get? caller = none)
    : Step desk (.enters caller inbox) (desk.set caller inbox .looking)
  | returns {caller : τ} {inbox : Nat} {phase : Phase} {datagram : Datagram}
    {emptied : Dispatcher} (there : desk.calls.get? caller = some ⟨inbox, phase⟩)
    (takes : phase.Takes) (taken : desk.dispatcher.pop? inbox = some (datagram, emptied))
    : Step desk (.returns caller inbox datagram)
        { desk.finish caller with dispatcher := emptied }
  | findsNothing {caller : τ} {inbox : Nat}
    (there : desk.calls.get? caller = some ⟨inbox, .looking⟩)
    (nothing : desk.dispatcher.pop? inbox = none)
    : Step desk (.findsNothing caller inbox) (desk.set caller inbox .deciding)
  | givesUp {caller : τ} {inbox : Nat}
    (there : desk.calls.get? caller = some ⟨inbox, .deciding⟩)
    : Step desk (.givesUp caller inbox) (desk.finish caller)
  | looksOn {caller : τ} {inbox : Nat}
    (there : desk.calls.get? caller = some ⟨inbox, .deciding⟩)
    : Step desk (.looksOn caller) (desk.set caller inbox .trying)
  | takesTurn {caller : τ} {inbox : Nat} (there : desk.calls.get? caller = some ⟨inbox, .trying⟩)
    (free : desk.turn = none)
    : Step desk (.takesTurn caller)
        { desk.set caller inbox .reading with turn := some caller }
  | missesTurn {caller : τ} {inbox : Nat} (there : desk.calls.get? caller = some ⟨inbox, .trying⟩)
    (taken : desk.turn ≠ none)
    : Step desk (.missesTurn caller) (desk.set caller inbox .waiting)
  | reads {caller : τ} {inbox : Nat} {datagram : Datagram} {rest : List Arrival}
    (there : desk.calls.get? caller = some ⟨inbox, .reading⟩)
    (arrived : desk.pending = .datagram datagram :: rest)
    : Step desk (.reads caller datagram)
        { desk.set caller inbox (.carrying datagram) with pending := rest }
  | lapses {caller : τ} {inbox : Nat} (there : desk.calls.get? caller = some ⟨inbox, .reading⟩)
    : Step desk (.lapses caller) (desk.set caller inbox .leaving)
  | shrugs {caller : τ} {inbox : Nat} {error : Error} {rest : List Arrival}
    (there : desk.calls.get? caller = some ⟨inbox, .reading⟩)
    (arrived : desk.pending = .failure error :: rest) (nothing : error.isTimeout = true)
    : Step desk (.lapses caller) { desk.set caller inbox .leaving with pending := rest }
  | fails {caller : τ} {inbox : Nat} {error : Error} {rest : List Arrival}
    (there : desk.calls.get? caller = some ⟨inbox, .reading⟩)
    (arrived : desk.pending = .failure error :: rest) (grave : error.isTimeout = false)
    : Step desk (.fails caller error)
        { desk.finish caller with pending := rest, turn := none }
  | breaks {caller : τ} {inbox : Nat}
    (there : desk.calls.get? caller = some ⟨inbox, .reading⟩)
    : Step desk (.fails caller .closed) { desk.finish caller with turn := none }
  | routes {caller : τ} {inbox : Nat} {datagram : Datagram}
    (there : desk.calls.get? caller = some ⟨inbox, .carrying datagram⟩)
    : Step desk (.routes caller datagram (desk.dispatcher.fate datagram))
        { desk.set caller inbox .leaving with dispatcher := desk.dispatcher.route datagram }
  | leavesTurn {caller : τ} {inbox : Nat}
    (there : desk.calls.get? caller = some ⟨inbox, .leaving⟩)
    : Step desk (.leavesTurn caller) { desk.set caller inbox .looking with turn := none }
  | waitsOut {caller : τ} {inbox : Nat} (there : desk.calls.get? caller = some ⟨inbox, .waiting⟩)
    : Step desk (.waitsOut caller) (desk.set caller inbox .looking)
  | closes {caller : τ} {inbox : Nat} (there : desk.calls.get? caller = some ⟨inbox, .waiting⟩)
    (nothing : desk.dispatcher.pop? inbox = none)
    (unrouted : ∀ sequence, desk.dispatcher.routes.get? sequence ≠ some inbox)
    : Step desk (.closes caller) (desk.finish caller)

/-- A run: what happened, and where it led. -/
inductive Runs (before : Desk τ) : List (Act τ) → Desk τ → Prop
  | start : Runs before [] before
  | step {acts : List (Act τ)} {desk after : Desk τ} {act : Act τ} (run : Runs before acts desk)
    (next : Step desk act after)
    : Runs before (acts ++ [act]) after

end Desk

-----------------------------------------------------------------------------------------
-- What a run has read, put away and given out
-----------------------------------------------------------------------------------------

namespace Act

variable {τ : Type}

/-- The datagram that is read. -/
def reading? : Act τ → Option Datagram
  | reads _ datagram => some datagram
  | _ => none

/-- The datagram that is put away, with where it belongs. -/
def routing? : Act τ → Option (Datagram × Fate)
  | routes _ datagram fate => some (datagram, fate)
  | _ => none

/-- The datagram that is given out, with its inbox. -/
def return? : Act τ → Option (Nat × Datagram)
  | returns _ inbox datagram => some (inbox, datagram)
  | _ => none

end Act

variable {τ : Type}

/-- All datagrams that were read, oldest first. -/
def readings (acts : List (Act τ)) : List Datagram :=
  acts.filterMap Act.reading?

/-- All datagrams that were put away, oldest first, with where they belonged. -/
def routings (acts : List (Act τ)) : List (Datagram × Fate) :=
  acts.filterMap Act.routing?

/-- All datagrams that were given out, oldest first, with their inboxes. -/
def returned (acts : List (Act τ)) : List (Nat × Datagram) :=
  acts.filterMap Act.return?

/-- The datagrams that were put away for an inbox. -/
def deliveredTo (inbox : Nat) (acts : List (Act τ)) : List Datagram :=
  ((routings acts).filter fun routing => routing.2 = .owner inbox).map Prod.fst

/-- The datagrams that were given out from an inbox. -/
def returnedFrom (inbox : Nat) (acts : List (Act τ)) : List Datagram :=
  ((returned acts).filter fun given => given.1 = inbox).map Prod.snd

theorem filterMap_snoc {α β : Type} (pick : α → Option β) (items : List α) (item : α)
    : (items ++ [item]).filterMap pick = items.filterMap pick ++ (pick item).toList := by
  rw [List.filterMap_append]
  cases picked : pick item <;> simp [picked]

theorem readings_snoc (acts : List (Act τ)) (act : Act τ)
    : readings (acts ++ [act]) = readings acts ++ act.reading?.toList :=
  filterMap_snoc Act.reading? acts act

theorem routings_snoc (acts : List (Act τ)) (act : Act τ)
    : routings (acts ++ [act]) = routings acts ++ act.routing?.toList :=
  filterMap_snoc Act.routing? acts act

theorem returned_snoc (acts : List (Act τ)) (act : Act τ)
    : returned (acts ++ [act]) = returned acts ++ act.return?.toList :=
  filterMap_snoc Act.return? acts act

theorem deliveredTo_snoc (inbox : Nat) (acts : List (Act τ)) (act : Act τ)
    : deliveredTo inbox (acts ++ [act])
      = deliveredTo inbox acts
        ++ (act.routing?.toList.filter fun routing => routing.2 = .owner inbox).map Prod.fst := by
  simp only [deliveredTo, routings_snoc, List.filter_append, List.map_append]

theorem returnedFrom_snoc (inbox : Nat) (acts : List (Act τ)) (act : Act τ)
    : returnedFrom inbox (acts ++ [act])
      = returnedFrom inbox acts
        ++ (act.return?.toList.filter fun given => given.1 = inbox).map Prod.snd := by
  simp only [returnedFrom, returned_snoc, List.filter_append, List.map_append]

end MeshControl.Link
