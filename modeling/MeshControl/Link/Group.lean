import MeshControl.Link.Process

/-!
Several processes on the same connections. They may share sequence numbers and dispatchers, or
each may have its own. Outcomes that were asked for can be picked up later, each once.
-/

namespace MeshControl.Link

open Scp

/-- What the processes of a group have in common besides the connections. -/
inductive Sharing
  | everything
  | sequences
  | nothing
deriving DecidableEq, Repr, Inhabited

/-- A process with what it does not share. -/
structure Member where
  process : Process
  sequences : SequenceGenerator
  dispatchers : List Dispatcher

/-- The place where one outcome can be picked up. -/
structure Slot where
  /-- The member that sent the request. -/
  member : Nat
  /-- The outcome was picked up. -/
  taken : Bool := false

/-- What somebody finds who looks for an outcome. -/
inductive Delivery
  | outcome (result : Except Error Response)
  /-- The request still waits for its answer. -/
  | empty
  /-- Nothing will come any more. -/
  | disconnected

/-- Processes on the same connections, by number. -/
structure Group (ρ : Type) where
  hub : Hub ρ
  sharing : Sharing
  members : Table Nat Member := .empty
  fresh : Nat := 0
  slots : List Slot := []

namespace Group

variable {ρ : Type}

/-- A new process, with its number. -/
def add (group : Group ρ) (config : Config) : Nat × Group ρ :=
  let member : Member :=
    { process := { config }
      sequences := {}
      dispatchers := group.hub.lines.map fun _ => {} }
  (group.fresh,
    { group with members := group.members.insert group.fresh member, fresh := group.fresh + 1 })

/-- The connections with other dispatchers. -/
def withDispatchers (lines : List (Line ρ)) (dispatchers : List Dispatcher) : List (Line ρ) :=
  List.zipWith (fun line dispatcher => { line with dispatcher }) lines dispatchers

/-- The hub as a member sees it. -/
def hubOf (group : Group ρ) (member : Member) : Hub ρ :=
  match group.sharing with
  | .everything => group.hub
  | .sequences =>
      { group.hub with lines := withDispatchers group.hub.lines member.dispatchers }
  | .nothing =>
      { group.hub with
        lines := withDispatchers group.hub.lines member.dispatchers
        sequences := member.sequences }

/-- What a member did takes effect: what it shares changes for all, the rest for itself. -/
def update (group : Group ρ) (number : Nat) (hub : Hub ρ) (process : Process) : Group ρ :=
  let member : Member :=
    { process
      sequences := hub.sequences
      dispatchers := hub.lines.map Line.dispatcher }
  let shared := match group.sharing with
    | .everything => hub
    | .sequences =>
        { hub with
          lines := withDispatchers hub.lines (group.hub.lines.map Line.dispatcher) }
    | .nothing =>
        { hub with
          lines := withDispatchers hub.lines (group.hub.lines.map Line.dispatcher)
          sequences := group.hub.sequences }
  { group with hub := shared, members := group.members.insert number member }

/-- Lets a member act, unless it is gone. -/
def act {ε α : Type} (group : Group ρ) (number : Nat) (gone : ε)
    (run : Hub ρ → Process → Except ε α × Hub ρ × Process) : Except ε α × Group ρ :=
  match group.members.get? number with
  | none => (.error gone, group)
  | some member =>
      let (result, hub, process) := run (group.hubOf member) member.process
      (result, group.update number hub process)

/-- A member sends a request. -/
def send [Responder ρ] (group : Group ρ) (number : Nat) (request : Request)
    (handler : Handler) : Except Halt Unit × Group ρ :=
  group.act number (.failed .closed) fun hub process => Process.send hub process request handler

/-- A member sends a request whose outcome can be picked up at the given place. -/
def sendForReply [Responder ρ] (group : Group ρ) (number : Nat) (request : Request)
    : Except Halt Nat × Group ρ :=
  let slot := group.slots.length
  match group.send number request { audience := .slot slot } with
  | (.error halt, group) => (.error halt, group)
  | (.ok (), group) => (.ok slot, { group with slots := group.slots ++ [{ member := number }] })

/-- A member waits until its requests have ended. -/
def finish [Responder ρ] (group : Group ρ) (number : Nat) : Except Error Unit × Group ρ :=
  group.act number .closed Process.finish

/-- The first failure of a member. -/
def check (group : Group ρ) (number : Nat) : Except Error Unit :=
  match group.members.get? number with
  | none => .error .closed
  | some member => member.process.check

/-- A member waits until its requests have ended, and reports its first failure. -/
def finishAndCheck [Responder ρ] (group : Group ρ) (number : Nat)
    : Except Error Unit × Group ρ :=
  group.act number .closed Process.finishAndCheck

/-- A member goes away. -/
def drop (group : Group ρ) (number : Nat) : Group ρ :=
  match group.members.get? number with
  | none => group
  | some member =>
      let hub := member.process.drop (group.hubOf member)
      let group := group.update number hub member.process
      { group with members := group.members.erase number }

/-- The outcome for a slot, if there is one. -/
def outcome? (events : Array Event) (slot : Nat) : Option (Except Error Response) :=
  events.findSome? fun event =>
    match event with
    | .accepted _ response audience =>
        if audience = .slot slot then some (.ok response) else none
    | .failed _ error audience => if audience = .slot slot then some (.error error) else none
    | .transmitted .. => none

/--
A member sends a request, waits for everything, gives the answer, and goes away. It goes away too
if the request could not be made. The answer is not for a slot, so the slots stay as they are.
-/
def execute [Responder ρ] (group : Group ρ) (number : Nat) (request : Except Halt Request)
    : Except Halt Response × Group ρ :=
  let before := group.hub.journal.size
  let (result, group) : Except Halt Unit × Group ρ :=
    match request with
    | .error halt => (.error halt, group)
    | .ok request =>
        match group.send number request { audience := .caller } with
        | (.error halt, group) => (.error halt, group)
        | (.ok (), group) =>
            let (result, group) := group.finishAndCheck number
            (result.mapError .failed, group)
  -- Events from before belong to other calls.
  let events := group.hub.journal.extract before group.hub.journal.size
  (result.bind fun () => (callersAnswer events).mapError .failed, group.drop number)

/-- The request for a slot still waits in some window of the process. -/
def isAwaited (process : Process) (slot : Nat) : Bool :=
  process.windows.values.any fun window =>
    window.outstanding.values.any fun entry => decide (entry.handler.audience = .slot slot)

/-- Looks for an outcome, and picks it up. -/
def tryReceive (group : Group ρ) (slot : Nat) : Delivery × Group ρ :=
  match group.slots[slot]? with
  | none => (.disconnected, group)
  | some place =>
      if place.taken then (.disconnected, group)
      else
        match outcome? group.hub.journal slot with
        | some result =>
            (.outcome result,
              { group with slots := group.slots.set slot { place with taken := true } })
        | none =>
            match group.members.get? place.member with
            | none => (.disconnected, group)
            | some member =>
                (if isAwaited member.process slot then .empty else .disconnected, group)

/-- Draws sequence numbers from the shared generator and throws them away. -/
def advance (group : Group ρ) (count : Nat) : Group ρ :=
  { group with hub := { group.hub with sequences := group.hub.sequences.skip count } }

/-- Something arrives at a connection that no transmission brought about. -/
def inject (group : Group ρ) (number : Nat) (reaction : Reaction) : Group ρ :=
  { group with hub := group.hub.inject number reaction }

end Group

end MeshControl.Link
