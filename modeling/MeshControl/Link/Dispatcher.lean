import MeshControl.Link.Connection
import MeshControl.Scp.Response
import MeshControl.Table

/-!
One connection shared by many readers. Each reader has an inbox; a request's sequence number
leads to the inbox of the reader that sent it. Whoever waits reads the connection for all: what
is not its own goes to the inbox it belongs to, and what belongs to nobody is counted as stale.
-/

namespace MeshControl.Link

open Scp

/-- The routes from sequence numbers to inboxes, and what lies in the inboxes. -/
structure Dispatcher where
  routes : Table UInt16 Nat := .empty
  inboxes : Table Nat (List Datagram) := .empty
  stale : Nat := 0
  /-- The number of the next inbox. -/
  fresh : Nat := 0
deriving Inhabited

namespace Dispatcher

/-- What lies in an inbox, oldest first. -/
def inbox (dispatcher : Dispatcher) (number : Nat) : List Datagram :=
  (dispatcher.inboxes.get? number).getD []

/-- A new inbox with its number. -/
def openInbox (dispatcher : Dispatcher) : Nat × Dispatcher :=
  (dispatcher.fresh,
    { dispatcher with
      inboxes := dispatcher.inboxes.insert dispatcher.fresh []
      fresh := dispatcher.fresh + 1 })

/-- An inbox goes away with what lies in it. -/
def discard (dispatcher : Dispatcher) (number : Nat) : Dispatcher :=
  { dispatcher with inboxes := dispatcher.inboxes.erase number }

/-- A request with this number waits for its answer. -/
def isRegistered (dispatcher : Dispatcher) (sequence : UInt16) : Bool :=
  dispatcher.routes.contains sequence

/-- Leads a sequence number to an inbox; a number that is in use is refused. -/
def register (dispatcher : Dispatcher) (sequence : UInt16) (inbox : Nat)
    : Except Error Dispatcher :=
  if dispatcher.isRegistered sequence then
    .error (.invalidParameter "sequence" (toString sequence) "이 연결에서 응답을 기다리는 중")
  else
    .ok { dispatcher with routes := dispatcher.routes.insert sequence inbox }

/-- Frees a sequence number. -/
def unregister (dispatcher : Dispatcher) (sequence : UInt16) : Dispatcher :=
  { dispatcher with routes := dispatcher.routes.erase sequence }

/-- Puts a datagram into the inbox it belongs to; one too short to tell goes nowhere. -/
def route (dispatcher : Dispatcher) (datagram : Datagram) : Dispatcher :=
  match Response.peek datagram with
  | .error _ => dispatcher
  | .ok (_, sequence) =>
      match dispatcher.routes.get? sequence with
      | some number =>
          { dispatcher with
            inboxes := dispatcher.inboxes.insert number (dispatcher.inbox number ++ [datagram]) }
      | none => { dispatcher with stale := dispatcher.stale + 1 }

/-- Takes the oldest datagram out of an inbox. -/
def pop? (dispatcher : Dispatcher) (number : Nat) : Option (Datagram × Dispatcher) :=
  match dispatcher.inbox number with
  | [] => none
  | datagram :: rest =>
      some (datagram, { dispatcher with inboxes := dispatcher.inboxes.insert number rest })

/-- A datagram more in one inbox, or none. -/
theorem length_inbox_route_le (dispatcher : Dispatcher) (datagram : Datagram) (number : Nat)
    : ((dispatcher.route datagram).inbox number).length ≤ (dispatcher.inbox number).length + 1 := by
  unfold route
  split
  · omega
  · split
    · next other _ =>
        by_cases same : number = other
        · subst same
          simp [inbox]
        · simp [inbox, same]
    · simp [inbox]

/-- Taking a datagram out leaves one less. -/
theorem length_inbox_of_pop? {dispatcher : Dispatcher} {number : Nat} {datagram : Datagram}
    {after : Dispatcher} (h : dispatcher.pop? number = some (datagram, after))
    : (after.inbox number).length + 1 = (dispatcher.inbox number).length := by
  unfold pop? at h
  split at h
  · simp at h
  · next rest equal =>
      simp only [Option.some.injEq, Prod.mk.injEq] at h
      obtain ⟨_, rfl⟩ := h
      rw [equal]
      simp [inbox]

end Dispatcher

/-- How long a wait that found nothing lasted. -/
def noAnswer (limit : Duration) : Error :=
  .timeout "receive" limit

/--
Waits at an inbox while reading what has arrived. The inbox comes first; a wait of no length does
not read at all; an error of a wait that found nothing does not end this one, any other error does.
-/
def Dispatcher.awaitFrom (inbox : Nat) (limit : Duration)
    : List Arrival → Dispatcher → Except Error Datagram × List Arrival × Dispatcher
  | [], dispatcher =>
      match dispatcher.pop? inbox with
      | some (datagram, dispatcher) => (.ok datagram, [], dispatcher)
      | none => (.error (noAnswer limit), [], dispatcher)
  | arrival :: rest, dispatcher =>
      match dispatcher.pop? inbox with
      | some (datagram, dispatcher) => (.ok datagram, arrival :: rest, dispatcher)
      | none =>
          if limit.nanoseconds = 0 then (.error (noAnswer limit), arrival :: rest, dispatcher)
          else
            match arrival with
            | .datagram bytes => awaitFrom inbox limit rest (dispatcher.route bytes)
            | .failure error =>
                if error.isTimeout then awaitFrom inbox limit rest dispatcher
                else (.error error, rest, dispatcher)

/-- A connection with its dispatcher. -/
structure Line (ρ : Type) where
  connection : Connection ρ
  dispatcher : Dispatcher := {}
deriving Inhabited

namespace Line

variable {ρ : Type}

/-- Waits for the next datagram of an inbox. -/
def await (line : Line ρ) (inbox : Nat) (limit : Duration) : Except Error Datagram × Line ρ :=
  if line.connection.closed then
    match line.dispatcher.pop? inbox with
    | some (datagram, dispatcher) => (.ok datagram, { line with dispatcher })
    | none => (.error (if limit.nanoseconds = 0 then noAnswer limit else .closed), line)
  else
    let (result, pending, dispatcher) :=
      Dispatcher.awaitFrom inbox limit line.connection.pending line.dispatcher
    (result, { connection := { line.connection with pending }, dispatcher })

/-- What a reader may still get without a further transmission. -/
def unread (line : Line ρ) (inbox : Nat) : Nat :=
  line.connection.pending.length + (line.dispatcher.inbox inbox).length

end Line

/-- A wait that ends well has used up something that was there. -/
theorem Dispatcher.awaitFrom_ok {inbox : Nat} {limit : Duration} {pending after : List Arrival}
    {dispatcher next : Dispatcher} {datagram : Datagram}
    (h : awaitFrom inbox limit pending dispatcher = (.ok datagram, after, next))
    : after.length + (next.inbox inbox).length
      < pending.length + (dispatcher.inbox inbox).length := by
  fun_induction awaitFrom inbox limit pending dispatcher with
  | case1 dispatcher found rest popped =>
      simp only [Prod.mk.injEq] at h
      obtain ⟨_, rfl, rfl⟩ := h
      have := length_inbox_of_pop? popped
      simp only [List.length_nil]
      omega
  | case2 => simp at h
  | case3 dispatcher arrival rest found remaining popped =>
      simp only [Prod.mk.injEq] at h
      obtain ⟨_, rfl, rfl⟩ := h
      have := length_inbox_of_pop? popped
      simp only [List.length_cons]
      omega
  | case4 => simp at h
  | case5 rest dispatcher _ _ bytes ih =>
      have := ih h
      have := length_inbox_route_le dispatcher bytes inbox
      simp only [List.length_cons]
      omega
  | case6 rest dispatcher _ _ error _ ih =>
      have := ih h
      simp only [List.length_cons]
      omega
  | case7 => simp at h

/-- A wait that ends well has used up something that was there. -/
theorem Line.unread_await_lt {ρ : Type} {line after : Line ρ} {inbox : Nat} {limit : Duration}
    {datagram : Datagram} (h : line.await inbox limit = (.ok datagram, after))
    : after.unread inbox < line.unread inbox := by
  unfold await at h
  split at h
  · split at h
    · next popped =>
        simp only [Prod.mk.injEq] at h
        obtain ⟨_, rfl⟩ := h
        have := Dispatcher.length_inbox_of_pop? popped
        simp only [unread]
        omega
    · simp at h
  · simp only [Prod.mk.injEq] at h
    obtain ⟨result, rfl⟩ := h
    have waited : Dispatcher.awaitFrom inbox limit line.connection.pending line.dispatcher
        = (.ok datagram, _, _) := Prod.ext result rfl
    exact Dispatcher.awaitFrom_ok waited

end MeshControl.Link
