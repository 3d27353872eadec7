import MeshControl.Net.Socket

/-! A socket that has a peer hears nobody else. Whatever waits between the datagrams of its peer is
thrown away on the way to the next one, so what it receives is what it would have received if
nobody else had ever sent; and no datagram of the peer is lost on the way, even where the time of a
call is up before it is found.
-/

namespace MeshControl.Net.Socket

-----------------------------------------------------------------------------------------
-- What a socket has still to give
-----------------------------------------------------------------------------------------

/-- The datagrams of one sender in a queue, cut to the room that there is for one. -/
def sentBy (peer : Address) (room : Nat) (queue : List (Address × Datagram)) : List Datagram :=
  (queue.filter fun item => item.1 = peer).map fun item => item.2.take room

/-- What the peer has sent that was not received yet. -/
def heard (socket : Socket) (peer : Address) : List Datagram :=
  sentBy peer socket.room socket.queue

/-- The socket as if nobody but its peer had sent anything. -/
def secluded (socket : Socket) (peer : Address) : Socket :=
  { socket with queue := socket.queue.filter fun item => item.1 = peer }

/-- The datagram that a call brought, if it brought one. -/
def gained : Except Error Datagram → List Datagram
  | .ok datagram => [datagram]
  | .error _ => []

/-- What a call brought: a datagram, or the kind of its failure. -/
def outcome (result : Except Error Datagram) : Except String Datagram :=
  result.mapError Error.kind

/-- What a call brings that has the time to find the next datagram. -/
def next : List Datagram → Except String Datagram
  | [] => .error "Timeout"
  | datagram :: _ => .ok datagram

variable {socket other : Socket} {peer : Address} {room : Nat}

theorem sentBy_filter (peer : Address) (room : Nat) (queue : List (Address × Datagram))
    : sentBy peer room (queue.filter fun item => item.1 = peer) = sentBy peer room queue := by
  simp [sentBy]

theorem sentBy_append (peer : Address) (room : Nat) (queue later : List (Address × Datagram))
    : sentBy peer room (queue ++ later) = sentBy peer room queue ++ sentBy peer room later := by
  simp [sentBy]

theorem sentBy_peer (peer : Address) (room : Nat) (datagram : Datagram)
    (queue : List (Address × Datagram))
    : sentBy peer room ((peer, datagram) :: queue)
      = datagram.take room :: sentBy peer room queue := by
  simp [sentBy]

theorem sentBy_stranger {sender : Address} (stranger : sender ≠ peer) (room : Nat)
    (datagram : Datagram) (queue : List (Address × Datagram))
    : sentBy peer room ((sender, datagram) :: queue) = sentBy peer room queue := by
  simp [sentBy, stranger]

@[simp] theorem outcome_ok (datagram : Datagram) : outcome (.ok datagram) = .ok datagram :=
  rfl

@[simp] theorem outcome_error (failure : Error) : outcome (.error failure) = .error failure.kind :=
  rfl

theorem gained_eq_of_outcome {result again : Except Error Datagram}
    (same : outcome result = outcome again)
    : gained result = gained again := by
  cases result <;> cases again <;> simp_all [gained]

-----------------------------------------------------------------------------------------
-- One call
-----------------------------------------------------------------------------------------

section Listen

variable {limit : Duration} {elapsed : Nat → Nat}

/-- What is found and what is left is what was there, however the time goes by: datagrams of the
peer leave the queue one by one and are not passed over. By induction on the queue.
-/
theorem gained_listen (socket : Socket) (peer : Address) (limit : Duration)
    (elapsed : Nat → Nat) (look : Nat) (queue : List (Address × Datagram))
    : gained (socket.listen peer limit elapsed look queue).1
        ++ sentBy peer socket.room (socket.listen peer limit elapsed look queue).2
      = sentBy peer socket.room queue := by
  induction queue generalizing look with
  | nil =>
      unfold listen
      dsimp only
      split
      · rfl
      split <;> rfl
  | cons item queue ih =>
      obtain ⟨sender, datagram⟩ := item
      unfold listen
      dsimp only
      split
      · rfl
      split
      · rfl
      split
      · next same =>
          subst same
          exact (sentBy_peer _ _ _ _).symm
      · next stranger =>
          rw [sentBy_stranger stranger]
          exact ih (look + 1)

/-- A call whose time is not up at any look finds the next datagram of the peer, or that there is
none.
-/
theorem outcome_listen (opened : socket.closed = false)
    (patient : ∀ look, elapsed look < limit.nanoseconds) (look : Nat)
    (queue : List (Address × Datagram))
    : outcome (socket.listen peer limit elapsed look queue).1
      = next (sentBy peer socket.room queue) := by
  have remains (look : Nat) : limit.nanoseconds - elapsed look ≠ 0 :=
    Nat.sub_ne_zero_of_lt (patient look)
  induction queue generalizing look with
  | nil =>
      simp only [listen, remains, opened, if_false, Bool.false_eq_true]
      rfl
  | cons item queue ih =>
      obtain ⟨sender, datagram⟩ := item
      unfold listen
      simp only [remains, opened, if_false, Bool.false_eq_true]
      by_cases same : sender = peer
      · subst same
        rw [if_pos rfl, sentBy_peer]
        rfl
      · rw [if_neg same, sentBy_stranger same]
        exact ih (look + 1)

theorem outcome_listen_closed (closed : socket.closed = true)
    (patient : ∀ look, elapsed look < limit.nanoseconds) (look : Nat)
    (queue : List (Address × Datagram))
    : outcome (socket.listen peer limit elapsed look queue).1 = .error "Closed" := by
  have remains : limit.nanoseconds - elapsed look ≠ 0 := Nat.sub_ne_zero_of_lt (patient look)
  unfold listen
  simp only [remains, closed, if_false, if_true]
  rfl

end Listen

section Receive

variable (bound : socket.peer = some peer) {limit : Duration} {elapsed : Nat → Nat}
include bound

theorem receive_eq (limit : Duration) (elapsed : Nat → Nat)
    : socket.receive limit elapsed
      = ((socket.listen peer limit elapsed 0 socket.queue).1,
          { socket with queue := (socket.listen peer limit elapsed 0 socket.queue).2 }) := by
  rw [receive, bound]

theorem gained_receive (limit : Duration) (elapsed : Nat → Nat)
    : gained (socket.receive limit elapsed).1 ++ (socket.receive limit elapsed).2.heard peer
      = socket.heard peer := by
  rw [receive_eq bound]
  exact gained_listen socket peer limit elapsed 0 socket.queue

theorem outcome_receive (patient : ∀ look, elapsed look < limit.nanoseconds)
    : outcome (socket.receive limit elapsed).1
      = if socket.closed then .error "Closed" else next (socket.heard peer) := by
  rw [receive_eq bound]
  cases state : socket.closed with
  | true => exact outcome_listen_closed state patient 0 socket.queue
  | false => exact outcome_listen state patient 0 socket.queue

end Receive

-----------------------------------------------------------------------------------------
-- A history of calls, and of what arrives meanwhile
-----------------------------------------------------------------------------------------

/-- A request for the next datagram. -/
structure Call where
  limit : Duration
  /-- How many nanoseconds of the limit are gone at each look at the queue. -/
  elapsed : Nat → Nat

/-- The time is not up at any look, so that nothing but an empty queue ends the call without a
datagram. Where no time goes by while something waits, that is any limit that is not zero.
-/
def Call.Patient (call : Call) : Prop :=
  ∀ look, call.elapsed look < call.limit.nanoseconds

inductive Happening
  | arrives (sender : Address) (datagram : Datagram)
  | asks (call : Call)

/-- What is left of a history without senders other than the peer. -/
def Happening.concerns (peer : Address) : Happening → Bool
  | arrives sender _ => sender = peer
  | asks _ => true

/-- What the calls of a history bring, one after the other. -/
def run (socket : Socket) : List Happening → List (Except Error Datagram) × Socket
  | [] => ([], socket)
  | .arrives sender datagram :: rest => run (socket.deliver sender datagram) rest
  | .asks call :: rest =>
      let (result, after) := socket.receive call.limit call.elapsed
      let (results, last) := run after rest
      (result :: results, last)

/-- Two sockets with one peer that have the same to give, whatever else waits at them. -/
structure Alike (peer : Address) (socket other : Socket) : Prop where
  left : socket.peer = some peer
  right : other.peer = some peer
  closed : socket.closed = other.closed
  room : socket.room = other.room
  heard : socket.heard peer = other.heard peer

theorem alike_secluded (bound : socket.peer = some peer)
    : Alike peer socket (socket.secluded peer) :=
  ⟨bound, bound, rfl, rfl, (sentBy_filter peer socket.room socket.queue).symm⟩

theorem heard_deliver (socket : Socket) (peer sender : Address) (datagram : Datagram)
    : (socket.deliver sender datagram).heard peer
      = if socket.closed then socket.heard peer
        else socket.heard peer ++ sentBy peer socket.room [(sender, datagram)] := by
  unfold deliver
  split
  · rfl
  · exact sentBy_append _ _ _ _

theorem deliver_keeps (socket : Socket) (sender : Address) (datagram : Datagram)
    : (socket.deliver sender datagram).peer = socket.peer
      ∧ (socket.deliver sender datagram).closed = socket.closed
      ∧ (socket.deliver sender datagram).room = socket.room := by
  unfold deliver
  split <;> exact ⟨rfl, rfl, rfl⟩

namespace Alike

/-- What arrives at both leaves them alike. -/
theorem deliver (alike : Alike peer socket other) (sender : Address) (datagram : Datagram)
    : Alike peer (socket.deliver sender datagram) (other.deliver sender datagram) := by
  obtain ⟨peer_left, closed_left, room_left⟩ := deliver_keeps socket sender datagram
  obtain ⟨peer_right, closed_right, room_right⟩ := deliver_keeps other sender datagram
  refine ⟨peer_left.trans alike.left, peer_right.trans alike.right, ?_, ?_, ?_⟩
  · rw [closed_left, closed_right, alike.closed]
  · rw [room_left, room_right, alike.room]
  · rw [heard_deliver, heard_deliver, alike.closed, alike.room, alike.heard]

/-- What a stranger sends to one of them leaves them alike. -/
theorem stranger (alike : Alike peer socket other) {sender : Address} (stranger : sender ≠ peer)
    (datagram : Datagram)
    : Alike peer (socket.deliver sender datagram) other := by
  obtain ⟨peer_left, closed_left, room_left⟩ := deliver_keeps socket sender datagram
  refine ⟨peer_left.trans alike.left, alike.right, ?_, ?_, ?_⟩
  · rw [closed_left, alike.closed]
  · rw [room_left, alike.room]
  · have nothing : sentBy peer socket.room [(sender, datagram)] = [] :=
      sentBy_stranger stranger _ _ _
    rw [heard_deliver, nothing, List.append_nil, ite_self, alike.heard]

theorem outcome_receive (alike : Alike peer socket other) {call : Call} (patient : call.Patient)
    : outcome (socket.receive call.limit call.elapsed).1
      = outcome (other.receive call.limit call.elapsed).1 := by
  rw [Socket.outcome_receive alike.left patient, Socket.outcome_receive alike.right patient,
    alike.closed, alike.heard]

/-- Where a call brings the same to both, the same is left to be given. -/
theorem receive (alike : Alike peer socket other) {call : Call} (patient : call.Patient)
    : Alike peer (socket.receive call.limit call.elapsed).2
        (other.receive call.limit call.elapsed).2 := by
  have same := gained_eq_of_outcome (alike.outcome_receive patient)
  have kept := gained_receive alike.left call.limit call.elapsed
  rw [alike.heard, ← gained_receive alike.right call.limit call.elapsed, same] at kept
  have rest := List.append_cancel_left kept
  rw [receive_eq alike.left, receive_eq alike.right] at rest ⊢
  exact ⟨alike.left, alike.right, alike.closed, alike.room, rest⟩

/-- Two sockets that have the same to give bring the same to every history of calls, where one has
everything arrive and the other only what the peer sends. By induction on the history.
-/
theorem run (alike : Alike peer socket other) (happenings : List Happening)
    (patient : ∀ call, .asks call ∈ happenings → call.Patient)
    : (socket.run happenings).1.map outcome
      = (other.run (happenings.filter (Happening.concerns peer))).1.map outcome := by
  induction happenings generalizing socket other with
  | nil => rfl
  | cons happening rest ih =>
      have later : ∀ call, .asks call ∈ rest → call.Patient :=
        fun call member => patient call (List.mem_cons_of_mem _ member)
      cases happening with
      | arrives sender datagram =>
          by_cases same : sender = peer
          · rw [List.filter_cons_of_pos (by simp [Happening.concerns, same])]
            exact ih (alike.deliver sender datagram) later
          · rw [List.filter_cons_of_neg (by simp [Happening.concerns, same])]
            exact ih (alike.stranger same datagram) later
      | asks call =>
          have ready := patient call List.mem_cons_self
          rw [List.filter_cons_of_pos rfl, Socket.run, Socket.run]
          simp only [List.map_cons]
          rw [alike.outcome_receive ready, ih (alike.receive ready) later]

end Alike

section Calls

variable (bound : socket.peer = some peer)
include bound

/-- A call that has the time takes what it brings and nothing else. -/
theorem heard_receive (opened : socket.closed = false) {call : Call} (patient : call.Patient)
    : (socket.receive call.limit call.elapsed).2.heard peer = (socket.heard peer).tail := by
  have brought := outcome_receive bound patient
  have kept := gained_receive bound call.limit call.elapsed
  rw [opened, if_neg Bool.false_ne_true] at brought
  cases waiting : socket.heard peer with
  | nil =>
      rw [waiting] at kept
      exact (List.append_eq_nil_iff.mp kept).2
  | cons datagram rest =>
      rw [waiting] at brought kept
      cases result : (socket.receive call.limit call.elapsed).1 with
      | ok found =>
          rw [result] at brought kept
          exact (List.cons.inj kept).2
      | error failure =>
          rw [result] at brought
          cases brought

/-- Patient calls bring what the peer has sent, and time out when that is over; by induction on the
calls.
-/
theorem outcomes_of_calls (opened : socket.closed = false) (calls : List Call)
    (patient : ∀ call ∈ calls, call.Patient)
    : (socket.run (calls.map .asks)).1.map outcome
      = ((socket.heard peer).take calls.length).map .ok
        ++ List.replicate (calls.length - (socket.heard peer).length) (.error "Timeout") := by
  induction calls generalizing socket with
  | nil => simp [run]
  | cons call rest ih =>
      have ready := patient call List.mem_cons_self
      have brought := outcome_receive bound ready
      rw [opened, if_neg Bool.false_ne_true] at brought
      have after := receive_eq bound call.limit call.elapsed
      have still : (socket.receive call.limit call.elapsed).2.peer = some peer := by
        rw [after]
        exact bound
      have open_still : (socket.receive call.limit call.elapsed).2.closed = false := by
        rw [after]
        exact opened
      have later := ih still open_still fun call member =>
        patient call (List.mem_cons_of_mem _ member)
      rw [heard_receive bound opened ready] at later
      rw [List.map_cons, run]
      simp only [List.map_cons]
      rw [brought, later]
      cases socket.heard peer with
      | nil => simp [next, List.replicate_succ]
      | cons datagram others => simp [next]

/-- However the time goes by, what the calls bring and what the peer's queue has left are together
what it had, in order; by induction on the calls.
-/
theorem gained_of_calls (calls : List Call)
    : (socket.run (calls.map .asks)).1.flatMap gained
        ++ (socket.run (calls.map .asks)).2.heard peer
      = socket.heard peer := by
  induction calls generalizing socket with
  | nil => rfl
  | cons call rest ih =>
      have still : (socket.receive call.limit call.elapsed).2.peer = some peer := by
        rw [receive_eq bound]
        exact bound
      rw [List.map_cons, run]
      simp only [List.flatMap_cons, List.append_assoc]
      rw [ih still, gained_receive bound]

/-- A socket that has a peer brings to every history of calls what it would have brought if nobody
but its peer had ever sent: datagrams and failures come in the same order, whatever others have in
the queue or send meanwhile, as long as no call runs out of time before the queue is empty. An open
socket with a queue brings the datagrams of its peer in order, each once, and then no call finds
anything. Even where calls do run out of time, what they bring and what is left for the peer are
the peer's datagrams in order, none lost and none put in.
-/
theorem strangers_unheard
    : (∀ happenings, (∀ call, .asks call ∈ happenings → call.Patient) →
        (socket.run happenings).1.map outcome
        = ((socket.secluded peer).run (happenings.filter (Happening.concerns peer))).1.map outcome)
      ∧ (socket.closed = false →
          ∀ calls : List Call, (∀ call ∈ calls, call.Patient) →
            (socket.run (calls.map .asks)).1.map outcome
            = ((socket.heard peer).take calls.length).map .ok
              ++ List.replicate (calls.length - (socket.heard peer).length) (.error "Timeout"))
      ∧ ∀ calls : List Call,
          (socket.run (calls.map .asks)).1.flatMap gained
            ++ (socket.run (calls.map .asks)).2.heard peer
          = socket.heard peer :=
  ⟨(alike_secluded bound).run, outcomes_of_calls bound, gained_of_calls bound⟩

end Calls

def intruder : Address := ⟨.bytes 10 0 0 1, 17893⟩

def board : Address := ⟨.bytes 10 0 0 2, 17893⟩

/-- A socket with little room, where an intruder's datagrams wait before and between the board's. -/
def crowded : Socket where
  address := ⟨loopback, 54321⟩
  peer := some board
  room := 2
  queue := [(intruder, [1]), (board, [2, 3, 4]), (intruder, [5]), (intruder, [6]), (board, [7])]

/-- A call that loses a millisecond at each look until one is left. -/
def slowing : Call := ⟨.ofMilliseconds 4, fun look => min look 3 * 1000000⟩

theorem strangers_unheard_crowded
    : crowded.peer = some board
      ∧ crowded.closed = false
      ∧ (∀ call ∈ List.replicate 3 slowing, call.Patient)
      ∧ (crowded.run ((List.replicate 3 slowing).map .asks)).1.map outcome
        = [.ok [2, 3], .ok [7], .error "Timeout"]
      ∧ (crowded.run [.asks slowing, .arrives intruder [8], .asks slowing]).1.map outcome
        = ((crowded.secluded board).run [.asks slowing, .asks slowing]).1.map outcome := by
  have patient : slowing.Patient := fun look => by
    simp only [slowing, Duration.ofMilliseconds]
    omega
  have all : ∀ call ∈ List.replicate 3 slowing, call.Patient := fun call member =>
    (List.eq_of_mem_replicate member).symm ▸ patient
  have waiting : crowded.heard board = [[2, 3], [7]] := by decide
  obtain ⟨two_runs, listed, _⟩ := @strangers_unheard crowded board rfl
  refine ⟨rfl, rfl, all, ?_, ?_⟩
  · rw [listed rfl _ all, waiting]
    rfl
  · refine two_runs [.asks slowing, .arrives intruder [8], .asks slowing] fun call member => ?_
    simp only [List.mem_cons, Happening.asks.injEq, reduceCtorEq, List.not_mem_nil, or_false,
      false_or, or_self] at member
    exact member ▸ patient

end MeshControl.Net.Socket
