import MeshControl.Board.Link
import MeshControl.Proofs.Scp.Codec

/-! What a board does with one datagram: it leaves it unanswered, puts it off, or carries the
request out. What the board is like does not change by that, and each refusal uses up one of those
that it was told to make.
-/

namespace MeshControl

namespace Board

open Scp Link

namespace State

-----------------------------------------------------------------------------------------
-- Carrying a request out
-----------------------------------------------------------------------------------------

/-- The next requests that a board leaves unanswered or puts off, taken together. -/
def refusals (state : State) : Nat :=
  state.dropNext + state.retryNext

/-- A board with other numbers of requests to refuse, and another tally. -/
def adjusted (state : State) (dropNext retryNext : Nat) (tally : Tally) : State :=
  { state with dropNext, retryNext, tally }

/-- Two states of a board that is the same but for what it was told to keep. -/
structure SameBoard (before after : State) : Prop where
  settings : after.settings = before.settings
  dropNext : after.dropNext = before.dropNext
  retryNext : after.retryNext = before.retryNext

theorem SameBoard.refl (state : State) : SameBoard state state :=
  ⟨rfl, rfl, rfl⟩

theorem SameBoard.trans {before middle after : State} (first : SameBoard before middle)
    (second : SameBoard middle after)
    : SameBoard before after :=
  ⟨second.settings.trans first.settings, second.dropNext.trans first.dropNext,
    second.retryNext.trans first.retryNext⟩

theorem SameBoard.refusals {before after : State} (same : SameBoard before after)
    : after.refusals = before.refusals := by
  rw [State.refusals, same.dropNext, same.retryNext, State.refusals]

/-- Something done for each of some chips keeps what each time keeps, by induction on them. -/
theorem SameBoard.foldl {act : State → Chip → State}
    (each : ∀ state chip, SameBoard state (act state chip)) (chips : List Chip) (state : State)
    : SameBoard state (chips.foldl act state) := by
  induction chips generalizing state with
  | nil => exact .refl state
  | cons chip rest ih => exact (each state chip).trans (ih (act state chip))

/-- A part of the state that is left alone each time is left alone for all of some chips. -/
theorem foldl_kept {α : Type} (part : State → α) {act : State → Chip → State}
    (each : ∀ state chip, part (act state chip) = part state) (chips : List Chip) (state : State)
    : part (chips.foldl act state) = part state := by
  induction chips generalizing state with
  | nil => rfl
  | cons chip rest ih => exact (ih (act state chip)).trans (each state chip)

theorem fill_sameBoard (state : State) (blocks : List (UInt32 × List UInt8)) (chip : Chip)
    : SameBoard state (state.fill blocks chip) :=
  ⟨rfl, rfl, rfl⟩

theorem startCores_sameBoard (state : State) (chip : Chip) (word : UInt32)
    : SameBoard state (state.startCores chip word) :=
  ⟨rfl, rfl, rfl⟩

theorem floodEnd_sameBoard (state : State) (request : Request)
    : SameBoard state (state.floodEnd request).2 := by
  have filled (blocks : List (UInt32 × List UInt8)) (chips : List Chip) (state : State)
      : SameBoard state (chips.foldl (fun state chip => state.fill blocks chip) state) :=
    .foldl (fun state chip => fill_sameBoard state blocks chip) chips state
  have started (chips : List Chip) (state : State)
      : SameBoard state
          (chips.foldl (fun state chip => state.startCores chip request.arg2) state) :=
    .foldl (fun state chip => startCores_sameBoard state chip request.arg2) chips state
  unfold floodEnd
  dsimp only
  split
  · exact .refl state
  · next flood _ =>
      let ended := { state with floods := state.floods.erase request.arg1.toUInt8 }
      have erased : SameBoard state ended := ⟨rfl, rfl, rfl⟩
      have written := erased.trans (filled flood.delivered flood.targets ended)
      split
      · exact erased
      · split
        · exact written.trans (started flood.targets _)
        · exact written

/-- Carrying a request out changes nothing that the board was told to keep to, by the kinds of
requests.
-/
theorem perform_sameBoard (state : State) (request : Request)
    : SameBoard state (state.perform request).2 := by
  unfold perform
  dsimp only
  split
  · exact .refl state
  · split
    · exact .refl state
    · exact .refl state
    · exact ⟨rfl, rfl, rfl⟩
    · exact ⟨rfl, rfl, rfl⟩
    · exact .refl state
    · split
      · exact ⟨rfl, rfl, rfl⟩
      · split
        · exact floodEnd_sameBoard state request
        · exact .refl state
    · unfold floodData
      dsimp only
      split
      · exact .refl state
      · exact ⟨rfl, rfl, rfl⟩
    · exact .refl state

-----------------------------------------------------------------------------------------
-- Taking a request in
-----------------------------------------------------------------------------------------

/-- What a board does with a request: it refuses it, without an answer or with one that asks for
it again, or it carries it out and says so.
-/
inductive Treats (before : State) (request : Request) : Option Reply → State → Prop
  | refused {reply : Option Reply} {dropNext retryNext : Nat} {tally : Tally}
    (nothing : reply = none ∨ reply = some (.timeout, []))
    (spent : dropNext + retryNext + 1 = before.refusals)
    : Treats before request reply (before.adjusted dropNext retryNext tally)
  | served {dropNext retryNext : Nat} {tally : Tally}
    (willing : dropNext + retryNext = before.refusals)
    : Treats before request
        (some ((before.adjusted dropNext retryNext tally).perform request).1)
        ((before.adjusted dropNext retryNext tally).perform request).2

/-- A board that does not lose everything treats a request in one of these ways. -/
theorem handle_treats {state : State} (lossless : state.settings.losesAll = false)
    (request : Request)
    : Treats state request (state.handle request).1 (state.handle request).2 := by
  unfold handle
  dsimp only
  split
  · next dropping =>
      have spent : state.dropNext - 1 + state.retryNext + 1 = state.refusals := by
        simp only [refusals]
        omega
      exact .refused (.inl rfl) spent
  · next answering =>
      rw [if_neg (by simp [lossless])]
      split
      · next deferring =>
          have spent : state.dropNext + (state.retryNext - 1) + 1 = state.refusals := by
            simp only [refusals]
            omega
          exact .refused (.inr rfl) spent
      · exact .served rfl

/-- A board that refuses nothing carries each request out. -/
theorem handle_of_willing {state : State} (willing : state.refusals = 0)
    (lossless : state.settings.losesAll = false) (request : Request)
    : ∃ tally,
        let told := state.adjusted 0 0 tally
        state.handle request = (some (told.perform request).1, (told.perform request).2) := by
  have treats := handle_treats lossless request
  generalize state.handle request = outcome at treats
  obtain ⟨reply, after⟩ := outcome
  cases treats with
  | refused _ spent => omega
  | @served dropNext retryNext tally within =>
      obtain ⟨rfl, rfl⟩ : dropNext = 0 ∧ retryNext = 0 := by omega
      exact ⟨tally, rfl⟩

end State

end Board

-----------------------------------------------------------------------------------------
-- Over the network
-----------------------------------------------------------------------------------------

namespace Link

open Scp Board

/-- The response that has arrived, if it can be read. -/
def Arrival.response? : Arrival → Option Response
  | .datagram bytes => (Response.decode bytes).toOption
  | .failure _ => none

end Link

namespace Board

open Scp Link

/-- The response that a board's reply to a request makes. -/
def Reply.response (request : Request) (reply : Reply) : Response where
  header := request.header.reply.onWire Sdp.defaultTag
  result := reply.1
  sequence := request.sequence.getD 0
  payload := reply.2

/-- A reply goes through the network and into the room that is left for it. -/
def Reply.Fits (room : Nat) (reply : Reply) : Prop :=
  payloadOffset + reply.2.length ≤ maxDatagram ∧ payloadOffset + reply.2.length ≤ room

/-- A reply without data fits into any room that has its fixed part. -/
theorem Reply.fits_empty {room : Nat} (enough : payloadOffset ≤ room) (result : ResultCode)
    : Reply.Fits room (result, []) :=
  ⟨(by decide : payloadOffset + 0 ≤ maxDatagram), enough⟩

/-- What arrives of a reply that fits is its response. -/
theorem Reply.response?_of_fits {room : Nat} {reply : Reply} (fits : reply.Fits room)
    (request : Request)
    : Arrival.response?
        (.datagram
          ((Response.encode request.header.reply reply.1 (request.sequence.getD 0)
            reply.2).take room))
      = some (reply.response request) := by
  have whole : (Response.encode request.header.reply reply.1 (request.sequence.getD 0)
      reply.2).length ≤ room := by
    rw [Response.length_encode]
    exact fits.2
  rw [List.take_of_length_le whole, Arrival.response?, Response.decode_encode]
  rfl

/-- A board that can be talked to: there is a route to it, it runs, and it does not lose all. -/
structure Peer.Ready (peer : Peer) : Prop where
  reachable : peer.reachable = true
  running : peer.running = true
  lossless : peer.board.settings.losesAll = false

/-- A connection after the board at its end took in a datagram. -/
def afterwards (connection : Connection Peer) (board : State) (arrivals : List Arrival)
    : Connection Peer :=
  { connection with
    peer := { connection.peer with board }
    pending := connection.pending ++ arrivals }

/-- A request goes out on an open connection, the board treats it, and the response to it arrives
unless there is none.
-/
theorem send_datagram {connection : Connection Peer} (open_still : connection.closed = false)
    (ready : connection.peer.Ready) (request : Request) (tag : UInt8)
    (fit
      : ∀ {reply after},
          State.Treats connection.peer.board (request.onWire tag) (some reply) after
          → reply.Fits connection.peer.room)
    : ∃ reply board arrivals,
        State.Treats connection.peer.board (request.onWire tag) reply board
        ∧ arrivals.map Arrival.response?
          = (reply.map (Reply.response (request.onWire tag))).toList.map some
        ∧ connection.send (request.datagram tag)
          = (none, afterwards connection board arrivals) := by
  have treats := State.handle_treats ready.lossless (request.onWire tag)
  generalize handled : connection.peer.board.handle (request.onWire tag) = outcome at treats
  obtain ⟨reply, board⟩ := outcome
  cases reply with
  | none =>
      have delivered : connection.peer.deliver (request.datagram tag)
          = (.dropped, { connection.peer with board }) := by
        simp [Peer.deliver, ready.reachable, ready.running, Request.decode_datagram, handled]
      refine ⟨none, board, [], treats, rfl, ?_⟩
      simp [Connection.send, open_still, Responder.react, delivered, afterwards,
        Connection.absorb]
  | some reply =>
      have fits := fit treats
      have sent : ¬ payloadOffset + reply.2.length > maxDatagram := Nat.not_lt.mpr fits.1
      let answer := Response.encode (request.onWire tag).header.reply reply.1
        ((request.onWire tag).sequence.getD 0) reply.2
      have delivered : connection.peer.deliver (request.datagram tag)
          = (.answered answer, { connection.peer with board }) := by
        simp [Peer.deliver, ready.reachable, ready.running, Request.decode_datagram, handled,
          sent, answer]
      have read := Reply.response?_of_fits fits (request.onWire tag)
      refine ⟨some reply, board, [.datagram (answer.take connection.peer.room)], treats, ?_, ?_⟩
      · rw [List.map_singleton, read]
        rfl
      · simp [Connection.send, open_still, Responder.react, delivered, afterwards,
          Connection.absorb]

end Board

end MeshControl
