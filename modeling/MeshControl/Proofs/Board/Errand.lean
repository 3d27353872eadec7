import MeshControl.Link.Process
import MeshControl.Proofs.Board.Service
import MeshControl.Proofs.Link.Move

/-! Requests that a caller wants a board to carry out, and the board's side of it: each request
that reaches the board is carried out and answered, or uses up a refusal.
-/

namespace MeshControl.Board

open Scp Link

-----------------------------------------------------------------------------------------
-- What is to be done
-----------------------------------------------------------------------------------------

/-- Requests that a caller wants carried out, with the data that the board answers to each.
`Holds` tells what is true of the board once it has carried some of them out, listed in the order
in which it did.
-/
structure Errand where
  config : Config
  /-- The room for an answer. -/
  room : Nat
  count : Nat
  request : Nat → Request
  handler : Nat → Handler
  payload : Nat → List UInt8
  Holds : List Nat → State → Prop

namespace Errand

/-- One of the requests as an order. -/
def order (errand : Errand) (index : Nat) : Order where
  request := .ok (errand.request index)
  handler := errand.handler index

/-- The board can carry every request out, and the caller takes every answer. -/
structure Proper (errand : Errand) : Prop where
  patient : errand.config.timeout.nanoseconds ≠ 0
  unnumbered : ∀ index < errand.count, (errand.request index).sequence = none
  valid : ∀ index < errand.count, (errand.request index).validate = .ok ()
  accepts : ∀ index < errand.count, (errand.request index).accepts .ok = true
  refuses : ∀ index < errand.count, (errand.request index).accepts .timeout = false
  content
    : ∀ index < errand.count,
        ∀ response : Response,
          response.payload = errand.payload index
          → (errand.handler index).check response = .ok ()
  fits : ∀ index < errand.count, Reply.Fits errand.room (.ok, errand.payload index)
  /-- What was told to be refused makes no difference to what holds. -/
  adjusted
    : ∀ {served state} (dropNext retryNext : Nat) (tally : Tally),
        errand.Holds served state
        → errand.Holds served (state.adjusted dropNext retryNext tally)
  carriedOut
    : ∀ {served state index} (sequence : UInt16),
        index < errand.count
        → errand.Holds served state
        → ∃ after,
            state.perform
                (((errand.request index).numbered sequence).onWire errand.config.tag)
              = ((.ok, errand.payload index), after)
            ∧ errand.Holds (served ++ [index]) after

/-- What is known of a dialogue besides the state of the two sides. -/
structure Notes where
  /-- The requests that the board has carried out, in order. -/
  served : List Nat := []
  /-- The request that was given a number. -/
  owner : UInt16 → Nat := fun _ => 0
  /-- The responses that have arrived and were not read. -/
  letters : List Response := []
  events : List Event := []
  /-- The requests whose answers were accepted, in the order of the answers. -/
  answered : List Nat := []

-----------------------------------------------------------------------------------------
-- The board's side
-----------------------------------------------------------------------------------------

/-- A response to one of the requests: the board wants it again, or it has carried it out. -/
inductive Tells (errand : Errand) (served : List Nat) (index : Nat) (letter : Response) : Prop
  | later (again : letter.result = .timeout)
  | done (good : letter.result = .ok) (payload : letter.payload = errand.payload index)
    (carried_out : index ∈ served)

/-- What a board has carried out stays carried out. -/
theorem Tells.more {errand : Errand} {served : List Nat} {index : Nat} {letter : Response}
    (tells : errand.Tells served index letter) (more : List Nat)
    : errand.Tells (served ++ more) index letter := by
  cases tells with
  | later again => exact .later again
  | done good payload carried_out =>
      exact .done good payload (List.mem_append_left more carried_out)

/-- An open connection to a board that can be talked to, which has carried some requests out,
and whose responses wait to be read.
-/
structure Post (errand : Errand) (served : List Nat) (letters : List Response)
    (connection : Connection Peer) : Prop where
  open_still : connection.closed = false
  ready : connection.peer.Ready
  room : connection.peer.room = errand.room
  within : ∀ index ∈ served, index < errand.count
  holds : errand.Holds served connection.peer.board
  letters : connection.pending.map Arrival.response? = letters.map some

/-- What one transmission of a request under a number brings about: at most one response. Either
it says that the request was carried out, or the board used up a refusal.
-/
structure Brings (errand : Errand) (served : List Nat) (index : Nat) (sequence : UInt16)
    (before after : State) (news : List Response) : Prop where
  single : news.length ≤ 1
  told
    : ∀ letter ∈ news, letter.sequence = sequence ∧ errand.Tells served index letter
  refusals : after.refusals ≤ before.refusals
  progress : (∃ letter ∈ news, letter.result = .ok) ∨ after.refusals < before.refusals

variable {errand : Errand} {served : List Nat} {letters : List Response} {index : Nat}

/-- After the board took in a datagram, what it carried out and what arrived is added. -/
theorem Post.afterwards {connection : Connection Peer}
    (post : errand.Post served letters connection) {board : State} {arrivals : List Arrival}
    {more : List Nat} {news : List Response}
    (more_within : ∀ other ∈ more, other < errand.count)
    (holds : errand.Holds (served ++ more) board)
    (settings : board.settings = connection.peer.board.settings)
    (arrived : arrivals.map Arrival.response? = news.map some)
    : errand.Post (served ++ more) (letters ++ news)
        (afterwards connection board arrivals) where
  open_still := post.open_still
  ready := by
    refine ⟨post.ready.reachable, post.ready.running, ?_⟩
    change board.settings.losesAll = false
    rw [settings]
    exact post.ready.lossless
  room := post.room
  within := by
    intro other member
    rcases List.mem_append.mp member with early | late
    · exact post.within other early
    · exact more_within other late
  holds := holds
  letters := by
    change (connection.pending ++ arrivals).map _ = _
    rw [List.map_append, post.letters, arrived, List.map_append]

/-- A request goes out: the board refuses it or carries it out. -/
theorem Post.send {connection : Connection Peer} (proper : errand.Proper)
    (post : errand.Post served letters connection) (within : index < errand.count)
    (sequence : UInt16)
    : ∃ after more news,
        connection.send (((errand.request index).numbered sequence).datagram errand.config.tag)
          = (none, after)
        ∧ errand.Post (served ++ more) (letters ++ news) after
        ∧ errand.Brings (served ++ more) index sequence connection.peer.board after.peer.board
            news := by
  have fits := proper.fits index within
  have carried_out (dropNext retryNext : Nat) (tally : Tally) :=
    proper.carriedOut sequence within (proper.adjusted dropNext retryNext tally post.holds)
  obtain ⟨reply, board, arrivals, treats, read, sent⟩ :=
    send_datagram post.open_still post.ready ((errand.request index).numbered sequence)
      errand.config.tag (by
        intro reply after treats
        rw [post.room]
        cases treats with
        | refused nothing _ =>
            rcases nothing with silent | again
            · cases silent
            · cases again
              exact Reply.fits_empty (Nat.le_trans (Nat.le_add_right _ _) fits.2) .timeout
        | @served dropNext retryNext tally _ =>
            obtain ⟨_, performed, _⟩ := carried_out dropNext retryNext tally
            rw [performed]
            exact fits)
  cases treats with
  | @refused _ dropNext retryNext tally nothing spent =>
      have fewer : (connection.peer.board.adjusted dropNext retryNext tally).refusals
          < connection.peer.board.refusals := by
        rw [← spent]
        exact Nat.lt_succ_self _
      have holds := proper.adjusted dropNext retryNext tally post.holds
      rw [← List.append_nil served] at holds
      refine ⟨_, [], _, sent, post.afterwards (by simp) holds rfl read, ?_⟩
      refine ⟨by cases reply <;> simp, ?_, Nat.le_of_lt fewer, .inr fewer⟩
      intro letter member
      rcases nothing with rfl | rfl
      · simp at member
      · obtain rfl : letter = _ := by simpa using member
        exact ⟨rfl, .later rfl⟩
  | @served dropNext retryNext tally willing =>
      obtain ⟨after, performed, holds⟩ := carried_out dropNext retryNext tally
      have same := State.perform_sameBoard
        (connection.peer.board.adjusted dropNext retryNext tally)
        (((errand.request index).numbered sequence).onWire errand.config.tag)
      rw [performed] at same sent read
      refine ⟨_, [index], _, sent,
        post.afterwards (by simpa using within) holds same.settings read, ?_⟩
      refine ⟨by simp, ?_, Nat.le_of_eq (same.refusals.trans willing), ?_⟩
      · intro letter member
        obtain rfl : letter = _ := by simpa using member
        exact ⟨rfl, .done rfl rfl (by simp)⟩
      · exact .inl ⟨_, List.mem_singleton_self _, rfl⟩

end Errand

end MeshControl.Board
