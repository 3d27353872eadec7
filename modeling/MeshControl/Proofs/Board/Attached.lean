import MeshControl.Proofs.Board.Exhaustion
import MeshControl.Proofs.Board.Storage

/-! A session with one connection, which leads to a board that can be talked to. Each call on it
goes well and leaves it as it was, but for what the call wrote.
-/

namespace MeshControl

open Scp Link Board

namespace Session

-----------------------------------------------------------------------------------------
-- A session and its board
-----------------------------------------------------------------------------------------

/-- The other end of the first connection. -/
def peer (session : Session Peer) : Peer :=
  (session.hub.lines.head?.map fun line => line.connection.peer).getD default

/-- The board at the other end of the first connection. -/
def board (session : Session Peer) : State :=
  session.peer.board

/-- An open session whose only connection leads to a board that can be talked to, while nobody
waits for an answer.
-/
structure Attached (session : Session Peer) : Prop where
  open_still : session.closed = false
  rests : ∃ line, Rests session.hub line

theorem peer_of_rests {session : Session Peer} {line : Line Peer}
    (rests : Rests session.hub line)
    : session.peer = line.connection.peer := by
  rw [peer, rests.lines]
  rfl

/-- A session that is opened with a board that can be talked to is attached to it. -/
theorem attached_of_open {peer : Peer} (ready : peer.Ready) (boots : Nat)
    (topology : Option Topology) (config : Config)
    : ∃ session,
        Session.open? [Board.connection peer] [] boots topology config = .ok session
        ∧ session.Attached
        ∧ session.peer = peer
        ∧ session.config = config :=
  ⟨_, rfl, ⟨rfl, _, rfl, ⟨.origin, topology, rfl⟩, rfl, ready, rfl, fun _ => rfl⟩, rfl, rfl⟩

/-- The board is told how many of the next requests to leave unanswered and to put off. -/
def refusing (session : Session Peer) (drops retries : Nat) : Session Peer :=
  { session with
    hub := session.hub.modifyLine 0 fun line =>
      let board := line.connection.peer.board
      let board := board.adjusted drops retries board.tally
      { line with
        connection :=
          { line.connection with peer := { line.connection.peer with board } } } }

/-- From one session to the next only these bytes were written. -/
structure Served (session : Session Peer) (written : Chip → UInt32 → Option UInt8)
    (after : Session Peer) : Prop where
  attached : after.Attached
  config : after.config = session.config
  room : after.peer.room = session.peer.room
  since : session.board.Since written after.board

variable {session : Session Peer}

/-- What the board is told to refuse changes nothing else. -/
theorem Attached.refusing (attached : session.Attached) (drops retries : Nat)
    : session.Served (fun _ _ => none) (session.refusing drops retries)
      ∧ (session.refusing drops retries).board.refusals = drops + retries := by
  obtain ⟨open_still, line, rests⟩ := attached
  let board := line.connection.peer.board.adjusted drops retries line.connection.peer.board.tally
  let told : Line Peer :=
    { line with
      connection := { line.connection with peer := { line.connection.peer with board } } }
  have lines : (session.refusing drops retries).hub.lines = [told] := by
    simp [Session.refusing, Hub.modifyLine, rests.lines, told, board]
  have rests_still : Rests (session.refusing drops retries).hub told :=
    ⟨lines, rests.selects, rests.open_still,
      ⟨rests.ready.reachable, rests.ready.running, rests.ready.lossless⟩, rests.nothing,
      rests.unrouted⟩
  have before := peer_of_rests rests
  have after := peer_of_rests rests_still
  refine ⟨⟨⟨open_still, told, rests_still⟩, rfl, by rw [after, before], ?_⟩, ?_⟩
  · rw [Session.board, Session.board, after, before]
    exact (State.Since.refl line.connection.peer.board).adjusted drops retries _
  · rw [Session.board, after]
    rfl

/-- An open session lets its connections do what they are asked to. -/
theorem whenOpen_of_run {α : Type} (open_still : session.closed = false)
    {run : Hub Peer → Except Halt α × Hub Peer} {result : Except Halt α} {hub : Hub Peer}
    (ran : run session.hub = (result, hub))
    : session.whenOpen run = (result, { session with hub }) := by
  unfold whenOpen
  rw [if_neg (by simp [open_still]), ran]

/-- What the connections of a session did is all that has changed. -/
theorem Served.of_hub {hub : Hub Peer} {line later : Line Peer}
    {written : Chip → UInt32 → Option UInt8} (open_still : session.closed = false)
    (rests : Rests session.hub line) (rests_later : Rests hub later)
    (room : later.connection.peer.room = line.connection.peer.room)
    (since : line.connection.peer.board.Since written later.connection.peer.board)
    : session.Served written { session with hub } := by
  have before := peer_of_rests rests
  have after : ({ session with hub } : Session Peer).peer = later.connection.peer :=
    peer_of_rests rests_later
  refine ⟨⟨open_still, later, rests_later⟩, rfl, ?_, ?_⟩
  · rw [after, before, room]
  · rw [board, board, after, before]
    exact since

-----------------------------------------------------------------------------------------
-- Writing and reading
-----------------------------------------------------------------------------------------

variable {chip : Chip} {base : UInt32}

/-- A hub at rest can be asked to write. -/
theorem awaits_writing {hub : Hub Peer} {line : Line Peer} (rests : Rests hub line)
    {config : Config} (spare : line.connection.peer.board.refusals < config.budget)
    (data : List UInt8)
    : (writing config line.connection.peer.room chip base data
        line.connection.peer.board).Awaits hub line :=
  ⟨rests, rfl, ⟨rfl, fun other address => by simp [writtenBy?]⟩, spare⟩

/-- A hub at rest can be asked to read. -/
theorem awaits_reading {hub : Hub Peer} {line : Line Peer} (rests : Rests hub line)
    {config : Config} (spare : line.connection.peer.board.refusals < config.budget)
    (length : Nat)
    : (reading config line.connection.peer.room chip base length
        line.connection.peer.board).Awaits hub line :=
  ⟨rests, rfl, .refl line.connection.peer.board, spare⟩

/-- A write goes well, and puts the data where they belong. -/
theorem Attached.write (attached : session.Attached)
    (patient : session.config.timeout.nanoseconds ≠ 0)
    (spare : session.board.refusals < session.config.budget)
    (known : session.board.settings.machine.contains chip = true) {data : List UInt8}
    (inside : base.toNat + data.length ≤ 2 ^ 32) (enough : payloadOffset ≤ session.peer.room)
    (numbered
      : session.config.channels < sequenceCount ∨ Flood.pieces data ≤ sequenceCount)
    : ∃ after,
        session.write chip base data = (.ok (), after)
        ∧ session.Served
            (fun other address => if other = chip then written? base data address else none)
            after := by
  obtain ⟨open_still, line, rests⟩ := attached
  have reached := peer_of_rests rests
  rw [board, reached] at spare known
  rw [reached] at enough
  obtain ⟨after, later, events, done, rests_later, _, fulfilled⟩ :=
    (awaits_writing rests spare data).batch (writing_proper patient enough known) numbered
      fun index within => writeOrder_eq chip inside within
  obtain ⟨served, all, holds⟩ := fulfilled.holds
  have length_bound : data.length ≤ 2 ^ 32 := by omega
  refine ⟨{ session with hub := after }, ?_,
    .of_hub open_still rests rests_later fulfilled.room ⟨holds.settings, fun other address => ?_⟩⟩
  · apply whenOpen_of_run open_still
    rw [Operation.checkAddressRange_of_inside inside]
    exact done
  · have complete : ∀ index, index ∈ served ↔ index * maxData < data.length :=
      fun index => (all index).trans (Flood.lt_pieces_iff data index)
    rw [holds.bytes, writtenBy?_all_pieces base length_bound complete]

/-- A write that there are too few sequence numbers for never ends. -/
theorem Attached.write_endless (attached : session.Attached)
    (patient : session.config.timeout.nanoseconds ≠ 0)
    (spare : session.board.refusals < session.config.budget)
    (known : session.board.settings.machine.contains chip = true) {data : List UInt8}
    (inside : base.toNat + data.length ≤ 2 ^ 32) (enough : payloadOffset ≤ session.peer.room)
    (unnumbered
      : ¬ (session.config.channels < sequenceCount ∨ Flood.pieces data ≤ sequenceCount))
    : ∃ after, session.write chip base data = (.error .endless, after) := by
  obtain ⟨open_still, line, rests⟩ := attached
  have reached := peer_of_rests rests
  rw [board, reached] at spare known
  rw [reached] at enough
  obtain ⟨after, stuck⟩ :=
    (awaits_writing rests spare data).batch_endless (writing_proper patient enough known)
      unnumbered fun index within => writeOrder_eq chip inside within
  refine ⟨{ session with hub := after }, ?_⟩
  apply whenOpen_of_run open_still
  rw [Operation.checkAddressRange_of_inside inside]
  exact stuck

/-- The length of a range within the address space is a number of 64 bits. -/
theorem toNat_of_inside {length : Nat} (inside : base.toNat + length ≤ 2 ^ 32)
    : (UInt64.ofNat length).toNat = length :=
  UInt64.toNat_ofNat_of_lt' (Nat.lt_of_le_of_lt (Nat.le_of_add_left_le inside) (by decide))

theorem ofNat_ne_zero {length : Nat} (inside : base.toNat + length ≤ 2 ^ 32) (some : length ≠ 0)
    : UInt64.ofNat length ≠ 0 := by
  intro zero
  apply some
  rw [← toNat_of_inside inside, zero]
  rfl

/-- A read goes well, gives the bytes of the range, and changes none. -/
theorem Attached.read (attached : session.Attached)
    (patient : session.config.timeout.nanoseconds ≠ 0)
    (spare : session.board.refusals < session.config.budget)
    (known : session.board.settings.machine.contains chip = true) {length : Nat}
    (inside : base.toNat + length ≤ 2 ^ 32)
    (enough : payloadOffset + min length maxData ≤ session.peer.room)
    (numbered
      : session.config.channels < sequenceCount
        ∨ (length + (maxData - 1)) / maxData ≤ sequenceCount)
    : ∃ after,
        session.read chip base (UInt64.ofNat length)
          = (.ok ((List.range length).map fun index =>
                session.board.byteAt chip (base + UInt32.ofNat index)),
              after)
        ∧ session.Served (fun _ _ => none) after := by
  obtain ⟨open_still, line, rests⟩ := attached
  have reached := peer_of_rests rests
  rw [board, reached] at spare known ⊢
  rw [reached] at enough
  have size : (UInt64.ofNat length).toNat = length := toNat_of_inside inside
  have checked := Operation.checkAddressRange_of_inside inside
  by_cases empty : length = 0
  · subst empty
    refine ⟨{ session with hub := session.hub }, ?_, .of_hub open_still rests rests rfl (.refl _)⟩
    exact whenOpen_of_run open_still rfl
  · obtain ⟨after, later, events, done, rests_later, fulfilled⟩ :=
      (awaits_reading rests spare length).exchange (reading_proper patient enough known) numbered
        fun index within => readOrder_eq chip inside within
    obtain ⟨served, _, holds⟩ := fulfilled.holds
    refine ⟨{ session with hub := after }, ?_,
      .of_hub open_still rests rests_later fulfilled.room holds⟩
    have nonzero : UInt64.ofNat length ≠ 0 := ofNat_ne_zero inside empty
    apply whenOpen_of_run open_still
    dsimp only
    rw [if_neg nonzero, checked]
    dsimp only
    rw [size]
    have exchanged : session.hub.exchange session.config ((length + (maxData - 1)) / maxData)
        (readOrder chip base length) = (.ok events, after) := done
    rw [exchanged]
    exact congrArg (fun bytes => (Except.ok bytes, after)) (assemble_of_fulfilled fulfilled)

/-- A read that there are too few sequence numbers for never ends. -/
theorem Attached.read_endless (attached : session.Attached)
    (patient : session.config.timeout.nanoseconds ≠ 0)
    (spare : session.board.refusals < session.config.budget)
    (known : session.board.settings.machine.contains chip = true) {length : Nat}
    (inside : base.toNat + length ≤ 2 ^ 32)
    (enough : payloadOffset + min length maxData ≤ session.peer.room)
    (unnumbered
      : ¬ (session.config.channels < sequenceCount
        ∨ (length + (maxData - 1)) / maxData ≤ sequenceCount))
    : ∃ after, session.read chip base (UInt64.ofNat length) = (.error .endless, after) := by
  obtain ⟨open_still, line, rests⟩ := attached
  have reached := peer_of_rests rests
  rw [board, reached] at spare known
  rw [reached] at enough
  obtain ⟨after, stuck⟩ :=
    (awaits_reading rests spare length).exchange_endless (reading_proper patient enough known)
      unnumbered fun index within => readOrder_eq chip inside within
  have some_bytes : length ≠ 0 := by
    rintro rfl
    exact unnumbered (.inr (by decide))
  refine ⟨{ session with hub := after }, ?_⟩
  apply whenOpen_of_run open_still
  dsimp only
  rw [if_neg (ofNat_ne_zero inside some_bytes), Operation.checkAddressRange_of_inside inside]
  dsimp only
  rw [toNat_of_inside inside]
  have exchanged : session.hub.exchange session.config ((length + (maxData - 1)) / maxData)
      (readOrder chip base length) = (.error .endless, after) := stuck
  rw [exchanged]
  rfl

end Session

end MeshControl
