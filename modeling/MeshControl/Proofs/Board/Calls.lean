import Mathlib.Data.List.Induction
import MeshControl.Proofs.Board.Attached

/-! Memory end to end: whatever is written and read before, in however many pieces and with
whatever refusals of the board in between, a read gives the bytes that were written last, and no
call changes a byte that it was not given.
-/

namespace MeshControl

open Scp Link Board

namespace Board

-----------------------------------------------------------------------------------------
-- Calls
-----------------------------------------------------------------------------------------

/-- What is done with the memory of a chip. -/
inductive Access
  | write (chip : Chip) (base : UInt32) (data : List UInt8)
  | read (chip : Chip) (base : UInt32) (length : Nat)

namespace Access

def chip : Access → Chip
  | write chip _ _ => chip
  | read chip _ _ => chip

def base : Access → UInt32
  | write _ base _ => base
  | read _ base _ => base

/-- How many bytes are written or read. -/
def length : Access → Nat
  | write _ _ data => data.length
  | read _ _ length => length

/-- How many requests it takes. -/
def pieces (access : Access) : Nat :=
  (access.length + (maxData - 1)) / maxData

/-- The most bytes that an answer to one of its requests brings. -/
def largestAnswer : Access → Nat
  | write _ _ _ => 0
  | read _ _ length => min length maxData

/-- The byte that is written to an address of a chip, if one is. -/
def written? : Access → Chip → UInt32 → Option UInt8
  | write chip base data, other, address =>
      if other = chip then Board.written? base data address else none
  | read _ _ _, _, _ => none

/-- What is given back, from a memory with these bytes. -/
def answer (bytes : Chip → UInt32 → UInt8) : Access → List UInt8
  | write _ _ _ => []
  | read chip base length =>
      (List.range length).map fun index => bytes chip (base + UInt32.ofNat index)

end Access

/-- A call, and how many of the next requests the board is told to leave unanswered and to put off
before it.
-/
structure MemoryCall where
  access : Access
  drops : Nat := 0
  retries : Nat := 0

/-- The byte that was written last to an address of a chip by some calls, if one was. -/
def latest? (calls : List MemoryCall) (chip : Chip) (address : UInt32) : Option UInt8 :=
  calls.foldl (fun last call => (call.access.written? chip address).or last) none

/-- A call on a chip of the machine and a range within the address space, whose answers there is
room for, with fewer refusals than a request may be sent.
-/
structure MemoryCall.Allowed (session : Session Peer) (call : MemoryCall) : Prop where
  known : session.board.settings.machine.contains call.access.chip = true
  inside : call.access.base.toNat + call.access.length ≤ 2 ^ 32
  enough : payloadOffset + call.access.largestAnswer ≤ session.peer.room
  spare : call.drops + call.retries < session.config.budget

/-- An allowed call that there are sequence numbers for: fewer of its requests may wait at a time
than there are numbers, or no more are made at all.
-/
structure MemoryCall.Proper (session : Session Peer) (call : MemoryCall) : Prop
    extends call.Allowed session where
  numbered
    : session.config.channels < sequenceCount ∨ call.access.pieces ≤ sequenceCount

end Board

namespace Session

/-- Makes one call. -/
def call (session : Session Peer) (call : MemoryCall)
    : Except Halt (List UInt8) × Session Peer :=
  let session := session.refusing call.drops call.retries
  match call.access with
  | .write chip base data =>
      let (result, session) := session.write chip base data
      (result.map fun _ => [], session)
  | .read chip base length => session.read chip base (UInt64.ofNat length)

/-- Makes some calls, one after the other. -/
def run (session : Session Peer) (calls : List MemoryCall) : Session Peer :=
  calls.foldl (fun session call => (session.call call).2) session

variable {session : Session Peer}

-----------------------------------------------------------------------------------------
-- One call, and a run of calls
-----------------------------------------------------------------------------------------

/-- What was written later comes over what was written before. -/
theorem Served.trans {middle after : Session Peer} {first second : Chip → UInt32 → Option UInt8}
    (early : session.Served first middle) (late : middle.Served second after)
    : session.Served (fun chip address => (second chip address).or (first chip address))
        after where
  attached := late.attached
  config := late.config.trans early.config
  room := late.room.trans early.room
  since :=
    { settings := late.since.settings.trans early.since.settings
      bytes := by
        intro chip address
        rw [late.since.bytes, early.since.bytes]
        cases second chip address <;> rfl }

/-- A call that is allowed stays so while others are served. -/
theorem Served.allowed {written : Chip → UInt32 → Option UInt8} {after : Session Peer}
    (served : session.Served written after) {call : MemoryCall} (allowed : call.Allowed session)
    : call.Allowed after where
  known := by
    rw [served.since.settings]
    exact allowed.known
  inside := allowed.inside
  enough := by
    rw [served.room]
    exact allowed.enough
  spare := by
    rw [served.config]
    exact allowed.spare

/-- So does one that there are numbers for. -/
theorem Served.proper {written : Chip → UInt32 → Option UInt8} {after : Session Peer}
    (served : session.Served written after) {call : MemoryCall} (proper : call.Proper session)
    : call.Proper after where
  toAllowed := served.allowed proper.toAllowed
  numbered := by
    rw [served.config]
    exact proper.numbered

/-- A proper call goes well, gives what the memory holds, and writes what it was given. -/
theorem Attached.call (attached : session.Attached)
    (patient : session.config.timeout.nanoseconds ≠ 0) {call : MemoryCall}
    (proper : call.Proper session)
    : ∃ after,
        session.call call = (.ok (call.access.answer session.board.byteAt), after)
        ∧ session.Served call.access.written? after := by
  obtain ⟨told, refusals⟩ := attached.refusing call.drops call.retries
  obtain ⟨⟨known, inside, enough, spare⟩, numbered⟩ := told.proper proper
  have patient_still : (session.refusing call.drops call.retries).config.timeout.nanoseconds
      ≠ 0 := by
    rw [told.config]
    exact patient
  rw [← refusals] at spare
  unfold Session.call
  cases action : call.access with
  | write chip base data =>
      rw [action] at known inside enough numbered
      obtain ⟨after, done, served⟩ :=
        told.attached.write patient_still spare known inside enough numbered
      have written : (session.refusing call.drops call.retries).write chip base data
          = (.ok (), after) := done
      refine ⟨after, by dsimp only; rw [written]; rfl, ?_⟩
      have both := told.trans served
      simp only [Option.or_none] at both
      exact both
  | read chip base length =>
      rw [action] at known inside enough numbered
      obtain ⟨after, done, served⟩ :=
        told.attached.read patient_still spare known inside enough numbered
      have same : (session.refusing call.drops call.retries).board.byteAt chip
          = session.board.byteAt chip :=
        funext fun address => told.since.bytes chip address
      have bytes : (session.refusing call.drops call.retries).read chip base
            (UInt64.ofNat length)
          = (.ok ((List.range length).map fun index =>
              (session.refusing call.drops call.retries).board.byteAt chip
                (base + UInt32.ofNat index)), after) :=
        done
      rw [same] at bytes
      exact ⟨after, bytes, told.trans served⟩

/-- An allowed call that there are too few sequence numbers for never ends: all numbers come to be
in use, and then the search for another one goes on for ever.
-/
theorem Attached.call_endless (attached : session.Attached)
    (patient : session.config.timeout.nanoseconds ≠ 0) {call : MemoryCall}
    (allowed : call.Allowed session)
    (unnumbered
      : ¬ (session.config.channels < sequenceCount ∨ call.access.pieces ≤ sequenceCount))
    : ∃ after, session.call call = (.error .endless, after) := by
  obtain ⟨told, refusals⟩ := attached.refusing call.drops call.retries
  obtain ⟨known, inside, enough, spare⟩ := told.allowed allowed
  have patient_still : (session.refusing call.drops call.retries).config.timeout.nanoseconds
      ≠ 0 := by
    rw [told.config]
    exact patient
  rw [← refusals] at spare
  rw [← told.config] at unnumbered
  unfold Session.call
  cases action : call.access with
  | write chip base data =>
      rw [action] at known inside enough unnumbered
      obtain ⟨after, stuck⟩ :=
        told.attached.write_endless patient_still spare known inside enough unnumbered
      have written : (session.refusing call.drops call.retries).write chip base data
          = (.error .endless, after) := stuck
      exact ⟨after, by dsimp only; rw [written]; rfl⟩
  | read chip base length =>
      rw [action] at known inside enough unnumbered
      exact told.attached.read_endless patient_still spare known inside enough unnumbered

/-- After some calls the memory holds what was written last; by induction on the calls, the last
one first.
-/
theorem Attached.run (attached : session.Attached)
    (patient : session.config.timeout.nanoseconds ≠ 0) {calls : List MemoryCall}
    (proper : ∀ call ∈ calls, call.Proper session)
    : session.Served (latest? calls) (session.run calls) := by
  induction calls using List.reverseRecOn with
  | nil => exact ⟨attached, rfl, rfl, rfl, fun _ _ => rfl⟩
  | append_singleton earlier last ih =>
      have served := ih fun call member => proper call (List.mem_append_left _ member)
      have patient_still : (session.run earlier).config.timeout.nanoseconds ≠ 0 := by
        rw [served.config]
        exact patient
      obtain ⟨after, done, further⟩ := served.attached.call patient_still
        (served.proper (proper last (by simp)))
      have reached : session.run (earlier ++ [last]) = after := by
        have stepped : session.run (earlier ++ [last]) = ((session.run earlier).call last).2 := by
          simp [Session.run]
        rw [stepped, done]
      have split : latest? (earlier ++ [last])
          = fun chip address =>
              (last.access.written? chip address).or (latest? earlier chip address) := by
        funext chip address
        simp [latest?]
      rw [reached, split]
      exact served.trans further

/-- Every call of a series goes well, whatever the calls before it were: a read gives for each
address the byte that was written to it last, or what the board held at the start, which is zero
where nothing was ever written; and no call changes a byte outside its range or on another chip.
Witness: what the calls before it leave, by induction on them, and then one call more.
-/
theorem call_answers_latest (attached : session.Attached)
    (patient : session.config.timeout.nanoseconds ≠ 0) {before : List MemoryCall}
    {call : MemoryCall}
    (proper : ∀ each ∈ before ++ [call], each.Proper session)
    : ∃ after,
        (session.run before).call call
          = (.ok (call.access.answer fun chip address =>
                (latest? before chip address).getD (session.board.byteAt chip address)),
              after)
        ∧ after.Attached
        ∧ (∀ chip address,
            after.board.byteAt chip address
              = (call.access.written? chip address).getD
                  ((session.run before).board.byteAt chip address))
        ∧ (session.board.memories.entries = []
            → ∀ chip address, session.board.byteAt chip address = 0) := by
  have served := attached.run patient fun each member => proper each (List.mem_append_left _ member)
  have patient_still : (session.run before).config.timeout.nanoseconds ≠ 0 := by
    rw [served.config]
    exact patient
  obtain ⟨after, done, further⟩ := served.attached.call patient_still
    (served.proper (proper call (by simp)))
  have held : (session.run before).board.byteAt
      = fun chip address =>
          (latest? before chip address).getD (session.board.byteAt chip address) :=
    funext fun chip => funext fun address => served.since.bytes chip address
  refine ⟨after, by rw [done, held], further.attached, further.since.bytes, ?_⟩
  intro never chip address
  simp [State.byteAt, Table.get?, never, Table.find]

/-- A read over the end of a page gives the bytes of two writes that overlap, and zeros around them,
although the board refuses a request before each call.
-/
theorem call_answers_latest_overlapping
    : ∃ session after,
        Session.open? [Board.connection { board := { settings := { machine := ⟨2, 2⟩ } } }] [] 0
            none {}
          = .ok session
        ∧ (session.run
              [ { access := .write ⟨1, 0⟩ 4094 [1, 2, 3, 4], drops := 1 },
                { access := .write ⟨1, 0⟩ 4095 [9], retries := 1 } ]).call
            { access := .read ⟨1, 0⟩ 4093 6, drops := 1, retries := 1 }
          = (.ok [0, 1, 9, 3, 4, 0], after) := by
  let peer : Peer := { board := { settings := { machine := ⟨2, 2⟩ } } }
  have ready : peer.Ready := ⟨rfl, rfl, rfl⟩
  obtain ⟨session, opened, attached, reached, config⟩ := attached_of_open ready 0 none {}
  have patient : session.config.timeout.nanoseconds ≠ 0 := by
    rw [config]
    decide
  let before : List MemoryCall :=
    [ { access := .write ⟨1, 0⟩ 4094 [1, 2, 3, 4], drops := 1 },
      { access := .write ⟨1, 0⟩ 4095 [9], retries := 1 } ]
  let call : MemoryCall := { access := .read ⟨1, 0⟩ 4093 6, drops := 1, retries := 1 }
  have proper : ∀ each ∈ before ++ [call], each.Proper session := by
    have allowed : ∀ each ∈ before ++ [call],
        peer.board.settings.machine.contains each.access.chip = true
          ∧ each.access.base.toNat + each.access.length ≤ 2 ^ 32
          ∧ payloadOffset + each.access.largestAnswer ≤ peer.room
          ∧ each.drops + each.retries < ({} : Config).budget := by
      decide
    intro each member
    obtain ⟨known, inside, enough, spare⟩ := allowed each member
    refine ⟨⟨by rw [board, reached]; exact known, inside, by rw [reached]; exact enough,
      by rw [config]; exact spare⟩, .inl ?_⟩
    rw [config]
    decide
  obtain ⟨after, done, _, _, zero⟩ := call_answers_latest attached patient proper
  have never : session.board.byteAt = fun _ _ => 0 :=
    funext fun chip => funext fun address => zero (by rw [board, reached]; rfl) chip address
  rw [never] at done
  exact ⟨session, after, opened, done⟩

/-- A write of 65537 pieces is allowed, but where 65536 requests may wait at a time it never ends:
all sequence numbers are in use before the last piece goes out.
-/
theorem call_endless_without_numbers
    : ∃ session after,
        Session.open? [Board.connection { board := {} }] [] 0 none
            { channels := 65536, waits := 65535 }
          = .ok session
        ∧ session.config.timeout.nanoseconds ≠ 0
        ∧ MemoryCall.Allowed session { access := .write .origin 0 (List.replicate 16777217 1) }
        ∧ session.call { access := .write .origin 0 (List.replicate 16777217 1) }
          = (.error .endless, after) := by
  let peer : Peer := { board := {} }
  let config : Config := { channels := 65536, waits := 65535 }
  have ready : peer.Ready := ⟨rfl, rfl, rfl⟩
  obtain ⟨session, opened, attached, reached, configured⟩ := attached_of_open ready 0 none config
  have patient : session.config.timeout.nanoseconds ≠ 0 := by
    rw [configured]
    decide
  -- Only the length of the data matters, and it is never computed.
  have stuck : ∀ data : List UInt8, data.length = 16777217 →
      MemoryCall.Allowed session { access := .write .origin 0 data }
        ∧ ∃ after, session.call { access := .write .origin 0 data } = (.error .endless, after) := by
    intro data length
    have allowed : MemoryCall.Allowed session { access := .write .origin 0 data } := by
      refine ⟨by rw [board, reached]; rfl, ?_, ?_, ?_⟩
      · change 0 + data.length ≤ 2 ^ 32
        omega
      · rw [reached]
        exact (by decide : payloadOffset ≤ 65536)
      · rw [configured]
        exact (by decide : 0 < 3)
    refine ⟨allowed, attached.call_endless patient allowed ?_⟩
    have pieces : Access.pieces (.write .origin 0 data) = 65537 := by
      simp only [Access.pieces, Access.length, length]
      decide
    rw [configured, pieces]
    decide
  obtain ⟨allowed, after, endless⟩ := stuck _ List.length_replicate
  exact ⟨session, after, opened, patient, allowed, endless⟩

end Session

end MeshControl
