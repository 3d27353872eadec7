import MeshControl.Link.Transcript
import MeshControl.Proofs.Flood.Streaming
import MeshControl.Proofs.Link.FirstFailure
import MeshControl.Session

/-! What an operation of a session reports. There are two ways for a request to go wrong: it went
out and failed, which its batch reports when it has waited for all of them, or it could not even be
sent, which ends the batch at once. An operation reports the request that failed first, but for one
case: a request that could not be sent afterwards is reported in its place.
-/

namespace MeshControl

open Scp Operation Link

namespace Link

variable {ρ : Type}

-----------------------------------------------------------------------------------------
-- Batches
-----------------------------------------------------------------------------------------

/-- What is to be reported of some events: the error of the request that failed first. -/
def firstError (events : List Event) : Except Error Unit :=
  match failuresOf events with
  | [] => .ok ()
  | first :: _ => .error first.error

theorem firstError_append {first second : List Event} (well : firstError first = .ok ())
    : firstError (first ++ second) = firstError second := by
  unfold firstError at well ⊢
  split at well
  · next none_failed => rw [failuresOf_append, none_failed, List.nil_append]
  · cases well

namespace Process

theorem finished_engage {process later : Process} {number : Nat} {line engaged : Line ρ}
    {window : Window} (ready : process.engage number line = (window, engaged, later))
    : later.finished = process.finished := by
  rcases engage_cases ready with ⟨_, rfl⟩ | ⟨_, _, rfl⟩
  · rfl
  · rfl

variable [Responder ρ] {hub after : Hub ρ} {process later : Process}
  {result : Except Halt Unit}

/-- Sending does not finish a process. -/
theorem finished_send {request : Request} {handler : Handler}
    (done : Process.send hub process request handler = (result, after, later))
    : later.finished = process.finished := by
  have ending := send_sending hub process request handler
  rw [done] at ending
  cases ending with
  | idle => rfl
  | opened _ ready => exact finished_engage ready
  | tried _ ready =>
      have same := finished_engage ready
      exact same

/-- Orders are sent one after another and recorded, by induction on their number. -/
theorem sendAll_records {orders : Nat → Order} (index count : Nat)
    (collected : process.Collected)
    (done : Process.sendAll orders hub process index count = (result, after, later))
    : later.Collected
      ∧ later.finished = process.finished
      ∧ ∃ events, Ledger.Records (ledger hub process) (ledger after later) events := by
  induction count generalizing hub process index with
  | zero =>
      obtain ⟨-, rfl, rfl⟩ : .ok () = result ∧ hub = after ∧ process = later := by
        simpa [Process.sendAll] using done
      exact ⟨collected, rfl, [], .of_same rfl rfl⟩
  | succ count ih =>
      unfold Process.sendAll at done
      split at done
      · obtain ⟨-, rfl, rfl⟩ := by simpa using done
        exact ⟨collected, rfl, [], .of_same rfl rfl⟩
      · next request _ =>
          generalize sent
            : Process.send hub process request (orders index).handler = outcome at done
          obtain ⟨verdict, middle, between⟩ := outcome
          obtain ⟨still, events, first⟩ := send_records collected sent
          have open_still := finished_send sent
          cases verdict with
          | error error =>
              obtain ⟨-, rfl, rfl⟩ := by simpa using done
              exact ⟨still, open_still, events, first⟩
          | ok =>
              obtain ⟨last, finished, more, second⟩ := ih _ still done
              exact ⟨last, finished.trans open_still, _, first.trans second⟩

/-- A process that has not finished waits, and reports the first failure that it has collected. -/
theorem finishAndCheck_records {result : Except Error Unit} (collected : process.Collected)
    (unfinished : process.finished = false)
    (done : Process.finishAndCheck hub process = (result, after, later))
    : result = later.check
      ∧ ∃ events, Ledger.Records (ledger hub process) (ledger after later) events := by
  unfold Process.finishAndCheck at done
  generalize waited : Process.finish hub process = outcome at done
  obtain ⟨verdict, middle, between⟩ := outcome
  obtain ⟨-, events, records⟩ := finish_records collected waited
  have goes_well : verdict = .ok () := by
    unfold Process.finish at waited
    rw [unfinished] at waited
    exact (congrArg Prod.fst waited).symm
  subst goes_well
  obtain ⟨rfl, rfl, rfl⟩ := by simpa using done
  exact ⟨rfl, events, records⟩

/-- What was recorded since a process began decides what it reports. -/
theorem check_eq_firstError {process : Process} {events : List Event}
    (failures : process.failures = failuresOf events)
    : process.check = firstError events := by
  cases failed : failuresOf events with
  | nil => simp only [check, firstError, failures, failed]
  | cons first rest => simp only [check, firstError, failures, failed]

end Process

/-- A batch yet to be run: so many orders. -/
structure Batch where
  count : Nat
  orders : Nat → Order

variable [Responder ρ]

/-- What a batch breaks off with, because one of its requests cannot be made or sent. -/
def Batch.refusal? (batch : Batch) (hub : Hub ρ) (config : Config) : Option Halt :=
  match (Process.sendAll batch.orders hub { config } 0 batch.count).1 with
  | .error halt => some halt
  | .ok () => none

/-- What is reported of some events, unless a request could not be sent. -/
def verdict (refusal? : Option Halt) (events : List Event) : Except Halt Unit :=
  refusal?.elim ((firstError events).mapError .failed) .error

/-- A batch reports the request that failed first, unless a later one could not be sent. -/
theorem Batch.run_verdict (batch : Batch) (hub : Hub ρ) (config : Config)
    : let ended := hub.batch config batch.count batch.orders
      ∃ events,
        ended.2.journal.toList = hub.journal.toList ++ events
        ∧ ended.1 = verdict (batch.refusal? hub config) events := by
  unfold Hub.batch Batch.refusal?
  generalize sent : Process.sendAll batch.orders hub { config } 0 batch.count = outcome
  obtain ⟨result, middle, between⟩ := outcome
  obtain ⟨collected, unfinished, events, first⟩ :=
    Process.sendAll_records 0 _ (Process.Collected.start config) sent
  cases result with
  | error error =>
      refine ⟨events, ?_, rfl⟩
      rw [Process.journal_drop]
      exact first.journal
  | ok =>
      dsimp only
      generalize waited : Process.finishAndCheck middle between = ending
      obtain ⟨result, last, later⟩ := ending
      obtain ⟨rfl, more, second⟩ :=
        Process.finishAndCheck_records collected unfinished waited
      have both := first.trans second
      have told := Process.check_eq_firstError both.failures
      refine ⟨events ++ more, ?_, congrArg (Except.mapError Halt.failed) told⟩
      rw [Process.journal_drop]
      exact both.journal

/-- Runs batches one after the other, as long as they go well. -/
def Hub.inTurn (hub : Hub ρ) (config : Config) : List Batch → Except Halt Unit × Hub ρ
  | [] => (.ok (), hub)
  | batch :: rest =>
      match hub.batch config batch.count batch.orders with
      | (.error halt, hub) => (.error halt, hub)
      | (.ok (), hub) => hub.inTurn config rest

/-- What one of these batches breaks off with. -/
def Hub.refusal? (hub : Hub ρ) (config : Config) : List Batch → Option Halt
  | [] => none
  | batch :: rest =>
      match batch.refusal? hub config with
      | some halt => some halt
      | none =>
          match hub.batch config batch.count batch.orders with
          | (.error _, _) => none
          | (.ok (), hub) => hub.refusal? config rest

/-- Batches in turn report as one, by induction on the batches: those before the last went well. -/
theorem Hub.inTurn_verdict (hub : Hub ρ) (config : Config) (batches : List Batch)
    : let ended := hub.inTurn config batches
      ∃ events,
        ended.2.journal.toList = hub.journal.toList ++ events
        ∧ ended.1 = verdict (hub.refusal? config batches) events := by
  induction batches generalizing hub with
  | nil => exact ⟨[], (List.append_nil _).symm, rfl⟩
  | cons batch rest ih =>
      obtain ⟨events, journal, reported⟩ := batch.run_verdict hub config
      unfold Hub.inTurn Hub.refusal?
      generalize hub.batch config batch.count batch.orders = ended at journal reported ⊢
      obtain ⟨result, after⟩ := ended
      dsimp only at journal reported ⊢
      cases refused : batch.refusal? hub config with
      | some halt =>
          rw [refused] at reported
          obtain rfl : result = .error halt := reported
          exact ⟨events, journal, rfl⟩
      | none =>
          rw [refused] at reported
          cases result with
          | error halt => exact ⟨events, journal, reported⟩
          | ok =>
              obtain ⟨more, later, last⟩ := ih after
              have well : firstError events = .ok () := mapError_eq_ok_iff.mp reported.symm
              refine ⟨events ++ more, by rw [later, journal, List.append_assoc], ?_⟩
              dsimp only
              rw [last, verdict, verdict, firstError_append well]

theorem Hub.inTurn_singleton (hub : Hub ρ) (config : Config) (batch : Batch)
    : hub.inTurn config [batch] = hub.batch config batch.count batch.orders := by
  simp only [Hub.inTurn]
  generalize hub.batch config batch.count batch.orders = ended
  obtain ⟨result, after⟩ := ended
  cases result with
  | error error => rfl
  | ok => rfl

-----------------------------------------------------------------------------------------
-- Reports
-----------------------------------------------------------------------------------------

omit [Responder ρ] in
/-- From one state of the connections to a later one: once a request has failed, the result is the
error of the one that failed first, unless a request could not be sent.
-/
def Hub.Reports (hub after : Hub ρ) (refusal? : Option Halt) (result : Except Halt Unit)
    : Prop :=
  ∃ events,
    after.journal.toList = hub.journal.toList ++ events
    ∧ ∀ first rest,
        failuresOf events = first :: rest → result = .error (refusal?.getD (.failed first.error))

omit [Responder ρ] in
/-- Where nothing was written down, nothing has failed. -/
theorem Hub.Reports.of_same {hub after : Hub ρ} {refusal? : Option Halt}
    {result : Except Halt Unit} (same : after.journal = hub.journal)
    : hub.Reports after refusal? result := by
  refine ⟨[], by rw [same, List.append_nil], ?_⟩
  intro first rest failed
  cases failed

/-- Batches in turn report what they are to report. -/
theorem Hub.inTurn_reports (hub : Hub ρ) (config : Config) (batches : List Batch)
    : hub.Reports (hub.inTurn config batches).2 (hub.refusal? config batches)
        (hub.inTurn config batches).1 := by
  obtain ⟨events, journal, reported⟩ := hub.inTurn_verdict config batches
  refine ⟨events, journal, fun first rest failed => ?_⟩
  rw [reported]
  cases hub.refusal? config batches with
  | some halt => rfl
  | none =>
      simp only [verdict, firstError, failed, Option.elim_none, Option.getD_none]
      rfl

/-- A batch with a journal of its own reports so, too, whatever is made of its events. -/
theorem Hub.exchange_reports {α : Type} (hub : Hub ρ) (config : Config) (batch : Batch)
    (use : Array Event → α)
    : let exchanged := hub.exchange config batch.count batch.orders
      hub.Reports exchanged.2 ({ hub with journal := #[] }.refusal? config [batch])
        ((exchanged.1.map use).map fun _ => ()) := by
  obtain ⟨events, journal, reported⟩ :=
    { hub with journal := #[] }.inTurn_reports config [batch]
  rw [inTurn_singleton] at journal reported
  dsimp only [Hub.exchange, Hub.apart]
  generalize { hub with journal := #[] }.batch config batch.count batch.orders = ended
    at journal reported ⊢
  obtain ⟨result, after⟩ := ended
  have own : after.journal.toList = events := journal
  refine ⟨events, by rw [Array.toList_append, own], fun first rest failed => ?_⟩
  have failing := reported first rest failed
  dsimp only at failing
  rw [failing]
  rfl

end Link

-----------------------------------------------------------------------------------------
-- Floods
-----------------------------------------------------------------------------------------

namespace Flood

/-- The three batches of a flood. -/
def batches (id : UInt8) (base : UInt32) (data : List UInt8) : List Batch :=
  [⟨1, fun _ => { request := .ok (floodFillStart id (UInt8.ofNat (pieces data)) none) }⟩,
    ⟨pieces data, fun index => deliver id (blockAt base data index)⟩,
    ⟨1, fun _ => { request := .ok (floodFillEnd id 0 0 false) }⟩]

variable {ρ : Type} [Responder ρ]

/-- A flood that passes the check of its size is its three batches in turn. -/
theorem write_eq_inTurn {hub : Hub ρ} {ids : Ids} {config : Config} {base : UInt32}
    {data : List UInt8} {blocks : UInt8}
    (checked : checkSize base (UInt64.ofNat data.length) = .ok blocks)
    : write hub ids config base data
      = let (result, hub) := hub.inTurn config (batches ids.draw.1 base data)
        (result, hub, ids.draw.2) := by
  simp only [write, checked, batches, Hub.inTurn, start, finish]
  generalize hub.batch config 1 _ = started
  obtain ⟨result, begun⟩ := started
  cases result with
  | error halt => rfl
  | ok =>
      dsimp only
      generalize begun.batch config (pieces data) _ = delivered
      obtain ⟨result, after⟩ := delivered
      cases result with
      | error halt => rfl
      | ok =>
          dsimp only
          generalize after.batch config 1 _ = ended
          obtain ⟨result, last⟩ := ended
          cases result with
          | error halt => rfl
          | ok => rfl

/-- So does a flood; one whose size or range is refused sends nothing. -/
theorem write_reports (hub : Hub ρ) (ids : Ids) (config : Config) (base : UInt32)
    (data : List UInt8)
    : let written := write hub ids config base data
      hub.Reports written.2.1 (hub.refusal? config (batches ids.draw.1 base data)) written.1 := by
  cases checked : checkSize base (UInt64.ofNat data.length) with
  | error halt =>
      simp only [write, checked]
      exact .of_same rfl
  | ok blocks =>
      rw [write_eq_inTurn checked]
      exact hub.inTurn_reports config _

end Flood

-----------------------------------------------------------------------------------------
-- Sessions
-----------------------------------------------------------------------------------------

/-- An operation of a session that moves data. A source that floods are read from has all the
bytes that are asked of it.
-/
inductive Transfer
  | read (chip : Chip) (base : UInt32) (length : UInt64)
  | write (chip : Chip) (base : UInt32) (data : List UInt8)
  | floodWrite (base : UInt32) (data : List UInt8)
  | floodWriteFrom (base : UInt32) (source : List UInt8) (bytes : UInt64) (failure : IoFailure)
    (enough : bytes.toNat ≤ source.length)

namespace Transfer

variable {ρ : Type}

/-- The batches of an operation, one after the other. -/
def batches (session : Session ρ) : Transfer → List Batch
  | .read chip base length =>
      [⟨(length.toNat + (maxData - 1)) / maxData, Session.readOrder chip base length.toNat⟩]
  | .write chip base data => [⟨Flood.pieces data, Session.writeOrder chip base data⟩]
  | .floodWrite base data => Flood.batches session.ids.draw.1 base data
  | .floodWriteFrom base source bytes _ _ =>
      Flood.batches session.ids.draw.1 base (source.take bytes.toNat)

/-- What the batches work with; a read has a journal of its own. -/
def hub (session : Session ρ) : Transfer → Hub ρ
  | .read .. => { session.hub with journal := #[] }
  | .write .. | .floodWrite .. | .floodWriteFrom .. => session.hub

variable [Responder ρ]

/-- Does the operation, and gives its result without the data. -/
def perform (session : Session ρ) : Transfer → Except Halt Unit × Session ρ
  | .read chip base length =>
      let (result, after) := session.read chip base length
      (result.map fun _ => (), after)
  | .write chip base data => session.write chip base data
  | .floodWrite base data => session.floodWrite base data
  | .floodWriteFrom base source bytes failure _ =>
      let (result, _, after) := session.floodWriteFrom base source bytes failure
      (result, after)

/-- What a request of the operation that could not be sent ended with, if there is one. -/
def refusal? (session : Session ρ) (transfer : Transfer) : Option Halt :=
  (transfer.hub session).refusal? session.config (transfer.batches session)

/-- The operation reports what it is to report. -/
def Reports (transfer : Transfer) (session : Session ρ) : Prop :=
  session.hub.Reports (transfer.perform session).2.hub (transfer.refusal? session)
    (transfer.perform session).1

theorem read_reports (session : Session ρ) (chip : Chip) (base : UInt32) (length : UInt64)
    : (read chip base length).Reports session := by
  dsimp only [Reports, perform, Session.read, Session.whenOpen]
  split
  · exact .of_same rfl
  · split
    · exact .of_same rfl
    · split
      · exact .of_same rfl
      · exact session.hub.exchange_reports session.config
          ⟨_, Session.readOrder chip base length.toNat⟩ _

theorem write_reports (session : Session ρ) (chip : Chip) (base : UInt32) (data : List UInt8)
    : (write chip base data).Reports session := by
  dsimp only [Reports, perform, Session.write, Session.whenOpen]
  split
  · exact .of_same rfl
  · split
    · exact .of_same rfl
    · have batch := session.hub.inTurn_reports session.config
        (batches session (write chip base data))
      simp only [batches, Hub.inTurn_singleton] at batch
      exact batch

theorem floodWrite_reports (session : Session ρ) (base : UInt32) (data : List UInt8)
    : (floodWrite base data).Reports session := by
  dsimp only [Reports, perform, Session.floodWrite]
  split
  · exact .of_same rfl
  · exact Flood.write_reports session.hub session.ids session.config base data

theorem floodWriteFrom_reports (session : Session ρ) (base : UInt32) (source : List UInt8)
    (bytes : UInt64) (failure : IoFailure) (enough : bytes.toNat ≤ source.length)
    : (floodWriteFrom base source bytes failure enough).Reports session := by
  dsimp only [Reports, perform, Session.floodWriteFrom]
  split
  · exact .of_same rfl
  · have same := Flood.writeFrom_supplied session.hub session.ids session.config base failure enough
    have whole := Flood.write_reports session.hub session.ids session.config base
      (source.take bytes.toNat)
    dsimp only at same whole
    rw [← same] at whole
    exact whole

end Transfer

/-- Whatever the connections do, an operation that moves data reports its first failure: once one
of its requests has failed, its result is the error of the request that failed first, unless
another request could not be sent afterwards. The operation ends at once with that one's error,
and the first failure is not told. Witness: what a batch has recorded is what failed while it was
at work, and a batch that comes after another finds that nothing has failed yet.
-/
theorem Session.reports_first_failure {ρ : Type} [Responder ρ] (session : Session ρ)
    (transfer : Transfer)
    : let done := transfer.perform session
      ∃ events,
        done.2.hub.journal.toList = session.hub.journal.toList ++ events
        ∧ ∀ first rest,
            failuresOf events = first :: rest
            → done.1 = .error ((transfer.refusal? session).getD (.failed first.error)) := by
  cases transfer with
  | read chip base length => exact Transfer.read_reports session chip base length
  | write chip base data => exact Transfer.write_reports session chip base data
  | floodWrite base data => exact Transfer.floodWrite_reports session base data
  | floodWriteFrom base source bytes failure enough =>
      exact Transfer.floodWriteFrom_reports session base source bytes failure enough

/-- A board that turns a request down. -/
def rejection (result : ResultCode) (sequence : UInt16) : Reaction :=
  { arrivals :=
      [.datagram
        (Response.datagramWithCode (.toMonitor .origin .replyNotExpected) result.code sequence
          [])] }

/-- A session with one board, which takes one request at a time and reacts to them like this. -/
def Session.withBoard (known : List Reaction) : Session Transcript where
  hub :=
    { lines :=
        [{ connection := { number := 0, name := "board", chip := .origin, peer := { known } } }]
      selector := .fixed ⟨0, .origin⟩ }
  chipLines := 1
  boots := []
  config := .singleCommand

/-- Of two pieces that are turned down, the first one is reported. -/
theorem Session.reports_first_failure_bothRejected
    : let session := withBoard [rejection .badArgument 0, rejection .badCommand 1]
      let done := (Transfer.read .origin 0 512).perform session
      (failuresOf done.2.hub.journal.toList).length = 2
      ∧ done.1
        = .error
            (.failed (.unexpectedResponseCode "read memory" "Read" 0x84 (some .badArgument))) := by
  intro session done
  obtain ⟨events, journal, reported⟩ :=
    reports_first_failure session (.read .origin 0 512)
  have errors : (failuresOf done.2.hub.journal.toList).map Failure.error
      = [.unexpectedResponseCode "read memory" "Read" 0x84 (some .badArgument),
        .unexpectedResponseCode "read memory" "Read" 0x83 (some .badCommand)] := by
    cbv
  have all_sent : (Transfer.read .origin 0 512).refusal? session = none := by cbv
  have own : done.2.hub.journal.toList = events := journal
  obtain ⟨first, rest, failed, error, _⟩ := List.map_eq_cons_iff.mp errors
  refine ⟨by simpa using congrArg List.length errors, ?_⟩
  have told := reported first rest (own ▸ failed)
  rw [all_sent] at told
  rw [← error]
  exact told

/-- Where the second piece cannot be sent, its error is reported, although the first one was turned
down before.
-/
theorem Session.first_failure_untold
    : let session := withBoard [rejection .badArgument 0, { refusal := some (.io .noRoute) }]
      let done := (Transfer.read .origin 0 512).perform session
      (failuresOf done.2.hub.journal.toList).map Failure.error
        = [.unexpectedResponseCode "read memory" "Read" 0x84 (some .badArgument)]
      ∧ done.1 = .error (.failed (.io .noRoute)) := by
  cbv

end MeshControl
