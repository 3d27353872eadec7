import Mathlib.Data.List.Permutation
import MeshControl.Link.Transcript
import MeshControl.Operation.Version
import MeshControl.Proofs.Link.Passage
import MeshControl.Proofs.Link.Routing

/-! What the counters of a window say about the datagrams that it sent. A window asks its
connection to take a datagram, and the connection takes it or refuses it. The first datagram of a
request is counted once it was taken; a repetition is counted before it is offered, so that one
that is refused counts as sent. This is so at every moment of a window's work, and after any
history of windows that share a connection.
-/

namespace MeshControl.Link

open Scp

-----------------------------------------------------------------------------------------
-- Attempts
-----------------------------------------------------------------------------------------

/-- One datagram that a window offered to its connection: the first of its request, or a repetition
with its reason. A connection that does not take it says why.
-/
structure Attempt where
  datagram : Datagram
  reason : Option Reason
  refusal : Option Error
deriving DecidableEq, Repr

namespace Attempt

/-- The connection took the datagram. -/
def isSent (attempt : Attempt) : Bool :=
  attempt.refusal.isNone

/-- The datagram was a repetition, and was refused. -/
def isLost (attempt : Attempt) : Bool :=
  attempt.reason.isSome && attempt.refusal.isSome

/-- The datagram was the first of its request, and was taken. -/
def isOpening (attempt : Attempt) : Bool :=
  attempt.reason.isNone && attempt.refusal.isNone

/-- The datagram was a repetition because nothing came. -/
def breaksSilence (attempt : Attempt) : Bool :=
  attempt.reason == some .silence

/-- The datagram was a repetition that an answer asked for. -/
def wasAskedFor (attempt : Attempt) : Bool :=
  match attempt.reason with
  | some (.result _) => true
  | _ => false

/-- Openings and repetitions are what was sent and what was lost, by induction on the attempts. -/
theorem countP_kinds (attempts : List Attempt)
    : attempts.countP isOpening + attempts.countP breaksSilence + attempts.countP wasAskedFor
      = attempts.countP isSent + attempts.countP isLost := by
  induction attempts with
  | nil => rfl
  | cons attempt rest ih =>
      obtain ⟨_, reason, refusal⟩ := attempt
      simp only [List.countP_cons]
      rcases reason with _ | _ | code <;> cases refusal
      all_goals
        simp [isOpening, breaksSilence, wasAskedFor, isSent, isLost]
        omega

end Attempt

/-- The datagrams of the attempts that the connection took. -/
def sentDatagrams (attempts : List Attempt) : List Datagram :=
  (attempts.filter Attempt.isSent).map Attempt.datagram

theorem length_sentDatagrams (attempts : List Attempt)
    : (sentDatagrams attempts).length = attempts.countP Attempt.isSent := by
  rw [sentDatagrams, List.length_map, List.countP_eq_length_filter]

theorem sentDatagrams_append (first second : List Attempt)
    : sentDatagrams (first ++ second) = sentDatagrams first ++ sentDatagrams second := by
  rw [sentDatagrams, List.filter_append, List.map_append]
  rfl

namespace Station

variable {ρ : Type}

-----------------------------------------------------------------------------------------
-- Counters and journal of one action
-----------------------------------------------------------------------------------------

/-- A request that fails is counted nowhere. -/
theorem counters_fail (station : Station ρ) (sequence : UInt16) (error : Error)
    : (station.fail sequence error).window.counters = station.window.counters := by
  unfold fail
  split <;> rfl

/-- An answer that is accepted is counted before its sender looks at it. -/
theorem counters_accept (station : Station ρ) (entry : Outstanding) (response : Response)
    : (station.accept entry response).window.counters
      = { station.window.counters with
          responses := station.window.counters.responses + 1 }.recordResponse .zero := by
  unfold accept
  dsimp only
  split <;> rfl

theorem deliveries_fail (station : Station ρ) (sequence : UInt16) (error : Error)
    : deliveries (station.fail sequence error).journal.toList
      = deliveries station.journal.toList := by
  unfold fail
  split
  · rfl
  · simp [deliveries, report, release, log, Event.delivered?]

theorem deliveries_accept (station : Station ρ) (entry : Outstanding) (response : Response)
    : deliveries (station.accept entry response).journal.toList
      = deliveries station.journal.toList := by
  unfold accept
  dsimp only
  split <;> simp [deliveries, report, release, log, count, Event.delivered?]

variable [Responder ρ]

/-- What a connection takes is written down. -/
theorem deliveries_of_transmit {station after : Station ρ} {datagram : Datagram}
    {refusal : Option Error} (sent : station.transmit datagram = (refusal, after))
    : deliveries after.journal.toList
      = deliveries station.journal.toList ++ if refusal.isNone then [datagram] else [] := by
  rcases journal_of_transmit sent with ⟨rfl, same⟩ | pushed
  · rw [same]
    exact (List.append_nil _).symm
  · rw [pushed, Array.toList_push, deliveries_append]
    cases refusal <;> rfl

theorem counters_of_transmit {station after : Station ρ} {datagram : Datagram}
    {refusal : Option Error} (sent : station.transmit datagram = (refusal, after))
    : after.window.counters = station.window.counters := by
  have window := window_transmit station datagram
  rw [sent] at window
  exact congrArg Window.counters window

-----------------------------------------------------------------------------------------
-- A window at work, with its attempts
-----------------------------------------------------------------------------------------

/-- A waiting request is offered to the connection once more; one that is refused ends. -/
inductive Repeats : Station ρ → Attempt → Station ρ → Prop
  | sent {station after : Station ρ} {sequence : UInt16} {entry : Outstanding}
    {remaining : Nat} {reason : Reason}
    (waits : station.window.outstanding.get? sequence = some entry)
    (left : entry.remaining = remaining + 1)
    (sent
      : (station.renew sequence entry remaining reason).transmit entry.datagram
        = (none, after))
    : Repeats station ⟨entry.datagram, some reason, none⟩ after
  | refused {station after : Station ρ} {sequence : UInt16} {entry : Outstanding}
    {remaining : Nat} {reason : Reason} {error : Error}
    (waits : station.window.outstanding.get? sequence = some entry)
    (left : entry.remaining = remaining + 1)
    (refused
      : (station.renew sequence entry remaining reason).transmit entry.datagram
        = (some error, after))
    : Repeats station ⟨entry.datagram, some reason, some error⟩ (after.fail sequence error)

/-- One change of a window at work, with the attempts that it makes by it: a move that offers
nothing, a repetition, or the first datagram of a request, after which the request waits or is
forgotten.
-/
inductive Deals : Station ρ → List Attempt → Station ρ → Prop
  | quiet {station after : Station ρ} (move : Move station after)
    (still : ∀ attempt, ¬ Repeats station attempt after)
    : Deals station [] after
  | repeated {station after : Station ρ} {attempt : Attempt}
    (repeats : Repeats station attempt after)
    : Deals station [attempt] after
  | sent {station after : Station ρ} (request : Request) (sequence : UInt16)
    (datagram : Datagram) (handler : Handler)
    (sent : (station.enroll sequence).transmit datagram = (none, after))
    : Deals station [⟨datagram, none, none⟩] (after.enlist request sequence datagram handler)
  | refused {station after : Station ρ} (sequence : UInt16) (datagram : Datagram)
    {error : Error}
    (refused : (station.enroll sequence).transmit datagram = (some error, after))
    : Deals station [⟨datagram, none, some error⟩] (after.withdraw sequence)

/-- Any number of such changes. -/
inductive Works : Station ρ → List Attempt → Station ρ → Prop
  | rest (station : Station ρ) : Works station [] station
  | deal {before middle after : Station ρ} {attempts more : List Attempt}
    (works : Works before attempts middle) (deals : Deals middle more after)
    : Works before (attempts ++ more) after

/-- A path is work, by induction on its moves: each offers a repetition or nothing. -/
theorem Path.works {before after : Station ρ} (path : Path before after)
    : ∃ attempts, Works before attempts after := by
  induction path with
  | refl => exact ⟨[], .rest before⟩
  | @tail middle after _ move ih =>
      obtain ⟨attempts, works⟩ := ih
      by_cases offers : ∃ attempt, Repeats middle attempt after
      · obtain ⟨attempt, repeats⟩ := offers
        exact ⟨_, works.deal (.repeated repeats)⟩
      · exact ⟨_, works.deal (.quiet move fun attempt repeats => offers ⟨attempt, repeats⟩)⟩

/-- A send is work, however it ends. -/
theorem send_works (station : Station ρ) (request : Request) (sequence : UInt16)
    (handler : Handler)
    : ∃ attempts, Works station attempts (station.send request sequence handler).2 := by
  have sending := station.send_sending request sequence handler
  obtain ⟨attempts, works⟩ := station.makeRoom_path.works
  generalize station.send request sequence handler = outcome at sending
  cases sending with
  | malformed => exact ⟨[], .rest station⟩
  | taken => exact ⟨attempts, works⟩
  | refused _ _ tried => exact ⟨_, works.deal (.refused _ _ tried)⟩
  | sent _ _ tried => exact ⟨_, works.deal (.sent _ _ _ _ tried)⟩

/-- A window through its time: it works, its failures are collected, and in between others use its
connection and write things down.
-/
inductive Lives (start : Station ρ) : List Attempt → Station ρ → Prop
  | opened : Lives start [] start
  | works {station after : Station ρ} {attempts more : List Attempt}
    (lives : Lives start attempts station) (works : Works station more after)
    : Lives start (attempts ++ more) after
  | collected {station : Station ρ} {attempts : List Attempt}
    (lives : Lives start attempts station)
    : Lives start attempts { station with window := station.window.takeFailures.2 }
  | others {station : Station ρ} {attempts : List Attempt}
    (lives : Lives start attempts station) (line : Line ρ) (journal : Array Event)
    : Lives start attempts { station with line, journal }

-----------------------------------------------------------------------------------------
-- What is counted
-----------------------------------------------------------------------------------------

/-- Each of three counters went up by the attempts of its kind: the openings that were taken, and
the repetitions by their reasons, taken or not.
-/
structure Counts (before after : Counters) (attempts : List Attempt) : Prop where
  requests : after.requests = before.requests + attempts.countP Attempt.isOpening
  resent : after.resent = before.resent + attempts.countP Attempt.breaksSilence
  retryResent : after.retryResent = before.retryResent + attempts.countP Attempt.wasAskedFor

theorem Counts.refl (counters : Counters) : Counts counters counters [] :=
  ⟨rfl, rfl, rfl⟩

theorem Counts.trans {before middle after : Counters} {attempts more : List Attempt}
    (first : Counts before middle attempts) (second : Counts middle after more)
    : Counts before after (attempts ++ more) where
  requests := by rw [List.countP_append, second.requests, first.requests, Nat.add_assoc]
  resent := by rw [List.countP_append, second.resent, first.resent, Nat.add_assoc]
  retryResent := by
    rw [List.countP_append, second.retryResent, first.retryResent, Nat.add_assoc]

omit [Responder ρ] in
/-- A repetition is counted by its reason. -/
theorem Counts.renew (station : Station ρ) (sequence : UInt16) (entry : Outstanding)
    (remaining : Nat) (reason : Reason) (refusal : Option Error)
    : Counts station.window.counters
        (station.renew sequence entry remaining reason).window.counters
        [⟨entry.datagram, some reason, refusal⟩] := by
  cases reason <;> exact ⟨rfl, rfl, rfl⟩

/-- A repetition is counted, whether it is taken or refused. -/
theorem Repeats.counts {station after : Station ρ} {attempt : Attempt}
    (repeats : Repeats station attempt after)
    : Counts station.window.counters after.window.counters [attempt] := by
  cases repeats with
  | sent _ _ sent =>
      rw [counters_of_transmit sent]
      exact .renew _ _ _ _ _ _
  | refused _ _ refused =>
      rw [counters_fail, counters_of_transmit refused]
      exact .renew _ _ _ _ _ _

/-- Each change of a window counts its attempts, by the kinds of changes. -/
theorem Deals.counts {station after : Station ρ} {attempts : List Attempt}
    (deals : Deals station attempts after)
    : Counts station.window.counters after.window.counters attempts := by
  cases deals with
  | quiet move still =>
      cases move with
      | hear | overlook | lapse => exact ⟨rfl, rfl, rfl⟩
      | accept =>
          rw [counters_accept]
          exact ⟨rfl, rfl, rfl⟩
      | fail =>
          rw [counters_fail]
          exact .refl _
      | renew waits left sent => exact absurd (.sent waits left sent) (still _)
      | refuse waits left refused => exact absurd (.refused waits left refused) (still _)
  | repeated repeats => exact repeats.counts
  | sent _ _ _ _ sent =>
      have same := counters_of_transmit sent
      constructor <;> simp only [enlist, count, same] <;> rfl
  | refused _ _ refused =>
      have same := counters_of_transmit refused
      constructor <;> simp only [withdraw, same] <;> rfl

/-- So does its work, by induction on the changes. -/
theorem Works.counts {station after : Station ρ} {attempts : List Attempt}
    (works : Works station attempts after)
    : Counts station.window.counters after.window.counters attempts := by
  induction works with
  | rest => exact .refl _
  | deal _ deals ih => exact ih.trans deals.counts

/-- And so does its time, whatever others do, by induction on it. -/
theorem Lives.counts {start station : Station ρ} {attempts : List Attempt}
    (lives : Lives start attempts station)
    : Counts start.window.counters station.window.counters attempts := by
  induction lives with
  | opened => exact .refl _
  | works _ works ih => exact ih.trans works.counts
  | collected _ ih => exact ih
  | others _ _ _ ih => exact ih

/-- The datagrams that were taken are those that were written down as taken, by the kinds of
changes.
-/
theorem Deals.deliveries_eq {station after : Station ρ} {attempts : List Attempt}
    (deals : Deals station attempts after)
    : deliveries after.journal.toList
      = deliveries station.journal.toList ++ sentDatagrams attempts := by
  cases deals with
  | quiet move still =>
      refine Eq.trans ?_ (List.append_nil _).symm
      cases move with
      | hear | overlook | lapse => rfl
      | accept => exact deliveries_accept _ _ _
      | fail => exact deliveries_fail _ _ _
      | renew waits left sent => exact absurd (.sent waits left sent) (still _)
      | refuse waits left refused => exact absurd (.refused waits left refused) (still _)
  | repeated repeats =>
      cases repeats with
      | sent _ _ sent => exact deliveries_of_transmit sent
      | refused _ _ refused =>
          rw [deliveries_fail]
          exact deliveries_of_transmit refused
  | sent _ _ _ _ sent => exact deliveries_of_transmit sent
  | refused _ _ refused => exact deliveries_of_transmit refused

theorem Works.deliveries_eq {station after : Station ρ} {attempts : List Attempt}
    (works : Works station attempts after)
    : deliveries after.journal.toList
      = deliveries station.journal.toList ++ sentDatagrams attempts := by
  induction works with
  | rest => exact (List.append_nil _).symm
  | deal _ deals ih => rw [deals.deliveries_eq, ih, sentDatagrams_append, List.append_assoc]

/-- A window that has counted nothing yet counts what is sent of it later and what is lost; what is
sent and nothing else, exactly if nothing is lost.
-/
theorem Lives.datagramsSent_eq {start station : Station ρ} {attempts : List Attempt}
    (lives : Lives start attempts station) (new : start.window.counters = {})
    : station.window.counters.datagramsSent
        = attempts.countP Attempt.isSent + attempts.countP Attempt.isLost
      ∧ (station.window.counters.datagramsSent = attempts.countP Attempt.isSent
        ↔ ∀ attempt ∈ attempts, attempt.isLost = false) := by
  have counts := lives.counts
  rw [new] at counts
  have total : station.window.counters.datagramsSent
      = attempts.countP Attempt.isSent + attempts.countP Attempt.isLost := by
    rw [← Attempt.countP_kinds, Counters.datagramsSent, counts.requests, counts.resent,
      counts.retryResent]
    simp only [Nat.zero_add]
  have none_lost : attempts.countP Attempt.isLost = 0
      ↔ ∀ attempt ∈ attempts, attempt.isLost = false := by
    simp [List.countP_eq_zero]
  refine ⟨total, ?_⟩
  rw [total, ← none_lost]
  omega

end Station

-----------------------------------------------------------------------------------------
-- Histories
-----------------------------------------------------------------------------------------

namespace Junction

open Station

variable {ρ : Type}

/-- The window that works in an operation. -/
def Operation.worker? : Operation → Option Nat
  | .send number _ _ _ => some number
  | .finish number => some number
  | _ => none

variable [Responder ρ]

/-- What the connection takes while a window works. -/
def takes (number : Nat) (junction : Junction ρ) (operation : Operation) : List Datagram :=
  if operation.worker? = some number then
    (deliveries (junction.perform operation).journal.toList).drop
      (deliveries junction.journal.toList).length
  else []

/-- What the connection takes in a history while a window works, in order. -/
def taken (number : Nat) : Junction ρ → List Operation → List Datagram
  | _, [] => []
  | junction, operation :: rest =>
      junction.takes number operation ++ taken number (junction.perform operation) rest

/-- The window of a number has lived since it was new, and these are the datagrams that the
connection took of it; nothing was taken of a window that is yet to come.
-/
structure Logs (junction : Junction ρ) (number : Nat) (taken : List Datagram) : Prop where
  present
    : ∀ {window},
        junction.windows.get? number = some window
        → ∃ start attempts,
            start.window.counters = {}
            ∧ Lives start attempts (junction.station window)
            ∧ sentDatagrams attempts = taken
  unborn : junction.line.dispatcher.fresh ≤ number → taken = []

variable {junction : Junction ρ} {number : Nat} {taken : List Datagram}

/-- What others do to the connection and write down is no matter to the window. -/
theorem Logs.of_same {after : Junction ρ} (logs : junction.Logs number taken)
    (same
      : ∀ {window},
          after.windows.get? number = some window → junction.windows.get? number = some window)
    (fresh : junction.line.dispatcher.fresh ≤ after.line.dispatcher.fresh)
    : after.Logs number taken where
  present held := by
    obtain ⟨start, attempts, new, lives, sent⟩ := logs.present (same held)
    exact ⟨start, attempts, new, lives.others after.line after.journal, sent⟩
  unborn later := logs.unborn (Nat.le_trans fresh later)

/-- Of a new window nothing was taken. -/
theorem Logs.openWindow (logs : junction.Logs number taken) (config : Config)
    : (junction.openWindow config).2.Logs number taken := by
  by_cases newcomer : number = junction.line.dispatcher.fresh
  · subst newcomer
    obtain rfl := logs.unborn (Nat.le_refl _)
    refine ⟨fun held => ?_, fun _ => rfl⟩
    simp only [Junction.openWindow, Dispatcher.openInbox, Table.get?_insert_self,
      Option.some.injEq] at held
    subst held
    exact ⟨_, [], rfl, .opened, rfl⟩
  · refine logs.of_same (fun held => ?_) (Nat.le_succ _)
    simpa [Junction.openWindow, Dispatcher.openInbox, newcomer] using held

/-- A window that worked is put back: the connection took of it what is written down since, and
nothing of the others.
-/
theorem Logs.update (logs : junction.Logs number taken) (coherent : junction.Coherent)
    {worker : Nat} {window : Window} (listed : junction.windows.get? worker = some window)
    {after : Station ρ} {more : List Attempt}
    (works : Works (junction.station window) more after)
    (fresh : after.line.dispatcher.fresh = junction.line.dispatcher.fresh)
    : (junction.update worker after).Logs number
        (taken
          ++ if worker = number then
              (deliveries after.journal.toList).drop (deliveries junction.journal.toList).length
            else []) := by
  by_cases own : worker = number
  · subst own
    obtain ⟨start, attempts, new, lives, sent⟩ := logs.present listed
    have written : deliveries after.journal.toList
        = deliveries junction.journal.toList ++ sentDatagrams more :=
      works.deliveries_eq
    rw [if_pos rfl, written, List.drop_left]
    refine ⟨fun held => ?_, fun later => ?_⟩
    · simp only [Junction.update, Table.get?_insert_self, Option.some.injEq] at held
      subst held
      refine ⟨start, attempts ++ more, new, lives.works works, ?_⟩
      rw [sentDatagrams_append, sent]
    · have born := (coherent.numbered listed).2
      simp only [Junction.update] at later
      omega
  · rw [if_neg own, List.append_nil]
    refine logs.of_same (fun held => ?_) (Nat.le_of_eq fresh.symm)
    rwa [Junction.update, Table.get?_insert, if_neg (Ne.symm own)] at held

/-- A send adds what the connection takes meanwhile, however it ends. -/
theorem Logs.send (logs : junction.Logs number taken) (coherent : junction.Coherent)
    (worker : Nat) (request : Request) (sequence : UInt16) (handler : Handler)
    : (junction.send worker request sequence handler).2.Logs number
        (taken ++ junction.takes number (.send worker request sequence handler)) := by
  simp only [takes, perform, Operation.worker?, Option.some.injEq]
  unfold Junction.send
  cases listed : junction.windows.get? worker with
  | none => simpa using logs
  | some window =>
      obtain ⟨more, works⟩ := (junction.station window).send_works request sequence handler
      exact logs.update coherent listed works (fresh_of_send rfl)

/-- So does a wait. -/
theorem Logs.finish (logs : junction.Logs number taken) (coherent : junction.Coherent)
    (worker : Nat)
    : (junction.finish worker).Logs number (taken ++ junction.takes number (.finish worker)) := by
  simp only [takes, perform, Operation.worker?, Option.some.injEq]
  unfold Junction.finish
  cases listed : junction.windows.get? worker with
  | none => simpa using logs
  | some window =>
      have path := drain_path 0 (junction.station window)
      obtain ⟨more, works⟩ := path.works
      exact logs.update coherent listed works path.releases.fresh

theorem Logs.takeFailures (logs : junction.Logs number taken) (worker : Nat)
    : (junction.takeFailures worker).2.Logs number taken := by
  unfold Junction.takeFailures
  cases listed : junction.windows.get? worker with
  | none => exact logs
  | some window =>
      refine ⟨fun held => ?_, logs.unborn⟩
      simp only [Window.takeFailures, Table.get?_insert] at held
      split at held
      · next here =>
          cases held
          obtain ⟨start, attempts, new, lives, sent⟩ := logs.present (here ▸ listed)
          exact ⟨start, attempts, new, lives.collected, sent⟩
      · exact logs.present held

theorem Logs.drop (logs : junction.Logs number taken) (leaver : Nat)
    : (junction.drop leaver).Logs number taken := by
  unfold Junction.drop
  split
  · exact logs
  · refine logs.of_same (fun held => (Table.of_get?_erase held).2) ?_
    simp [Dispatcher.discard, Dispatcher.fresh_foldl_unregister]

/-- Every operation adds what the connection takes meanwhile, by cases on it. -/
theorem Logs.perform (logs : junction.Logs number taken) (coherent : junction.Coherent)
    (operation : Operation)
    : (junction.perform operation).Logs number (taken ++ junction.takes number operation) := by
  have idle (none_works : operation.worker? = none) : junction.takes number operation = [] := by
    rw [takes, none_works, if_neg (by simp)]
  cases operation with
  | send worker request sequence handler =>
      exact logs.send coherent worker request sequence handler
  | finish worker => exact logs.finish coherent worker
  | openWindow config =>
      rw [idle rfl, List.append_nil]
      exact logs.openWindow config
  | takeFailures worker =>
      rw [idle rfl, List.append_nil]
      exact logs.takeFailures worker
  | drop leaver =>
      rw [idle rfl, List.append_nil]
      exact logs.drop leaver
  | arrive reaction =>
      rw [idle rfl, List.append_nil]
      exact logs.of_same (fun held => held) (Nat.le_refl _)

/-- So does any history, by induction on its operations. -/
theorem Logs.run (logs : junction.Logs number taken) (coherent : junction.Coherent)
    (operations : List Operation)
    : (junction.run operations).Logs number
        (taken ++ Junction.taken number junction operations) := by
  induction operations generalizing junction taken with
  | nil =>
      simp only [Junction.taken, List.append_nil]
      exact logs
  | cons operation rest ih =>
      rw [Junction.taken, ← List.append_assoc]
      exact ih (logs.perform coherent operation) (coherent.perform operation)

/-- At every point of a window's time, whatever its settings, its connection and others do, the
datagrams that it counts as sent are those that its connection took, and the repetitions that its
connection refused besides; they are the ones that were taken exactly if no repetition was refused.
Any window has had such a time after any history of windows on one connection, and what it sent in
it are the datagrams that the connection took while the window worked.
Witness: each change counts its attempts by their kinds, openings only if they were taken.
-/
theorem datagramsSent_eq_taken_add_lost (connection : Connection ρ)
    : (∀ (start station : Station ρ) (attempts : List Attempt),
        start.window.counters = {}
        → Lives start attempts station
        → station.window.counters.datagramsSent
            = attempts.countP Attempt.isSent + attempts.countP Attempt.isLost
          ∧ (station.window.counters.datagramsSent = attempts.countP Attempt.isSent
            ↔ ∀ attempt ∈ attempts, attempt.isLost = false))
      ∧ ∀ (operations : List Operation) (number : Nat) (window : Window),
          let junction := (fresh connection).run operations
          let taken := (fresh connection).taken number operations
          junction.windows.get? number = some window
          → ∃ start attempts,
              start.window.counters = {}
              ∧ Lives start attempts (junction.station window)
              ∧ sentDatagrams attempts = taken
              ∧ window.counters.datagramsSent
                = taken.length + attempts.countP Attempt.isLost
              ∧ (window.counters.datagramsSent = taken.length
                ↔ ∀ attempt ∈ attempts, attempt.isLost = false) := by
  refine ⟨fun start station attempts new lives => lives.datagramsSent_eq new, ?_⟩
  intro operations number window junction taken held
  have opening : (fresh connection).Logs number [] := by
    refine ⟨fun absent => ?_, fun _ => rfl⟩
    cases absent
  have logs := opening.run (fresh_coherent connection) operations
  obtain ⟨start, attempts, new, lives, sent⟩ := logs.present held
  have size : taken.length = attempts.countP Attempt.isSent := by
    rw [← length_sentDatagrams, sent, List.nil_append]
  refine ⟨start, attempts, new, lives, sent.trans (List.nil_append _), ?_⟩
  rw [size]
  exact lives.datagramsSent_eq new

/-- A connection that takes one datagram, does not answer, and refuses the next. -/
def refusingConnection : Connection Transcript :=
  { number := 0
    name := "board"
    chip := .origin
    peer := { known := [{}, { refusal := some (.io .noRoute) }] } }

/-- One request is sent, and its repetition is refused. -/
def refusedRepetition : List Operation :=
  [.openWindow {}, .send 0 (Operation.getVersion .origin 0) 5 {}, .finish 0]

/-- Two datagrams are counted: one was taken, and one was lost. -/
theorem datagramsSent_eq_taken_add_lost_refused
    : let junction := (fresh refusingConnection).run refusedRepetition
      let taken := (fresh refusingConnection).taken 0 refusedRepetition
      ∃ window start attempts,
        junction.windows.get? 0 = some window
        ∧ Lives start attempts (junction.station window)
        ∧ sentDatagrams attempts = taken
        ∧ taken.length = 1
        ∧ attempts.countP Attempt.isLost = 1
        ∧ window.counters.datagramsSent = taken.length + attempts.countP Attempt.isLost := by
  intro junction taken
  have listed : (junction.windows.get? 0).isSome = true := by cbv
  obtain ⟨window, held⟩ := Option.isSome_iff_exists.mp listed
  have number : (junction.windows.get? 0).map (·.counters.datagramsSent) = some 2 := by cbv
  have one : taken.length = 1 := by cbv
  rw [held, Option.map_some, Option.some.injEq] at number
  obtain ⟨_, histories⟩ := datagramsSent_eq_taken_add_lost refusingConnection
  obtain ⟨start, attempts, _, lives, sent, total, _⟩ := histories _ 0 window held
  refine ⟨window, start, attempts, held, lives, sent, one, ?_, total⟩
  rw [number, one] at total
  omega

/-- A refused repetition counts as sent, although the connection took one datagram only. -/
theorem datagramsSent_ne_taken
    : let junction := (fresh refusingConnection).run refusedRepetition
      (junction.windows.get? 0).map (·.counters.datagramsSent) = some 2
      ∧ ((fresh refusingConnection).taken 0 refusedRepetition).length = 1 := by
  cbv

end Junction

end MeshControl.Link
