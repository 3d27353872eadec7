import MeshControl.Proofs.Link.Turn

/-! Failures in the order in which they happened. A failure is written down where it happens, and
collected from its window before the process that waited there does anything else; so what a
process has collected, from all its connections, is what was written down while it was at work.
-/

namespace MeshControl.Link

open Scp

-----------------------------------------------------------------------------------------
-- Failures that were written down
-----------------------------------------------------------------------------------------

/-- The failure that an event tells of. -/
def Event.failure? : Event → Option Failure
  | .failed request error _ => some { request, error }
  | _ => none

/-- The failures that were told of, in order. -/
def failuresOf (events : List Event) : List Failure :=
  events.filterMap Event.failure?

@[simp] theorem failuresOf_append (first second : List Event)
    : failuresOf (first ++ second) = failuresOf first ++ failuresOf second :=
  List.filterMap_append

/-- A failure comes first exactly if nothing failed before it. -/
theorem head?_failuresOf_eq_some_iff {events : List Event} {failure : Failure}
    : (failuresOf events).head? = some failure
      ↔ ∃ early audience late,
          events = early ++ .failed failure.request failure.error audience :: late
          ∧ failuresOf early = [] := by
  constructor
  · intro first
    obtain ⟨rest, all⟩ : ∃ rest, failuresOf events = failure :: rest := by
      cases all : failuresOf events with
      | nil => simp [all] at first
      | cons head rest => exact ⟨rest, by simpa [all] using first⟩
    obtain ⟨early, event, late, rfl, before, told, _⟩ := List.filterMap_eq_cons_iff.mp all
    cases event with
    | failed request error audience =>
        obtain rfl := Option.some.inj told
        exact ⟨early, audience, late, rfl, List.filterMap_eq_nil_iff.mpr before⟩
    | transmitted | accepted => cases told
  · rintro ⟨early, audience, late, rfl, before⟩
    rw [failuresOf_append, before]
    rfl

namespace Ledger

/-- From one ledger to a later one the failures that were told of were kept, in their order. -/
structure Records (before after : Ledger) (events : List Event) : Prop where
  journal : after.journal = before.journal ++ events
  failures : after.failures = before.failures ++ failuresOf events

/-- A ledger to which nothing was added. -/
theorem Records.of_same {before after : Ledger} (journal : after.journal = before.journal)
    (failures : after.failures = before.failures)
    : Records before after [] :=
  ⟨by rw [journal, List.append_nil], by rw [failures]; exact (List.append_nil _).symm⟩

theorem Records.trans {before middle after : Ledger} {events more : List Event}
    (first : Records before middle events) (second : Records middle after more)
    : Records before after (events ++ more) where
  journal := by rw [second.journal, first.journal, List.append_assoc]
  failures := by rw [second.failures, first.failures, failuresOf_append, List.append_assoc]

end Ledger

-----------------------------------------------------------------------------------------
-- Windows
-----------------------------------------------------------------------------------------

namespace Station

variable {ρ : Type}

theorem report_records (station : Station ρ) (entry : Outstanding) (error : Error)
    : Ledger.Records station.ledger (station.report entry error).ledger
        [.failed entry.request error entry.handler.audience] where
  journal := by simp [ledger, report, log]
  failures := rfl

/-- Ending a request records its failure, if it waits. -/
theorem fail_records (station : Station ρ) (sequence : UInt16) (error : Error)
    : ∃ events, Ledger.Records station.ledger (station.fail sequence error).ledger events := by
  unfold fail
  cases station.window.outstanding.get? sequence with
  | none => exact ⟨[], .of_same rfl rfl⟩
  | some entry =>
      have told := (station.release sequence).report_records entry error
      exact ⟨_, told.journal, told.failures⟩

/-- Taking an answer records what the sender of its request finds wrong with it. -/
theorem accept_records (station : Station ρ) (entry : Outstanding) (response : Response)
    : ∃ events, Ledger.Records station.ledger (station.accept entry response).ledger events := by
  let taken : Station ρ :=
    ((station.release response.sequence).count fun counters =>
      { counters with responses := counters.responses + 1 }.recordResponse .zero).log
      (.accepted entry.request response entry.handler.audience)
  have told : Ledger.Records station.ledger taken.ledger
      [.accepted entry.request response entry.handler.audience] :=
    ⟨by simp [taken, ledger, log, count, release], (List.append_nil _).symm⟩
  unfold accept
  dsimp only
  cases entry.handler.check response with
  | ok => exact ⟨_, told⟩
  | error error => exact ⟨_, told.trans (taken.report_records entry error)⟩

variable [Responder ρ]

/-- A transmission records no failure, even if it is refused. -/
theorem transmit_records {station after : Station ρ} {datagram : Datagram}
    {refusal : Option Error} (sent : station.transmit datagram = (refusal, after))
    : ∃ events, Ledger.Records station.ledger after.ledger events := by
  have failures : after.window.failures = station.window.failures := by
    rw [(of_transmit sent).1]
  rcases journal_of_transmit sent with ⟨_, unwritten⟩ | written
  · exact ⟨[], .of_same (congrArg Array.toList unwritten) failures⟩
  · refine ⟨[.transmitted station.line.connection.number datagram refusal], ?_, ?_⟩
    · simp [ledger, written]
    · exact failures.trans (List.append_nil _).symm

/-- Every move records what it tells of, by cases on the move. -/
theorem Move.records {before after : Station ρ} (move : Move before after)
    : ∃ events, Ledger.Records before.ledger after.ledger events := by
  cases move with
  | hear => exact ⟨[], .of_same rfl rfl⟩
  | overlook => exact ⟨[], .of_same rfl rfl⟩
  | lapse => exact ⟨[], .of_same rfl rfl⟩
  | accept => exact accept_records before _ _
  | fail => exact fail_records before _ _
  | renew _ _ sent =>
      obtain ⟨events, tried⟩ := transmit_records sent
      exact ⟨events, tried.journal, tried.failures⟩
  | @refuse renewed sequence _ _ _ error _ _ refused =>
      obtain ⟨events, tried⟩ := transmit_records refused
      obtain ⟨more, failed⟩ := fail_records renewed sequence error
      have both := tried.trans failed
      exact ⟨_, both.journal, both.failures⟩

/-- A path records what it tells of, by induction on its moves. -/
theorem Path.records {before after : Station ρ} (path : Path before after)
    : ∃ events, Ledger.Records before.ledger after.ledger events := by
  induction path with
  | refl => exact ⟨[], .of_same rfl rfl⟩
  | tail _ move ih =>
      obtain ⟨events, first⟩ := ih
      obtain ⟨more, second⟩ := move.records
      exact ⟨_, first.trans second⟩

/-- A send records the failures of older requests, and none of its own. -/
theorem send_records {station after : Station ρ} {request : Request} {sequence : UInt16}
    {handler : Handler} {result : Except Error Unit}
    (done : station.send request sequence handler = (result, after))
    : ∃ events, Ledger.Records station.ledger after.ledger events := by
  have ending := send_sending station request sequence handler
  rw [done] at ending
  obtain ⟨events, emptied⟩ := station.makeRoom_path.records
  cases ending with
  | malformed => exact ⟨[], .of_same rfl rfl⟩
  | taken => exact ⟨events, emptied⟩
  | refused _ _ tried =>
      obtain ⟨more, offered⟩ := transmit_records tried
      exact ⟨_, emptied.trans ⟨offered.journal, offered.failures⟩⟩
  | sent _ _ tried =>
      obtain ⟨more, offered⟩ := transmit_records tried
      exact ⟨_, emptied.trans ⟨offered.journal, offered.failures⟩⟩

end Station

-----------------------------------------------------------------------------------------
-- Processes
-----------------------------------------------------------------------------------------

namespace Process

variable {ρ : Type}

/-- A connection has its window already, or gets one that is new and takes its place among the
others; nothing else of the process changes.
-/
theorem engage_cases {process later : Process} {number : Nat} {line engaged : Line ρ}
    {window : Window} (ready : process.engage number line = (window, engaged, later))
    : process.windows.get? number = some window ∧ later = process
      ∨ process.windows.get? number = none
        ∧ window = { config := process.config, inbox := line.dispatcher.fresh }
        ∧ later = { process with windows := process.windows.insert number window } := by
  unfold engage at ready
  split at ready
  · next old held =>
      obtain ⟨rfl, -, rfl⟩ : old = window ∧ line = engaged ∧ process = later := by
        simpa using ready
      exact .inl ⟨held, rfl⟩
  · next absent =>
      simp only [Prod.mk.injEq] at ready
      obtain ⟨rfl, -, rfl⟩ := ready
      exact .inr ⟨absent, rfl, rfl⟩

/-- No window has failures that were not collected. -/
def Collected (process : Process) : Prop :=
  ∀ {number window}, process.windows.get? number = some window → window.failures = []

theorem Collected.start (config : Config) : ({ config } : Process).Collected := by
  intro number window found
  cases found

/-- One more window without failures, new or not, changes nothing. -/
theorem Collected.insert {process : Process} (collected : process.Collected) (number : Nat)
    {window : Window} (empty : window.failures = []) (failures : List Failure)
    : Collected
        { process with windows := process.windows.insert number window, failures } := by
  intro other held found
  simp only [Table.get?_insert] at found
  split at found
  · obtain rfl := Option.some.inj found
    exact empty
  · exact collected found

theorem Collected.collect {process : Process} (collected : process.Collected) (number : Nat)
    (window : Window)
    : (process.collect number window).Collected :=
  collected.insert number rfl _

/-- The window for a connection has no failures either. -/
theorem Collected.engage {process later : Process} {number : Nat} {line engaged : Line ρ}
    {window : Window} (collected : process.Collected)
    (ready : process.engage number line = (window, engaged, later))
    : later.Collected ∧ window.failures = [] ∧ later.failures = process.failures := by
  rcases engage_cases ready with ⟨held, rfl⟩ | ⟨_, rfl, rfl⟩
  · exact ⟨collected, collected held, rfl⟩
  · exact ⟨collected.insert number rfl _, rfl, rfl⟩

/-- What a window records at its work becomes the process's once it is collected. -/
theorem collect_records {hub after : Hub ρ} {station later : Station ρ} {events : List Event}
    (process : Process) (number : Nat) (journal : station.journal = hub.journal)
    (collected : station.window.failures = [])
    (records : Ledger.Records station.ledger later.ledger events)
    (written : after.journal = later.journal)
    : Ledger.Records (ledger hub process) (ledger after (process.collect number later.window))
        events where
  journal := by
    have told := records.journal
    simp only [Station.ledger, journal, ← written] at told
    exact told
  failures := by
    have kept := records.failures
    simp only [Station.ledger, collected, List.nil_append] at kept
    simp only [ledger, collect, Window.takeFailures, kept]

variable [Responder ρ] {hub after : Hub ρ} {process later : Process}

/-- However a send ends, the failures that it told of are collected, and no others. -/
theorem send_records {request : Request} {handler : Handler} {result : Except Halt Unit}
    (collected : process.Collected)
    (done : Process.send hub process request handler = (result, after, later))
    : later.Collected
      ∧ ∃ events, Ledger.Records (ledger hub process) (ledger after later) events := by
  have ending := send_sending hub process request handler
  rw [done] at ending
  cases ending with
  | idle _ journal =>
      exact ⟨collected, [], .of_same (congrArg Array.toList journal) rfl⟩
  | opened _ ready _ journal =>
      obtain ⟨still, _, same⟩ := collected.engage ready
      exact ⟨still, [], .of_same (congrArg Array.toList journal) same⟩
  | @tried number _ engaged window between _ _ station _ _ ready sent _ journal =>
      obtain ⟨still, empty, same⟩ := collected.engage ready
      obtain ⟨events, records⟩ := Station.send_records sent
      have recorded := collect_records between number rfl empty records journal
      refine ⟨still.collect number _, events, recorded.journal, ?_⟩
      rw [recorded.failures]
      simp only [ledger, same]

theorem finishWindow_records {number : Nat} (collected : process.Collected)
    (done : finishWindow hub process number = (after, later))
    : later.Collected
      ∧ ∃ events, Ledger.Records (ledger hub process) (ledger after later) events := by
  unfold finishWindow at done
  split at done
  · next line window _ held =>
      obtain ⟨rfl, rfl⟩ := Prod.mk.inj done
      let start : Station ρ := { line, window, journal := hub.journal }
      obtain ⟨events, records⟩ := (Station.drain_path 0 start).records
      exact ⟨collected.collect number _, events,
        collect_records process number rfl (collected held) records rfl⟩
  · obtain ⟨rfl, rfl⟩ := Prod.mk.inj done
    exact ⟨collected, [], .of_same rfl rfl⟩

/-- Waiting window by window records window by window, by induction on the windows. -/
theorem foldl_finishWindow_records (numbers : List Nat) (collected : process.Collected)
    (done
      : numbers.foldl (fun state number => finishWindow state.1 state.2 number) (hub, process)
        = (after, later))
    : later.Collected
      ∧ ∃ events, Ledger.Records (ledger hub process) (ledger after later) events := by
  induction numbers generalizing hub process with
  | nil =>
      obtain ⟨rfl, rfl⟩ := Prod.mk.inj done
      exact ⟨collected, [], .of_same rfl rfl⟩
  | cons number rest ih =>
      rw [List.foldl_cons] at done
      generalize waited : finishWindow hub process number = state at done
      obtain ⟨middle, between⟩ := state
      obtain ⟨still, events, first⟩ := finishWindow_records collected waited
      obtain ⟨last, more, second⟩ := ih still done
      exact ⟨last, _, first.trans second⟩

/-- After waiting the failures that it told of are collected, and no others. -/
theorem finish_records {result : Except Error Unit} (collected : process.Collected)
    (done : Process.finish hub process = (result, after, later))
    : later.Collected
      ∧ ∃ events, Ledger.Records (ledger hub process) (ledger after later) events := by
  unfold Process.finish at done
  split at done
  · simp only [Prod.mk.injEq] at done
    obtain ⟨rfl, rfl, rfl⟩ := done
    exact ⟨collected, [], .of_same rfl rfl⟩
  · simp only [Prod.mk.injEq] at done
    obtain ⟨rfl, hubs, processes⟩ := done
    let closing : Process := { process with finished := true }
    have collected_closing : closing.Collected := collected
    obtain ⟨still, events, records⟩ :=
      foldl_finishWindow_records process.windows.keys collected_closing
        (Prod.ext hubs processes)
    exact ⟨still, events, records.journal, records.failures⟩

end Process

-----------------------------------------------------------------------------------------
-- Runs
-----------------------------------------------------------------------------------------

/-- What a process can do. -/
inductive Deed
  | send (request : Request) (handler : Handler)
  | finish

/-- A process with the connections that it finds, and what was written down while it was at work
itself.
-/
structure Watch (ρ : Type) where
  hub : Hub ρ
  process : Process
  events : List Event := []

namespace Watch

variable {ρ : Type}

/-- A process that is new. -/
def start (hub : Hub ρ) (config : Config) : Watch ρ :=
  { hub, process := { config } }

/-- Others change what the process finds: connections, dispatchers, selector, sequence numbers
and journal.
-/
def meanwhile (watch : Watch ρ) (change : Hub ρ → Hub ρ) : Watch ρ :=
  { watch with hub := change watch.hub }

variable [Responder ρ]

/-- The process does something, well or not, and what that adds to the journal is its own. -/
def act (watch : Watch ρ) (deed : Deed) : Watch ρ :=
  let (hub, process) :=
    match deed with
    | .send request handler => (Process.send watch.hub watch.process request handler).2
    | .finish => (Process.finish watch.hub watch.process).2
  let added := hub.journal.toList.drop watch.hub.journal.size
  { hub, process, events := watch.events ++ added }

/-- One moment of a run. -/
inductive Step (ρ : Type)
  | own (deed : Deed)
  | others (change : Hub ρ → Hub ρ)

def perform (watch : Watch ρ) : Step ρ → Watch ρ
  | .own deed => watch.act deed
  | .others change => watch.meanwhile change

/-- One moment after the other. -/
def run (watch : Watch ρ) (steps : List (Step ρ)) : Watch ρ :=
  steps.foldl perform watch

omit [Responder ρ] in
/-- The ledger of what the process did itself. -/
def ledger (watch : Watch ρ) : Ledger :=
  ⟨watch.events, watch.process.failures, watch.process.promises⟩

/-- What a process does is added to the journal, and recorded. -/
theorem act_records {watch : Watch ρ} (collected : watch.process.Collected) (deed : Deed)
    : (watch.act deed).process.Collected
      ∧ ∃ added,
          (watch.act deed).hub.journal.toList = watch.hub.journal.toList ++ added
          ∧ Ledger.Records watch.ledger (watch.act deed).ledger added := by
  unfold act
  generalize done
    : (match deed with
        | .send request handler => (Process.send watch.hub watch.process request handler).2
        | .finish => (Process.finish watch.hub watch.process).2) = outcome
  obtain ⟨after, later⟩ := outcome
  obtain ⟨still, added, records⟩ : later.Collected
      ∧ ∃ added, Ledger.Records (watch.process.ledger watch.hub) (later.ledger after) added := by
    cases deed with
    | send request handler => exact Process.send_records collected (Prod.ext rfl done)
    | finish => exact Process.finish_records collected (Prod.ext rfl done)
  have journal : after.journal.toList = watch.hub.journal.toList ++ added := records.journal
  have own : after.journal.toList.drop watch.hub.journal.size = added := by
    rw [journal, ← Array.length_toList, List.drop_left]
  exact ⟨still, added, journal, by simp only [ledger, own], records.failures⟩

/-- A run records what the process did itself, by induction on its moments. -/
theorem run_records {watch : Watch ρ} (collected : watch.process.Collected)
    (steps : List (Step ρ))
    : (watch.run steps).process.Collected
      ∧ ∃ added, Ledger.Records watch.ledger (watch.run steps).ledger added := by
  induction steps generalizing watch with
  | nil => exact ⟨collected, [], .of_same rfl rfl⟩
  | cons step rest ih =>
      cases step with
      | own deed =>
          obtain ⟨still, added, _, first⟩ := act_records collected deed
          obtain ⟨last, more, second⟩ := ih still
          exact ⟨last, _, first.trans second⟩
      | others change =>
          have unchanged : (watch.meanwhile change).process.Collected := collected
          exact ih unchanged

end Watch

/-- A process reports the error of the first failure that it collected. -/
theorem Process.check_eq_error_iff {process : Process} {error : Error}
    : process.check = .error error
      ↔ ∃ failure, process.failures.head? = some failure ∧ failure.error = error := by
  cases failed : process.failures with
  | nil => simp [check, failed]
  | cons first rest => simp [check, failed]

variable {ρ : Type} [Responder ρ]

/-- The first error is the first error. Whatever a process sends, whether or not its sends
succeed, when it waits, and whatever others do to its connections meanwhile: no window keeps a
failure back, and the failures are those that happened while the process was at work, in the order
in which they happened; they are only added to, so that an error once reported is reported again,
and is that of the request that failed first. Witness: each step records what it writes down, by
induction on the steps.
-/
theorem Watch.failures_in_order (hub : Hub ρ) (config : Config) (steps more : List (Step ρ))
    (deed : Deed)
    : let now := (start hub config).run steps
      let next := now.act deed
      let later := now.run more
      (∀ window ∈ now.process.windows.values, window.failures = [])
      ∧ now.process.failures = failuresOf now.events
      ∧ (∃ added,
          next.hub.journal.toList = now.hub.journal.toList ++ added
          ∧ next.events = now.events ++ added
          ∧ next.process.failures = now.process.failures ++ failuresOf added)
      ∧ now.process.failures <+: later.process.failures
      ∧ (∀ error,
          now.process.check = .error error
          ↔ ∃ early request audience late,
              now.events = early ++ .failed request error audience :: late
              ∧ failuresOf early = [])
      ∧ ∀ error, now.process.check = .error error → later.process.check = .error error := by
  have empty : (start hub config).process.Collected := Process.Collected.start config
  obtain ⟨collected, events, records⟩ := run_records empty steps
  generalize (start hub config).run steps = now at collected records
  dsimp only
  obtain ⟨_, added, written, adds⟩ := act_records collected deed
  obtain ⟨_, more_events, later_records⟩ := run_records collected more
  have told : now.process.failures = failuresOf now.events := by
    have all : now.events = events := records.journal
    rw [all]
    exact records.failures
  have kept : (now.run more).process.failures = now.process.failures ++ failuresOf more_events :=
    later_records.failures
  refine ⟨?_, told, ⟨added, written, adds.journal, adds.failures⟩, ⟨_, kept.symm⟩, ?_, ?_⟩
  · intro window member
    obtain ⟨number, found⟩ := Table.mem_values_iff.mp member
    exact collected found
  · intro error
    rw [Process.check_eq_error_iff, told]
    constructor
    · rintro ⟨failure, first, rfl⟩
      obtain ⟨early, audience, late, split, before⟩ := head?_failuresOf_eq_some_iff.mp first
      exact ⟨early, _, audience, late, split, before⟩
    · rintro ⟨early, request, audience, late, split, before⟩
      exact ⟨⟨request, error⟩,
        head?_failuresOf_eq_some_iff.mpr ⟨early, audience, late, split, before⟩, rfl⟩
  · intro error reported
    obtain ⟨failure, first, same⟩ := Process.check_eq_error_iff.mp reported
    have still_first : (now.run more).process.failures.head? = some failure := by
      rw [kept, List.head?_append, first]
      rfl
    exact Process.check_eq_error_iff.mpr ⟨failure, still_first, same⟩

end MeshControl.Link
