import Mathlib.Data.List.Basic
import MeshControl.Proofs.Board.Dialogue
import MeshControl.Proofs.Link.Choice
import MeshControl.Proofs.Link.Numbering
import MeshControl.Proofs.Table.Contents

/-! Batches over a single connection to a board. While fewer requests wait than there are sequence
numbers, the next request always finds a free one; so a whole batch goes through, and nothing of
it is left behind.
-/

namespace MeshControl

open Scp Link

namespace Board

-----------------------------------------------------------------------------------------
-- One connection, and nobody who waits
-----------------------------------------------------------------------------------------

/-- A hub whose only connection leads to a board that can be talked to, while no request waits
and nothing is left to be read.
-/
structure Rests (hub : Hub Peer) (line : Line Peer) : Prop where
  lines : hub.lines = [line]
  selects : ∃ chip topology, hub.selector = .mostDirect ⟨0, chip⟩ [] topology
  open_still : line.connection.closed = false
  ready : line.connection.peer.Ready
  nothing : line.connection.pending = []
  unrouted : ∀ sequence, line.dispatcher.routes.get? sequence = none

/-- A hub at rest stays at rest with another journal. -/
theorem Rests.withJournal {hub : Hub Peer} {line : Line Peer} (rests : Rests hub line)
    (journal : Array Event)
    : Rests { hub with journal } line :=
  ⟨rests.lines, rests.selects, rests.open_still, rests.ready, rests.nothing, rests.unrouted⟩

/-- The process of a batch with its one window. -/
def talking (config : Config) (window : Window) (finished : Bool := false) : Process where
  config
  windows := .single 0 window
  finished

/-- A lone connection is the one that is chosen for every chip. -/
theorem select_mostDirect (candidate : Candidate) (topology : Option Topology) (chip : Chip)
    : (Selector.mostDirect candidate [] topology).select chip
      = (candidate, .mostDirect candidate [] topology) := by
  rw [Selector.mostDirect, Selector.select, Directory.closest_eq_look, Directory.look_lone]

namespace Errand

variable {errand : Errand} {origin : List Event} {sent : Nat} {hub : Hub Peer}
  {line : Line Peer} {process : Process}

/-- A hub at rest whose board an errand can be run on: it refuses fewer requests than each may be
sent.
-/
structure Awaits (errand : Errand) (hub : Hub Peer) (line : Line Peer) : Prop where
  rests : Rests hub line
  room : line.connection.peer.room = errand.room
  holds : errand.Holds [] line.connection.peer.board
  spare : line.connection.peer.board.refusals < errand.config.budget

/-- So many requests of an errand were sent: none, or the process talks to the board. -/
inductive Underway (errand : Errand) (origin : List Event)
    : Nat → Hub Peer → Process → Prop
  | fresh {hub : Hub Peer} {line : Line Peer} (awaits : errand.Awaits hub line)
    (journal : hub.journal.toList = origin)
    : Underway errand origin 0 hub { config := errand.config }
  | engaged {sent : Nat} {notes : Notes} {station : Station Peer} {hub : Hub Peer}
    (lines : hub.lines = [station.line]) (journal : hub.journal = station.journal)
    (selects : ∃ chip topology, hub.selector = .mostDirect ⟨0, chip⟩ [] topology)
    (dialogue : errand.Dialogue origin sent notes station)
    : Underway errand origin sent hub (talking errand.config station.window)

/-- A window that was just opened has nothing to say yet. -/
theorem Awaits.dialogue (awaits : errand.Awaits hub line)
    : errand.Dialogue hub.journal.toList 0 {}
        { line := { line with dispatcher := line.dispatcher.openInbox.2 }
          window := { config := errand.config, inbox := line.dispatcher.fresh }
          journal := hub.journal } where
  config := rfl
  post :=
    { open_still := awaits.rests.open_still
      ready := awaits.rests.ready
      room := awaits.room
      within := by simp
      holds := awaits.holds
      letters := by simp [awaits.rests.nothing] }
  spare := awaits.spare
  asks waits := by cases waits
  patience waits := by cases waits
  apart := .nil
  tells := by simp
  routes := awaits.rests.unrouted
  inbox := by simp [Dispatcher.openInbox, Dispatcher.inbox]
  failures := rfl
  journal := by simp
  account := .refl _
  answers := rfl
  carried := by simp
  few := ⟨Nat.le_refl 0, Nat.zero_le _⟩

/-- A process that is not over sends the next request from this station: from its window on the
one line, or from one that it opens now.
-/
structure Stands (errand : Errand) (hub : Hub Peer) (process : Process) (station : Station Peer)
    : Prop where
  engaged
    : ∃ line,
        hub.lines = [line]
        ∧ process.engage 0 line
          = (station.window, station.line, talking errand.config station.window)
  journal : station.journal = hub.journal
  selects : ∃ chip topology, hub.selector = .mostDirect ⟨0, chip⟩ [] topology
  unfinished : process.finished = false

theorem Awaits.stands (awaits : errand.Awaits hub line)
    : errand.Stands hub { config := errand.config }
        { line := { line with dispatcher := line.dispatcher.openInbox.2 }
          window := { config := errand.config, inbox := line.dispatcher.fresh }
          journal := hub.journal } where
  engaged := by
    refine ⟨line, awaits.rests.lines, ?_⟩
    have opened : ({ config := errand.config } : Process).windows.get? 0 = none := rfl
    simp only [Process.engage, opened, Table.insert_empty]
    rfl
  journal := rfl
  selects := awaits.rests.selects
  unfinished := rfl

/-- Whoever is underway stands at a station, and talks to the board. -/
theorem Underway.stands (underway : errand.Underway origin sent hub process)
    : ∃ station notes,
        errand.Stands hub process station ∧ errand.Dialogue origin sent notes station := by
  cases underway with
  | fresh awaits journal => exact ⟨_, {}, awaits.stands, journal ▸ awaits.dialogue⟩
  | engaged lines journal selects dialogue =>
      exact ⟨_, _, ⟨⟨_, lines, rfl⟩, journal.symm, selects, rfl⟩, dialogue⟩

/-- Numbers never run out: fewer requests wait at a time, or are sent at all, than there are
numbers.
-/
def Numbered (errand : Errand) : Prop :=
  errand.config.channels < sequenceCount ∨ errand.count ≤ sequenceCount

theorem Dialogue.few_wait {notes : Notes} {station : Station Peer} (numbered : errand.Numbered)
    (dialogue : errand.Dialogue origin sent notes station) (next : sent < errand.count)
    : station.window.outstanding.size < sequenceCount := by
  obtain ⟨by_sent, by_window⟩ := dialogue.few
  simp only [Window.inProgress] at by_sent by_window
  rcases numbered with narrow | short
  · refine Nat.lt_of_le_of_lt by_window ?_
    simp only [Config.window, sequenceCount] at narrow ⊢
    omega
  · omega

/-- A number is in use where a request waits under it. -/
theorem Dialogue.isTaken_eq {notes : Notes} {station : Station Peer}
    (dialogue : errand.Dialogue origin sent notes station) (sequence : UInt16)
    : (talking errand.config station.window).isTaken station.line sequence
      = station.window.isOutstanding sequence := by
  have led := dialogue.routes sequence
  simp only [Process.isTaken, Process.isOutstanding, talking, Table.values, Table.single,
    Window.isOutstanding, Table.contains, Dispatcher.isRegistered, led, List.map_singleton,
    List.any_cons, List.any_nil, Option.isSome_map, Bool.or_false, Bool.or_self]

/-- A process with one window finds a number that is free in it and on the line. -/
theorem Dialogue.assign {notes : Notes} {station : Station Peer}
    (dialogue : errand.Dialogue origin sent notes station)
    (few : station.window.outstanding.size < sequenceCount) (sequences : SequenceGenerator)
    : ∃ sequence later,
        (talking errand.config station.window).assign station.line none sequences
          = .ok (sequence, later)
        ∧ station.window.outstanding.get? sequence = none := by
  obtain ⟨free, not_waiting⟩ := (exists_free_iff _).mpr few
  have untaken : (talking errand.config station.window).isTaken station.line free = false := by
    rw [dialogue.isTaken_eq, Window.isOutstanding, Table.contains, not_waiting]
    rfl
  obtain ⟨sequence, later, drawn, found⟩ := exists_nextFree ⟨free, untaken⟩ sequences
  rw [dialogue.isTaken_eq, Window.isOutstanding, Table.contains, Option.isSome_eq_false_iff,
    Option.isNone_iff_eq_none] at found
  exact ⟨sequence, later, by simp only [Process.assign, drawn, Option.elim_some], found⟩

/-- A window without failures is kept as it is. -/
theorem collect_of_nil {config : Config} {old window : Window} {finished : Bool}
    (none : window.failures = [])
    : (talking config old finished).collect 0 window = talking config window finished := by
  have same : { window with failures := [] } = window := by rw [← none]
  simp only [Process.collect, Window.takeFailures, same, none, talking, Table.insert_single]
  rfl

/-- What a station makes of a request is what the process makes of it. -/
theorem Stands.send (proper : errand.Proper) {station after : Station Peer}
    (stands : errand.Stands hub process station) (next : sent < errand.count)
    {sequence : UInt16} {later : SequenceGenerator}
    (assigned
      : (talking errand.config station.window).assign station.line none hub.sequences
        = .ok (sequence, later))
    {result : Except Error Unit}
    (went : station.send (errand.request sent) sequence (errand.handler sent) = (result, after))
    (failures : after.window.failures = [])
    : Process.send hub process (errand.request sent) (errand.handler sent)
      = (result.mapError .failed, ⟨[after.line], hub.selector, later, after.journal⟩,
          talking errand.config after.window) := by
  obtain ⟨line, lines, engaged⟩ := stands.engaged
  obtain ⟨chip, topology, selector⟩ := stands.selects
  have valid := proper.valid sent next
  have unnumbered := proper.unnumbered sent next
  have chosen : hub.selector.select (errand.request sent).header.destination
      = (⟨0, chip⟩, hub.selector) := by
    rw [selector, select_mostDirect]
  have same : (⟨station.line, station.window, hub.journal⟩ : Station Peer) = station := by
    rw [← stands.journal]
  simp only [Process.send, stands.unfinished, valid, chosen, Hub.line?, lines,
    List.getElem?_cons_zero, engaged, unnumbered, assigned, Hub.setLine, same, went]
  simp [Hub.update, Hub.setLine, collect_of_nil failures]

/-- The next request of an errand goes out. -/
theorem Underway.send (proper : errand.Proper) (numbered : errand.Numbered)
    (underway : errand.Underway origin sent hub process) (next : sent < errand.count)
    : ∃ after later,
        Process.send hub process (errand.request sent) (errand.handler sent)
          = (.ok (), after, later)
        ∧ errand.Underway origin (sent + 1) after later := by
  obtain ⟨station, notes, stands, dialogue⟩ := underway.stands
  obtain ⟨sequence, later, assigned, free⟩ :=
    dialogue.assign (dialogue.few_wait numbered next) hub.sequences
  obtain ⟨further, after, went, onward⟩ := dialogue.send proper next free
  exact ⟨_, _, stands.send proper next assigned went onward.failures,
    .engaged rfl rfl stands.selects onward⟩

/-- All requests of an errand go out, by induction on those that are left. -/
theorem Underway.sendAll (proper : errand.Proper) (numbered : errand.Numbered)
    {orders : Nat → Order} (ordered : ∀ index < errand.count, orders index = errand.order index)
    (count : Nat) (underway : errand.Underway origin sent hub process)
    (whole : sent + count = errand.count)
    : ∃ after later,
        Process.sendAll orders hub process sent count = (.ok (), after, later)
        ∧ errand.Underway origin errand.count after later := by
  induction count generalizing sent hub process with
  | zero => exact ⟨hub, process, rfl, by rwa [← whole]⟩
  | succ count ih =>
      obtain ⟨middle, between, went, onward⟩ := underway.send proper numbered (by omega)
      obtain ⟨after, later, all_went, arrived⟩ := ih onward (by omega)
      refine ⟨after, later, ?_, arrived⟩
      simp only [Process.sendAll, ordered sent (by omega), Errand.order, went]
      exact all_went

/-- An errand was run to its end: the board has carried out all of it, and every sender was given
the answers to its requests.
-/
structure Fulfilled (errand : Errand) (connection : Connection Peer) (events : List Event)
    : Prop where
  room : connection.peer.room = errand.room
  spare : connection.peer.board.refusals < errand.config.budget
  holds
    : ∃ served,
        (∀ index, index ∈ served ↔ index < errand.count)
        ∧ errand.Holds served connection.peer.board
  answers
    : ∃ order : List Nat,
        order.Perm (List.range errand.count)
        ∧ events.filterMap answer? = order.map errand.answer

/-- A dialogue that has answered every request of its errand has fulfilled it. -/
theorem Dialogue.fulfilled {notes : Notes} {station : Station Peer}
    (dialogue : errand.Dialogue origin errand.count notes station)
    (answered : notes.answered.Perm (List.range errand.count))
    : errand.Fulfilled station.line.connection notes.events where
  room := dialogue.post.room
  spare := dialogue.spare
  holds := by
    refine ⟨notes.served, fun index => ⟨dialogue.post.within index, fun within => ?_⟩,
      dialogue.post.holds⟩
    exact dialogue.carried index (answered.mem_iff.mpr (List.mem_range.mpr within))
  answers := ⟨notes.answered, answered, dialogue.answers⟩

/-- The sender of each request is given the answer to it. -/
theorem Fulfilled.answered {connection : Connection Peer} {events : List Event}
    (fulfilled : errand.Fulfilled connection events) {index : Nat} (within : index < errand.count)
    : ∃ request response,
        Event.accepted request response (errand.handler index).audience ∈ events
        ∧ response.payload = errand.payload index := by
  obtain ⟨order, whole, answers⟩ := fulfilled.answers
  have listed := List.mem_map_of_mem (f := errand.answer)
    (whole.mem_iff.mpr (List.mem_range.mpr within))
  rw [← answers] at listed
  obtain ⟨event, member, told⟩ := List.mem_filterMap.mp listed
  cases event with
  | accepted request response audience =>
      obtain ⟨rfl, payload⟩ := Prod.mk.inj (Option.some.inj told)
      exact ⟨request, response, member, payload⟩
  | transmitted => cases told
  | failed => cases told

/-- Whatever answer a sender is given is the one to its request. -/
theorem Fulfilled.heard {connection : Connection Peer} {events : List Event}
    (fulfilled : errand.Fulfilled connection events) {request : Request} {response : Response}
    {audience : Audience} (member : Event.accepted request response audience ∈ events)
    : ∃ index < errand.count,
        audience = (errand.handler index).audience
        ∧ response.payload = errand.payload index := by
  obtain ⟨order, whole, answers⟩ := fulfilled.answers
  have listed : (audience, response.payload) ∈ events.filterMap answer? :=
    List.mem_filterMap.mpr ⟨_, member, rfl⟩
  rw [answers] at listed
  obtain ⟨index, ordered, same⟩ := List.mem_map.mp listed
  obtain ⟨rfl, payload⟩ := Prod.mk.inj same
  exact ⟨index, List.mem_range.mp (whole.mem_iff.mp ordered), rfl, payload.symm⟩

/-- A process with one window waits for the requests of that window. -/
theorem finish_talking {station : Station Peer} (lines : hub.lines = [station.line])
    (journal : station.journal = hub.journal) (config : Config)
    (failures : station.finish.window.failures = [])
    : Process.finish hub (talking config station.window)
      = (.ok (), ⟨[station.finish.line], hub.selector, hub.sequences, station.finish.journal⟩,
          talking config station.finish.window true) := by
  have same : (⟨station.line, station.window, hub.journal⟩ : Station Peer) = station := by
    rw [← journal]
  have found : hub.line? 0 = some station.line := by simp [Hub.line?, lines]
  have held : (talking config station.window true).windows.get? 0 = some station.window := rfl
  have collected : (talking config station.window true).collect 0 station.finish.window
      = talking config station.finish.window true :=
    collect_of_nil failures
  change (Except.ok (), Process.finishWindow hub (talking config station.window true) 0) = _
  simp only [Process.finishWindow, found, held, same, collected]
  simp [Hub.update, Hub.setLine, lines]

/-- A process whose one window has nothing left takes only its inbox with it. -/
theorem drop_talking {window : Window} (config : Config)
    (empty : window.outstanding.entries = []) (line : Line Peer) (selector : Selector)
    (sequences : SequenceGenerator) (journal : Array Event)
    : (talking config window true).drop ⟨[line], selector, sequences, journal⟩
      = ⟨[{ line with dispatcher := line.dispatcher.discard window.inbox }], selector, sequences,
          journal⟩ := by
  have waits : window.outstanding.keys = [] := by
    rw [Table.keys, empty, List.map_nil]
  simp [Process.drop, talking, Table.single, Hub.modifyLine, waits]

/-- Once all requests of an errand were sent, waiting for them and checking goes well, and the
process leaves nothing behind when it goes away.
-/
theorem Underway.finishAndCheck (proper : errand.Proper)
    (underway : errand.Underway origin sent hub process) (whole : sent = errand.count)
    : ∃ after later line events,
        Process.finishAndCheck hub process = (.ok (), after, later)
        ∧ Rests (later.drop after) line
        ∧ (later.drop after).journal.toList = origin ++ events
        ∧ errand.Fulfilled line.connection events := by
  cases underway with
  | @fresh hub line awaits journal =>
      have nothing (index : Nat) : ¬ index < errand.count := by omega
      refine ⟨hub, _, line, [], rfl, awaits.rests, by rw [List.append_nil]; exact journal, ?_⟩
      exact
        { room := awaits.room
          spare := awaits.spare
          holds := ⟨[], by simp [nothing], awaits.holds⟩
          answers := by
            have none_sent : errand.count = 0 := by omega
            exact ⟨[], by rw [none_sent]; exact .refl _, rfl⟩ }
  | @engaged sent notes station hub lines journal selects dialogue =>
      subst whole
      obtain ⟨further, finished, empty, unread, answered⟩ := dialogue.finish proper
      have waited := finish_talking lines journal.symm errand.config finished.failures
      have dropped := drop_talking errand.config empty station.finish.line hub.selector
        hub.sequences station.finish.journal
      let left : Hub Peer :=
        ⟨[station.finish.line], hub.selector, hub.sequences, station.finish.journal⟩
      let ended := talking errand.config station.finish.window true
      let line : Line Peer :=
        { station.finish.line with
          dispatcher := station.finish.line.dispatcher.discard station.finish.window.inbox }
      refine ⟨left, ended, line, further.events, ?_, ?_, ?_, finished.fulfilled answered⟩
      · simp only [Process.finishAndCheck, waited]
        rfl
      · have read : station.finish.line.connection.pending = [] := by
          simpa [unread] using finished.post.letters
        have unrouted (sequence : UInt16)
            : station.finish.line.dispatcher.routes.get? sequence = none := by
          rw [finished.routes, Table.get?, empty]
          rfl
        rw [dropped]
        exact ⟨rfl, selects, finished.post.open_still, finished.post.ready, read, unrouted⟩
      · rw [dropped]
        exact finished.journal

-----------------------------------------------------------------------------------------
-- Whole batches
-----------------------------------------------------------------------------------------

/-- A batch over a board that refuses too few requests to matter goes well, and the hub is at rest
again.
-/
theorem Awaits.batch (proper : errand.Proper) (numbered : errand.Numbered)
    {orders : Nat → Order} (ordered : ∀ index < errand.count, orders index = errand.order index)
    (awaits : errand.Awaits hub line)
    : ∃ after line events,
        hub.batch errand.config errand.count orders = (.ok (), after)
        ∧ Rests after line
        ∧ after.journal.toList = hub.journal.toList ++ events
        ∧ errand.Fulfilled line.connection events := by
  obtain ⟨middle, between, sent, arrived⟩ :=
    (Underway.fresh awaits rfl).sendAll proper numbered ordered errand.count (Nat.zero_add _)
  obtain ⟨after, later, line, events, finished, rests, journal, fulfilled⟩ :=
    arrived.finishAndCheck proper rfl
  refine ⟨later.drop after, line, events, ?_, rests, journal, fulfilled⟩
  simp only [Hub.batch, sent, finished]
  rfl

theorem Awaits.withJournal (awaits : errand.Awaits hub line) (journal : Array Event)
    : errand.Awaits { hub with journal } line :=
  ⟨awaits.rests.withJournal journal, awaits.room, awaits.holds, awaits.spare⟩

/-- Such a batch also gives its events. -/
theorem Awaits.exchange (proper : errand.Proper) (numbered : errand.Numbered)
    {orders : Nat → Order} (ordered : ∀ index < errand.count, orders index = errand.order index)
    (awaits : errand.Awaits hub line)
    : ∃ after line events,
        hub.exchange errand.config errand.count orders = (.ok events, after)
        ∧ Rests after line
        ∧ errand.Fulfilled line.connection events.toList := by
  obtain ⟨after, line, events, done, rests, journal, fulfilled⟩ :=
    (awaits.withJournal #[]).batch proper numbered ordered
  let all := hub.journal ++ after.journal
  refine ⟨{ after with journal := all }, line, after.journal, ?_, rests.withJournal all, ?_⟩
  · simp only [Hub.exchange, Hub.apart, done]
    rfl
  · rw [journal]
    exact fulfilled

end Errand

end Board

end MeshControl
