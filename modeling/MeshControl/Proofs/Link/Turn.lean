import MeshControl.Proofs.Link.Seating

/-! The turns of a process: it sends, and it waits until its requests have ended. Each turn keeps
its windows seated, spares the routes of others, and balances its ledger.
-/

namespace MeshControl.Link.Process

open Scp

variable {ρ : Type}

-----------------------------------------------------------------------------------------
-- Turns
-----------------------------------------------------------------------------------------

/-- From one state of the connections to a later one, only this process was at work. -/
structure Turn (hub after : Hub ρ) (process later : Process) : Prop where
  seated : later.Seated after.dispatchers
  yields : Yields process later hub.dispatchers after.dispatchers
  config : later.config = process.config

/-- A turn in which neither the process nor a dispatcher changed. -/
theorem Turn.of_same {hub after : Hub ρ} {process : Process}
    (seated : process.Seated hub.dispatchers) (lines : after.lines = hub.lines)
    : Turn hub after process process := by
  have dispatchers : after.dispatchers = hub.dispatchers := by
    rw [Hub.dispatchers, lines, Hub.dispatchers]
  exact ⟨dispatchers ▸ seated, dispatchers ▸ .refl _ _, rfl⟩

theorem Turn.trans {hub middle after : Hub ρ} {process between later : Process}
    (first : Turn hub middle process between) (second : Turn middle after between later)
    : Turn hub after process later :=
  ⟨second.seated, first.yields.trans second.yields, second.config.trans first.config⟩

theorem dispatchers_of_line {hub : Hub ρ} {number : Nat} {line : Line ρ}
    (found : hub.line? number = some line)
    : hub.dispatchers[number]? = some line.dispatcher := by
  simp only [Hub.line?] at found
  simp only [Hub.dispatchers, List.getElem?_map, found, Option.map_some]

theorem dispatchers_set {hub after : Hub ρ} {number : Nat} {line : Line ρ}
    (lines : after.lines = hub.lines.set number line)
    : after.dispatchers = hub.dispatchers.set number line.dispatcher := by
  simp only [Hub.dispatchers, lines, List.map_set]

-----------------------------------------------------------------------------------------
-- A window for a connection
-----------------------------------------------------------------------------------------

/-- What engaging a connection gives: a window that is seated there, and nothing else. -/
structure Engagement (process later : Process) (number : Nat) (window : Window)
    (before after : List Dispatcher) : Prop where
  seated : later.Seated after
  yields : Yields process later before after
  held : later.windows.get? number = some window
  config : later.config = process.config
  finished : later.finished = process.finished
  failures : later.failures = process.failures
  promises : later.promises = process.promises

theorem Engagement.ledger {process later : Process} {number : Nat} {window : Window}
    {before after : List Dispatcher}
    (engagement : Engagement process later number window before after) (hub : Hub ρ)
    : Process.ledger hub later = Process.ledger hub process := by
  simp only [Process.ledger, engagement.failures, engagement.promises]

theorem engage_engagement {hub : Hub ρ} {process later : Process} {number : Nat}
    {line engaged : Line ρ} {window : Window} (seated : process.Seated hub.dispatchers)
    (found : hub.line? number = some line)
    (done : process.engage number line = (window, engaged, later))
    : Engagement process later number window hub.dispatchers
        (hub.dispatchers.set number engaged.dispatcher) := by
  have listed := dispatchers_of_line found
  unfold engage at done
  split at done
  · next old held =>
      obtain ⟨rfl, rfl, rfl⟩ : old = window ∧ line = engaged ∧ process = later := by
        simpa using done
      have same : hub.dispatchers.set number line.dispatcher = hub.dispatchers := by
        obtain ⟨bound, here⟩ := List.getElem?_eq_some_iff.mp listed
        rw [← here, List.set_getElem_self]
      rw [same]
      exact ⟨seated, .refl _ _, held, rfl, rfl, rfl, rfl⟩
  · next absent =>
      simp only [Dispatcher.openInbox, Prod.mk.injEq] at done
      obtain ⟨rfl, rfl, rfl⟩ := done
      let window : Window := { config := process.config, inbox := line.dispatcher.fresh }
      have serves : Serves process.config line.dispatcher.openInbox.2 window := by
        refine ⟨rfl, ⟨?_, ?_⟩, rfl, Nat.lt_succ_self _, ?_⟩
        · intro sequence entry waits
          cases waits
        · intro sequence entry waits
          cases waits
        · intro sequence waits
          cases waits
      have none_yet : process.inbox? number = none := by simp [inbox?, absent]
      have spares : line.dispatcher.Spares (process.inbox? number)
          line.dispatcher.openInbox.2 :=
        ⟨Nat.le_succ _, fun _ _ led => led⟩
      refine ⟨turn_seated seated listed rfl rfl serves,
        turn_yields listed rfl spares (.inr ⟨none_yet, Nat.le_refl _⟩), ?_, rfl, rfl, rfl, ?_⟩
      · simp [Table.get?_insert]
      · simp only [promises]
        rw [Table.values_insert_of_new _ absent, List.flatMap_append]
        exact List.append_nil _

/-- A window at work on its connection, after which its failures are collected. -/
theorem collect_turn {process : Process} {dispatchers : List Dispatcher} {number : Nat}
    {station after : Station ρ} (seated : process.Seated dispatchers)
    (held : process.windows.get? number = some station.window)
    (listed : dispatchers[number]? = some station.line.dispatcher)
    (sound : after.window.Sound) (anchored : after.Anchored)
    (owner : Station.SameOwner station.window after.window)
    (spares
      : station.line.dispatcher.Spares (some station.window.inbox) after.line.dispatcher)
    : (process.collect number after.window).Seated
          (dispatchers.set number after.line.dispatcher)
      ∧ Yields process (process.collect number after.window) dispatchers
          (dispatchers.set number after.line.dispatcher) := by
  obtain ⟨dispatcher, same, serves⟩ := seated number station.window held
  rw [listed, Option.some.injEq] at same
  subst same
  have inbox : process.inbox? number = some station.window.inbox := by simp [inbox?, held]
  have serves_still : Serves process.config after.line.dispatcher
      { after.window with failures := [] } := by
    refine ⟨owner.config.trans serves.config, ⟨sound.keyed, sound.encoded⟩, rfl, ?_, anchored⟩
    rw [owner.inbox]
    exact Nat.lt_of_lt_of_le serves.known spares.fresh
  refine ⟨turn_seated seated listed rfl rfl serves_still,
    turn_yields listed rfl (inbox ▸ spares) (.inl ?_)⟩
  rw [inbox, owner.inbox]

/-- The rest of a process's promises, while one of its windows is at work. -/
def elsewhere (process : Process) (number : Nat) : List Promise :=
  (process.windows.erase number).values.flatMap Window.promises

/-- The ledger of a process holds the ledger of each of its windows. -/
theorem includes_station {hub : Hub ρ} {process : Process} {number : Nat}
    {station : Station ρ} (held : process.windows.get? number = some station.window)
    (collected : station.window.failures = []) (journal : station.journal = hub.journal)
    : Ledger.Includes (ledger hub process) station.ledger process.failures
        (process.elsewhere number) := by
  refine ⟨?_, ?_, ?_⟩
  · simp only [ledger, Station.ledger, journal]
  · simp only [ledger, Station.ledger, collected, List.append_nil]
  · exact (Table.values_perm_erase held).flatMap_right Window.promises

theorem includes_collect {hub : Hub ρ} (process : Process) (number : Nat)
    {station : Station ρ} (journal : hub.journal = station.journal)
    : Ledger.Includes (ledger hub (process.collect number station.window)) station.ledger
        process.failures (process.elsewhere number) := by
  refine ⟨?_, rfl, ?_⟩
  · simp only [ledger, Station.ledger, journal]
  · exact (Table.values_insert_perm process.windows number
      { station.window with failures := [] }).flatMap_right Window.promises

-----------------------------------------------------------------------------------------
-- Sending
-----------------------------------------------------------------------------------------

variable [Responder ρ]

/-- The three ways a send can end: before it came to a connection, with a window on the connection
that was chosen but no number for the request, or with what the window made of it.
-/
inductive Sending (hub : Hub ρ) (process : Process) (request : Request) (handler : Handler)
    : Except Halt Unit × Hub ρ × Process → Prop
  | idle {error : Error} {after : Hub ρ} (lines : after.lines = hub.lines)
    (journal : after.journal = hub.journal)
    : Sending hub process request handler (.error (.failed error), after, process)
  | opened {halt : Halt} {number : Nat} {line engaged : Line ρ} {window : Window}
    {later : Process} {after : Hub ρ} (found : hub.line? number = some line)
    (ready : process.engage number line = (window, engaged, later))
    (lines : after.lines = hub.lines.set number engaged)
    (journal : after.journal = hub.journal)
    (chosen : (hub.selector.select request.header.destination).1.number = number)
    (unnumbered : later.assign engaged request.sequence hub.sequences = .error halt)
    : Sending hub process request handler (.error halt, after, later)
  | tried {number : Nat} {line engaged : Line ρ} {window : Window} {later : Process}
    {sequence : UInt16} {result : Except Error Unit} {station : Station ρ} {after : Hub ρ}
    (found : hub.line? number = some line)
    (ready : process.engage number line = (window, engaged, later))
    (done
      : Station.send { line := engaged, window, journal := hub.journal } request sequence
          handler
        = (result, station))
    (lines : after.lines = hub.lines.set number station.line)
    (journal : after.journal = station.journal)
    (chosen : (hub.selector.select request.header.destination).1.number = number)
    {sequences : SequenceGenerator}
    (numbered
      : later.assign engaged request.sequence hub.sequences = .ok (sequence, sequences))
    : Sending hub process request handler
        (result.mapError .failed, after, later.collect number station.window)

/-- Every send ends in one of these ways, by the checks it makes in turn. -/
theorem send_sending (hub : Hub ρ) (process : Process) (request : Request)
    (handler : Handler)
    : Sending hub process request handler (Process.send hub process request handler) := by
  unfold Process.send
  split
  · exact .idle rfl rfl
  · split
    · exact .idle rfl rfl
    · dsimp only
      split
      · exact .idle rfl rfl
      · next line found =>
          generalize ready : process.engage _ line = engagement
          obtain ⟨window, engaged, later⟩ := engagement
          dsimp only
          split
          · next halt unnumbered => exact .opened found ready rfl rfl rfl unnumbered
          · next sequence sequences numbered =>
              generalize done
                : Station.send { line := engaged, window, journal := hub.journal } request
                    sequence handler = outcome
              obtain ⟨result, station⟩ := outcome
              simp only [Hub.setLine]
              rw [done]
              exact .tried found ready done (by simp [Hub.update, Hub.setLine]) rfl rfl numbered

/-- A send is a turn that settles older requests and offers its own. -/
theorem send_turn {hub after : Hub ρ} {process later : Process} {request : Request}
    {handler : Handler} {result : Except Halt Unit}
    (seated : process.Seated hub.dispatchers)
    (done : Process.send hub process request handler = (result, after, later))
    : Turn hub after process later
      ∧ later.finished = process.finished
      ∧ ∃ sequence events settled tried taken,
          Ledger.Sends process.config.tag ⟨request.numbered sequence, handler⟩
            (ledger hub process) (ledger after later) result events settled tried taken := by
  have ending := send_sending hub process request handler
  rw [done] at ending
  cases ending with
  | idle lines journal =>
      refine ⟨.of_same seated lines, rfl, 0, [], [], [], [], ⟨_, .refl _ _, ?_⟩, .withheld _⟩
      simp only [ledger, journal]
      exact .refl _
  | opened found ready lines journal =>
      have engagement := engage_engagement seated found ready
      rw [← dispatchers_set lines] at engagement
      refine ⟨⟨engagement.seated, engagement.yields, engagement.config⟩, engagement.finished,
        0, [], [], [], [], ⟨_, .refl _ _, ?_⟩, .withheld _⟩
      rw [← engagement.ledger]
      simp only [ledger, journal]
      exact .refl _
  | @tried number line engaged window between sequence _ station _ found ready sent lines
      journal =>
      have engagement := engage_engagement seated found ready
      have listed : (hub.dispatchers.set number engaged.dispatcher)[number]?
          = some engaged.dispatcher :=
        List.getElem?_set_self (List.getElem?_eq_some_iff.mp (dispatchers_of_line found)).1
      obtain ⟨dispatcher, same, serves⟩ := engagement.seated number window engagement.held
      rw [listed, Option.some.injEq] at same
      subst same
      let start : Station ρ := { line := engaged, window, journal := hub.journal }
      have held : between.windows.get? number = some start.window := engagement.held
      have anchored : start.Anchored := serves.anchored
      have journals : start.journal = hub.journal := rfl
      obtain ⟨anchored_still, owner, spares⟩ := Station.send_spares anchored sent
      obtain ⟨sound, events, settled, tried, taken, sends⟩ :=
        Station.send_sends serves.sound anchored sent
      obtain ⟨seated_still, yields⟩ :=
        collect_turn engagement.seated held listed sound anchored_still owner spares
      rw [List.set_set, ← dispatchers_set lines] at seated_still yields
      have before := includes_station held serves.collected journals
      rw [engagement.ledger] at before
      rw [serves.config, engagement.config] at sends
      exact ⟨⟨seated_still, engagement.yields.trans yields, engagement.config⟩,
        engagement.finished, sequence, events, settled, tried, taken,
        sends.widen before (includes_collect between number journal)⟩

-----------------------------------------------------------------------------------------
-- Waiting
-----------------------------------------------------------------------------------------

/-- None of the process's requests waits on this connection. -/
def Idle (process : Process) (number : Nat) : Prop :=
  ∀ window, process.windows.get? number = some window → window.inProgress = 0

/-- A process that waits nowhere owes nothing. -/
theorem promises_eq_nil {process : Process} (idle : ∀ number, process.Idle number)
    : process.promises = [] := by
  apply List.flatMap_eq_nil_iff.mpr
  intro window member
  obtain ⟨number, found⟩ := Table.mem_values_iff.mp member
  have entries : window.outstanding.entries = [] :=
    List.eq_nil_of_length_eq_zero (idle number window found)
  simp [Window.promises, Table.values, entries]

/-- Waiting for the requests of one window is a turn after which none of them waits. -/
theorem finishWindow_turn {hub after : Hub ρ} {process later : Process} {number : Nat}
    (seated : process.Seated hub.dispatchers)
    (done : finishWindow hub process number = (after, later))
    : Turn hub after process later
      ∧ later.finished = process.finished
      ∧ (∃ events settled,
          Ledger.Settles process.config.tag (ledger hub process) (ledger after later) events
            settled)
      ∧ ∀ other, other = number ∨ process.Idle other → later.Idle other := by
  unfold finishWindow at done
  split at done
  · next line window found held =>
      obtain ⟨rfl, rfl⟩ := Prod.mk.inj done
      let start : Station ρ := { line, window, journal := hub.journal }
      have listed : hub.dispatchers[number]? = some start.line.dispatcher :=
        dispatchers_of_line found
      have held_start : process.windows.get? number = some start.window := held
      obtain ⟨_, same, serves⟩ := seated number window held
      rw [listed, Option.some.injEq] at same
      subst same
      have path := Station.drain_path 0 start
      have released := Station.Path.releases path
      obtain ⟨sound, events, settled, settles⟩ := path.settles serves.sound
      have anchored : start.Anchored := serves.anchored
      obtain ⟨seated_still, yields⟩ :=
        collect_turn seated held_start listed sound (released.anchored anchored) released.owner
          (released.spares anchored)
      have lines : (hub.update number start.finish).lines
          = hub.lines.set number (start.drain 0).line := rfl
      rw [← dispatchers_set lines] at seated_still yields
      rw [serves.config] at settles
      have journals : start.journal = hub.journal := rfl
      have before := includes_station held_start serves.collected journals
      have behind : Ledger.Includes
          (ledger (hub.update number start.finish) (process.collect number start.finish.window))
          (start.drain 0).ledger process.failures (process.elsewhere number) :=
        includes_collect process number rfl
      refine ⟨⟨seated_still, yields, rfl⟩, rfl,
        ⟨events, settled, settles.widen before behind⟩, ?_⟩
      intro other idle window found
      simp only [collect, Window.takeFailures, Table.get?_insert] at found
      split at found
      · cases found
        exact Nat.le_zero.mp (Station.inProgress_drain_le 0 start)
      · next apart =>
          rcases idle with same | idle
          · exact absurd same apart
          · exact idle window found
  · next absent =>
      obtain ⟨rfl, rfl⟩ := Prod.mk.inj done
      refine ⟨.of_same seated rfl, rfl, ⟨[], [], .refl _ _⟩, ?_⟩
      intro other idle window found
      rcases idle with rfl | idle
      · obtain ⟨dispatcher, listed, _⟩ := seated other window found
        obtain ⟨line, there, _⟩ : ∃ line, hub.line? other = some line
            ∧ line.dispatcher = dispatcher := by
          simpa [Hub.dispatchers, Hub.line?] using listed
        exact absurd found (absent line window there)
      · exact idle window found

/-- Waiting window by window is a turn, by induction on the windows. -/
theorem foldl_finishWindow_turn (numbers : List Nat) {hub after : Hub ρ}
    {process later : Process} (seated : process.Seated hub.dispatchers)
    (done
      : numbers.foldl (fun state number => finishWindow state.1 state.2 number) (hub, process)
        = (after, later))
    : Turn hub after process later
      ∧ later.finished = process.finished
      ∧ (∃ events settled,
          Ledger.Settles process.config.tag (ledger hub process) (ledger after later) events
            settled)
      ∧ ∀ number, number ∈ numbers ∨ process.Idle number → later.Idle number := by
  induction numbers generalizing hub process with
  | nil =>
      obtain ⟨rfl, rfl⟩ := Prod.mk.inj done
      refine ⟨.of_same seated rfl, rfl, ⟨[], [], .refl _ _⟩, ?_⟩
      intro number idle
      rcases idle with member | idle
      · cases member
      · exact idle
  | cons number rest ih =>
      rw [List.foldl_cons] at done
      generalize turned : finishWindow hub process number = state at done
      obtain ⟨middle, between⟩ := state
      obtain ⟨turn, finished, ⟨events, settled, settles⟩, idle⟩ :=
        finishWindow_turn seated turned
      obtain ⟨turns, finished_still, ⟨more, rest_settled, all⟩, idle_later⟩ :=
        ih turn.seated done
      rw [turn.config] at all
      refine ⟨turn.trans turns, finished_still.trans finished, ⟨_, _, settles.trans all⟩, ?_⟩
      intro other waits
      apply idle_later
      rcases waits with member | waits
      · rcases List.mem_cons.mp member with here | later_on
        · exact .inr (idle other (.inl here))
        · exact .inl later_on
      · exact .inr (idle other (.inr waits))

/-- A process that finishes settles all that it owes; one that had finished does nothing. -/
theorem finish_turn {hub after : Hub ρ} {process later : Process}
    {result : Except Error Unit} (seated : process.Seated hub.dispatchers)
    (done : Process.finish hub process = (result, after, later))
    : Turn hub after process later
      ∧ later.finished = true
      ∧ (∃ events settled,
          Ledger.Settles process.config.tag (ledger hub process) (ledger after later) events
            settled)
      ∧ ((process.finished = false ∧ result = .ok () ∧ later.promises = [])
        ∨ (process.finished = true ∧ result = .error .closed ∧ after = hub
          ∧ later = process)) := by
  unfold Process.finish at done
  split at done
  · next finished =>
      simp only [Prod.mk.injEq] at done
      obtain ⟨rfl, rfl, rfl⟩ := done
      exact ⟨.of_same seated rfl, finished, ⟨[], [], .refl _ _⟩,
        .inr ⟨finished, rfl, rfl, rfl⟩⟩
  · next open_still =>
      simp only [Prod.mk.injEq] at done
      obtain ⟨rfl, hubs, processes⟩ := done
      let closing : Process := { process with finished := true }
      have seated_closing : closing.Seated hub.dispatchers := seated
      obtain ⟨turn, finished, settles, idle⟩ :=
        foldl_finishWindow_turn process.windows.keys seated_closing (Prod.ext hubs processes)
      have none_left : later.promises = [] := by
        apply promises_eq_nil
        intro number
        apply idle
        cases found : process.windows.get? number with
        | some window =>
            left
            rw [Table.mem_keys_iff, found]
            rfl
        | none =>
            right
            intro window held
            rw [found] at held
            cases held
      -- That it has finished does not show in the inboxes of a process.
      have yields : Yields process later hub.dispatchers after.dispatchers :=
        ⟨turn.yields.length, turn.yields.spared, turn.yields.kept, turn.yields.opened⟩
      exact ⟨⟨turn.seated, yields, turn.config⟩, finished, settles,
        .inl ⟨by simpa using open_still, rfl, none_left⟩⟩

-----------------------------------------------------------------------------------------
-- Going away
-----------------------------------------------------------------------------------------

omit [Responder ρ]

/-- A process that goes away writes nothing down. -/
theorem journal_drop (hub : Hub ρ) (process : Process)
    : (process.drop hub).journal = hub.journal := by
  unfold drop
  induction process.windows.entries generalizing hub with
  | nil => rfl
  | cons entry rest ih => exact (ih _).trans rfl

/-- Only numbers that lead to an owner's inbox are freed. -/
theorem spares_of_unregister {own : Option Nat} {dispatcher : Dispatcher}
    {sequences : List UInt16}
    (owned
      : ∀ sequence ∈ sequences,
          ∀ inbox, dispatcher.routes.get? sequence = some inbox → own = some inbox)
    (discarded : Nat)
    : dispatcher.Spares own
        ((sequences.foldl Dispatcher.unregister dispatcher).discard discarded) := by
  refine ⟨?_, ?_⟩
  · simp [Dispatcher.discard, Dispatcher.fresh_foldl_unregister]
  · intro inbox sequence _ apart led
    simp only [Dispatcher.discard, Dispatcher.get?_foldl_unregister]
    split
    · next member => exact absurd (owned sequence member inbox led) apart
    · exact led

/-- One window goes away from its connection. -/
def vacate (hub : Hub ρ) (entry : Nat × Window) : Hub ρ :=
  hub.modifyLine entry.1 fun line =>
    let dispatcher := entry.2.outstanding.keys.foldl Dispatcher.unregister line.dispatcher
    { line with dispatcher := dispatcher.discard entry.2.inbox }

/-- The numbers of a window's waiting requests lead only to the inbox of the process. -/
def Owns (process : Process) (dispatchers : List Dispatcher) (entry : Nat × Window) : Prop :=
  ∀ (dispatcher : Dispatcher) (sequence : UInt16) (inbox : Nat),
    dispatchers[entry.1]? = some dispatcher
    → sequence ∈ entry.2.outstanding.keys
    → dispatcher.routes.get? sequence = some inbox
    → process.inbox? entry.1 = some inbox

theorem dispatchers_vacate (hub : Hub ρ) (entry : Nat × Window) (number : Nat)
    : (vacate hub entry).dispatchers[number]?
      = hub.dispatchers[number]?.map fun dispatcher =>
          if entry.1 = number then
            (entry.2.outstanding.keys.foldl Dispatcher.unregister dispatcher).discard
              entry.2.inbox
          else dispatcher := by
  simp only [vacate, Hub.modifyLine, Hub.dispatchers, List.getElem?_map, List.getElem?_modify]
  cases hub.lines[number]? with
  | none => rfl
  | some line =>
      by_cases same : entry.1 = number
      · simp [same]
      · simp [same]

/-- Windows that go away free nothing but their own process's numbers. -/
theorem foldl_vacate_yields {process : Process} (entries : List (Nat × Window)) {hub : Hub ρ}
    (owns : ∀ entry ∈ entries, process.Owns hub.dispatchers entry)
    : Yields process process hub.dispatchers (entries.foldl vacate hub).dispatchers
      ∧ (entries.foldl vacate hub).journal = hub.journal := by
  induction entries generalizing hub with
  | nil => exact ⟨.refl _ _, rfl⟩
  | cons entry rest ih =>
      have changed := dispatchers_vacate hub entry
      have own := owns entry List.mem_cons_self
      have first : Yields process process hub.dispatchers (vacate hub entry).dispatchers := by
        refine ⟨?_, ?_, fun known => known, ?_⟩
        · simp [vacate, Hub.modifyLine, Hub.dispatchers]
        · intro number old found
          rw [changed, found]
          refine ⟨_, rfl, ?_⟩
          split
          · next same =>
              subst same
              exact spares_of_unregister (fun sequence member inbox led =>
                own old sequence inbox found member led) _
          · exact .refl _ _
        · intro number inbox absent known
          rw [absent] at known
          cases known
      have owns_rest : ∀ other ∈ rest, process.Owns (vacate hub entry).dispatchers other := by
        intro other member dispatcher sequence inbox found waits led
        rw [changed] at found
        obtain ⟨old, listed, rfl⟩ := Option.map_eq_some_iff.mp found
        refine owns other (List.mem_cons_of_mem _ member) old sequence inbox listed waits ?_
        split at led
        · simp only [Dispatcher.discard, Dispatcher.get?_foldl_unregister] at led
          split at led
          · cases led
          · exact led
        · exact led
      obtain ⟨all, journal⟩ := ih owns_rest
      exact ⟨first.trans all, journal⟩

/-- A seated process that goes away spares the routes of all others, and says nothing. -/
theorem drop_yields {hub : Hub ρ} {process : Process}
    (seated : process.Seated hub.dispatchers)
    : Yields process process hub.dispatchers (process.drop hub).dispatchers
      ∧ (process.drop hub).journal = hub.journal := by
  apply foldl_vacate_yields process.windows.entries
  intro entry member dispatcher sequence inbox found waits led
  have held : process.windows.get? entry.1 = some entry.2 :=
    Table.find_of_mem process.windows.nodup member
  obtain ⟨_, same, serves⟩ := seated entry.1 entry.2 held
  rw [found, Option.some.injEq] at same
  subst same
  rw [serves.anchored sequence ((Table.mem_keys_iff _ _).mp waits)] at led
  simpa [inbox?, held] using led

end MeshControl.Link.Process
