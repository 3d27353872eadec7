import MeshControl.Link.Script
import MeshControl.Operation.Version
import MeshControl.Proofs.Link.Strays
import Mathlib.Data.List.Permutation

/-! Two runs of a connection that many windows share, one of them with stray datagrams strewn
among all that arrives. The second does what the first does: it sends the same, ends the same
requests with the same answers and errors, and keeps the same ones waiting. Only the count of stale
datagrams tells the two apart.
-/

namespace MeshControl.Link

open Scp

variable {ρ : Type}

-----------------------------------------------------------------------------------------
-- Lines with noise
-----------------------------------------------------------------------------------------

/-- A peer over a line with noise: at each datagram that it gets, others arrive in the gaps of what
it sends back. Between two transmissions only the places in the queue matter, not the times: whoever
waits reads in their order.
-/
structure Noisy (ρ : Type) where
  peer : ρ
  /-- What arrives at each of its turns besides. -/
  noise : Nat → Gaps
  turn : Nat := 0

instance [Responder ρ] : Responder (Noisy ρ) where
  react noisy datagram :=
    let (reaction, peer) := Responder.react noisy.peer datagram
    ({ reaction with arrivals := strew (noisy.noise noisy.turn) reaction.arrivals },
      { noisy with peer, turn := noisy.turn + 1 })

/-- All that has arrived at its turns besides. -/
def Noisy.spread (noisy : Noisy ρ) : List Datagram :=
  (List.range noisy.turn).flatMap fun turn => (noisy.noise turn).flatten

/-- A connection, with noise from now on. -/
def Connection.noisy (connection : Connection ρ) (noise : Nat → Gaps) : Connection (Noisy ρ) where
  number := connection.number
  name := connection.name
  chip := connection.chip
  peer := { peer := connection.peer, noise }
  pending := connection.pending
  closed := connection.closed

/-- A line and the same one with noise. Beside what was strewn before, there is what the peer has
strewn; some of it was read, and what was long enough of that was counted.
-/
structure Line.Shadows (used : Set UInt16) (before : List Datagram) (calm : Line ρ)
    (noisy : Line (Noisy ρ)) : Prop where
  number : noisy.connection.number = calm.connection.number
  closed : noisy.connection.closed = calm.connection.closed
  peer : noisy.connection.peer.peer = calm.connection.peer
  strays
    : ∀ turn, ∀ datagram ∈ (noisy.connection.peer.noise turn).flatten, Stray used datagram
  knows : calm.dispatcher.Knows used
  account
    : ∃ read left,
        (read ++ left).Perm (before ++ noisy.connection.peer.spread)
        ∧ (∀ datagram ∈ left, Stray used datagram)
        ∧ Strewn left calm.connection.pending noisy.connection.pending
        ∧ noisy.dispatcher = calm.dispatcher.ahead (read.countP isTold)

namespace Line

variable {used : Set UInt16} {before : List Datagram} {calm : Line ρ} {noisy : Line (Noisy ρ)}

/-- What does not look at the count of stale datagrams is done alike on both lines. -/
theorem Shadows.change (shadows : calm.Shadows used before noisy) (act : Dispatcher → Dispatcher)
    (blind : ∀ dispatcher more, act (dispatcher.ahead more) = (act dispatcher).ahead more)
    (knows : (act calm.dispatcher).Knows used)
    : ({ calm with dispatcher := act calm.dispatcher } : Line ρ).Shadows used before
        { noisy with dispatcher := act noisy.dispatcher } := by
  obtain ⟨read, left, whole, left_strays, strewn, dispatcher⟩ := shadows.account
  exact ⟨shadows.number, shadows.closed, shadows.peer, shadows.strays, knows, read, left, whole,
    left_strays, strewn, by rw [dispatcher, blind]⟩

/-- A wait comes to the same on both lines. -/
theorem Shadows.await (shadows : calm.Shadows used before noisy) (inbox : Nat) (limit : Duration)
    : (noisy.await inbox limit).1 = (calm.await inbox limit).1
      ∧ (calm.await inbox limit).2.Shadows used before (noisy.await inbox limit).2 := by
  obtain ⟨read, left, whole, left_strays, strewn, dispatcher⟩ := shadows.account
  unfold Line.await
  rw [shadows.closed, dispatcher]
  cases calm.connection.closed with
  | true =>
      simp only [if_true, Dispatcher.pop?_ahead]
      cases lies : calm.dispatcher.pop? inbox with
      | none => exact ⟨rfl, shadows⟩
      | some taken =>
          have knows := shadows.knows.of_sameRoutes (Dispatcher.sameRoutes_of_pop? lies)
          exact ⟨rfl, shadows.number, shadows.closed, shadows.peer, shadows.strays, knows, read,
            left, whole, left_strays, strewn, rfl⟩
  | false =>
      simp only [Bool.false_eq_true, if_false]
      have knows := shadows.knows.of_sameRoutes
        (calm.dispatcher.awaitFrom_sameRoutes inbox limit calm.connection.pending)
      obtain ⟨more, rest, pending, rfl, strewn_rest, passed⟩ :=
        Dispatcher.passes strewn left_strays shadows.knows inbox limit (read.countP isTold)
      rw [passed, ← List.countP_append]
      refine ⟨rfl, shadows.number, shadows.closed, shadows.peer, shadows.strays, knows,
        read ++ more, rest, by rwa [List.append_assoc], fun datagram member => ?_, strewn_rest, rfl⟩
      exact left_strays datagram (List.mem_append_right more member)

/-- Whatever arrives by itself waits on both lines. -/
theorem Shadows.absorb (shadows : calm.Shadows used before noisy) (reaction : Reaction)
    : ({ calm with connection := calm.connection.absorb reaction } : Line ρ).Shadows used before
        { noisy with connection := noisy.connection.absorb reaction } := by
  obtain ⟨read, left, whole, left_strays, strewn, dispatcher⟩ := shadows.account
  refine ⟨shadows.number, ?_, shadows.peer, shadows.strays, shadows.knows, read, left, whole,
    left_strays, ?_, dispatcher⟩
  · simp only [Connection.absorb, shadows.closed]
  · rw [← List.append_nil left]
    exact strewn.append (.refl reaction.arrivals)

variable [Responder ρ]

/-- A datagram brings about the same on both lines, and more is strewn. -/
theorem Shadows.send (shadows : calm.Shadows used before noisy) (datagram : Datagram)
    : (noisy.connection.send datagram).1 = (calm.connection.send datagram).1
      ∧ ({ calm with connection := (calm.connection.send datagram).2 } : Line ρ).Shadows used before
          { noisy with connection := (noisy.connection.send datagram).2 } := by
  obtain ⟨read, left, whole, left_strays, strewn, dispatcher⟩ := shadows.account
  let gaps := noisy.connection.peer.noise noisy.connection.peer.turn
  have heard : Responder.react noisy.connection.peer datagram
      = ({ (Responder.react calm.connection.peer datagram).1 with
            arrivals := strew gaps (Responder.react calm.connection.peer datagram).1.arrivals },
          { noisy.connection.peer with
            peer := (Responder.react calm.connection.peer datagram).2
            turn := noisy.connection.peer.turn + 1 }) := by
    rw [← shadows.peer]
    rfl
  unfold Connection.send
  rw [shadows.closed]
  cases open_still : calm.connection.closed with
  | true => exact ⟨rfl, shadows⟩
  | false =>
      simp only [Bool.false_eq_true, if_false, heard]
      have more := strewn_strew gaps (Responder.react calm.connection.peer datagram).1.arrivals
      refine ⟨trivial, shadows.number, ?_, rfl, shadows.strays, shadows.knows, read,
        left ++ gaps.flatten, ?_, ?_, strewn.append more, dispatcher⟩
      · simp only [Connection.absorb, shadows.closed]
      · rw [Noisy.spread, List.range_succ, List.flatMap_append, ← List.append_assoc,
          ← List.append_assoc, List.flatMap_singleton]
        exact whole.append_right gaps.flatten
      · intro other member
        rcases List.mem_append.mp member with early | late
        · exact left_strays other early
        · exact shadows.strays noisy.connection.peer.turn other late

end Line

-----------------------------------------------------------------------------------------
-- Windows at work
-----------------------------------------------------------------------------------------

theorem Dispatcher.Knows.unregister {dispatcher : Dispatcher} {used : Set UInt16}
    (knows : dispatcher.Knows used) (sequence : UInt16)
    : (dispatcher.unregister sequence).Knows used := by
  intro other registered
  apply knows
  simp only [isRegistered, Table.contains, Dispatcher.unregister, Table.get?_erase] at registered ⊢
  split at registered
  · cases registered
  · exact registered

theorem Dispatcher.Knows.register {dispatcher : Dispatcher} {used : Set UInt16}
    (knows : dispatcher.Knows used) {sequence : UInt16} (known : sequence ∈ used) (inbox : Nat)
    : ({ dispatcher with routes := dispatcher.routes.insert sequence inbox } : Dispatcher).Knows
        used := by
  intro other registered
  by_cases same : other = sequence
  · exact same ▸ known
  · apply knows
    simpa [isRegistered, Table.contains, same] using registered

namespace Station

/-- A window at work, and the same one at the same work on the line with noise. -/
structure Shadows (used : Set UInt16) (before : List Datagram) (calm : Station ρ)
    (noisy : Station (Noisy ρ)) : Prop where
  line : calm.line.Shadows used before noisy.line
  window : noisy.window = calm.window
  journal : noisy.journal = calm.journal

variable {used : Set UInt16} {before : List Datagram} {calm : Station ρ}
  {noisy : Station (Noisy ρ)}

theorem Shadows.log (shadows : calm.Shadows used before noisy) (event : Event)
    : (calm.log event).Shadows used before (noisy.log event) :=
  ⟨shadows.line, shadows.window, congrArg (·.push event) shadows.journal⟩

theorem Shadows.count (shadows : calm.Shadows used before noisy) (change : Counters → Counters)
    : (calm.count change).Shadows used before (noisy.count change) :=
  ⟨shadows.line, by simp only [Station.count, shadows.window], shadows.journal⟩

theorem Shadows.report (shadows : calm.Shadows used before noisy) (entry : Outstanding)
    (error : Error)
    : (calm.report entry error).Shadows used before (noisy.report entry error) :=
  ⟨shadows.line, by simp only [Station.report, Station.log, shadows.window],
    congrArg (·.push (.failed entry.request error entry.handler.audience)) shadows.journal⟩

theorem Shadows.release (shadows : calm.Shadows used before noisy) (sequence : UInt16)
    : (calm.release sequence).Shadows used before (noisy.release sequence) := by
  refine ⟨?_, ?_, shadows.journal⟩
  · exact shadows.line.change (·.unregister sequence) (fun _ _ => rfl)
      (shadows.line.knows.unregister sequence)
  · simp only [Station.release, shadows.window]

theorem Shadows.fail (shadows : calm.Shadows used before noisy) (sequence : UInt16)
    (error : Error)
    : (calm.fail sequence error).Shadows used before (noisy.fail sequence error) := by
  unfold Station.fail
  rw [shadows.window]
  split
  · exact shadows
  · exact (shadows.release sequence).report _ error

theorem Shadows.accept (shadows : calm.Shadows used before noisy) (entry : Outstanding)
    (response : Response)
    : (calm.accept entry response).Shadows used before (noisy.accept entry response) := by
  have settled := ((shadows.release response.sequence).count fun counters =>
    { counters with responses := counters.responses + 1 }.recordResponse .zero).log
      (.accepted entry.request response entry.handler.audience)
  unfold Station.accept
  dsimp only
  split
  · exact settled
  · exact settled.report entry _

theorem Shadows.renew (shadows : calm.Shadows used before noisy) (sequence : UInt16)
    (entry : Outstanding) (remaining : Nat) (reason : Reason)
    : (calm.renew sequence entry remaining reason).Shadows used before
        (noisy.renew sequence entry remaining reason) :=
  ⟨shadows.line, by simp only [Station.renew, Station.count, shadows.window], shadows.journal⟩

theorem Shadows.enroll (shadows : calm.Shadows used before noisy) {sequence : UInt16}
    (known : sequence ∈ used)
    : (calm.enroll sequence).Shadows used before (noisy.enroll sequence) := by
  unfold Station.enroll
  rw [shadows.window]
  refine ⟨?_, rfl, shadows.journal⟩
  let lead (dispatcher : Dispatcher) : Dispatcher :=
    { dispatcher with routes := dispatcher.routes.insert sequence calm.window.inbox }
  exact shadows.line.change lead (fun _ _ => rfl) (shadows.line.knows.register known _)

theorem Shadows.withdraw (shadows : calm.Shadows used before noisy) (sequence : UInt16)
    : (calm.withdraw sequence).Shadows used before (noisy.withdraw sequence) :=
  ⟨shadows.line.change (·.unregister sequence) (fun _ _ => rfl)
      (shadows.line.knows.unregister sequence),
    shadows.window, shadows.journal⟩

theorem Shadows.enlist (shadows : calm.Shadows used before noisy) (request : Request)
    (sequence : UInt16) (datagram : Datagram) (handler : Handler)
    : (calm.enlist request sequence datagram handler).Shadows used before
        (noisy.enlist request sequence datagram handler) :=
  ⟨shadows.line, by simp only [Station.enlist, Station.count, shadows.window], shadows.journal⟩

/-- What is done for one request after the other is done alike, by induction on them. -/
theorem Shadows.foldl {act : Station ρ → UInt16 → Station ρ}
    {act_noisy : Station (Noisy ρ) → UInt16 → Station (Noisy ρ)}
    (each
      : ∀ {calm noisy},
          Shadows used before calm noisy
          → ∀ sequence, Shadows used before (act calm sequence) (act_noisy noisy sequence))
    (sequences : List UInt16) (shadows : calm.Shadows used before noisy)
    : (sequences.foldl act calm).Shadows used before (sequences.foldl act_noisy noisy) := by
  induction sequences generalizing calm noisy with
  | nil => exact shadows
  | cons sequence rest ih => exact ih (each shadows sequence)

theorem Shadows.handleFailure (shadows : calm.Shadows used before noisy) (error : Error)
    : (calm.handleFailure error).Shadows used before (noisy.handleFailure error) := by
  unfold Station.handleFailure
  rw [shadows.window]
  exact shadows.foldl (fun each sequence => each.fail sequence error) _

theorem Shadows.handleUnreadable (shadows : calm.Shadows used before noisy) (datagram : Datagram)
    : (calm.handleUnreadable datagram).Shadows used before (noisy.handleUnreadable datagram) := by
  unfold Station.handleUnreadable
  rw [shadows.window]
  split
  · exact shadows
  · split
    · exact shadows
    · exact shadows.fail _ _

variable [Responder ρ]

/-- A datagram goes out alike. -/
theorem Shadows.transmit (shadows : calm.Shadows used before noisy) (datagram : Datagram)
    : (noisy.transmit datagram).1 = (calm.transmit datagram).1
      ∧ (calm.transmit datagram).2.Shadows used before (noisy.transmit datagram).2 := by
  obtain ⟨refusal, line⟩ := shadows.line.send datagram
  unfold Station.transmit
  dsimp only
  rw [shadows.line.closed]
  split
  · exact ⟨rfl, shadows⟩
  · rw [refusal, shadows.line.number]
    refine ⟨rfl, line, shadows.window, ?_⟩
    simp only [Station.log, shadows.journal]

theorem Shadows.resend (shadows : calm.Shadows used before noisy) (sequence : UInt16)
    (reason : Reason)
    : (calm.resend sequence reason).Shadows used before (noisy.resend sequence reason) := by
  unfold Station.resend
  rw [shadows.window]
  split
  · exact shadows
  · next entry _ =>
      dsimp only
      split
      · exact shadows.fail _ _
      · next remaining _ =>
          have renewed := shadows.renew sequence entry remaining reason
          obtain ⟨refusal, sent⟩ := renewed.transmit entry.datagram
          generalize calm_sent
            : (calm.renew sequence entry remaining reason).transmit entry.datagram
              = outcome at refusal sent
          generalize noisy_sent
            : (noisy.renew sequence entry remaining reason).transmit entry.datagram
              = outcome_noisy at refusal sent
          obtain ⟨_, after⟩ := outcome
          obtain ⟨result, after_noisy⟩ := outcome_noisy
          obtain rfl := refusal
          simp only [Station.renew, Outstanding.repeated, shadows.window] at calm_sent noisy_sent
          rw [calm_sent, noisy_sent]
          cases result with
          | none => exact sent
          | some error => exact sent.fail sequence error

theorem Shadows.handleResponse (shadows : calm.Shadows used before noisy) (response : Response)
    : (calm.handleResponse response).Shadows used before (noisy.handleResponse response) := by
  unfold Station.handleResponse
  rw [shadows.window]
  split
  · exact shadows.count _
  · split
    · exact shadows.accept _ response
    · split
      · exact shadows.resend _ _
      · split <;> exact shadows.fail _ _

theorem Shadows.handleDatagram (shadows : calm.Shadows used before noisy) (datagram : Datagram)
    : (calm.handleDatagram datagram).Shadows used before (noisy.handleDatagram datagram) := by
  unfold Station.handleDatagram
  split
  · exact shadows.handleResponse _
  · exact shadows.handleUnreadable datagram

theorem Shadows.handleSilence (shadows : calm.Shadows used before noisy)
    : calm.handleSilence.Shadows used before noisy.handleSilence := by
  unfold Station.handleSilence
  rw [shadows.window]
  exact (shadows.count _).foldl (fun each sequence => each.resend sequence .silence) _

/-- Each step is the same with noise: the wait comes to the same, and so does all that follows. -/
theorem Shadows.step (shadows : calm.Shadows used before noisy)
    : calm.step.Shadows used before noisy.step := by
  obtain ⟨result, line⟩ :=
    shadows.line.await calm.window.inbox calm.window.config.timeout
  unfold Station.step
  rw [shadows.window]
  generalize calm.line.await calm.window.inbox calm.window.config.timeout = waited at result line
  generalize noisy.line.await calm.window.inbox calm.window.config.timeout
    = waited_noisy at result line
  obtain ⟨_, after⟩ := waited
  obtain ⟨came, after_noisy⟩ := waited_noisy
  obtain rfl := result
  have onward : ({ calm with line := after } : Station ρ).Shadows used before
      { noisy with line := after_noisy, window := calm.window } :=
    ⟨line, rfl, shadows.journal⟩
  cases came with
  | ok datagram => exact onward.handleDatagram datagram
  | error error =>
      dsimp only
      split
      · exact onward.handleSilence
      · exact onward.handleFailure error

/-- A wait goes the same steps with noise, by induction on those without. -/
theorem Shadows.drain (shadows : calm.Shadows used before noisy) (limit : Nat)
    : (calm.drain limit).Shadows used before (noisy.drain limit) := by
  fun_induction Station.drain limit calm generalizing noisy with
  | case1 calm few =>
      rw [Station.drain, shadows.window, if_pos few]
      exact shadows
  | case2 calm many ih =>
      have onward : noisy.drain limit = noisy.step.drain limit := by
        rw [Station.drain, shadows.window, if_neg many]
      rw [onward]
      exact ih shadows.step

theorem Shadows.makeRoom (shadows : calm.Shadows used before noisy)
    : calm.makeRoom.Shadows used before noisy.makeRoom := by
  unfold Station.makeRoom
  rw [shadows.window]
  dsimp only
  split
  · exact shadows.drain _
  · exact shadows

/-- A send comes to the same with noise, if its number is one of those in use. -/
theorem Shadows.send (shadows : calm.Shadows used before noisy) (request : Request)
    {sequence : UInt16} (known : sequence ∈ used) (handler : Handler)
    : (noisy.send request sequence handler).1 = (calm.send request sequence handler).1
      ∧ (calm.send request sequence handler).2.Shadows used before
          (noisy.send request sequence handler).2 := by
  have room := shadows.makeRoom
  have registered : noisy.makeRoom.line.dispatcher.isRegistered sequence
      = calm.makeRoom.line.dispatcher.isRegistered sequence := by
    obtain ⟨_, _, _, _, _, dispatcher⟩ := room.line.account
    rw [dispatcher]
    rfl
  rw [send_eq, send_eq, shadows.window, registered]
  split
  · exact ⟨rfl, shadows⟩
  · next datagram _ =>
      split
      · exact ⟨rfl, room⟩
      · obtain ⟨refusal, sent⟩ := (room.enroll known).transmit datagram
        generalize (calm.makeRoom.enroll sequence).transmit datagram = outcome at refusal sent
        generalize (noisy.makeRoom.enroll sequence).transmit datagram
          = outcome_noisy at refusal sent
        obtain ⟨_, after⟩ := outcome
        obtain ⟨result, after_noisy⟩ := outcome_noisy
        obtain rfl := refusal
        cases result with
        | some error => exact ⟨rfl, sent.withdraw sequence⟩
        | none => exact ⟨rfl, sent.enlist _ sequence datagram handler⟩

end Station

-----------------------------------------------------------------------------------------
-- Runs
-----------------------------------------------------------------------------------------

theorem Dispatcher.Knows.foldl_unregister {dispatcher : Dispatcher} {used : Set UInt16}
    (knows : dispatcher.Knows used) (sequences : List UInt16)
    : (sequences.foldl Dispatcher.unregister dispatcher).Knows used := by
  induction sequences generalizing dispatcher with
  | nil => exact knows
  | cons sequence rest ih => exact ih (knows.unregister sequence)

theorem Dispatcher.foldl_unregister_ahead (sequences : List UInt16) (dispatcher : Dispatcher)
    (more : Nat)
    : sequences.foldl Dispatcher.unregister (dispatcher.ahead more)
      = (sequences.foldl Dispatcher.unregister dispatcher).ahead more := by
  induction sequences generalizing dispatcher with
  | nil => rfl
  | cons sequence rest ih => exact ih (dispatcher.unregister sequence)

namespace Junction

/-- What an operation gives back. -/
inductive Outcome
  | opened (number : Nat)
  | sent (result : Except Error Unit)
  | taken (failures : List Failure)
  | done

/-- What one operation gives back. -/
def outcome [Responder ρ] (junction : Junction ρ) : Operation → Outcome
  | .openWindow config => .opened (junction.openWindow config).1
  | .send number request sequence handler =>
      .sent (junction.send number request sequence handler).1
  | .takeFailures number => .taken (junction.takeFailures number).1
  | _ => .done

/-- What operations give back, one after the other. -/
def outcomes [Responder ρ] (junction : Junction ρ) : List Operation → List Outcome
  | [] => []
  | operation :: rest => junction.outcome operation :: (junction.perform operation).outcomes rest

/-- Datagrams come into the gaps of what waits to be read. -/
def disturb (junction : Junction ρ) (gaps : Gaps) : Junction ρ :=
  { junction with
    line :=
      { junction.line with
        connection :=
          { junction.line.connection with
            pending := strew gaps junction.line.connection.pending } } }

/-- Operations, one after the other, each with the datagrams that come before it. -/
def runDisturbed [Responder ρ] (junction : Junction ρ) (steps : List (Gaps × Operation))
    : Junction ρ :=
  steps.foldl (fun junction step => (junction.disturb step.1).perform step.2) junction

/-- What such operations give back. -/
def outcomesDisturbed [Responder ρ] (junction : Junction ρ)
    : List (Gaps × Operation) → List Outcome
  | [] => []
  | (gaps, operation) :: rest =>
      (junction.disturb gaps).outcome operation
        :: ((junction.disturb gaps).perform operation).outcomesDisturbed rest

/-- The sequence numbers of all requests of a run. -/
def numbers (operations : List Operation) : Set UInt16 :=
  {sequence | ∃ number request handler,
    Operation.send number request sequence handler ∈ operations}

/-- A connection with its windows, and the same one with noise. -/
structure Shadows (used : Set UInt16) (before : List Datagram) (calm : Junction ρ)
    (noisy : Junction (Noisy ρ)) : Prop where
  line : calm.line.Shadows used before noisy.line
  windows : noisy.windows = calm.windows
  journal : noisy.journal = calm.journal

variable {used : Set UInt16} {before : List Datagram} {calm : Junction ρ}
  {noisy : Junction (Noisy ρ)}

theorem Shadows.station (shadows : calm.Shadows used before noisy) (window : Window)
    : (calm.station window).Shadows used before (noisy.station window) :=
  ⟨shadows.line, rfl, shadows.journal⟩

theorem Shadows.update (shadows : calm.Shadows used before noisy) (number : Nat)
    {station : Station ρ} {station_noisy : Station (Noisy ρ)}
    (worked : station.Shadows used before station_noisy)
    : (calm.update number station).Shadows used before (noisy.update number station_noisy) :=
  ⟨worked.line, by simp only [Junction.update, shadows.windows, worked.window], worked.journal⟩

/-- Strays that come into the gaps are strewn among what waits, and nothing else changes. -/
theorem Shadows.disturb (shadows : calm.Shadows used before noisy) {gaps : Gaps}
    (strays : ∀ datagram ∈ gaps.flatten, Stray used datagram)
    : calm.Shadows used (before ++ gaps.flatten) (noisy.disturb gaps) := by
  obtain ⟨read, left, whole, left_strays, strewn, dispatcher⟩ := shadows.line.account
  obtain ⟨all, together, strewn_all⟩ :=
    strewn.again (strewn_strew gaps noisy.line.connection.pending)
  refine ⟨⟨shadows.line.number, shadows.line.closed, shadows.line.peer, shadows.line.strays,
    shadows.line.knows, read, all, ?_, ?_, strewn_all, dispatcher⟩, shadows.windows,
    shadows.journal⟩
  · have here : (read ++ all).Perm (read ++ left ++ gaps.flatten) := by
      rw [List.append_assoc]
      exact together.append_left read
    have there : (before ++ noisy.line.connection.peer.spread ++ gaps.flatten).Perm
        (before ++ gaps.flatten ++ noisy.line.connection.peer.spread) := by
      rw [List.append_assoc, List.append_assoc]
      exact List.perm_append_comm.append_left before
    exact here.trans ((whole.append_right gaps.flatten).trans there)
  · intro datagram member
    rcases List.mem_append.mp (together.mem_iff.mp member) with early | late
    · exact left_strays datagram early
    · exact strays datagram late

variable [Responder ρ]

/-- Each operation comes to the same with noise, by the kinds of operations. -/
theorem Shadows.perform (shadows : calm.Shadows used before noisy) {operation : Operation}
    (known : numbers [operation] ⊆ used)
    : noisy.outcome operation = calm.outcome operation
      ∧ (calm.perform operation).Shadows used before (noisy.perform operation) := by
  cases operation with
  | openWindow config =>
      have fresh : noisy.line.dispatcher.fresh = calm.line.dispatcher.fresh := by
        obtain ⟨_, _, _, _, _, dispatcher⟩ := shadows.line.account
        rw [dispatcher]
        rfl
      have opened := shadows.line.change (·.openInbox.2) (fun _ _ => rfl) shadows.line.knows
      refine ⟨congrArg Outcome.opened fresh, opened, ?_, shadows.journal⟩
      simp only [Junction.perform, Junction.openWindow, Dispatcher.openInbox, fresh,
        shadows.windows]
  | send number request sequence handler =>
      have among : sequence ∈ used := known ⟨number, request, handler, List.mem_singleton_self _⟩
      simp only [Junction.outcome, Junction.perform, Junction.send, shadows.windows]
      cases calm.windows.get? number with
      | none => exact ⟨rfl, shadows⟩
      | some window =>
          obtain ⟨result, sent⟩ := (shadows.station window).send request among handler
          exact ⟨congrArg Outcome.sent result, shadows.update number sent⟩
  | finish number =>
      refine ⟨rfl, ?_⟩
      simp only [Junction.perform, Junction.finish, shadows.windows]
      cases calm.windows.get? number with
      | none => exact shadows
      | some window => exact shadows.update number ((shadows.station window).drain 0)
  | takeFailures number =>
      simp only [Junction.outcome, Junction.perform, Junction.takeFailures, shadows.windows]
      cases calm.windows.get? number with
      | none => exact ⟨rfl, shadows⟩
      | some window => exact ⟨rfl, shadows.line, rfl, shadows.journal⟩
  | drop number =>
      refine ⟨rfl, ?_⟩
      simp only [Junction.perform, Junction.drop, shadows.windows]
      cases calm.windows.get? number with
      | none => exact shadows
      | some window =>
          let leave (dispatcher : Dispatcher) : Dispatcher :=
            (window.outstanding.keys.foldl Dispatcher.unregister dispatcher).discard window.inbox
          have left := shadows.line.change leave
            (fun dispatcher more =>
              congrArg (·.discard window.inbox)
                (Dispatcher.foldl_unregister_ahead window.outstanding.keys dispatcher more))
            (shadows.line.knows.foldl_unregister window.outstanding.keys)
          exact ⟨left, rfl, shadows.journal⟩
  | arrive reaction =>
      exact ⟨rfl, shadows.line.absorb reaction, shadows.windows, shadows.journal⟩

/-- A run comes to the same with noise, by induction on its operations. -/
theorem Shadows.run (shadows : calm.Shadows used before noisy) {steps : List (Gaps × Operation)}
    (known : numbers (steps.map Prod.snd) ⊆ used)
    (strays : ∀ step ∈ steps, ∀ datagram ∈ step.1.flatten, Stray used datagram)
    : noisy.outcomesDisturbed steps = calm.outcomes (steps.map Prod.snd)
      ∧ (calm.run (steps.map Prod.snd)).Shadows used
          (before ++ steps.flatMap fun step => step.1.flatten) (noisy.runDisturbed steps) := by
  induction steps generalizing calm noisy before with
  | nil =>
      refine ⟨rfl, ?_⟩
      rw [List.flatMap_nil, List.append_nil]
      exact shadows
  | cons step rest ih =>
      obtain ⟨gaps, operation⟩ := step
      have first : numbers [operation] ⊆ used := by
        rintro sequence ⟨number, request, handler, member⟩
        obtain rfl := List.mem_singleton.mp member
        exact known ⟨number, request, handler, List.mem_cons_self⟩
      have later : numbers (rest.map Prod.snd) ⊆ used := by
        rintro sequence ⟨number, request, handler, member⟩
        exact known ⟨number, request, handler, List.mem_cons_of_mem _ member⟩
      have disturbed := shadows.disturb (strays (gaps, operation) List.mem_cons_self)
      obtain ⟨result, performed⟩ := disturbed.perform first
      obtain ⟨results, ran⟩ :=
        ih performed later fun step member => strays step (List.mem_cons_of_mem _ member)
      refine ⟨congrArg₂ List.cons result results, ?_⟩
      rw [List.flatMap_cons, ← List.append_assoc]
      exact ran

/-- Stray datagrams do no harm. However many of them come into the gaps of what waits at any time,
and however many come with what the peer sends back, the run is the same as without them: it
writes the same journal, so that the same datagrams go out in the same order and the same requests
end with the same answers and errors; each operation gives back the same; and the windows have the
same failures, requests in progress and counters. Only the count of stale datagrams is ahead, by
the number of strays that were read and were long enough to be told. Witness: both runs go the same
steps, by induction on the operations, on the steps of each wait, and on what each step reads.
-/
theorem strays_harmless (connection : Connection ρ) (noise : Nat → Gaps)
    (steps : List (Gaps × Operation))
    (noise_strays
      : ∀ turn, ∀ datagram ∈ (noise turn).flatten, Stray (numbers (steps.map Prod.snd)) datagram)
    (strays
      : ∀ step ∈ steps,
          ∀ datagram ∈ step.1.flatten, Stray (numbers (steps.map Prod.snd)) datagram)
    : let calm := (fresh connection).run (steps.map Prod.snd)
      let noisy := (fresh (connection.noisy noise)).runDisturbed steps
      noisy.journal = calm.journal
      ∧ (fresh (connection.noisy noise)).outcomesDisturbed steps
        = (fresh connection).outcomes (steps.map Prod.snd)
      ∧ noisy.windows = calm.windows
      ∧ ∃ read left,
          (read ++ left).Perm
              ((steps.flatMap fun step => step.1.flatten) ++ noisy.line.connection.peer.spread)
          ∧ Strewn left calm.line.connection.pending noisy.line.connection.pending
          ∧ noisy.line.dispatcher
            = { calm.line.dispatcher with
                stale := calm.line.dispatcher.stale + read.countP isTold } := by
  have start : (fresh connection).Shadows (numbers (steps.map Prod.snd)) []
      (fresh (connection.noisy noise)) := by
    refine ⟨⟨rfl, rfl, rfl, noise_strays, ?_, [], [], .refl _, by simp, .refl _, rfl⟩, rfl, rfl⟩
    intro sequence registered
    cases registered
  obtain ⟨results, line, windows, journal⟩ := start.run (subset_refl _) strays
  obtain ⟨read, left, whole, _, strewn, dispatcher⟩ := line.account
  exact ⟨journal, results, windows, read, left, whole, strewn, dispatcher⟩

/-- A request is answered while strays lie before and behind the answer, one of them too short: the
one that is read and long enough is counted, and the one behind the answer is left.
-/
theorem strays_harmless_aroundAnswer
    : let connection : Connection Script :=
        { number := 0, name := "mesh", chip := .origin, peer := {} }
      let stray := Response.encode (Sdp.Header.toMonitor .origin .replyExpected).reply .ok 9 []
      let send : Operation := .send 0 (Operation.getVersion .origin 0) 5 {}
      let calm := (fresh connection).run [.openWindow {}, send, .finish 0]
      let noisy := (fresh (connection.noisy fun _ => [[], [stray]])).runDisturbed
        [([], .openWindow {}), ([], send), ([[[1, 2, 3], stray]], .finish 0)]
      noisy.journal = calm.journal
      ∧ noisy.windows = calm.windows
      ∧ calm.journal.size = 2
      ∧ calm.line.dispatcher.stale = 0
      ∧ noisy.line.dispatcher.stale = 1
      ∧ noisy.line.connection.pending = [.datagram stray] := by
  intro connection stray send calm noisy
  let steps : List (Gaps × Operation) :=
    [([], .openWindow {}), ([], send), ([[[1, 2, 3], stray]], .finish 0)]
  have unused : Stray (numbers (steps.map Prod.snd)) stray := by
    refine .inr ⟨ResultCode.ok.code, 9, by decide, ?_⟩
    rintro ⟨number, request, handler, member⟩
    simp [steps, send] at member
  have short : Stray (numbers (steps.map Prod.snd)) [1, 2, 3] := .inl (by decide)
  obtain ⟨journal, _, windows, _⟩ := strays_harmless connection (fun _ => [[], [stray]]) steps
    (by simpa using unused) (by simpa [steps] using And.intro short unused)
  exact ⟨journal, windows, by cbv, by cbv, by cbv, by cbv⟩

end Junction

end MeshControl.Link
