import MeshControl.Link.Window

/-!
A window at work on its connection. `send` puts a request on the way, and first empties a full
window; `finish` waits until every request has ended. Waiting ends because each step uses up
something: a datagram that was there, or one of the times that a request may be sent
(`measure_step`).
-/

namespace MeshControl.Link

open Scp

/-- A window, the connection it sends on, and the events so far. -/
structure Station (ρ : Type) where
  line : Line ρ
  window : Window
  journal : Array Event := #[]

namespace Station

variable {ρ : Type}

/-- Writes an event down. -/
def log (station : Station ρ) (event : Event) : Station ρ :=
  { station with journal := station.journal.push event }

/-- Changes the counters. -/
def count (station : Station ρ) (change : Counters → Counters) : Station ρ :=
  { station with window := { station.window with counters := change station.window.counters } }

/-- Sends bytes; those that reach an open connection are written down. -/
def transmit [Responder ρ] (station : Station ρ) (datagram : Datagram)
    : Option Error × Station ρ :=
  let connection := station.line.connection
  if connection.closed then (some .closed, station)
  else
    let (refusal, after) := connection.send datagram
    (refusal,
      { station with line := { station.line with connection := after } }.log
        (.transmitted connection.number datagram refusal))

/-- A request no longer waits: it leaves the window, and its number is free. -/
def release (station : Station ρ) (sequence : UInt16) : Station ρ :=
  { station with
    line :=
      { station.line with dispatcher := station.line.dispatcher.unregister sequence }
    window :=
      { station.window with outstanding := station.window.outstanding.erase sequence } }

/-- Writes the failure of a request down and keeps it for collection. -/
def report (station : Station ρ) (entry : Outstanding) (error : Error) : Station ρ :=
  let failures := station.window.failures ++ [{ request := entry.request, error }]
  { station with window := { station.window with failures } }.log
    (.failed entry.request error entry.handler.audience)

/-- Ends a waiting request with an error. -/
def fail (station : Station ρ) (sequence : UInt16) (error : Error) : Station ρ :=
  match station.window.outstanding.get? sequence with
  | none => station
  | some entry => (station.release sequence).report entry error

/-- Ends a waiting request well, unless its sender finds fault with the answer. -/
def accept (station : Station ρ) (entry : Outstanding) (response : Response) : Station ρ :=
  let station := (station.release response.sequence).count fun counters =>
    { counters with responses := counters.responses + 1 }.recordResponse .zero
  let station := station.log (.accepted entry.request response entry.handler.audience)
  match entry.handler.check response with
  | .ok () => station
  | .error error => station.report entry error

/-- Counts a repetition by its reason. -/
def countRepetition (reason : Reason) (counters : Counters) : Counters :=
  match reason with
  | .silence => { counters with resent := counters.resent + 1 }
  | .result _ => { counters with retryResent := counters.retryResent + 1 }

/-- Sends a waiting request once more, or ends it if it has been sent often enough. -/
def resend [Responder ρ] (station : Station ρ) (sequence : UInt16) (reason : Reason)
    : Station ρ :=
  match station.window.outstanding.get? sequence with
  | none => station
  | some entry =>
      let entry := { entry with reasons := entry.reasons ++ [reason] }
      match entry.remaining with
      | 0 => station.fail sequence (exhausted station.window.config entry)
      | remaining + 1 =>
          -- A repetition is paid for before it is sent, so that a refused one counts too.
          let entry := { entry with remaining }
          let station :=
            { station with
              window :=
                { station.window with
                  outstanding := station.window.outstanding.insert sequence entry } }
          let (refusal, station) :=
            (station.count (countRepetition reason)).transmit entry.datagram
          match refusal with
          | none => station
          | some error => station.fail sequence error

/-- Takes in an answer that can be read. -/
def handleResponse [Responder ρ] (station : Station ρ) (response : Response) : Station ρ :=
  match station.window.outstanding.get? response.sequence with
  | none => station.count fun counters => { counters with stale := counters.stale + 1 }
  | some entry =>
      if entry.request.accepts response.result then station.accept entry response
      else if response.result.isRetry then
        station.resend response.sequence (.result response.result)
      else if response.result = .noBuffer then
        station.fail response.sequence (.allocationFailure
          s!"{entry.request.operation} ({entry.request.command.name})")
      else
        station.fail response.sequence
          (unexpected entry.request response.result.code (some response.result))

/-- Takes in an answer that cannot be read: it fails the request with its number, if one waits. -/
def handleUnreadable (station : Station ρ) (datagram : Datagram) : Station ρ :=
  match Response.peek datagram with
  | .error _ => station
  | .ok (code, sequence) =>
      match station.window.outstanding.get? sequence with
      | none => station
      | some entry => station.fail sequence (unexpected entry.request code none)

/-- Takes in a datagram. -/
def handleDatagram [Responder ρ] (station : Station ρ) (datagram : Datagram) : Station ρ :=
  match Response.decode datagram with
  | .ok response => station.handleResponse response
  | .error _ => station.handleUnreadable datagram

/-- Nothing came: every waiting request is sent once more, by ascending number. -/
def handleSilence [Responder ρ] (station : Station ρ) : Station ρ :=
  let sequences := station.window.outstanding.keys.mergeSort
  let station := station.count fun counters => { counters with timeouts := counters.timeouts + 1 }
  sequences.foldl (fun station sequence => station.resend sequence .silence) station

/-- The connection failed: every waiting request fails with it. -/
def handleFailure (station : Station ρ) (error : Error) : Station ρ :=
  station.window.outstanding.keys.foldl (fun station sequence => station.fail sequence error)
    station

/-- Waits once, and takes in what came. -/
def step [Responder ρ] (station : Station ρ) : Station ρ :=
  match station.line.await station.window.inbox station.window.config.timeout with
  | (.ok datagram, line) => { station with line }.handleDatagram datagram
  | (.error error, line) =>
      if error.isTimeout then { station with line }.handleSilence
      else { station with line }.handleFailure error

/-- What bounds the work that is left: how often requests may be sent, then what is unread. -/
def unread (station : Station ρ) : Nat :=
  station.line.unread station.window.inbox

@[simp] theorem window_log (station : Station ρ) (event : Event)
    : (station.log event).window = station.window :=
  rfl

@[simp] theorem outstanding_count (station : Station ρ) (change : Counters → Counters)
    : (station.count change).window.outstanding = station.window.outstanding :=
  rfl

@[simp] theorem outstanding_report (station : Station ρ) (entry : Outstanding) (error : Error)
    : (station.report entry error).window.outstanding = station.window.outstanding :=
  rfl

@[simp] theorem outstanding_release (station : Station ρ) (sequence : UInt16)
    : (station.release sequence).window.outstanding
      = station.window.outstanding.erase sequence :=
  rfl

/-- A failing request leaves the window. -/
theorem outstanding_fail (station : Station ρ) (sequence : UInt16) (error : Error)
    : (station.fail sequence error).window.outstanding
      = match station.window.outstanding.get? sequence with
        | none => station.window.outstanding
        | some _ => station.window.outstanding.erase sequence := by
  unfold fail
  split <;> simp [*]

/-- Ending a waiting request uses up what was left of its budget. -/
theorem budget_fail {station : Station ρ} {sequence : UInt16} {entry : Outstanding}
    (waits : station.window.outstanding.get? sequence = some entry) (error : Error)
    : (station.fail sequence error).window.budget + (entry.remaining + 1)
      = station.window.budget := by
  simp only [Window.budget, outstanding_fail, waits]
  exact Table.weight_erase _ _ waits

theorem budget_fail_le (station : Station ρ) (sequence : UInt16) (error : Error)
    : (station.fail sequence error).window.budget ≤ station.window.budget := by
  cases waits : station.window.outstanding.get? sequence with
  | none => simp [Window.budget, outstanding_fail, waits]
  | some entry =>
      have := budget_fail waits error
      omega

theorem budget_foldl_le {sequences : List UInt16} {act : Station ρ → UInt16 → Station ρ}
    (act_le : ∀ station sequence, (act station sequence).window.budget ≤ station.window.budget)
    (station : Station ρ)
    : (sequences.foldl act station).window.budget ≤ station.window.budget := by
  induction sequences generalizing station with
  | nil => exact Nat.le_refl _
  | cons sequence rest ih => exact Nat.le_trans (ih _) (act_le station sequence)

/-- An action for each of some requests, the first of which waits, uses up some budget. -/
theorem budget_foldl_lt {sequences : List UInt16} {act : Station ρ → UInt16 → Station ρ}
    (act_le : ∀ station sequence, (act station sequence).window.budget ≤ station.window.budget)
    (act_lt : ∀ station sequence, (station.window.outstanding.get? sequence).isSome
      → (act station sequence).window.budget < station.window.budget)
    {station : Station ρ} (some_wait : sequences ≠ [])
    (all_wait : ∀ sequence ∈ sequences, (station.window.outstanding.get? sequence).isSome)
    : (sequences.foldl act station).window.budget < station.window.budget := by
  cases sequences with
  | nil => exact absurd rfl some_wait
  | cons sequence rest =>
      refine Nat.lt_of_le_of_lt (budget_foldl_le act_le (act station sequence)) ?_
      exact act_lt station sequence (all_wait sequence List.mem_cons_self)

/-- A failed connection uses up the budget of every request. -/
theorem budget_handleFailure_lt {station : Station ρ} (waiting : 0 < station.window.inProgress)
    (error : Error)
    : (station.handleFailure error).window.budget < station.window.budget := by
  unfold handleFailure
  refine budget_foldl_lt (fun station sequence => budget_fail_le station sequence error)
    (fun station sequence waits => ?_) (fun none => ?_) (fun sequence member => ?_)
  · obtain ⟨entry, waits⟩ := Option.isSome_iff_exists.1 waits
    have := budget_fail waits error
    omega
  · have := congrArg List.length none
    simp only [List.length_nil, Table.keys, List.length_map] at this
    simp only [Window.inProgress, Table.size] at waiting
    omega
  · exact (Table.mem_keys_iff _ _).1 member

variable [Responder ρ]

@[simp] theorem window_transmit (station : Station ρ) (datagram : Datagram)
    : (station.transmit datagram).2.window = station.window := by
  unfold transmit
  dsimp only
  split <;> rfl

/-- Sending a request again, or ending it, uses up some of its budget. -/
theorem budget_resend_lt {station : Station ρ} {sequence : UInt16} {entry : Outstanding}
    (waits : station.window.outstanding.get? sequence = some entry) (reason : Reason)
    : (station.resend sequence reason).window.budget < station.window.budget := by
  unfold resend
  rw [waits]
  dsimp only
  split
  · next spent =>
      have := budget_fail waits
        (exhausted station.window.config { entry with reasons := entry.reasons ++ [reason] })
      omega
  · next remaining left =>
      have exchanged := Table.weight_insert_of_get? (fun entry => entry.remaining + 1)
        station.window.outstanding
        { entry with reasons := entry.reasons ++ [reason], remaining } waits
      split
      · simp only [Window.budget, window_transmit, outstanding_count] at *
        omega
      · refine Nat.lt_of_le_of_lt (budget_fail_le _ _ _) ?_
        simp only [Window.budget, window_transmit, outstanding_count] at *
        omega

theorem budget_resend_le (station : Station ρ) (sequence : UInt16) (reason : Reason)
    : (station.resend sequence reason).window.budget ≤ station.window.budget := by
  cases waits : station.window.outstanding.get? sequence with
  | none => simp [resend, waits]
  | some entry => exact Nat.le_of_lt (budget_resend_lt waits reason)

/-- Answers, read or not, use up budget or leave everything that still has to be read. -/
theorem measure_handleDatagram (station : Station ρ) (datagram : Datagram)
    : (station.handleDatagram datagram).window.budget < station.window.budget
      ∨ ((station.handleDatagram datagram).window.budget = station.window.budget
        ∧ (station.handleDatagram datagram).unread = station.unread) := by
  unfold handleDatagram
  split
  · next response _ =>
      unfold handleResponse
      split
      · exact .inr ⟨rfl, rfl⟩
      · next entry waits =>
          left
          split
          · have erased := Table.weight_erase (fun entry => entry.remaining + 1)
              station.window.outstanding waits
            unfold accept
            dsimp only
            split
            all_goals
              simp only [Window.budget, outstanding_report, window_log, outstanding_count,
                outstanding_release] at *
              omega
          · split
            · exact budget_resend_lt waits _
            · split
              all_goals
                have := budget_fail waits
                  (.allocationFailure s!"{entry.request.operation} ({entry.request.command.name})")
                have := budget_fail waits
                  (unexpected entry.request response.result.code (some response.result))
                omega
  · unfold handleUnreadable
    split
    · exact .inr ⟨rfl, rfl⟩
    · next code sequence _ =>
        split
        · exact .inr ⟨rfl, rfl⟩
        · next entry waits =>
            have := budget_fail waits (unexpected entry.request code none)
            left
            omega

/-- A wait in vain uses up some budget of every request. -/
theorem budget_handleSilence_lt {station : Station ρ} (waiting : 0 < station.window.inProgress)
    : station.handleSilence.window.budget < station.window.budget := by
  unfold handleSilence
  refine budget_foldl_lt (fun station sequence => budget_resend_le station sequence .silence)
    (fun station sequence waits => ?_) (fun none => ?_) (fun sequence member => ?_)
  · obtain ⟨entry, waits⟩ := Option.isSome_iff_exists.1 waits
    exact budget_resend_lt waits .silence
  · have := congrArg List.length none
    simp only [List.length_mergeSort, List.length_nil, Table.keys, List.length_map] at this
    simp only [Window.inProgress, Table.size] at waiting
    omega
  · exact (Table.mem_keys_iff _ _).1 (List.mem_mergeSort.1 member)

/-- Each step uses up budget, or something unread. -/
theorem measure_step {station : Station ρ} (waiting : 0 < station.window.inProgress)
    : station.step.window.budget < station.window.budget
      ∨ (station.step.window.budget = station.window.budget
        ∧ station.step.unread < station.unread) := by
  unfold step
  split
  · next datagram line found =>
      have read := Line.unread_await_lt found
      rcases measure_handleDatagram { station with line } datagram with used | ⟨same, left⟩
      · exact .inl used
      · exact .inr ⟨same, left ▸ read⟩
  · next error line _ =>
      left
      split
      · exact @budget_handleSilence_lt ρ _ { station with line } waiting
      · exact @budget_handleFailure_lt ρ { station with line } waiting error

/-- Waits until at most so many requests are left. -/
def drain (limit : Nat) (station : Station ρ) : Station ρ :=
  if station.window.inProgress ≤ limit then station else drain limit station.step
termination_by (station.window.budget, station.unread)
decreasing_by
  rcases @measure_step ρ _ station (by omega) with used | ⟨same, left⟩
  · exact Prod.Lex.left _ _ used
  · rw [same]
    exact Prod.Lex.right _ left

/-- Waits until every request has ended. -/
def finish (station : Station ρ) : Station ρ :=
  station.drain 0

/-- Empties a full window down to its low-water mark. -/
def makeRoom (station : Station ρ) : Station ρ :=
  let config := station.window.config
  if station.window.inProgress ≥ config.window then station.drain config.lowWater else station

/--
Sends a request under a sequence number. One that may not go out changes nothing; one that cannot
go out, because its number is in use or the connection refuses it, is not kept.
-/
def send (station : Station ρ) (request : Request) (sequence : UInt16) (handler : Handler)
    : Except Error Unit × Station ρ :=
  let request := { request with sequence := some sequence }
  match request.encode station.window.config.tag with
  | .error error => (.error error, station)
  | .ok datagram =>
      -- Emptying a full window may free the very number that is asked for.
      let station := station.makeRoom
      match station.line.dispatcher.register sequence station.window.inbox with
      | .error error => (.error error, station)
      | .ok dispatcher =>
          let station := { station with line := { station.line with dispatcher } }
          match station.transmit datagram with
          | (some error, station) =>
              (.error error,
                { station with
                  line :=
                    { station.line with
                      dispatcher := station.line.dispatcher.unregister sequence } })
          | (none, station) =>
              let entry : Outstanding :=
                { request, datagram, remaining := station.window.config.budget - 1, handler }
              let station := station.count fun counters =>
                { counters with requests := counters.requests + 1 }
              (.ok (),
                { station with
                  window :=
                    { station.window with
                      outstanding := station.window.outstanding.insert sequence entry } })

end Station

end MeshControl.Link
