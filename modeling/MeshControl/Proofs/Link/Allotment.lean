import MeshControl.Proofs.Link.Company
import MeshControl.Proofs.Link.Completion
import MeshControl.Proofs.Link.Numbering

/-! The sequence number of a new request. It is free when it is chosen, and still free when the
request goes out under it: nobody waits for it on the same connection, and the process that sends
waits for it on none. A number that a sender asks for and that is taken is refused; a sender that
asks for none gets the first that is free.
-/

namespace MeshControl.Link

open Scp

variable {ρ : Type}

-----------------------------------------------------------------------------------------
-- Requests that go out at once
-----------------------------------------------------------------------------------------

/-- The way a request ends at once, if its connection refuses it. -/
def resultOf (refusal : Option Error) : Except Error Unit :=
  refusal.elim (.ok ()) .error

/-- A request under a number that is not registered goes out once room was made, unless the
connection is closed.
-/
theorem Station.send_of_free [Responder ρ] {station after : Station ρ} {request : Request}
    {sequence : UInt16} {handler : Handler} {result : Except Error Unit}
    (valid : request.validate = .ok ()) (anchored : station.Anchored)
    (free : station.line.dispatcher.isRegistered sequence = false)
    (done : station.send request sequence handler = (result, after))
    : ∃ refusal,
        result = resultOf refusal
        ∧ (refusal = some .closed ∧ after.journal = station.makeRoom.journal
          ∨ after.journal
            = station.makeRoom.journal.push
                (.transmitted station.makeRoom.line.connection.number
                  ((request.numbered sequence).datagram station.window.config.tag) refusal)) := by
  have ending := send_sending station request sequence handler
  rw [done] at ending
  cases ending with
  | malformed invalid =>
      rw [valid] at invalid
      cases invalid
  | taken _ used =>
      have released := (makeRoom_path station).releases
      have unwaited : station.window.isOutstanding sequence = false := by
        by_contra waits
        have led := anchored sequence (by simpa using waits)
        rw [free_of_isRegistered free] at led
        cases led
      have unwaited_still : station.makeRoom.window.isOutstanding sequence = false := by
        by_contra waits
        exact absurd (released.waited sequence (by simpa using waits)) (by simp [unwaited])
      have unrouted := released.kept sequence (unwaited_still.trans unwaited.symm)
      rw [free_of_isRegistered free] at unrouted
      rw [Dispatcher.isRegistered, Table.contains, unrouted] at used
      cases used
  | @refused error _ _ _ tried =>
      have written := journal_of_transmit tried
      exact ⟨some error, rfl, written⟩
  | @sent _ _ _ tried =>
      have written := journal_of_transmit tried
      exact ⟨none, rfl, written⟩

namespace Company

variable {company : Company ρ} {name number : Nat} {partner : Partner} {line : Line ρ}
  {request : Request} {sequence : UInt16}

/-- A partner has a request to send, and a connection to send it on. -/
structure Offers (company : Company ρ) (name : Nat) (request : Request) (partner : Partner)
    (number : Nat) (line : Line ρ) : Prop where
  member : company.partners.get? name = some partner
  unfinished : partner.process.finished = false
  valid : request.validate = .ok ()
  choice : (partner.selector.select request.header.destination).1.number = number
  line : company.lines[number]? = some line

/-- The numbers that a process finds taken are those that somebody waits for on the connection, or
the process itself on any.
-/
theorem Coherent.isTaken_iff (coherent : company.Coherent)
    (member : company.partners.get? name = some partner)
    (found : company.lines[number]? = some line) (sequence : UInt16)
    : partner.process.isTaken line sequence = true ↔ company.Taken name number sequence := by
  rw [Process.isTaken, Bool.or_eq_true, Process.isOutstanding_iff,
    coherent.isRegistered_iff found, or_comm, Taken]
  refine or_congr_right ⟨?_, ?_⟩
  · rintro ⟨elsewhere, held⟩
    exact ⟨elsewhere, partner, member, held⟩
  · rintro ⟨elsewhere, other, known, held⟩
    obtain rfl := Option.some.inj (member.symm.trans known)
    exact ⟨elsewhere, held⟩

-----------------------------------------------------------------------------------------
-- The moment of transmission
-----------------------------------------------------------------------------------------

variable [Responder ρ]

/-- The company at the moment at which a partner has made room for one more request on a
connection.
-/
def prepared (company : Company ρ) (name number : Nat) : Company ρ :=
  match company.partners.get? name, company.lines[number]? with
  | some partner, some line =>
      let (window, line, process) := partner.process.engage number line
      let room := Station.makeRoom { line, window, journal := company.journal }
      let windows := process.windows.insert number room.window
      { company with
        lines := company.lines.set number room.line
        partners :=
          company.partners.insert name { partner with process := { process with windows } }
        journal := room.journal }
  | _, _ => company

/-- While room is made, requests only end. -/
theorem Waits.of_prepared {other elsewhere : Nat}
    (waits : (company.prepared name number).Waits other elsewhere sequence)
    : company.Waits other elsewhere sequence := by
  unfold prepared at waits
  split at waits
  · next partner line member found =>
      generalize ready : partner.process.engage number line = engagement at waits
      obtain ⟨window, engaged, later⟩ := engagement
      obtain ⟨listed, known, held⟩ := waits
      dsimp only at known
      rw [Table.get?_insert] at known
      split at known
      · next same =>
          cases known
          subst same
          refine ⟨partner, member, ?_⟩
          obtain ⟨holds, here, _⟩ := Process.holds_of_engage ready
          rw [Process.holds_insert rfl] at held
          rw [← holds]
          split at held
          · next same =>
              subst same
              rw [here]
              exact (Station.makeRoom_path _).releases.waited sequence held
          · exact held
      · exact ⟨listed, known, held⟩
  · exact waits

theorem Taken.of_prepared (taken : (company.prepared name number).Taken name number sequence)
    : company.Taken name number sequence := by
  rcases taken with ⟨other, waits⟩ | ⟨elsewhere, waits⟩
  · exact .inl ⟨other, waits.of_prepared⟩
  · exact .inr ⟨elsewhere, waits.of_prepared⟩

/-- A request goes out under a number that is not taken, neither when it is chosen nor when room was
made for the request; unless the connection is closed, the request is what is transmitted then.
-/
structure GoesOut (company : Company ρ) (name number : Nat) (partner : Partner)
    (request : Request) (sequence : UInt16) (outcome : Except Halt Unit × Company ρ) : Prop where
  free : ¬ company.Taken name number sequence
  free_still : ¬ (company.prepared name number).Taken name number sequence
  transmitted
    : ∃ line refusal,
        (company.prepared name number).lines[number]? = some line
        ∧ outcome.1 = (resultOf refusal).mapError .failed
        ∧ (refusal = some .closed
            ∧ outcome.2.journal = (company.prepared name number).journal
          ∨ outcome.2.journal
            = (company.prepared name number).journal.push
                (.transmitted line.connection.number
                  ((request.numbered sequence).datagram partner.process.config.tag) refusal))

variable {handler : Handler}

/-- A request whose number is refused is not sent. -/
theorem Offers.refused (offers : company.Offers name request partner number line)
    {halt : Halt}
    (refused
      : partner.process.assign line request.sequence (company.generators partner.generator)
        = .error halt)
    : (company.send name request handler).1 = .error halt
      ∧ (company.send name request handler).2.journal = company.journal := by
  obtain ⟨member, unfinished, valid, choice, found⟩ := offers
  generalize ready : partner.process.engage number line = engagement
  obtain ⟨window, engaged, later⟩ := engagement
  rw [← Process.assign_of_engage ready] at refused
  simp only [send, member, Process.send, unfinished, Bool.false_eq_true, if_false, valid, hubOf,
    choice, Hub.line?, found, Hub.setLine, ready, refused]
  exact ⟨trivial, rfl⟩

/-- A request that got a number is sent under it. -/
theorem Offers.sent (offers : company.Offers name request partner number line) (handler : Handler)
    {sequences : SequenceGenerator} {window : Window} {engaged : Line ρ} {later : Process}
    (ready : partner.process.engage number line = (window, engaged, later))
    (assigned
      : partner.process.assign line request.sequence (company.generators partner.generator)
        = .ok (sequence, sequences))
    : let outcome := Station.send { line := engaged, window, journal := company.journal } request
        sequence handler
      (company.send name request handler).1 = outcome.1.mapError .failed
      ∧ (company.send name request handler).2.journal = outcome.2.journal
      ∧ (company.send name request handler).2.generators partner.generator = sequences := by
  obtain ⟨member, unfinished, valid, choice, found⟩ := offers
  rw [← Process.assign_of_engage ready] at assigned
  simp only [send, member, Process.send, unfinished, Bool.false_eq_true, if_false, valid, hubOf,
    choice, Hub.line?, found, Hub.setLine, ready, assigned]
  exact ⟨trivial, rfl, if_pos rfl⟩

/-- A request that got a number that is not taken goes out under it. -/
theorem Offers.goesOut (offers : company.Offers name request partner number line)
    (coherent : company.Coherent) {sequences : SequenceGenerator}
    (assigned
      : partner.process.assign line request.sequence (company.generators partner.generator)
        = .ok (sequence, sequences))
    (free : ¬ company.Taken name number sequence)
    : (company.send name request handler).2.generators partner.generator = sequences
      ∧ company.GoesOut name number partner request sequence
          (company.send name request handler) := by
  generalize ready : partner.process.engage number line = engagement
  obtain ⟨window, engaged, later⟩ := engagement
  obtain ⟨result, journal, generators⟩ := offers.sent handler ready assigned
  refine ⟨generators, free, fun taken => free taken.of_prepared, ?_⟩
  let station : Station ρ := { line := engaged, window, journal := company.journal }
  generalize done : station.send request sequence handler = outcome at result journal
  obtain ⟨outcome, after⟩ := outcome
  have seated : partner.process.Seated (company.hubOf partner).dispatchers :=
    coherent.seated offers.member
  have found : (company.hubOf partner).line? number = some line := offers.line
  have engagement := Process.engage_engagement seated found ready
  obtain ⟨dispatcher, listed, serves⟩ := engagement.seated number window engagement.held
  obtain rfl : engaged.dispatcher = dispatcher := by
    have within := (List.getElem?_eq_some_iff.mp
      (Process.dispatchers_of_line found)).1
    rw [List.getElem?_set_self within] at listed
    exact Option.some.inj listed
  have unregistered : engaged.dispatcher.isRegistered sequence = false := by
    have untaken : partner.process.isTaken line sequence = false := by
      simpa using mt (coherent.isTaken_iff offers.member offers.line sequence).mp free
    rw [← Process.isTaken_of_engage ready, Process.isTaken, Bool.or_eq_false_iff] at untaken
    exact untaken.2
  have anchored : station.Anchored := serves.anchored
  obtain ⟨refusal, ended, transmitted⟩ :=
    Station.send_of_free offers.valid anchored unregistered done
  have room : company.prepared name number
      = { company with
          lines := company.lines.set number station.makeRoom.line
          partners := company.partners.insert name
            { partner with
              process :=
                { later with
                  windows := later.windows.insert number station.makeRoom.window } }
          journal := station.makeRoom.journal } := by
    simp only [prepared, offers.member, offers.line, ready, station]
  rw [room]
  have within := (List.getElem?_eq_some_iff.mp offers.line).1
  have tag : window.config.tag = partner.process.config.tag := by
    rw [serves.config, engagement.config]
  refine ⟨station.makeRoom.line, refusal, List.getElem?_set_self within, ended ▸ result, ?_⟩
  rw [journal, ← tag]
  exact transmitted

-----------------------------------------------------------------------------------------
-- The number of a request
-----------------------------------------------------------------------------------------

omit [Responder ρ] in
/-- Where the sender asks for no number, the one that a search without a bound finds is given. -/
theorem Coherent.assign_drawn (coherent : company.Coherent)
    (offers : company.Offers name request partner number line)
    (unnumbered : request.sequence = none) {draws : Nat} {later : SequenceGenerator}
    (drawn
      : Draws (company.Taken name number) (company.generators partner.generator) draws sequence
          later)
    : partner.process.assign line request.sequence (company.generators partner.generator)
      = .ok (sequence, later) := by
  have found := nextFree_of_draws (coherent.isTaken_iff offers.member offers.line) drawn
    drawn.le_count
  simp only [unnumbered, Process.assign, found, Option.elim_some]

omit [Responder ρ] in
/-- While every number is taken there is none to give. -/
theorem Coherent.assign_none (coherent : company.Coherent)
    (offers : company.Offers name request partner number line)
    (unnumbered : request.sequence = none) (all : ∀ sequence, company.Taken name number sequence)
    : partner.process.assign line request.sequence (company.generators partner.generator)
      = .error .endless := by
  have nothing := nextFree_of_taken
    (fun sequence => (coherent.isTaken_iff offers.member offers.line sequence).mpr (all sequence))
    sequenceCount (company.generators partner.generator)
  simp only [unnumbered, Process.assign, nothing, Option.elim_none]

/-- How the number of a request is found. One that was asked for and is taken is refused, and
nothing is transmitted. Where none was asked for the search for one, as it is made without a bound,
ends exactly if some number is not taken, and the number is the one that it finds; the call does not
end if the search does not. In all other cases the request goes out under its number.
-/
structure Allots (company : Company ρ) (name number : Nat) (partner : Partner) (request : Request)
    (outcome : Except Halt Unit × Company ρ) : Prop where
  taken
    : ∀ sequence,
        request.sequence = some sequence
        → company.Taken name number sequence
        → outcome.1
            = .error
                (.failed
                  (.invalidParameter "sequence" (toString sequence)
                    "아직 응답을 기다리는 시퀀스"))
          ∧ outcome.2.journal = company.journal
  wanted
    : ∀ sequence,
        request.sequence = some sequence
        → ¬ company.Taken name number sequence
        → company.GoesOut name number partner request sequence outcome
  ends
    : request.sequence = none
      → ((∃ draws sequence later,
          Draws (company.Taken name number) (company.generators partner.generator) draws sequence
            later)
        ↔ ∃ sequence, ¬ company.Taken name number sequence)
  endless
    : request.sequence = none
      → (∀ sequence, company.Taken name number sequence)
      → outcome.1 = .error .endless ∧ outcome.2.journal = company.journal
  drawn
    : ∀ {draws sequence later},
        request.sequence = none
        → Draws (company.Taken name number) (company.generators partner.generator) draws sequence
            later
        → draws ≤ sequenceCount
          ∧ outcome.2.generators partner.generator = later
          ∧ company.GoesOut name number partner request sequence outcome

theorem Offers.allots (offers : company.Offers name request partner number line)
    (coherent : company.Coherent) (handler : Handler)
    : company.Allots name number partner request (company.send name request handler) := by
  have taken_iff := coherent.isTaken_iff offers.member offers.line
  refine ⟨fun sequence wanted taken => ?_, fun sequence wanted free => ?_,
    fun _ => exists_draws_iff _,
    fun unnumbered all => offers.refused (coherent.assign_none offers unnumbered all),
    fun unnumbered drawn => ⟨drawn.le_count, ?_⟩⟩
  · refine offers.refused ?_
    rw [wanted, Process.assign, if_pos ((taken_iff sequence).mpr taken)]
  · have assigned : partner.process.assign line request.sequence
        (company.generators partner.generator)
        = .ok (sequence, company.generators partner.generator) := by
      rw [wanted, Process.assign, if_neg (mt (taken_iff sequence).mp free)]
    exact (offers.goesOut coherent assigned free).2
  · exact offers.goesOut coherent (coherent.assign_drawn offers unnumbered drawn) drawn.not_taken

/-- Processes share the dispatchers of their connections; each draws numbers from a generator that
it may share, and chooses connections as it likes. After any history of theirs, a process that is
not finished sends a request that may go out. The number under which the request goes out is taken
neither before nor at the moment at which room was made for it: nobody waits for it on the
connection, nor does the process itself on any other. A number that was asked for and is taken is
refused; where none was asked for the first one that is not taken is found, in no more draws than
there are numbers. A process that is finished transmits nothing, and a request that is malformed
is refused before a number is drawn for it.
Witness: coherence of the company, kept by every operation.
-/
theorem numbers_never_shared (connections : List (Connection ρ))
    (generators : Nat → SequenceGenerator) (operations : List Operation) (name : Nat)
    (request : Request) (handler : Handler)
    : let company := (founded connections generators).run operations
      let outcome := company.send name request handler
      (∀ {partner number line},
        company.Offers name request partner number line
        → company.Allots name number partner request outcome)
      ∧ (∀ {partner},
        company.partners.get? name = some partner
        → partner.process.finished = true
        → outcome.1 = .error (.failed .closed) ∧ outcome.2.journal = company.journal)
      ∧ ∀ {partner error},
        company.partners.get? name = some partner
        → partner.process.finished = false
        → request.validate = .error error
        → outcome.1 = .error (.failed error)
          ∧ outcome.2.journal = company.journal
          ∧ outcome.2.generators partner.generator = company.generators partner.generator := by
  intro company outcome
  have coherent : company.Coherent := (founded_coherent connections generators).run operations
  refine ⟨fun offers => offers.allots coherent handler, fun member finished => ?_,
    fun member unfinished malformed => ?_⟩
  · simp only [outcome, send, member, Process.send, finished, if_true]
    exact ⟨trivial, rfl⟩
  · simp only [outcome, send, member, Process.send, unfinished, Bool.false_eq_true, if_false,
      malformed]
    exact ⟨trivial, rfl, if_pos rfl⟩

/-- Two processes on a connection whose peer is silent, each with a generator of its own. The first
waits for an answer under the number 0.
-/
def waitingPair : Company Transcript :=
  (founded [silentConnection] fun _ => {}).run
    [.join {} (.fixed ⟨0, .origin⟩) 0, .join {} (.fixed ⟨0, .origin⟩) 1,
      .send 0 (Operation.getVersion .origin 0) {}]

/-- The second process draws 0, for which the first one waits, and then sends under 1. -/
theorem numbers_never_shared_waitingPair
    : let request := Operation.getVersion .origin 0
      let second : Partner :=
        { process := { config := {} }, selector := .fixed ⟨0, .origin⟩, generator := 1 }
      Draws (waitingPair.Taken 1 0) {} 2 1 ⟨2⟩
      ∧ waitingPair.GoesOut 1 0 second request 1 (waitingPair.send 1 request {}) := by
  intro request second
  have offers : waitingPair.Offers 1 request second 0 _ := ⟨rfl, rfl, rfl, rfl, rfl⟩
  have coherent : waitingPair.Coherent := (founded_coherent _ _).run _
  have used : waitingPair.Taken 1 0 0 := .inl ⟨0, _, rfl, rfl⟩
  have free : ¬ waitingPair.Taken 1 0 1 :=
    mt (coherent.isTaken_iff offers.member offers.line 1).mpr (by decide)
  have drawn : Draws (waitingPair.Taken 1 0) {} 2 1 ⟨2⟩ := .again used (.free free)
  obtain ⟨allots, _⟩ := numbers_never_shared [silentConnection] (fun _ => {})
    [.join {} (.fixed ⟨0, .origin⟩) 0, .join {} (.fixed ⟨0, .origin⟩) 1,
      .send 0 (Operation.getVersion .origin 0) {}] 1 request {}
  exact ⟨drawn, ((allots offers).drawn rfl drawn).2.2⟩

/-- A process that has finished does not look at the number that it is asked to send under: the
first process waits for it, but the second is found to be closed.
-/
theorem closed_before_taken
    : let company := (waitingPair.finish 1).2
      company.Taken 1 0 0
      ∧ (company.send 1 ((Operation.getVersion .origin 0).numbered 0) {}).1
        = .error (.failed .closed) :=
  ⟨.inl ⟨0, _, rfl, rfl⟩, rfl⟩

end Company

end MeshControl.Link
