import Mathlib.Data.List.Permutation
import MeshControl.Link.Transcript
import MeshControl.Operation.Version
import MeshControl.Proofs.Link.Chronicle
import MeshControl.Proofs.Scp.Codec

/-! Why requests fail. Each failure has a fault behind it: an answer that the request does not
take, one that cannot be read, too many repetitions, a connection that failed, or a sender who
found fault with the answer. What a failure says of an answer is what stood in a datagram that was
received, with one exception: an answer whose header cannot be read is reported as if its result
code were unknown, whatever the code is.
-/

namespace MeshControl.Scp.Response

open Sdp

/-- An answer whose numbers can be told is read if its header can be and its code is known. -/
theorem decode_of_peek {bytes : Datagram} {code sequence : UInt16}
    (peeked : peek bytes = .ok (code, sequence))
    : decode bytes
      = match Header.decode (bytes.drop padding), ResultCode.ofCode? code with
        | .error error, _ => .error error
        | .ok _, none =>
            .error (.invalidPacket "SCP response"
              ("알 수 없는 결과 코드 " ++ Text.marked 1 code.toNat))
        | .ok header, some result =>
            .ok { header, result, sequence, payload := bytes.drop payloadOffset } := by
  simp only [decode, peeked, bind, Except.bind]
  cases Header.decode (bytes.drop padding) with
  | error => rfl
  | ok header => cases ResultCode.ofCode? code <;> rfl

/-- An answer that is read has a header that can be read. -/
theorem header_of_decode {bytes : Datagram} {response : Response}
    (read : decode bytes = .ok response)
    : ∃ header, Header.decode (bytes.drop padding) = .ok header := by
  rw [decode_of_peek (peek_of_decode read)] at read
  cases readable : Header.decode (bytes.drop padding) with
  | ok header => exact ⟨header, rfl⟩
  | error fault =>
      rw [readable] at read
      cases read

/-- An answer that cannot be read although its header can be has an unknown code. -/
theorem unknown_of_unreadable {bytes : Datagram} {code sequence : UInt16} {error : Error}
    {header : Header} (peeked : peek bytes = .ok (code, sequence))
    (unreadable : decode bytes = .error error)
    (readable : Header.decode (bytes.drop padding) = .ok header)
    : ResultCode.ofCode? code = none := by
  rw [decode_of_peek peeked, readable] at unreadable
  cases meaning : ResultCode.ofCode? code with
  | none => rfl
  | some result =>
      rw [meaning] at unreadable
      cases unreadable

end MeshControl.Scp.Response

namespace MeshControl.Link

open Scp Sdp

-----------------------------------------------------------------------------------------
-- Faults
-----------------------------------------------------------------------------------------

/-- Why a request that was promised has failed with an error, judging by the results of the waits
and by what was written down.
-/
inductive Fault (promise : Promise) (heard : List (Except Error Datagram)) (events : List Event)
    : Error → Prop
  | declined {datagram : Datagram} {response : Response} (arrived : .ok datagram ∈ heard)
    (read : Response.decode datagram = .ok response)
    (own : promise.request.sequence = some response.sequence)
    (refused : promise.request.accepts response.result = false)
    : Fault promise heard events
        (unexpected promise.request response.result.code (some response.result))
  | crowded {datagram : Datagram} {response : Response} (arrived : .ok datagram ∈ heard)
    (read : Response.decode datagram = .ok response)
    (own : promise.request.sequence = some response.sequence)
    (full : response.result = .noBuffer)
    : Fault promise heard events
        (.allocationFailure s!"{promise.request.operation} ({promise.request.command.name})")
  | unread {datagram : Datagram} {code sequence : UInt16} {error : Error}
    (arrived : .ok datagram ∈ heard) (unreadable : Response.decode datagram = .error error)
    (peeked : Response.peek datagram = .ok (code, sequence))
    (own : promise.request.sequence = some sequence)
    : Fault promise heard events (unexpected promise.request code none)
  | exhausted (config : Config) {entry : Outstanding} (same : entry.request = promise.request)
    : Fault promise heard events (exhausted config entry)
  | closed : Fault promise heard events .closed
  | refused {connection : Nat} {datagram : Datagram} {error : Error}
    (tried : .transmitted connection datagram (some error) ∈ events)
    : Fault promise heard events error
  | severed {error : Error} (arrived : .error error ∈ heard) : Fault promise heard events error
  | rejected {response : Response} {error : Error}
    (told : .accepted promise.request response promise.handler.audience ∈ events)
    (verdict : promise.handler.check response = .error error)
    : Fault promise heard events error

/-- A fault is still one when more was heard and written down. -/
theorem Fault.mono {promise : Promise} {heard more : List (Except Error Datagram)}
    {events others : List Event} {error : Error} (fault : Fault promise heard events error)
    (hears : heard ⊆ more) (tells : events ⊆ others)
    : Fault promise more others error := by
  cases fault with
  | declined arrived read own refused => exact .declined (hears arrived) read own refused
  | crowded arrived read own full => exact .crowded (hears arrived) read own full
  | unread arrived unreadable peeked own => exact .unread (hears arrived) unreadable peeked own
  | exhausted config same => exact .exhausted config same
  | closed => exact .closed
  | refused tried => exact .refused (tells tried)
  | severed arrived => exact .severed (hears arrived)
  | rejected told verdict => exact .rejected (tells told) verdict

namespace Station

variable {ρ : Type} {mine : Promise → Prop} {heard : List (Except Error Datagram)}

/-- From one station to a later one, each request that failed was one of these, and a fault was
behind it.
-/
def Faults (mine : Promise → Prop) (heard : List (Except Error Datagram))
    (before after : Station ρ) : Prop :=
  ∃ events,
    after.journal.toList = before.journal.toList ++ events
    ∧ ∀ request error audience,
        .failed request error audience ∈ events
        → ∃ promise,
            mine promise
            ∧ promise.request = request
            ∧ promise.handler.audience = audience
            ∧ Fault promise heard events error

theorem Faults.of_journal {before after : Station ρ} (events : List Event)
    (written : after.journal.toList = before.journal.toList ++ events)
    (quiet : ∀ request error audience, .failed request error audience ∉ events)
    : Faults mine heard before after :=
  ⟨events, written, fun request error audience member =>
    absurd member (quiet request error audience)⟩

theorem Faults.of_same {before after : Station ρ} (same : after.journal = before.journal)
    : Faults mine heard before after :=
  .of_journal [] (by rw [same, List.append_nil]) (by simp)

theorem Faults.trans {before middle after : Station ρ} (first : Faults mine heard before middle)
    (second : Faults mine heard middle after)
    : Faults mine heard before after := by
  obtain ⟨early, written, blamed⟩ := first
  obtain ⟨late, later, also_blamed⟩ := second
  refine ⟨early ++ late, by rw [later, written, List.append_assoc], ?_⟩
  intro request error audience member
  rcases List.mem_append.mp member with one | other
  · obtain ⟨promise, ours, same, told, fault⟩ := blamed request error audience one
    exact ⟨promise, ours, same, told,
      fault.mono (List.Subset.refl _) (List.subset_append_left _ _)⟩
  · obtain ⟨promise, ours, same, told, fault⟩ := also_blamed request error audience other
    exact ⟨promise, ours, same, told,
      fault.mono (List.Subset.refl _) (List.subset_append_right _ _)⟩

/-- Hearing more explains no less. -/
theorem Faults.mono {before after : Station ρ} {more : List (Except Error Datagram)}
    (faults : Faults mine heard before after) (hears : heard ⊆ more)
    : Faults mine more before after := by
  obtain ⟨events, written, blamed⟩ := faults
  refine ⟨events, written, fun request error audience member => ?_⟩
  obtain ⟨promise, ours, same, told, fault⟩ := blamed request error audience member
  exact ⟨promise, ours, same, told, fault.mono hears (List.Subset.refl _)⟩

/-- A sound window all of whose requests are of one kind. -/
structure Holds (mine : Promise → Prop) (window : Window) : Prop where
  sound : window.Sound
  ours : ∀ promise ∈ window.promises, mine promise

theorem Holds.waiting {window : Window} (holds : Holds mine window) {sequence : UInt16}
    {entry : Outstanding} (waits : window.outstanding.get? sequence = some entry)
    : mine entry.promise :=
  holds.ours entry.promise (mem_promises waits)

-----------------------------------------------------------------------------------------
-- The fault behind each failure of a wait
-----------------------------------------------------------------------------------------

/-- A request that fails after some events has the fault that it fails with. -/
theorem fail_faults_after {before station : Station ρ} {sequence : UInt16} {error : Error}
    (events : List Event)
    (written : station.journal.toList = before.journal.toList ++ events)
    (quiet : ∀ request error audience, .failed request error audience ∉ events)
    (faulty
      : ∀ entry,
          station.window.outstanding.get? sequence = some entry
          → mine entry.promise ∧ Fault entry.promise heard events error)
    : Faults mine heard before (station.fail sequence error) := by
  cases waits : station.window.outstanding.get? sequence with
  | none =>
      rw [fail_of_absent waits]
      exact .of_journal events written quiet
  | some entry =>
      obtain ⟨ours, fault⟩ := faulty entry waits
      refine ⟨events ++ [.failed entry.request error entry.handler.audience], ?_, ?_⟩
      · simp [fail, waits, report, log, release, written]
      · intro request other audience member
        rcases List.mem_append.mp member with early | last
        · exact absurd early (quiet request other audience)
        · cases List.mem_singleton.mp last
          exact ⟨entry.promise, ours, rfl, rfl,
            fault.mono (List.Subset.refl _) (List.subset_append_left _ _)⟩

theorem fail_faults {station : Station ρ} {sequence : UInt16} {error : Error}
    (faulty
      : ∀ entry,
          station.window.outstanding.get? sequence = some entry
          → mine entry.promise ∧ Fault entry.promise heard [] error)
    : Faults mine heard station (station.fail sequence error) :=
  fail_faults_after [] (List.append_nil _).symm (by simp) faulty

/-- An answer that is taken fails its request only if the sender finds fault with it. -/
theorem accept_faults {station : Station ρ} {entry : Outstanding} {response : Response}
    (ours : mine entry.promise)
    : Faults mine heard station (station.accept entry response) := by
  cases verdict : entry.handler.check response with
  | ok =>
      refine .of_journal [.accepted entry.request response entry.handler.audience] ?_ (by simp)
      simp [accept, verdict, log, count, release]
  | error fault =>
      refine ⟨[.accepted entry.request response entry.handler.audience,
        .failed entry.request fault entry.handler.audience], ?_, ?_⟩
      · simp [accept, verdict, log, count, release, report]
      · intro request error audience member
        have last : (.failed request error audience : Event)
            = .failed entry.request fault entry.handler.audience := by simpa using member
        cases last
        exact ⟨entry.promise, ours, rfl, rfl, .rejected List.mem_cons_self verdict⟩

/-- An answer that cannot be read fails the request with its number, if that can be told. -/
theorem handleUnreadable_faults {station : Station ρ} (holds : Holds mine station.window)
    {datagram : Datagram} {error : Error} (arrived : .ok datagram ∈ heard)
    (unreadable : Response.decode datagram = .error error)
    : Faults mine heard station (station.handleUnreadable datagram) := by
  unfold handleUnreadable
  split
  · exact .of_same rfl
  · next code sequence peeked =>
      cases waits : station.window.outstanding.get? sequence with
      | none => exact .of_same rfl
      | some entry =>
          refine fail_faults fun other found => ?_
          obtain rfl := Option.some.inj (waits.symm.trans found)
          exact ⟨holds.waiting waits,
            .unread arrived unreadable peeked (holds.sound.keyed waits)⟩

variable [Responder ρ]

/-- Moves keep a window sound, and take no request on. -/
theorem Holds.path {before after : Station ρ} (holds : Holds mine before.window)
    (path : Path before after)
    : Holds mine after.window := by
  obtain ⟨sound, _, _, settles⟩ := path.settles holds.sound
  exact ⟨sound, fun promise waits => holds.ours promise (settles.subset waits)⟩

/-- A repetition fails its request if it was one too many, or if the connection refuses it. -/
theorem resend_faults {station : Station ρ} (holds : Holds mine station.window)
    (sequence : UInt16) (reason : Reason)
    : Faults mine heard station (station.resend sequence reason) := by
  unfold resend
  cases waits : station.window.outstanding.get? sequence with
  | none => exact .of_same rfl
  | some entry =>
      have ours : mine entry.promise := holds.waiting waits
      dsimp only
      split
      · refine fail_faults fun other found => ?_
        obtain rfl := Option.some.inj (waits.symm.trans found)
        exact ⟨ours, .exhausted _ rfl⟩
      · next remaining left =>
          generalize sent
            : ((station.renew sequence entry remaining reason).transmit entry.datagram) = outcome
          obtain ⟨refusal, after⟩ := outcome
          obtain ⟨tried, written, own, ending⟩ := written_of_transmit sent
          have quiet : ∀ request error audience, .failed request error audience ∉ tried := by
            intro request error audience member
            cases own _ member
          have renewed := waits_of_renew sent
          simp only [Station.renew, Outstanding.repeated] at sent
          rw [sent]
          cases refusal with
          | none => exact .of_journal tried written quiet
          | some error =>
              refine fail_faults_after tried written quiet fun other found => ?_
              obtain rfl := Option.some.inj (renewed.symm.trans found)
              refine ⟨ours, ?_⟩
              rcases ending with closed | written_down
              · cases closed
                exact .closed
              · exact .refused written_down

/-- One action for each of some requests, by induction on them. -/
theorem foldl_faults {act : Station ρ → UInt16 → Station ρ}
    (act_path : ∀ station sequence, Path station (act station sequence))
    (act_faults
      : ∀ station sequence,
          Holds mine station.window → Faults mine heard station (act station sequence))
    (sequences : List UInt16) {station : Station ρ} (holds : Holds mine station.window)
    : Faults mine heard station (sequences.foldl act station) := by
  induction sequences generalizing station with
  | nil => exact .of_same rfl
  | cons sequence rest ih =>
      have holds_still := holds.path (act_path station sequence)
      exact (act_faults station sequence holds).trans (ih holds_still)

/-- An answer that can be read fails its request only if the request does not take it, or its
sender finds fault with it; by the branches of its handling.
-/
theorem handleResponse_faults {station : Station ρ} (holds : Holds mine station.window)
    {datagram : Datagram} {response : Response} (arrived : .ok datagram ∈ heard)
    (read : Response.decode datagram = .ok response)
    : Faults mine heard station (station.handleResponse response) := by
  unfold handleResponse
  cases waits : station.window.outstanding.get? response.sequence with
  | none => exact .of_same rfl
  | some entry =>
      have ours : mine entry.promise := holds.waiting waits
      have own : entry.promise.request.sequence = some response.sequence :=
        holds.sound.keyed waits
      have same {other : Outstanding}
          (found : station.window.outstanding.get? response.sequence = some other)
          : entry = other :=
        Option.some.inj (waits.symm.trans found)
      dsimp only
      split
      · exact accept_faults ours
      · next refused =>
          have unaccepted : entry.promise.request.accepts response.result = false :=
            Bool.not_eq_true _ ▸ refused
          split
          · exact resend_faults holds _ _
          · split
            · next full =>
                refine fail_faults fun other found => ?_
                obtain rfl := same found
                exact ⟨ours, .crowded arrived read own full⟩
            · refine fail_faults fun other found => ?_
              obtain rfl := same found
              exact ⟨ours, .declined arrived read own unaccepted⟩

theorem handleDatagram_faults {station : Station ρ} (holds : Holds mine station.window)
    {datagram : Datagram} (arrived : .ok datagram ∈ heard)
    : Faults mine heard station (station.handleDatagram datagram) := by
  unfold handleDatagram
  split
  · next response read => exact handleResponse_faults holds arrived read
  · next error unreadable => exact handleUnreadable_faults holds arrived unreadable

/-- A wait in vain fails requests only by their repetitions. -/
theorem handleSilence_faults {station : Station ρ} (holds : Holds mine station.window)
    : Faults mine heard station station.handleSilence := by
  have counted : Holds mine (station.count fun counters =>
      { counters with timeouts := counters.timeouts + 1 }).window :=
    holds.path (.single (.lapse station))
  have lapsed : Faults mine heard station (station.count fun counters =>
      { counters with timeouts := counters.timeouts + 1 }) := .of_same rfl
  exact lapsed.trans (foldl_faults (fun station sequence => resend_path station sequence .silence)
    (fun station sequence holds => resend_faults holds sequence .silence) _ counted)

/-- A failed connection fails every request with its own error. -/
theorem handleFailure_faults {station : Station ρ} (holds : Holds mine station.window)
    {error : Error} (arrived : .error error ∈ heard)
    : Faults mine heard station (station.handleFailure error) := by
  refine foldl_faults (fun station sequence => fail_path station sequence error)
    (fun station sequence holds => ?_) _ holds
  exact fail_faults fun entry waits => ⟨holds.waiting waits, .severed arrived⟩

/-- What one wait of a window results in. -/
def hearsNext (station : Station ρ) : Except Error Datagram :=
  (station.line.await station.window.inbox station.window.config.timeout).1

/-- One wait fails requests only by what it results in. -/
theorem step_faults {station : Station ρ} (holds : Holds mine station.window)
    : Faults mine [station.hearsNext] station station.step := by
  unfold step
  split
  · next datagram line waited =>
      have arrived : .ok datagram ∈ [station.hearsNext] := by simp [hearsNext, waited]
      have heard : Faults mine [station.hearsNext] station { station with line } := .of_same rfl
      have holds_still := holds.path (.single (.hear waited))
      exact heard.trans (handleDatagram_faults holds_still arrived)
  · next error line waited =>
      have arrived : .error error ∈ [station.hearsNext] := by simp [hearsNext, waited]
      have heard : Faults mine [station.hearsNext] station { station with line } := .of_same rfl
      have holds_still := holds.path (.single (.hear waited))
      split
      · exact heard.trans (handleSilence_faults holds_still)
      · exact heard.trans (handleFailure_faults holds_still arrived)

/-- What the waits of a window result in, until at most so many requests are left. -/
def hearing (limit : Nat) (station : Station ρ) : List (Except Error Datagram) :=
  if station.window.inProgress ≤ limit then []
  else station.hearsNext :: hearing limit station.step
termination_by (station.window.budget, station.unread)
decreasing_by
  rcases @measure_step ρ _ station (by omega) with used | ⟨same, left⟩
  · exact Prod.Lex.left _ _ used
  · rw [same]
    exact Prod.Lex.right _ left

/-- Waiting fails requests only by what it hears, by the recursion of the wait. -/
theorem drain_faults (limit : Nat) {station : Station ρ} (holds : Holds mine station.window)
    : Faults mine (station.hearing limit) station (station.drain limit) := by
  fun_induction drain limit station with
  | case1 station few => exact .of_same rfl
  | case2 station many ih =>
      rw [hearing, if_neg many]
      have rest := ih (holds.path (step_path station))
      have first : Faults mine (station.hearsNext :: station.step.hearing limit) station
          station.step :=
        (step_faults holds).mono (by simp)
      exact first.trans (rest.mono (List.subset_cons_self _ _))

/-- What the waits of a window result in while it makes room for a request that may go out. -/
def hearingInSend (station : Station ρ) (request : Request) : List (Except Error Datagram) :=
  match request.validate with
  | .error _ => []
  | .ok () =>
      if station.window.config.window ≤ station.window.inProgress then
        station.hearing station.window.config.lowWater
      else []

/-- Making room fails older requests only by what it hears. -/
theorem makeRoom_faults {station : Station ρ} (holds : Holds mine station.window)
    {request : Request} (valid : request.validate = .ok ())
    : Faults mine (station.hearingInSend request) station station.makeRoom := by
  simp only [hearingInSend, valid, makeRoom]
  split
  · exact drain_faults _ holds
  · exact .of_same rfl

/-- A request that is offered to the connection fails nothing. -/
theorem offer_faults {room tried last : Station ρ} {sequence : UInt16} {datagram : Datagram}
    {refusal : Option Error}
    (sent : (room.enroll sequence).transmit datagram = (refusal, tried))
    (journal : last.journal = tried.journal)
    : Faults mine heard room last := by
  obtain ⟨offered, written, own, _⟩ := written_of_transmit sent
  refine .of_journal offered (journal ▸ written) fun request error audience member => ?_
  cases own _ member

/-- A send fails older requests only by what it hears, and never its own. -/
theorem send_faults {station : Station ρ} (holds : Holds mine station.window) (request : Request)
    (sequence : UInt16) (handler : Handler)
    : Faults mine (station.hearingInSend request) station
        (station.send request sequence handler).2 := by
  have ending := send_sending station request sequence handler
  generalize station.send request sequence handler = outcome at ending
  cases ending with
  | malformed => exact .of_same rfl
  | taken valid => exact makeRoom_faults holds valid
  | refused valid _ tried => exact (makeRoom_faults holds valid).trans (offer_faults tried rfl)
  | sent valid _ tried => exact (makeRoom_faults holds valid).trans (offer_faults tried rfl)

end Station

namespace Junction

variable {ρ : Type} [Responder ρ]

-----------------------------------------------------------------------------------------
-- The fault behind each failure of a history
-----------------------------------------------------------------------------------------

/-- What the waits of one window result in during an operation. -/
def hears (junction : Junction ρ) (number : Nat) : Operation → List (Except Error Datagram)
  | .send target request _ _ =>
      if target = number then
        match junction.windows.get? number with
        | none => []
        | some window => (junction.station window).hearingInSend request
      else []
  | .finish target =>
      if target = number then
        match junction.windows.get? number with
        | none => []
        | some window => (junction.station window).hearing 0
      else []
  | _ => []

/-- What the waits of one window result in during a history. -/
def heard (number : Nat) : Junction ρ → List Operation → List (Except Error Datagram)
  | _, [] => []
  | junction, operation :: rest =>
      junction.hears number operation ++ heard number (junction.perform operation) rest

/-- Each failure is that of a request that some window took on, and has a fault in what this window
heard.
-/
def Explained (junction : Junction ρ) (taken : Nat → List Promise)
    (heard : Nat → List (Except Error Datagram)) : Prop :=
  ∀ request error audience,
    .failed request error audience ∈ junction.journal.toList
    → ∃ number,
        ∃ promise ∈ taken number,
          promise.request = request
          ∧ promise.handler.audience = audience
          ∧ Fault promise (heard number) junction.journal.toList error

variable {junction : Junction ρ} {taken more : Nat → List Promise}
  {hearsay later : Nat → List (Except Error Datagram)}

omit [Responder ρ] in
/-- Nothing new has failed where nothing was written down. -/
theorem Explained.of_same {after : Junction ρ} (explained : junction.Explained taken hearsay)
    (journal : after.journal = junction.journal)
    (takes : ∀ number, taken number ⊆ more number)
    (hears : ∀ number, hearsay number ⊆ later number)
    : after.Explained more later := by
  intro request error audience member
  rw [journal] at member ⊢
  obtain ⟨number, promise, known, same, told, fault⟩ := explained request error audience member
  exact ⟨number, promise, takes number known, same, told,
    fault.mono (hears number) (List.Subset.refl _)⟩

omit [Responder ρ] in
/-- What one window did is explained by what it heard. -/
theorem Explained.update (explained : junction.Explained taken hearsay) {number : Nat}
    {window : Window} {after : Station ρ} {heard : List (Except Error Datagram)}
    (faults : Station.Faults (· ∈ taken number) heard (junction.station window) after)
    (takes : ∀ number, taken number ⊆ more number)
    (hears : ∀ number, hearsay number ⊆ later number) (own : heard ⊆ later number)
    : (junction.update number after).Explained more later := by
  obtain ⟨events, written, blamed⟩ := faults
  intro request error audience member
  have journal
      : (junction.update number after).journal.toList = junction.journal.toList ++ events :=
    written
  rw [journal] at member ⊢
  rcases List.mem_append.mp member with old | new
  · obtain ⟨owner, promise, known, same, told, fault⟩ := explained request error audience old
    exact ⟨owner, promise, takes owner known, same, told,
      fault.mono (hears owner) (List.subset_append_left _ _)⟩
  · obtain ⟨promise, known, same, told, fault⟩ := blamed request error audience new
    exact ⟨number, promise, takes number known, same, told,
      fault.mono own (List.subset_append_right _ _)⟩

/-- A window of a history holds requests that it took on. -/
theorem Account.holds {window : Window} {settled : List Settlement} {taken : List Promise}
    {handed : List Failure} (account : Account window settled taken handed)
    : Station.Holds (· ∈ taken) window :=
  ⟨account.sound, fun _ waits =>
    account.promises.mem_iff.mpr (List.mem_append_right _ waits)⟩

/-- Every operation is explained by what it hears, by cases on it. -/
theorem Explained.perform {settled : List (Nat × Settlement)} {handed : Nat → List Failure}
    (explained : junction.Explained taken hearsay)
    (chronicle : Chronicle junction settled taken handed) (operation : Operation)
    : (junction.perform operation).Explained
        (fun owner => taken owner ++ junction.accepts owner operation)
        (fun owner => hearsay owner ++ junction.hears owner operation) := by
  have takes (owner : Nat) : taken owner ⊆ taken owner ++ junction.accepts owner operation :=
    List.subset_append_left _ _
  have listens (owner : Nat) : hearsay owner ⊆ hearsay owner ++ junction.hears owner operation :=
    List.subset_append_left _ _
  cases operation with
  | openWindow | arrive => exact explained.of_same rfl takes listens
  | send number request sequence handler =>
      cases found : junction.windows.get? number with
      | none =>
          refine explained.of_same ?_ takes listens
          simp only [Junction.perform, Junction.send, found]
      | some window =>
          have holds : Station.Holds (· ∈ taken number) (junction.station window).window :=
            (chronicle.accounts found).holds
          have faults := Station.send_faults holds request sequence handler
          have heard : (junction.station window).hearingInSend request
              ⊆ hearsay number
                ++ junction.hears number (.send number request sequence handler) := by
            simp [Junction.hears, found]
          have done := explained.update faults takes listens heard
          simpa only [Junction.perform, Junction.send, found] using done
  | finish number =>
      cases found : junction.windows.get? number with
      | none =>
          refine explained.of_same ?_ takes listens
          simp only [Junction.perform, Junction.finish, found]
      | some window =>
          have holds : Station.Holds (· ∈ taken number) (junction.station window).window :=
            (chronicle.accounts found).holds
          have faults := Station.drain_faults 0 holds
          have heard : (junction.station window).hearing 0
              ⊆ hearsay number ++ junction.hears number (.finish number) := by
            simp [Junction.hears, found]
          have done := explained.update faults takes listens heard
          simpa only [Junction.perform, Junction.finish, Station.finish, found] using done
  | takeFailures number =>
      refine explained.of_same ?_ takes listens
      simp only [Junction.perform, Junction.takeFailures]
      split <;> rfl
  | drop number =>
      refine explained.of_same ?_ takes listens
      simp only [Junction.perform, Junction.drop]
      split <;> rfl

/-- So is every history, by induction on its operations. -/
theorem Explained.run {settled : List (Nat × Settlement)} {handed : Nat → List Failure}
    (explained : junction.Explained taken hearsay)
    (chronicle : Chronicle junction settled taken handed) (coherent : junction.Coherent)
    (operations : List Operation)
    : (junction.run operations).Explained
        (fun owner => taken owner ++ accepted owner junction operations)
        (fun owner => hearsay owner ++ heard owner junction operations) := by
  induction operations generalizing junction taken hearsay settled handed with
  | nil =>
      simp only [accepted, heard, List.append_nil]
      exact explained
  | cons operation rest ih =>
      obtain ⟨_, books⟩ := chronicle.perform coherent operation
      have all := ih (explained.perform chronicle operation) books (coherent.perform operation)
      simp only [List.append_assoc] at all
      exact all

/-- A failure that tells of an unexpected response, in any history. Either a window received a
datagram with the request's number whose code is the one that is told. If its header can be read,
the code is told as known exactly if it is, and the request does not accept it; if its header
cannot be read, the code is told as unknown, whatever it is. Or somebody else made the error up: a
wait or a transmission failed with it, or the sender, when it saw the answer.
-/
theorem unexpected_response_explained (connection : Connection ρ) (operations : List Operation)
    {request : Request} {operation command : String} {code : UInt16} {result : Option ResultCode}
    {audience : Audience}
    (failed
      : .failed request (.unexpectedResponseCode operation command code result) audience
        ∈ ((fresh connection).run operations).journal.toList)
    : let journal := ((fresh connection).run operations).journal.toList
      let error := Error.unexpectedResponseCode operation command code result
      ∃ number,
        ∃ promise ∈ accepted number (fresh connection) operations,
          promise.request = request
          ∧ promise.handler.audience = audience
          ∧ ((∃ datagram sequence,
                .ok datagram ∈ heard number (fresh connection) operations
                ∧ Response.peek datagram = .ok (code, sequence)
                ∧ request.sequence = some sequence
                ∧ operation = request.operation
                ∧ command = request.command.name
                ∧ (∀ header,
                  Header.decode (datagram.drop padding) = .ok header
                  → result = ResultCode.ofCode? code
                    ∧ ∀ known,
                        ResultCode.ofCode? code = some known
                        → request.accepts known = false)
                ∧ ∀ fault,
                    Header.decode (datagram.drop padding) = .error fault → result = none)
            ∨ .error error ∈ heard number (fresh connection) operations
            ∨ (∃ line datagram, .transmitted line datagram (some error) ∈ journal)
            ∨ ∃ response,
                .accepted request response audience ∈ journal
                ∧ promise.handler.check response = .error error) := by
  intro journal error
  have nothing : (fresh connection).Explained (fun _ => []) (fun _ => []) := fun _ _ _ => nofun
  have explained := nothing.run (fresh_chronicle connection) (fresh_coherent connection) operations
  simp only [List.nil_append] at explained
  obtain ⟨number, promise, known, rfl, rfl, fault⟩ := explained _ _ _ failed
  refine ⟨number, promise, known, rfl, rfl, ?_⟩
  generalize named : Error.unexpectedResponseCode operation command code result = told at fault
  cases fault with
  | @declined datagram response arrived read own refused =>
      cases named
      have peeked := Response.peek_of_decode read
      have known : ResultCode.ofCode? response.result.code = some response.result :=
        ResultCode.ofCode?_code response.result
      refine .inl ⟨datagram, response.sequence, arrived, peeked, own, rfl, rfl, ?_, ?_⟩
      · rintro header -
        refine ⟨known.symm, fun other same => ?_⟩
        obtain rfl := Option.some.inj (known.symm.trans same)
        exact refused
      · intro fault unreadable
        obtain ⟨header, readable⟩ := Response.header_of_decode read
        cases unreadable.symm.trans readable
  | @unread datagram _ sequence _ arrived unreadable peeked own =>
      cases named
      refine .inl ⟨datagram, sequence, arrived, peeked, own, rfl, rfl, ?_, fun _ _ => rfl⟩
      intro header readable
      have unknown := Response.unknown_of_unreadable peeked unreadable readable
      refine ⟨unknown.symm, fun known meaning => ?_⟩
      cases unknown.symm.trans meaning
  | crowded => cases named
  | exhausted =>
      unfold exhausted at named
      split at named <;> cases named
  | closed => cases named
  | refused tried =>
      subst named
      exact .inr (.inr (.inl ⟨_, _, tried⟩))
  | severed arrived =>
      subst named
      exact .inr (.inl arrived)
  | rejected answered verdict =>
      subst named
      exact .inr (.inr (.inr ⟨_, answered, verdict⟩))

/-- A connection whose peer gives one answer, whatever it is. -/
def answeredWith (datagram : Datagram) : Connection Transcript :=
  { number := 0
    name := "board"
    chip := .origin
    peer := { known := [{ arrivals := [.datagram datagram] }] } }

/-- One request is sent and waited for. -/
def askOnce : List Operation :=
  [.openWindow {}, .send 0 (Operation.getVersion .origin 0) 5 {}, .finish 0]

/-- An answer to the request with number 5 that turns it down. -/
def refusal : Datagram :=
  Response.encode (.toMonitor .origin .replyNotExpected) .badArgument 5 []

/-- An answer that can be read is told of as it is. -/
theorem unexpected_response_explained_refusal
    : .failed ((Operation.getVersion .origin 0).numbered 5)
          (.unexpectedResponseCode "get version" "Ver" 0x84 (some .badArgument)) .nobody
        ∈ ((fresh (answeredWith refusal)).run askOnce).journal.toList
      ∧ ∃ number datagram,
          .ok datagram ∈ heard number (fresh (answeredWith refusal)) askOnce
          ∧ Response.peek datagram = .ok (0x84, 5) := by
  have told : ((fresh (answeredWith refusal)).run askOnce).journal.toList
      = [.transmitted 0 (((Operation.getVersion .origin 0).numbered 5).datagram defaultTag) none,
        .failed ((Operation.getVersion .origin 0).numbered 5)
          (.unexpectedResponseCode "get version" "Ver" 0x84 (some .badArgument)) .nobody] := by
    cbv
  have failed : .failed ((Operation.getVersion .origin 0).numbered 5)
      (.unexpectedResponseCode "get version" "Ver" 0x84 (some .badArgument)) .nobody
      ∈ ((fresh (answeredWith refusal)).run askOnce).journal.toList := by
    simp [told]
  have listened : heard 0 (fresh (answeredWith refusal)) askOnce = [.ok refusal] := by cbv
  obtain ⟨number, promise, _, _, _, evidence⟩ :=
    unexpected_response_explained (answeredWith refusal) askOnce failed
  refine ⟨failed, ?_⟩
  rcases evidence with ⟨datagram, sequence, arrived, peeked, own, _⟩ | severed | refused
    | rejected
  · obtain rfl : 5 = sequence := Option.some.inj own
    exact ⟨number, datagram, arrived, peeked⟩
  · by_cases alone : 0 = number
    · subst alone
      rw [listened] at severed
      cases List.mem_singleton.mp severed
    · simp [heard, hears, askOnce, alone] at severed
  · obtain ⟨line, datagram, tried⟩ := refused
    rw [told] at tried
    simp at tried
  · obtain ⟨response, answered, _⟩ := rejected
    rw [told] at answered
    simp at answered

/-- The same answer with zeros for its header: no header begins with them. -/
def unflagged : Datagram :=
  List.replicate codeOffset 0 ++ refusal.drop codeOffset

/-- An answer whose header cannot be read is told of as having an unknown code, although its code is
known.
-/
theorem known_code_told_as_unknown
    : let junction := (fresh (answeredWith unflagged)).run askOnce
      heard 0 (fresh (answeredWith unflagged)) askOnce = [.ok unflagged]
      ∧ Response.peek unflagged = .ok (0x84, 5)
      ∧ ResultCode.ofCode? 0x84 = some .badArgument
      ∧ .failed ((Operation.getVersion .origin 0).numbered 5)
          (.unexpectedResponseCode "get version" "Ver" 0x84 none) .nobody
          ∈ junction.journal.toList := by
  refine ⟨by cbv, rfl, rfl, List.mem_of_getElem? (i := 1) ?_⟩
  cbv

end Junction

end MeshControl.Link
