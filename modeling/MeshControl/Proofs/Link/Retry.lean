import MeshControl.Link.Transcript
import MeshControl.Operation.Version
import MeshControl.Proofs.Link.Routing
import MeshControl.Proofs.Link.Settlement

/-! One request on a connection of its own. It goes out until an answer decides it or its budget
is used up; the answer that decides it, or the reasons of all repetitions, tell how it ends.
-/

namespace MeshControl.Link

open Scp

-----------------------------------------------------------------------------------------
-- What one transmission brings back
-----------------------------------------------------------------------------------------

/-- An answer to the request under a sequence number: a whole header and any code. -/
structure Answer (sequence : UInt16) where
  bytes : Datagram
  header : Sdp.Header
  code : UInt16
  peeked : Response.peek bytes = .ok (code, sequence)
  decoded : Sdp.Header.decode (bytes.drop padding) = .ok header

namespace Answer

variable {sequence : UInt16}

/-- The response that an answer is read as, if its code is known. -/
def response (answer : Answer sequence) (result : ResultCode) : Response :=
  { header := answer.header, result, sequence, payload := answer.bytes.drop payloadOffset }

theorem decode_known (answer : Answer sequence) {result : ResultCode}
    (known : ResultCode.ofCode? answer.code = some result)
    : Response.decode answer.bytes = .ok (answer.response result) := by
  simp [Response.decode, answer.peeked, answer.decoded, known, response, bind, Except.bind,
    pure, Except.pure]

theorem decode_unknown (answer : Answer sequence)
    (unknown : ResultCode.ofCode? answer.code = none)
    : ∃ error, Response.decode answer.bytes = .error error := by
  simp [Response.decode, answer.peeked, answer.decoded, unknown, bind, Except.bind, throw,
    throwThe, MonadExceptOf.throw]

/-- The answer decides the request: it is accepted, or it is no reason to try again. -/
def Decides (request : Request) (answer : Answer sequence) : Prop :=
  ∀ result,
    ResultCode.ofCode? answer.code = some result
    → request.accepts result = true ∨ result.isRetry = false

/-- How an answer that decides a request ends it. What the request accepts comes first, then a
board without room for the request, then every other code, known or not.
-/
inductive Ends (request : Request) (handler : Handler) (answer : Answer sequence)
    : Outcome → Prop
  | answered {result : ResultCode} (known : ResultCode.ofCode? answer.code = some result)
    (accepted : request.accepts result = true)
    (content : handler.check (answer.response result) = .ok ())
    : Ends request handler answer (.answered (answer.response result))
  | rejected {result : ResultCode} {error : Error}
    (known : ResultCode.ofCode? answer.code = some result)
    (accepted : request.accepts result = true)
    (displeased : handler.check (answer.response result) = .error error)
    : Ends request handler answer (.rejected (answer.response result) error)
  | full (known : ResultCode.ofCode? answer.code = some .noBuffer)
    (refused : request.accepts .noBuffer = false) (text : String)
    : Ends request handler answer (.failed (.allocationFailure text))
  | unexpected {result : ResultCode}
    (known : ResultCode.ofCode? answer.code = some result)
    (refused : request.accepts result = false) (room : result ≠ .noBuffer)
    : Ends request handler answer
        (.failed (unexpected request answer.code (some result)))
  | unknown (unknown : ResultCode.ofCode? answer.code = none)
    : Ends request handler answer (.failed (unexpected request answer.code none))

end Answer

/-- What a peer does on one transmission: it stays silent, or it sends one answer. -/
abbrev Reply (sequence : UInt16) : Type :=
  Option (Answer sequence)

namespace Reply

variable {sequence : UInt16}

/-- What arrives with a reply. -/
def arrivals : Reply sequence → List Arrival
  | none => []
  | some answer => [.datagram answer.bytes]

/-- The reply as a peer's reaction. -/
def reaction (reply : Reply sequence) : Reaction :=
  { arrivals := reply.arrivals }

/-- The reply decides the request; silence never does. -/
def Decides (request : Request) (reply : Reply sequence) : Prop :=
  ∃ answer, reply = some answer ∧ answer.Decides request

/-- Why a request is sent again after a reply that does not decide it. -/
def reason : Reply sequence → Reason
  | none => .silence
  | some answer => (ResultCode.ofCode? answer.code).elim .silence .result

/-- The reasons that the first replies of a list give, in order; past its end all is silence. -/
def reasons (replies : List (Reply sequence)) (count : Nat) : List Reason :=
  (List.range count).map fun index => reason (replies.getD index none)

theorem reasons_cons (reply : Reply sequence) (later : List (Reply sequence)) (count : Nat)
    : reasons (reply :: later) (count + 1) = reply.reason :: reasons later count := by
  simp [reasons, List.range_succ_eq_map]

/-- A list of replies is its first one before the rest, with silence for what is missing. -/
theorem getD_headD_tail (replies : List (Reply sequence)) (index : Nat)
    : (replies.headD none :: replies.tail).getD index none = replies.getD index none := by
  cases replies with
  | nil => cases index <;> rfl
  | cons reply rest => rfl

theorem reasons_headD_tail (replies : List (Reply sequence)) (count : Nat)
    : reasons (replies.headD none :: replies.tail) count = reasons replies count := by
  simp only [reasons, getD_headD_tail]

/-- An answer that does not decide has a known code that is a reason to try again. -/
theorem retry_of_not_decides {request : Request} {answer : Answer sequence}
    (open_still : ¬ Decides request (some answer))
    : ∃ result,
        ResultCode.ofCode? answer.code = some result
        ∧ request.accepts result = false
        ∧ result.isRetry = true := by
  by_contra none_such
  apply open_still
  refine ⟨answer, rfl, ?_⟩
  intro result known
  cases accepted : request.accepts result with
  | true => exact .inl rfl
  | false =>
      right
      cases retry : result.isRetry with
      | false => rfl
      | true => exact absurd ⟨result, known, accepted, retry⟩ none_such

end Reply

namespace Station

-----------------------------------------------------------------------------------------
-- A request that waits alone
-----------------------------------------------------------------------------------------

/-- A station changed at most in its counters and in what was read. -/
structure SameLedger {ρ : Type} (before after : Station ρ) : Prop where
  journal : after.journal = before.journal
  failures : after.window.failures = before.window.failures
  config : after.window.config = before.window.config
  number : after.line.connection.number = before.line.connection.number

/-- One request waits on an open connection of its own. The reply to its last transmission has
arrived and was not read yet; the replies to the next ones are known.
-/
structure Waiting (station : Station Transcript) (sequence : UInt16) (entry : Outstanding)
    (reply : Reply sequence) (later : List (Reply sequence)) : Prop where
  alone : station.window.outstanding.entries = [(sequence, entry)]
  route
    : station.line.dispatcher.routes.get? sequence = some station.window.inbox
  inbox : station.line.dispatcher.inbox station.window.inbox = []
  pending : station.line.connection.pending = reply.arrivals
  open_still : station.line.connection.closed = false
  peer : station.line.connection.peer.known = later.map Reply.reaction
  patient : station.window.config.timeout.nanoseconds ≠ 0

variable {station : Station Transcript} {sequence : UInt16} {entry : Outstanding}
  {reply : Reply sequence} {later : List (Reply sequence)}

theorem Waiting.waits (waiting : Waiting station sequence entry reply later)
    : station.window.outstanding.get? sequence = some entry := by
  simp [Table.get?, waiting.alone, Table.find]

theorem Waiting.inProgress (waiting : Waiting station sequence entry reply later)
    : station.window.inProgress = 1 := by
  simp [Window.inProgress, Table.size, waiting.alone]

/-- An empty inbox gives nothing out. -/
theorem pop?_of_inbox_nil {dispatcher : Dispatcher} {number : Nat}
    (empty : dispatcher.inbox number = [])
    : dispatcher.pop? number = none := by
  simp [Dispatcher.pop?, empty]

/-- The line after everything that had arrived was read. -/
def readOut (station : Station Transcript) (dispatcher : Dispatcher) : Line Transcript :=
  { connection := { station.line.connection with pending := [] }, dispatcher }

/-- A wait on an open connection reads what has arrived. -/
theorem await_of_read {result : Except Error Datagram} {dispatcher : Dispatcher}
    (open_still : station.line.connection.closed = false)
    (read
      : Dispatcher.awaitFrom station.window.inbox station.window.config.timeout
          station.line.connection.pending station.line.dispatcher
        = (result, [], dispatcher))
    : station.line.await station.window.inbox station.window.config.timeout
      = (result, station.readOut dispatcher) := by
  unfold Line.await
  rw [if_neg (by simp [open_still]), read]
  rfl

/-- A silent peer lets the wait run out, and the request is sent again. -/
theorem Waiting.step_silence (waiting : Waiting station sequence entry none later)
    : ∃ ready,
        Waiting ready sequence entry none later
        ∧ SameLedger station ready
        ∧ station.step = ready.resend sequence .silence := by
  have pending : station.line.connection.pending = [] := waiting.pending
  let line := station.readOut station.line.dispatcher
  have waited : station.line.await station.window.inbox station.window.config.timeout
      = (.error (noAnswer station.window.config.timeout), line) := by
    apply await_of_read waiting.open_still
    rw [pending, Dispatcher.awaitFrom, pop?_of_inbox_nil waiting.inbox]
  let ready : Station Transcript :=
    { station with line }.count fun counters =>
      { counters with timeouts := counters.timeouts + 1 }
  refine ⟨ready, ?_, ⟨rfl, rfl, rfl, rfl⟩, ?_⟩
  · exact ⟨waiting.alone, waiting.route, waiting.inbox, rfl, waiting.open_still, waiting.peer,
      waiting.patient⟩
  · have keys : station.window.outstanding.keys.mergeSort = [sequence] := by
      rw [Table.keys, waiting.alone]
      exact List.mergeSort_singleton sequence
    simp only [step, waited, noAnswer, Error.isTimeout, if_true, handleSilence, keys,
      List.foldl_cons, List.foldl_nil]
    rfl

/-- An answer is read from the connection and taken in. -/
theorem Waiting.step_answer {answer : Answer sequence}
    (waiting : Waiting station sequence entry (some answer) later)
    : ∃ ready,
        Waiting ready sequence entry none later
        ∧ SameLedger station ready
        ∧ station.step = ready.handleDatagram answer.bytes := by
  have pending : station.line.connection.pending = [.datagram answer.bytes] := waiting.pending
  let dispatcher := station.line.dispatcher
  let inbox := station.window.inbox
  let filled := dispatcher.inboxes.insert inbox [answer.bytes]
  have empty : dispatcher.inbox inbox = [] := waiting.inbox
  have routed : dispatcher.route answer.bytes = { dispatcher with inboxes := filled } := by
    have led : dispatcher.routes.get? sequence = some inbox := waiting.route
    simp only [Dispatcher.route, answer.peeked, led, empty, List.nil_append, filled]
  let after : Dispatcher := { dispatcher with inboxes := filled.insert inbox [] }
  have popped : (dispatcher.route answer.bytes).pop? inbox = some (answer.bytes, after) := by
    simp [routed, Dispatcher.pop?, Dispatcher.inbox, filled, after]
  let line := station.readOut after
  have waited : station.line.await inbox station.window.config.timeout
      = (.ok answer.bytes, line) := by
    apply await_of_read waiting.open_still
    rw [pending, Dispatcher.awaitFrom, pop?_of_inbox_nil waiting.inbox]
    dsimp only
    rw [if_neg waiting.patient, Dispatcher.awaitFrom, popped]
  let ready : Station Transcript := { station with line }
  refine ⟨ready, ?_, ⟨rfl, rfl, rfl, rfl⟩, ?_⟩
  · have emptied : after.inbox inbox = [] := by simp [Dispatcher.inbox, after]
    exact ⟨waiting.alone, waiting.route, emptied, rfl, waiting.open_still, waiting.peer,
      waiting.patient⟩
  · simp only [step]
    rw [waited]

/-- A reply that does not decide the request has it sent again, with the reply as the reason. -/
theorem Waiting.step_again (waiting : Waiting station sequence entry reply later)
    (open_still : ¬ reply.Decides entry.request)
    : ∃ ready,
        Waiting ready sequence entry none later
        ∧ SameLedger station ready
        ∧ station.step = ready.resend sequence reply.reason := by
  cases reply with
  | none => exact waiting.step_silence
  | some answer =>
      obtain ⟨result, known, refused, retry⟩ := Reply.retry_of_not_decides open_still
      obtain ⟨ready, waiting_still, same, stepped⟩ := waiting.step_answer
      refine ⟨ready, waiting_still, same, ?_⟩
      have waits : ready.window.outstanding.get? (answer.response result).sequence
          = some entry := waiting_still.waits
      have again : (answer.response result).result.isRetry = true := retry
      have not_accepted : entry.request.accepts (answer.response result).result = false :=
        refused
      rw [stepped, handleDatagram, answer.decode_known known]
      simp only [handleResponse, waits, not_accepted, again, Bool.false_eq_true, if_true,
        if_false, Reply.reason, known, Option.elim_some]
      rfl

-----------------------------------------------------------------------------------------
-- Sending again
-----------------------------------------------------------------------------------------

/-- A peer with known reactions gives the next one, and stays silent past the last. -/
theorem react_known {peer : Transcript} (known : peer.known = later.map Reply.reaction)
    (datagram : Datagram)
    : ∃ after : Transcript,
        Responder.react peer datagram = ((later.headD none).reaction, after)
        ∧ after.known = later.tail.map Reply.reaction := by
  obtain ⟨reactions, asked⟩ := peer
  cases later with
  | nil =>
      obtain rfl : reactions = [] := known
      exact ⟨_, rfl, rfl⟩
  | cons reply rest =>
      obtain rfl : reactions = reply.reaction :: rest.map Reply.reaction := known
      exact ⟨_, rfl, rfl⟩

/-- The line after a datagram went out and the peer's reply to it has arrived. -/
def answered (station : Station Transcript) (peer : Transcript) (reply : Reply sequence)
    : Line Transcript :=
  { station.line with
    connection :=
      { station.line.connection with
        peer
        pending := station.line.connection.pending ++ reply.arrivals } }

/-- A datagram goes out on an open connection, and the peer's reply arrives. -/
theorem transmit_known (open_still : station.line.connection.closed = false)
    (known : station.line.connection.peer.known = later.map Reply.reaction)
    (datagram : Datagram)
    : ∃ peer,
        peer.known = later.tail.map Reply.reaction
        ∧ station.transmit datagram
          = (none,
            { station with
              line := station.answered peer (later.headD none)
              journal :=
                station.journal.push
                  (.transmitted station.line.connection.number datagram none) }) := by
  obtain ⟨peer, reacted, rest⟩ := react_known known datagram
  refine ⟨peer, rest, ?_⟩
  have went : station.line.connection.send datagram
      = (none, (station.answered peer (later.headD none)).connection) := by
    unfold Connection.send
    rw [if_neg (by simp [open_still]), reacted]
    simp [answered, Connection.absorb, Reply.reaction]
  unfold transmit
  rw [if_neg (by simp [open_still]), went]
  rfl

/-- While the budget lasts, the request goes out once more and waits for the next reply. -/
theorem Waiting.resend_sent (waiting : Waiting station sequence entry none later)
    {remaining : Nat} (left : entry.remaining = remaining + 1) (reason : Reason)
    : Waiting (station.resend sequence reason) sequence (entry.repeated remaining reason)
          (later.headD none) later.tail
      ∧ (station.resend sequence reason).journal
        = station.journal.push
            (.transmitted station.line.connection.number entry.datagram none)
      ∧ (station.resend sequence reason).window.failures = station.window.failures
      ∧ (station.resend sequence reason).window.config = station.window.config
      ∧ (station.resend sequence reason).line.connection.number
        = station.line.connection.number := by
  have pending : station.line.connection.pending = [] := waiting.pending
  let tried := station.renew sequence entry remaining reason
  have open_still : tried.line.connection.closed = false := waiting.open_still
  have known : tried.line.connection.peer.known = later.map Reply.reaction := waiting.peer
  obtain ⟨peer, rest, sent⟩ := transmit_known open_still known entry.datagram
  have resent : station.resend sequence reason
      = { tried with
          line := tried.answered peer (later.headD none)
          journal :=
            tried.journal.push
              (.transmitted tried.line.connection.number entry.datagram none) } := by
    simp only [tried, renew, Outstanding.repeated] at sent
    unfold resend
    simp only [waiting.waits, left, sent]
    rfl
  have alone : tried.window.outstanding.entries
      = [(sequence, entry.repeated remaining reason)] := by
    have held : station.window.outstanding.contains sequence = true := by
      simp [Table.contains, waiting.waits]
    simp [tried, renew, count, Table.insert, held, Table.replace, waiting.alone]
  rw [resent]
  refine ⟨⟨alone, waiting.route, waiting.inbox, ?_, waiting.open_still, rest,
    waiting.patient⟩, rfl, rfl, rfl, rfl⟩
  have arrived : tried.line.connection.pending = [] := pending
  simp [answered, arrived]

-----------------------------------------------------------------------------------------
-- How the request ends
-----------------------------------------------------------------------------------------

/-- From one station to a later one, a request went out so often again and was settled. -/
structure Concludes (before after : Station Transcript) (datagram : Datagram) (count : Nat)
    (settlement : Settlement) : Prop where
  idle : after.window.inProgress = 0
  journal
    : after.journal.toList
      = before.journal.toList
        ++ List.replicate count
          (.transmitted before.line.connection.number datagram none)
        ++ settlement.events
  failures : after.window.failures = before.window.failures ++ settlement.failures

/-- A request that ends without going out again. -/
theorem Concludes.of_settles {before after : Station Transcript} {datagram : Datagram}
    {tag : UInt8} {settlement : Settlement} (idle : after.window.inProgress = 0)
    (settles
      : Ledger.Settles tag before.ledger after.ledger settlement.events [settlement])
    : Concludes before after datagram 0 settlement where
  idle := idle
  journal := by simpa [ledger] using settles.journal
  failures := by simpa [ledger] using settles.failures

theorem Concludes.of_same {before ready after : Station Transcript} {datagram : Datagram}
    {count : Nat} {settlement : Settlement} (same : SameLedger before ready)
    (concludes : Concludes ready after datagram count settlement)
    : Concludes before after datagram count settlement where
  idle := concludes.idle
  journal := by rw [concludes.journal, same.journal, same.number]
  failures := by rw [concludes.failures, same.failures]

/-- One transmission more comes before all others. -/
theorem Concludes.of_sent {before sent after : Station Transcript} {datagram : Datagram}
    {count : Nat} {settlement : Settlement}
    (journal
      : sent.journal
        = before.journal.push
            (.transmitted before.line.connection.number datagram none))
    (failures : sent.window.failures = before.window.failures)
    (number : sent.line.connection.number = before.line.connection.number)
    (concludes : Concludes sent after datagram count settlement)
    : Concludes before after datagram (count + 1) settlement where
  idle := concludes.idle
  journal := by
    rw [concludes.journal, journal, number, Array.toList_push, List.replicate_succ]
    simp only [List.append_assoc, List.cons_append, List.nil_append]
  failures := by rw [concludes.failures, failures]

/-- A request that waits alone and leaves the window leaves nothing behind. -/
theorem Waiting.inProgress_of_erase (waiting : Waiting station sequence entry reply later)
    {after : Station Transcript}
    (erased : after.window.outstanding = station.window.outstanding.erase sequence)
    : after.window.inProgress = 0 := by
  simp [Window.inProgress, Table.size, erased, Table.erase, Table.remove, waiting.alone]

theorem Waiting.concludes_fail (waiting : Waiting station sequence entry reply later)
    (error : Error) (datagram : Datagram)
    : Concludes station (station.fail sequence error) datagram 0
        ⟨entry.promise, .failed error⟩ := by
  have idle : (station.fail sequence error).window.inProgress = 0 := by
    apply waiting.inProgress_of_erase
    rw [outstanding_fail, waiting.waits]
  exact .of_settles idle (fail_settles waiting.waits error 0)

/-- An answer that the request accepts ends it, by its sender's verdict. -/
theorem Waiting.concludes_accept {answer : Answer sequence} {result : ResultCode}
    (waiting : Waiting station sequence entry none later)
    (known : ResultCode.ofCode? answer.code = some result)
    (accepted : entry.request.accepts result = true) (datagram : Datagram)
    : ∃ outcome,
        answer.Ends entry.request entry.handler outcome
        ∧ Concludes station (station.accept entry (answer.response result)) datagram 0
          ⟨entry.promise, outcome⟩ := by
  have idle : (station.accept entry (answer.response result)).window.inProgress = 0 :=
    waiting.inProgress_of_erase (outstanding_accept station entry _)
  cases verdict : entry.handler.check (answer.response result) with
  | ok =>
      refine ⟨.answered (answer.response result), .answered known accepted verdict, idle, ?_, ?_⟩
      · simp [accept, verdict, log, count, release, Settlement.events, Outstanding.promise]
      · simp [accept, verdict, log, count, release, Settlement.failures]
  | error error =>
      refine ⟨.rejected (answer.response result) error, .rejected known accepted verdict, idle,
        ?_, ?_⟩
      · simp [accept, verdict, log, count, release, report, Settlement.events,
          Outstanding.promise]
      · simp [accept, verdict, log, count, release, report, Settlement.failures,
          Outstanding.promise]

/-- An answer that decides the request ends it, by the order in which its code is judged. -/
theorem Waiting.concludes_answer {answer : Answer sequence}
    (waiting : Waiting station sequence entry none later)
    (decides : answer.Decides entry.request) (datagram : Datagram)
    : ∃ outcome,
        answer.Ends entry.request entry.handler outcome
        ∧ Concludes station (station.handleDatagram answer.bytes) datagram 0
          ⟨entry.promise, outcome⟩ := by
  cases known : ResultCode.ofCode? answer.code with
  | none =>
      obtain ⟨error, unread⟩ := answer.decode_unknown known
      refine ⟨_, .unknown known, ?_⟩
      simp only [handleDatagram, unread, handleUnreadable, answer.peeked, waiting.waits]
      exact waiting.concludes_fail _ datagram
  | some result =>
      have waits : station.window.outstanding.get? (answer.response result).sequence
          = some entry := waiting.waits
      have code : (answer.response result).result.code = answer.code :=
        ResultCode.code_of_ofCode? known
      simp only [handleDatagram, answer.decode_known known, handleResponse, waits]
      cases accepted : entry.request.accepts result with
      | true =>
          have taken : entry.request.accepts (answer.response result).result = true := accepted
          rw [if_pos taken]
          exact waiting.concludes_accept known accepted datagram
      | false =>
          have refused : ¬ entry.request.accepts (answer.response result).result = true := by
            simp [Answer.response, accepted]
          have last : ¬ (answer.response result).result.isRetry = true := by
            rcases decides result known with impossible | last
            · exact absurd impossible refused
            · simp [Answer.response, last]
          rw [if_neg refused, if_neg last]
          by_cases full : (answer.response result).result = .noBuffer
          · rw [if_pos full]
            obtain rfl : result = .noBuffer := full
            exact ⟨_, .full known accepted _, waiting.concludes_fail _ datagram⟩
          · rw [if_neg full, code]
            exact ⟨_, .unexpected known accepted full, waiting.concludes_fail _ datagram⟩

theorem drain_of_idle {limit : Nat} (idle : station.window.inProgress = 0)
    : station.drain limit = station := by
  rw [drain, if_pos (by omega)]

theorem Waiting.drain_step (waiting : Waiting station sequence entry reply later)
    : station.drain 0 = station.step.drain 0 := by
  rw [drain, if_neg (by rw [waiting.inProgress]; omega)]

/-- The first reply that decides the request ends it, after one transmission more for each reply
before; by induction on their number.
-/
theorem Waiting.drain_decided (waiting : Waiting station sequence entry reply later)
    {index : Nat} (within : index ≤ entry.remaining) {answer : Answer sequence}
    (decisive : (reply :: later).getD index none = some answer)
    (decides : answer.Decides entry.request)
    (first
      : ∀ earlier < index,
          ¬ Reply.Decides entry.request ((reply :: later).getD earlier none))
    : ∃ outcome,
        answer.Ends entry.request entry.handler outcome
        ∧ Concludes station (station.drain 0) entry.datagram index
          ⟨entry.promise, outcome⟩ := by
  induction index generalizing station entry reply later with
  | zero =>
      obtain rfl : reply = some answer := decisive
      obtain ⟨ready, waiting_still, same, stepped⟩ := waiting.step_answer
      obtain ⟨outcome, ends, concludes⟩ :=
        waiting_still.concludes_answer decides entry.datagram
      rw [waiting.drain_step, stepped, drain_of_idle concludes.idle]
      exact ⟨outcome, ends, concludes.of_same same⟩
  | succ index ih =>
      have open_still : ¬ reply.Decides entry.request := first 0 (Nat.succ_pos index)
      obtain ⟨ready, waiting_still, same, stepped⟩ := waiting.step_again open_still
      obtain ⟨remaining, left⟩ : ∃ remaining, entry.remaining = remaining + 1 :=
        ⟨entry.remaining - 1, by omega⟩
      obtain ⟨waiting_next, journal, failures, _, number⟩ :=
        waiting_still.resend_sent left reply.reason
      have next (other : Nat)
          : (later.headD none :: later.tail).getD other none
            = (reply :: later).getD (other + 1) none := by
        rw [Reply.getD_headD_tail, List.getD_cons_succ]
      have within_next : index ≤ (entry.repeated remaining reply.reason).remaining := by
        change index ≤ remaining
        omega
      obtain ⟨outcome, ends, concludes⟩ :=
        ih waiting_next within_next (by rw [next, decisive]) decides
          (fun earlier before => by rw [next]; exact first (earlier + 1) (by omega))
      rw [waiting.drain_step, stepped]
      exact ⟨outcome, ends, .of_same same (.of_sent journal failures number concludes)⟩

/-- A request that no reply decides goes out as often as its budget allows, and then fails for
all the reasons it was given; by induction on the budget.
-/
theorem Waiting.drain_exhausted (waiting : Waiting station sequence entry reply later)
    {remaining : Nat} (left : entry.remaining = remaining)
    (never
      : ∀ index ≤ remaining,
          ¬ Reply.Decides entry.request ((reply :: later).getD index none))
    : Concludes station (station.drain 0) entry.datagram remaining
        ⟨entry.promise,
          .failed (exhausted station.window.config
            { entry with
              reasons :=
                entry.reasons ++ Reply.reasons (reply :: later) (remaining + 1) })⟩ := by
  induction remaining generalizing station entry reply later with
  | zero =>
      have open_still : ¬ reply.Decides entry.request := never 0 (Nat.zero_le _)
      obtain ⟨ready, waiting_still, same, stepped⟩ := waiting.step_again open_still
      have ended : ready.resend sequence reply.reason
          = ready.fail sequence (exhausted station.window.config
              { entry with reasons := entry.reasons ++ [reply.reason] }) := by
        simp only [resend, waiting_still.waits, left, same.config]
      have concludes := waiting_still.concludes_fail
        (exhausted station.window.config
          { entry with reasons := entry.reasons ++ [reply.reason] }) entry.datagram
      rw [waiting.drain_step, stepped, ended, drain_of_idle concludes.idle]
      exact concludes.of_same same
  | succ remaining ih =>
      have open_still : ¬ reply.Decides entry.request := never 0 (Nat.zero_le _)
      obtain ⟨ready, waiting_still, same, stepped⟩ := waiting.step_again open_still
      obtain ⟨waiting_next, journal, failures, config, number⟩ :=
        waiting_still.resend_sent left reply.reason
      have never_next (index : Nat) (within : index ≤ remaining)
          : ¬ Reply.Decides entry.request
              ((later.headD none :: later.tail).getD index none) := by
        rw [Reply.getD_headD_tail, ← List.getD_cons_succ]
        exact never (index + 1) (by omega)
      have concludes := ih waiting_next rfl never_next
      -- The reasons of the later repetitions follow that of this one.
      rw [Reply.reasons_headD_tail, config, same.config] at concludes
      have together : (entry.repeated remaining reply.reason).reasons
          ++ Reply.reasons later (remaining + 1)
          = entry.reasons ++ Reply.reasons (reply :: later) (remaining + 1 + 1) := by
        rw [Reply.reasons_cons]
        simp [Outstanding.repeated]
      rw [together] at concludes
      rw [waiting.drain_step, stepped]
      exact .of_same same (.of_sent journal failures number concludes)

-----------------------------------------------------------------------------------------
-- From the first transmission on
-----------------------------------------------------------------------------------------

/-- A request that is sent on an idle connection goes out at once and waits alone. -/
theorem send_waiting (start : Station Transcript) {request : Request} (handler : Handler)
    {replies : List (Reply sequence)} (valid : request.validate = .ok ())
    (idle : start.window.outstanding.entries = [])
    (free : start.line.dispatcher.isRegistered sequence = false)
    (inbox : start.line.dispatcher.inbox start.window.inbox = [])
    (pending : start.line.connection.pending = [])
    (open_still : start.line.connection.closed = false)
    (peer : start.line.connection.peer.known = replies.map Reply.reaction)
    (patient : start.window.config.timeout.nanoseconds ≠ 0)
    : ∃ after,
        start.send request sequence handler = (.ok (), after)
        ∧ Waiting after sequence
          { request := request.numbered sequence
            datagram := (request.numbered sequence).datagram start.window.config.tag
            remaining := start.window.config.budget - 1
            handler }
          (replies.headD none) replies.tail
        ∧ after.journal
          = start.journal.push
              (.transmitted start.line.connection.number
                ((request.numbered sequence).datagram start.window.config.tag) none)
        ∧ after.window.failures = start.window.failures
        ∧ after.window.config = start.window.config
        ∧ after.line.connection.number = start.line.connection.number := by
  have room : start.makeRoom = start := by
    have positive : 0 < start.window.config.window := by
      unfold Config.window
      omega
    have none_waits : start.window.inProgress = 0 := by
      simp [Window.inProgress, Table.size, idle]
    rw [makeRoom, if_neg (by omega)]
  have open_enrolled : (start.enroll sequence).line.connection.closed = false := open_still
  have peer_enrolled : (start.enroll sequence).line.connection.peer.known
      = replies.map Reply.reaction := peer
  obtain ⟨later_peer, rest, sent⟩ := transmit_known open_enrolled peer_enrolled
    ((request.numbered sequence).datagram start.window.config.tag)
  have ending := send_sending start request sequence handler
  generalize done : start.send request sequence handler = outcome at ending
  cases ending with
  | malformed invalid =>
      rw [valid] at invalid
      cases invalid
  | taken _ used =>
      rw [room, free] at used
      cases used
  | refused _ _ tried =>
      rw [room, sent] at tried
      cases tried
  | sent _ _ tried =>
      rw [room, sent] at tried
      cases tried
      refine ⟨_, rfl, ⟨?_, ?_, inbox, ?_, open_still, rest, patient⟩, rfl, rfl, rfl, rfl⟩
      · have absent : start.window.outstanding.contains sequence = false := by
          simp [Table.contains, Table.get?, idle, Table.find]
        simp [enlist, count, enroll, Table.insert, absent, idle]
      · simp [enlist, count, enroll, answered]
      · simp [enlist, count, enroll, answered, pending]

end Station

-----------------------------------------------------------------------------------------
-- The reasons of a request that was never decided
-----------------------------------------------------------------------------------------

variable {sequence : UInt16}

/-- A request to which nobody ever replied has run out of time. -/
theorem exhausted_of_silence (config : Config) (entry : Outstanding)
    {replies : List (Reply sequence)} {count : Nat}
    (silent : ∀ index < count, replies.getD index none = none)
    : exhausted config { entry with reasons := Reply.reasons replies count }
      = .timeout entry.request.operation config.timeout := by
  have all_silence : (Reply.reasons replies count).all (· == .silence) = true := by
    simp only [Reply.reasons, List.all_map, List.all_eq_true, List.mem_range]
    intro index within
    simp only [Function.comp_apply, silent index within]
    rfl
  rw [exhausted, if_pos all_silence]

/-- A request that was turned away at least once has failed for that. -/
theorem exhausted_of_retry (config : Config) (entry : Outstanding) {request : Request}
    {replies : List (Reply sequence)} {count index : Nat} (within : index < count)
    (replied : replies.getD index none ≠ none)
    (undecided : ¬ Reply.Decides request (replies.getD index none))
    : ∃ text,
        exhausted config { entry with reasons := Reply.reasons replies count }
          = .ioProblem text := by
  have some_result : ¬ (Reply.reasons replies count).all (· == .silence) = true := by
    intro all_silence
    simp only [Reply.reasons, List.all_map, List.all_eq_true, List.mem_range] at all_silence
    have silence := all_silence index within
    cases given : replies.getD index none with
    | none => exact replied given
    | some answer =>
        rw [given] at undecided
        obtain ⟨result, known, _⟩ := Reply.retry_of_not_decides undecided
        simp only [Function.comp_apply, given, Reply.reason, known] at silence
        cases silence
  rw [exhausted, if_neg some_result]
  exact ⟨_, rfl⟩

/-- A new connection to a peer whose replies are known, and silence past the last. -/
def replyingConnection (number : Nat) (name : String) (chip : Chip)
    (replies : List (Reply sequence)) : Connection Transcript :=
  { number, name, chip, peer := { known := replies.map Reply.reaction } }

/-- A new window on a new connection. -/
def openedStation (config : Config) (connection : Connection Transcript)
    : Station Transcript :=
  ((Junction.fresh connection).openWindow config).2.station { config, inbox := 0 }

/-- Sending in a new window and waiting is what the window itself does. -/
theorem run_of_send_opened {config : Config} {connection : Connection Transcript}
    {request : Request} {handler : Handler} {after : Station Transcript}
    (went
      : (openedStation config connection).send request sequence handler = (.ok (), after))
    : let junction := (Junction.fresh connection).run
        [.openWindow config, .send 0 request sequence handler, .finish 0]
      junction.windows.get? 0 = some (after.drain 0).window
      ∧ junction.journal = (after.drain 0).journal := by
  let opened := ((Junction.fresh connection).openWindow config).2
  have sent : (opened.send 0 request sequence handler).2 = opened.update 0 after := by
    have found : opened.windows.get? 0 = some { config, inbox := 0 } := rfl
    rw [Junction.send, found]
    exact congrArg (fun outcome => opened.update 0 outcome.2) went
  have waited : (opened.update 0 after).finish 0
      = (opened.update 0 after).update 0 (after.drain 0) := by
    have found : (opened.update 0 after).windows.get? 0 = some after.window := by
      simp [Junction.update]
    rw [Junction.finish, found]
    rfl
  intro junction
  have last : junction = (opened.update 0 after).update 0 (after.drain 0) := by
    rw [← waited, ← sent]
    rfl
  rw [last]
  exact ⟨by simp [Junction.update], rfl⟩

/-- One request on a connection of its own, sent and waited for. It goes out until the first
reply that decides it, or as often as its budget allows. What the reply says is how the request
ends; without one, it has run out of time if all was silence, and is a failure of the connection
if it was turned away at least once.
Witness: one transmission for each reply that does not decide, by induction on the budget.
-/
theorem sends_until_decided (config : Config) (patient : config.timeout.nanoseconds ≠ 0)
    (number : Nat) (name : String) (chip : Chip) (request : Request)
    (valid : request.validate = .ok ()) (sequence : UInt16) (handler : Handler)
    (replies : List (Reply sequence))
    : let junction := (Junction.fresh (replyingConnection number name chip replies)).run
        [.openWindow config, .send 0 request sequence handler, .finish 0]
      let sent := request.numbered sequence
      let transmission := Event.transmitted number (sent.datagram config.tag) none
      let budget := max config.sends 1
      ∃ window,
        junction.windows.get? 0 = some window
        ∧ window.inProgress = 0
        ∧ (∀ last < budget,
            ∀ answer,
              replies.getD last none = some answer
              → answer.Decides sent
              → (∀ earlier < last, ¬ Reply.Decides sent (replies.getD earlier none))
              → ∃ outcome,
                  answer.Ends sent handler outcome
                  ∧ junction.journal.toList
                    = List.replicate (last + 1) transmission
                      ++ Settlement.events ⟨⟨sent, handler⟩, outcome⟩
                  ∧ window.failures = Settlement.failures ⟨⟨sent, handler⟩, outcome⟩)
        ∧ ((∀ index < budget, ¬ Reply.Decides sent (replies.getD index none))
          → ∃ error,
              junction.journal.toList
                = List.replicate budget transmission ++ [.failed sent error handler.audience]
              ∧ window.failures = [{ request := sent, error }]
              ∧ ((∀ index < budget, replies.getD index none = none)
                → error = .timeout request.operation config.timeout)
              ∧ ((∃ index < budget, replies.getD index none ≠ none)
                → ∃ text, error = .ioProblem text)) := by
  intro junction sent transmission budget
  let start := openedStation config (replyingConnection number name chip replies)
  obtain ⟨after, went, waiting, journal, failures, kept, connection⟩ :=
    start.send_waiting handler valid rfl rfl rfl rfl rfl rfl patient
  obtain ⟨found, written⟩ := run_of_send_opened went
  have positive : 0 < budget := by omega
  -- The first transmission is that of the send, the others those of the wait.
  have concluded {count : Nat} {settlement : Settlement}
      (concludes
        : Station.Concludes after (after.drain 0) (sent.datagram config.tag) count settlement)
      : junction.journal.toList
          = List.replicate (count + 1) transmission ++ settlement.events
        ∧ (after.drain 0).window.failures = settlement.failures := by
    constructor
    · rw [written, concludes.journal, journal, connection, Array.toList_push,
        List.replicate_succ]
      rfl
    · rw [concludes.failures, failures]
      rfl
  refine ⟨(after.drain 0).window, found,
    Nat.le_zero.mp (Station.inProgress_drain_le 0 after), ?_, ?_⟩
  · intro last within answer decisive decides first
    have left : last ≤ config.budget - 1 := by
      change last ≤ budget - 1
      omega
    obtain ⟨outcome, ends, concludes⟩ := waiting.drain_decided left
      (by rw [Reply.getD_headD_tail, decisive]) decides
      (fun earlier before => by rw [Reply.getD_headD_tail]; exact first earlier before)
    exact ⟨outcome, ends, concluded concludes⟩
  · intro never
    have concludes := waiting.drain_exhausted rfl (fun index within => by
      rw [Reply.getD_headD_tail]
      apply never
      change index ≤ budget - 1 at within
      omega)
    rw [Reply.reasons_headD_tail] at concludes
    obtain ⟨events, failed⟩ := concluded concludes
    have counts : start.window.config.budget - 1 + 1 = budget := by
      change budget - 1 + 1 = budget
      omega
    rw [kept, counts, List.nil_append] at events failed
    refine ⟨_, events, failed, ?_, ?_⟩
    · intro silent
      exact exhausted_of_silence config _ silent
    · rintro ⟨index, within, replied⟩
      exact exhausted_of_retry config _ within replied (never index within)

/-- Success, as the monitor of the first chip sends it. -/
def successAnswer : Answer 7 where
  bytes := Response.datagramWithCode (.toMonitor .origin .replyNotExpected) 0x80 7 []
  header :=
    { flag := .replyNotExpected
      tag := some Sdp.defaultTag
      destination := .origin
      sourcePort := some Sdp.hostPort
      sourceCpu := some Sdp.hostCpu
      sourceX := some 0
      sourceY := some 0 }
  code := 0x80
  peeked := rfl
  decoded := rfl

/-- Silence and then success: the request goes out twice and succeeds. -/
theorem sends_until_decided_second
    : let replies : List (Reply 7) := [none, some successAnswer]
      let request := Operation.getVersion .origin 0
      let sent := request.numbered 7
      let junction := (Junction.fresh (replyingConnection 0 "board" .origin replies)).run
        [.openWindow {}, .send 0 request 7 {}, .finish 0]
      ∃ outcome,
        successAnswer.Ends sent {} outcome
        ∧ junction.journal.toList
          = List.replicate 2 (.transmitted 0 (sent.datagram Sdp.defaultTag) none)
            ++ Settlement.events ⟨⟨sent, {}⟩, outcome⟩ := by
  intro replies request sent junction
  obtain ⟨window, _, _, decided, _⟩ :=
    sends_until_decided {} (by decide) 0 "board" .origin request rfl 7 {} replies
  have decides : successAnswer.Decides sent := by
    intro result known
    have same : some ResultCode.ok = some result := known
    cases same
    exact .inl rfl
  obtain ⟨outcome, ends, journal, _⟩ := decided 1 (by decide) successAnswer rfl decides (by
    intro earlier before
    obtain rfl : earlier = 0 := by omega
    rintro ⟨answer, impossible, _⟩
    cases impossible)
  exact ⟨outcome, ends, journal⟩

end MeshControl.Link
