import Mathlib.Logic.Function.Basic
import MeshControl.Proofs.Board.Errand
import MeshControl.Proofs.Link.Release

/-! A window that talks to a board. The board may refuse some requests, fewer than each may be
sent; so every request is carried out and answered in the end, however the refusals fall among the
requests that wait together.
-/

namespace MeshControl.Board

open Scp Link

namespace Errand

variable {errand : Errand} {index : Nat}

-----------------------------------------------------------------------------------------
-- The window's side
-----------------------------------------------------------------------------------------

/-- A waiting request is the one of this index under this number. -/
structure Asks (errand : Errand) (index : Nat) (sequence : UInt16) (entry : Outstanding)
    : Prop where
  within : index < errand.count
  request : entry.request = (errand.request index).numbered sequence
  datagram : entry.datagram = entry.request.datagram errand.config.tag
  handler : entry.handler = errand.handler index

/-- The data of an accepted answer, and who was given it. -/
def answer? : Event → Option (Audience × List UInt8)
  | .accepted _ response audience => some (audience, response.payload)
  | _ => none

/-- The answer to one of the requests, and who is to be given it. -/
def answer (errand : Errand) (index : Nat) : Audience × List UInt8 :=
  ((errand.handler index).audience, errand.payload index)

/-- So many requests were sent, each was answered or waits, and each that waits and is not on its
way back carried out may be sent more often than the board still refuses.
-/
structure Dialogue (errand : Errand) (origin : List Event) (sent : Nat) (notes : Notes)
    (station : Station Peer) : Prop where
  config : station.window.config = errand.config
  post : errand.Post notes.served notes.letters station.line.connection
  spare : station.line.connection.peer.board.refusals < errand.config.budget
  asks
    : ∀ {sequence entry},
        station.window.outstanding.get? sequence = some entry
        → errand.Asks (notes.owner sequence) sequence entry
  patience
    : ∀ {sequence entry},
        station.window.outstanding.get? sequence = some entry
        → (∃ letter ∈ notes.letters, letter.sequence = sequence ∧ letter.result = .ok)
          ∨ station.line.connection.peer.board.refusals < entry.remaining
  apart : (notes.letters.map Response.sequence).Nodup
  tells
    : ∀ letter ∈ notes.letters,
        (station.window.outstanding.get? letter.sequence).isSome
        ∧ errand.Tells notes.served (notes.owner letter.sequence) letter
  routes
    : ∀ sequence,
        station.line.dispatcher.routes.get? sequence
          = (station.window.outstanding.get? sequence).map fun _ => station.window.inbox
  inbox : station.line.dispatcher.inbox station.window.inbox = []
  failures : station.window.failures = []
  journal : station.journal.toList = origin ++ notes.events
  account
    : (notes.answered ++ station.window.outstanding.keys.map notes.owner).Perm (List.range sent)
  answers : notes.events.filterMap answer? = notes.answered.map errand.answer
  carried : ∀ index ∈ notes.answered, index ∈ notes.served
  few
    : station.window.inProgress ≤ sent ∧ station.window.inProgress ≤ errand.config.window

-----------------------------------------------------------------------------------------
-- A request goes out
-----------------------------------------------------------------------------------------

/-- From one station to the next, a request went out over the connection and waits. -/
structure Adds (sequence : UInt16) (entry : Outstanding) (connection : Connection Peer)
    (before after : Station Peer) : Prop where
  connection : after.line.connection = connection
  routes
    : ∀ other,
        after.line.dispatcher.routes.get? other
          = if other = sequence then some before.window.inbox
            else before.line.dispatcher.routes.get? other
  inbox
    : after.line.dispatcher.inbox after.window.inbox
      = before.line.dispatcher.inbox before.window.inbox
  owner : Station.SameOwner before.window after.window
  outstanding
    : after.window.outstanding = before.window.outstanding.insert sequence entry
  failures : after.window.failures = before.window.failures
  journal
    : after.journal.toList
      = before.journal.toList
        ++ [.transmitted before.line.connection.number entry.datagram none]

variable {origin : List Event} {sent : Nat} {notes : Notes} {station after : Station Peer}
  {sequence : UInt16} {entry : Outstanding}

/-- The notes after a request went out. -/
def Notes.add (notes : Notes) (index : Nat) (sequence : UInt16) (more : List Nat)
    (news : List Response) (event : Event) : Notes where
  served := notes.served ++ more
  owner := Function.update notes.owner sequence index
  letters := notes.letters ++ news
  events := notes.events ++ [event]
  answered := notes.answered

/-- A request that goes out, for the first time or again, keeps the dialogue. The board may still
refuse as often as the request may still be sent.
-/
theorem Dialogue.add (proper : errand.Proper)
    (dialogue : errand.Dialogue origin sent notes station)
    (unread : ∀ letter ∈ notes.letters, letter.sequence ≠ sequence)
    (asks : errand.Asks index sequence entry)
    (enough : station.line.connection.peer.board.refusals ≤ entry.remaining)
    {connection : Connection Peer}
    (transmitted : station.line.connection.send entry.datagram = (none, connection))
    (adds : Adds sequence entry connection station after) {total : Nat}
    (account
      : (notes.answered
            ++ after.window.outstanding.keys.map (Function.update notes.owner sequence index)).Perm
          (List.range total))
    (few
      : after.window.inProgress ≤ total ∧ after.window.inProgress ≤ errand.config.window)
    : ∃ more news,
        errand.Dialogue origin total
          (notes.add index sequence more news
            (.transmitted station.line.connection.number entry.datagram none))
          after
        ∧ errand.Brings (notes.served ++ more) index sequence
            station.line.connection.peer.board connection.peer.board news := by
  obtain ⟨reached, more, news, went, post, brings⟩ :=
    dialogue.post.send proper asks.within sequence
  rw [asks.datagram, asks.request, went] at transmitted
  obtain rfl : reached = connection := by simpa using transmitted
  have board : after.line.connection = reached := adds.connection
  have here : after.window.outstanding.get? sequence = some entry := by
    rw [adds.outstanding, Table.get?_insert, if_pos rfl]
  have elsewhere {other : UInt16} (apart : other ≠ sequence)
      : after.window.outstanding.get? other = station.window.outstanding.get? other := by
    rw [adds.outstanding, Table.get?_insert, if_neg apart]
  refine ⟨more, news, ?_, brings⟩
  constructor
  case config => rw [adds.owner.config, dialogue.config]
  case post =>
    rw [board]
    exact post
  case spare =>
    rw [board]
    exact Nat.lt_of_le_of_lt brings.refusals dialogue.spare
  case asks =>
    intro other waiting waits
    by_cases same : other = sequence
    · subst same
      obtain rfl : entry = waiting := Option.some.inj (here.symm.trans waits)
      simpa [Notes.add] using asks
    · rw [elsewhere same] at waits
      simpa [Notes.add, same] using dialogue.asks waits
  case patience =>
    intro other waiting waits
    rw [board]
    by_cases same : other = sequence
    · subst same
      obtain rfl : entry = waiting := Option.some.inj (here.symm.trans waits)
      rcases brings.progress with ⟨letter, member, good⟩ | spent
      · exact .inl ⟨letter, List.mem_append_right _ member, (brings.told letter member).1, good⟩
      · exact .inr (Nat.lt_of_lt_of_le spent enough)
    · rw [elsewhere same] at waits
      rcases dialogue.patience waits with ⟨letter, member, found⟩ | patient
      · exact .inl ⟨letter, List.mem_append_left _ member, found⟩
      · exact .inr (Nat.lt_of_le_of_lt brings.refusals patient)
  case apart =>
    rw [Notes.add, List.map_append, List.nodup_append]
    refine ⟨dialogue.apart, ?_, ?_⟩
    · have single := brings.single
      rcases news with _ | ⟨letter, _ | ⟨second, rest⟩⟩
      · simp
      · simp
      · simp at single
    · intro old old_member new new_member same
      obtain ⟨letter, listed, rfl⟩ := List.mem_map.mp old_member
      obtain ⟨news_letter, news_listed, rfl⟩ := List.mem_map.mp new_member
      exact unread letter listed (same.trans (brings.told news_letter news_listed).1)
  case tells =>
    intro letter member
    rcases List.mem_append.mp member with early | late
    · have apart := unread letter early
      obtain ⟨waits, tells⟩ := dialogue.tells letter early
      rw [elsewhere apart]
      refine ⟨waits, ?_⟩
      simpa [Notes.add, apart] using tells.more more
    · obtain ⟨same, tells⟩ := brings.told letter late
      rw [same, here]
      refine ⟨rfl, ?_⟩
      simpa [Notes.add] using tells
  case routes =>
    intro other
    rw [adds.routes, adds.owner.inbox]
    by_cases same : other = sequence
    · rw [if_pos same, same, here]
      rfl
    · rw [if_neg same, elsewhere same, dialogue.routes]
  case inbox => rw [adds.inbox, dialogue.inbox]
  case failures => rw [adds.failures, dialogue.failures]
  case journal => rw [adds.journal, dialogue.journal, List.append_assoc, Notes.add]
  case account => exact account
  case answers =>
    rw [Notes.add, List.filterMap_append, dialogue.answers]
    exact List.append_nil _
  case carried => exact fun other member => List.mem_append_left _ (dialogue.carried other member)
  case few => exact few

/-- Counting changes nothing that a dialogue is about. -/
theorem Dialogue.count (dialogue : errand.Dialogue origin sent notes station)
    (change : Counters → Counters)
    : errand.Dialogue origin sent notes (station.count change) :=
  ⟨dialogue.config, dialogue.post, dialogue.spare, dialogue.asks, dialogue.patience,
    dialogue.apart, dialogue.tells, dialogue.routes, dialogue.inbox, dialogue.failures,
    dialogue.journal, dialogue.account, dialogue.answers, dialogue.carried, dialogue.few⟩

/-- What an open connection takes is written down. -/
theorem transmit_of_send (open_still : station.line.connection.closed = false)
    {datagram : Datagram} {connection : Connection Peer}
    (went : station.line.connection.send datagram = (none, connection))
    : station.transmit datagram
      = (none,
        { station with line := { station.line with connection } }.log
          (.transmitted station.line.connection.number datagram none)) := by
  unfold Station.transmit
  rw [if_neg (by simp [open_still]), went]

/-- A waiting request that may still be sent goes out again. -/
theorem Dialogue.adds_resend (dialogue : errand.Dialogue origin sent notes station)
    (waits : station.window.outstanding.get? sequence = some entry) {remaining : Nat}
    (left : entry.remaining = remaining + 1) {connection : Connection Peer}
    (went : station.line.connection.send entry.datagram = (none, connection)) (reason : Reason)
    : Adds sequence (entry.repeated remaining reason) connection station
        (station.resend sequence reason) := by
  let tried := station.renew sequence entry remaining reason
  have tried_went : tried.line.connection.send entry.datagram = (none, connection) := went
  have tried_open : tried.line.connection.closed = false := dialogue.post.open_still
  have transmitted := transmit_of_send tried_open tried_went
  have resent : station.resend sequence reason
      = { tried with line := { tried.line with connection } }.log
          (.transmitted tried.line.connection.number entry.datagram none) := by
    simp only [tried, Station.renew, Outstanding.repeated] at transmitted
    unfold Station.resend
    simp only [waits, left, transmitted]
    rfl
  rw [resent]
  refine ⟨rfl, fun other => ?_, rfl, ⟨rfl, rfl⟩, rfl, rfl, Array.toList_push⟩
  change station.line.dispatcher.routes.get? other = _
  split
  · next mine =>
      rw [mine, dialogue.routes, waits]
      rfl
  · rfl

/-- A waiting request that nothing was read about goes out again. -/
theorem Dialogue.resend (proper : errand.Proper)
    (dialogue : errand.Dialogue origin sent notes station)
    (waits : station.window.outstanding.get? sequence = some entry)
    (unread : ∀ letter ∈ notes.letters, letter.sequence ≠ sequence) (reason : Reason)
    : ∃ further,
        errand.Dialogue origin sent further (station.resend sequence reason)
        ∧ (∀ letter ∈ further.letters, letter ∈ notes.letters ∨ letter.sequence = sequence)
        ∧ ∀ other,
            (station.resend sequence reason).window.isOutstanding other
              = station.window.isOutstanding other := by
  have patient : station.line.connection.peer.board.refusals < entry.remaining := by
    rcases dialogue.patience waits with ⟨letter, member, same, _⟩ | patient
    · exact absurd same (unread letter member)
    · exact patient
  obtain ⟨remaining, left⟩ := Nat.exists_eq_succ_of_ne_zero (Nat.ne_zero_of_lt patient)
  have asks := dialogue.asks waits
  obtain ⟨connection, _, _, went, _, _⟩ := dialogue.post.send proper asks.within sequence
  rw [← asks.request, ← asks.datagram] at went
  have adds := dialogue.adds_resend waits left went reason
  have outstanding := adds.outstanding
  have size : (station.resend sequence reason).window.inProgress
      = station.window.inProgress := by
    simp [Window.inProgress, outstanding, Table.size_insert, Table.contains, waits]
  have enough : station.line.connection.peer.board.refusals
      ≤ (entry.repeated remaining reason).remaining := by
    change _ ≤ remaining
    omega
  have asks_again : errand.Asks (notes.owner sequence) sequence
      (entry.repeated remaining reason) :=
    ⟨asks.within, asks.request, asks.datagram, asks.handler⟩
  have account : (notes.answered
      ++ (station.resend sequence reason).window.outstanding.keys.map
          (Function.update notes.owner sequence (notes.owner sequence))).Perm
        (List.range sent) := by
    rw [Function.update_eq_self]
    refine List.Perm.trans (.append_left _ (.map _ ?_)) dialogue.account
    rw [outstanding]
    refine Table.keys_perm fun other => ?_
    by_cases same : other = sequence <;> simp [same, waits]
  obtain ⟨more, news, further, brings⟩ := dialogue.add proper unread asks_again enough went adds
    account (size ▸ dialogue.few)
  refine ⟨_, further, ?_, ?_⟩
  · intro letter member
    rcases List.mem_append.mp member with early | late
    · exact .inl early
    · exact .inr (brings.told letter late).1
  · intro other
    simp only [Window.isOutstanding, Table.contains, outstanding, Table.get?_insert]
    by_cases same : other = sequence <;> simp [same, waits]

-----------------------------------------------------------------------------------------
-- One wait
-----------------------------------------------------------------------------------------

/-- A wait on an open line that nothing has come over runs out. -/
theorem await_nothing {line : Line Peer} {inbox : Nat} (limit : Duration)
    (open_still : line.connection.closed = false) (empty : line.dispatcher.inbox inbox = [])
    (nothing : line.connection.pending = [])
    : line.await inbox limit = (.error (noAnswer limit), line) := by
  have none_left : line.dispatcher.pop? inbox = none := by simp [Dispatcher.pop?, empty]
  unfold Line.await
  rw [if_neg (by simp [open_still]), nothing, Dispatcher.awaitFrom, none_left]
  dsimp only
  rw [← nothing]

/-- A wait on an open line gives the oldest datagram, if it is for the one who waits. -/
theorem await_datagram {line : Line Peer} {inbox : Nat} {limit : Duration}
    {bytes : Datagram} {rest : List Arrival} {code sequence : UInt16}
    (patient : limit.nanoseconds ≠ 0) (open_still : line.connection.closed = false)
    (empty : line.dispatcher.inbox inbox = [])
    (arrived : line.connection.pending = .datagram bytes :: rest)
    (peeked : Response.peek bytes = .ok (code, sequence))
    (led : line.dispatcher.routes.get? sequence = some inbox)
    : ∃ dispatcher,
        line.await inbox limit
          = (.ok bytes, { connection := { line.connection with pending := rest }, dispatcher })
        ∧ dispatcher.routes = line.dispatcher.routes
        ∧ dispatcher.inbox inbox = [] := by
  have none_left : line.dispatcher.pop? inbox = none := by simp [Dispatcher.pop?, empty]
  have lies : (line.dispatcher.route bytes).inbox inbox = [bytes] := by
    simp [Dispatcher.route, peeked, led, Dispatcher.inbox] at empty ⊢
    simp [empty]
  obtain ⟨dispatcher, popped⟩ : ∃ dispatcher,
      (line.dispatcher.route bytes).pop? inbox = some (bytes, dispatcher) := by
    simp [Dispatcher.pop?, lies]
  refine ⟨dispatcher, ?_, ?_, ?_⟩
  · unfold Line.await
    rw [if_neg (by simp [open_still]), arrived, Dispatcher.awaitFrom, none_left]
    dsimp only
    rw [if_neg patient, Dispatcher.awaitFrom_of_pop? popped]
  · rw [(Dispatcher.sameRoutes_of_pop? popped).routes,
      (Dispatcher.route_sameRoutes line.dispatcher bytes).routes]
  · simp only [Dispatcher.pop?, lies, Option.some.injEq, Prod.mk.injEq, true_and] at popped
    simp [← popped, Dispatcher.inbox]

/-- Requests that nothing was read about go out again, one after the other; by induction on
them. What arrives of one is not about those after it.
-/
theorem Dialogue.resend_all (proper : errand.Proper) {sequences : List UInt16}
    (distinct : sequences.Nodup)
    (wait : ∀ sequence ∈ sequences, station.window.isOutstanding sequence = true)
    (dialogue : errand.Dialogue origin sent notes station)
    (unread : ∀ letter ∈ notes.letters, letter.sequence ∉ sequences) (reason : Reason)
    : ∃ further,
        errand.Dialogue origin sent further
          (sequences.foldl (fun station sequence => station.resend sequence reason)
            station) := by
  induction sequences generalizing station notes with
  | nil => exact ⟨notes, dialogue⟩
  | cons first rest ih =>
      rw [List.nodup_cons] at distinct
      obtain ⟨entry, waits⟩ := Option.isSome_iff_exists.mp (wait first List.mem_cons_self)
      obtain ⟨further, again, letters, waiting⟩ := dialogue.resend proper waits
        (fun letter member same => unread letter member (same ▸ List.mem_cons_self)) reason
      refine ih distinct.2 ?_ again ?_
      · intro sequence member
        rw [waiting]
        exact wait sequence (List.mem_cons_of_mem _ member)
      · intro letter member later
        rcases letters letter member with old | mine
        · exact unread letter old (List.mem_cons_of_mem _ later)
        · exact distinct.1 (mine ▸ later)

/-- When nothing comes, all waiting requests go out again. -/
theorem Dialogue.silence (proper : errand.Proper)
    (dialogue : errand.Dialogue origin sent notes station) (nothing : notes.letters = [])
    : ∃ further, errand.Dialogue origin sent further station.handleSilence := by
  refine Dialogue.resend_all proper ?_ ?_ (dialogue.count _) (by simp [nothing]) .silence
  · exact List.nodup_mergeSort.mpr station.window.outstanding.nodup
  · intro sequence member
    exact (Table.mem_keys_iff _ _).mp (List.mem_mergeSort.mp member)

/-- What is known after a response was read and has settled its request. -/
def Notes.settle (notes : Notes) (index : Nat) (rest : List Response) (event : Event) : Notes where
  served := notes.served
  owner := notes.owner
  letters := rest
  events := notes.events ++ [event]
  answered := notes.answered ++ [index]

/-- A station after the oldest of its responses was read. -/
structure Reads (before after : Station Peer) (rest : List Arrival) : Prop where
  connection : after.line.connection = { before.line.connection with pending := rest }
  routes : after.line.dispatcher.routes = before.line.dispatcher.routes
  inbox : after.line.dispatcher.inbox after.window.inbox = []
  window : after.window = before.window
  journal : after.journal = before.journal

/-- The oldest response is read and taken in by the window. -/
theorem Dialogue.step_letter (proper : errand.Proper)
    (dialogue : errand.Dialogue origin sent notes station) {letter : Response}
    {later : List Response} (waiting : notes.letters = letter :: later)
    : ∃ ready rest,
        Reads station ready rest
        ∧ rest.map Arrival.response? = later.map some
        ∧ station.step = ready.handleResponse letter := by
  have arrived := dialogue.post.letters
  rw [waiting, List.map_cons] at arrived
  obtain ⟨arrival, rest, pending, read, rest_read⟩ := List.map_eq_cons_iff.mp arrived
  cases arrival with
  | failure error => cases read
  | datagram bytes =>
      have decoded : Response.decode bytes = .ok letter := by
        cases found : Response.decode bytes with
        | error error => simp [Arrival.response?, found, Except.toOption] at read
        | ok response => simpa [Arrival.response?, found, Except.toOption] using read
      obtain ⟨waits, _⟩ := dialogue.tells letter (waiting ▸ List.mem_cons_self)
      obtain ⟨entry, waits⟩ := Option.isSome_iff_exists.mp waits
      have led : station.line.dispatcher.routes.get? letter.sequence
          = some station.window.inbox := by
        rw [dialogue.routes, waits]
        rfl
      have patient : station.window.config.timeout.nanoseconds ≠ 0 := by
        rw [dialogue.config]
        exact proper.patient
      obtain ⟨dispatcher, awaited, routes, empty⟩ := await_datagram patient
        dialogue.post.open_still dialogue.inbox pending (Response.peek_of_decode decoded) led
      refine ⟨{ station with
          line := { connection := { station.line.connection with pending := rest }, dispatcher } },
        rest, ⟨rfl, routes, empty, rfl, rfl⟩, rest_read, ?_⟩
      unfold Station.step
      rw [awaited]
      dsimp only
      rw [Station.handleDatagram, decoded]

/-- No two responses are for the same request. -/
theorem Dialogue.unread_of_cons (dialogue : errand.Dialogue origin sent notes station)
    {letter : Response} {later : List Response} (waiting : notes.letters = letter :: later)
    : ∀ other ∈ later, other.sequence ≠ letter.sequence := by
  intro other member same
  have apart := dialogue.apart
  rw [waiting, List.map_cons, List.nodup_cons] at apart
  exact apart.1 (same ▸ List.mem_map_of_mem member)

/-- Once a response that asks for its request again is read, the request waits for another. -/
theorem Dialogue.read_again (dialogue : errand.Dialogue origin sent notes station)
    {letter : Response} {later : List Response} (waiting : notes.letters = letter :: later)
    (again : letter.result = .timeout) {ready : Station Peer} {rest : List Arrival}
    (reads : Reads station ready rest)
    (rest_read : rest.map Arrival.response? = later.map some)
    : errand.Dialogue origin sent { notes with letters := later } ready := by
  obtain ⟨connection, routes, inbox, window, journal⟩ := reads
  have listed : ∀ other ∈ later, other ∈ notes.letters :=
    fun other member => waiting ▸ List.mem_cons_of_mem _ member
  constructor
  case config => rw [window, dialogue.config]
  case post =>
    rw [connection]
    exact { dialogue.post with letters := rest_read }
  case spare =>
    rw [connection]
    exact dialogue.spare
  case asks =>
    rw [window]
    exact dialogue.asks
  case patience =>
    intro sequence entry waits
    rw [window] at waits
    rw [connection]
    refine (dialogue.patience waits).imp_left ?_
    rintro ⟨other, member, same, good⟩
    rw [waiting] at member
    rcases List.mem_cons.mp member with rfl | behind
    · rw [again] at good
      cases good
    · exact ⟨other, behind, same, good⟩
  case apart =>
    have apart := dialogue.apart
    rw [waiting] at apart
    exact (List.nodup_cons.mp apart).2
  case tells =>
    intro other member
    rw [window]
    exact dialogue.tells other (listed other member)
  case routes =>
    rw [window, routes]
    exact dialogue.routes
  case inbox => exact inbox
  case failures => rw [window, dialogue.failures]
  case journal => rw [journal, dialogue.journal]
  case account =>
    rw [window]
    exact dialogue.account
  case answers => exact dialogue.answers
  case carried => exact dialogue.carried
  case few =>
    rw [window]
    exact dialogue.few

/-- An accepted answer that its sender finds no fault with ends its request. -/
theorem accept_of_content (ready : Station Peer) {letter : Response}
    (content : entry.handler.check letter = .ok ())
    : (ready.accept entry letter).line = (ready.release letter.sequence).line
      ∧ (ready.accept entry letter).window.failures = ready.window.failures
      ∧ (ready.accept entry letter).journal
        = ready.journal.push (.accepted entry.request letter entry.handler.audience) := by
  simp only [Station.accept, content]
  exact ⟨rfl, rfl, rfl⟩

/-- Once a response is read that says its request was carried out, the request is settled. -/
theorem Dialogue.read_done (proper : errand.Proper)
    (dialogue : errand.Dialogue origin sent notes station) {letter : Response}
    {later : List Response} (waiting : notes.letters = letter :: later)
    (waits : station.window.outstanding.get? letter.sequence = some entry)
    (payload : letter.payload = errand.payload (notes.owner letter.sequence))
    (carried_out : notes.owner letter.sequence ∈ notes.served) {ready : Station Peer}
    {rest : List Arrival} (reads : Reads station ready rest)
    (rest_read : rest.map Arrival.response? = later.map some)
    : errand.Dialogue origin sent
        (notes.settle (notes.owner letter.sequence) later
          (.accepted entry.request letter entry.handler.audience))
        (ready.accept entry letter) := by
  obtain ⟨connection, routes, inbox, window, journal⟩ := reads
  have asks := dialogue.asks waits
  have content : entry.handler.check letter = .ok () := by
    rw [asks.handler]
    exact proper.content _ asks.within letter payload
  obtain ⟨line, failures, written⟩ := accept_of_content ready content
  have owner := Station.accept_sameOwner ready entry letter
  have outstanding := Station.outstanding_accept ready entry letter
  have unread := dialogue.unread_of_cons waiting
  have listed : ∀ other ∈ later, other ∈ notes.letters :=
    fun other member => waiting ▸ List.mem_cons_of_mem _ member
  rw [window] at owner outstanding failures
  have gone : (ready.accept entry letter).window.outstanding.get? letter.sequence = none := by
    rw [outstanding, Table.get?_erase, if_pos rfl]
  have elsewhere {other : UInt16} (apart : other ≠ letter.sequence)
      : (ready.accept entry letter).window.outstanding.get? other
        = station.window.outstanding.get? other := by
    rw [outstanding, Table.get?_erase, if_neg apart]
  have fewer : (ready.accept entry letter).window.inProgress ≤ station.window.inProgress := by
    rw [Window.inProgress, outstanding]
    exact Table.size_erase_le _ _
  have board : (ready.accept entry letter).line.connection
      = { station.line.connection with pending := rest } := by
    rw [line]
    exact connection
  constructor
  case config => rw [owner.config, dialogue.config]
  case post =>
    rw [board]
    exact { dialogue.post with letters := rest_read }
  case spare =>
    rw [board]
    exact dialogue.spare
  case asks =>
    intro other found waits_still
    rw [outstanding] at waits_still
    exact dialogue.asks (Table.of_get?_erase waits_still).2
  case patience =>
    intro other found waits_still
    rw [outstanding] at waits_still
    obtain ⟨apart, waited⟩ := Table.of_get?_erase waits_still
    rw [board]
    refine (dialogue.patience waited).imp_left ?_
    rintro ⟨answer, member, mine, good⟩
    rw [waiting] at member
    rcases List.mem_cons.mp member with rfl | behind
    · exact absurd mine.symm apart
    · exact ⟨answer, behind, mine, good⟩
  case apart =>
    have apart := dialogue.apart
    rw [waiting] at apart
    exact (List.nodup_cons.mp apart).2
  case tells =>
    intro other member
    rw [elsewhere (unread other member)]
    exact dialogue.tells other (listed other member)
  case routes =>
    intro other
    have erased : (ready.accept entry letter).line.dispatcher.routes.get? other
        = if other = letter.sequence then none
          else station.line.dispatcher.routes.get? other := by
      rw [line, ← routes]
      exact Table.get?_erase ready.line.dispatcher.routes letter.sequence other
    rw [erased, owner.inbox]
    by_cases same : other = letter.sequence
    · rw [if_pos same, same, gone]
      rfl
    · rw [if_neg same, elsewhere same, dialogue.routes]
  case inbox =>
    rw [line, owner.inbox, ← window]
    exact inbox
  case failures => rw [failures, dialogue.failures]
  case journal =>
    rw [written, Array.toList_push, journal, dialogue.journal, List.append_assoc]
    rfl
  case account =>
    have taken := Table.keys_perm_erase (Option.isSome_iff_exists.mpr ⟨entry, waits⟩)
    have before := (taken.map notes.owner).append_left notes.answered
    rw [outstanding, Notes.settle, List.append_assoc]
    exact before.symm.trans dialogue.account
  case answers =>
    rw [Notes.settle, List.filterMap_append, List.map_append, dialogue.answers]
    simp [answer?, answer, asks.handler, payload]
  case carried =>
    intro index member
    rcases List.mem_append.mp member with early | late
    · exact dialogue.carried index early
    · exact List.mem_singleton.mp late ▸ carried_out
  case few =>
    exact ⟨Nat.le_trans fewer dialogue.few.1, Nat.le_trans fewer dialogue.few.2⟩

/-- A waiting request takes success, and no demand to send it again. -/
theorem Asks.accepts (proper : errand.Proper) (asks : errand.Asks index sequence entry)
    : entry.request.accepts .ok = true ∧ entry.request.accepts .timeout = false := by
  rw [asks.request]
  exact ⟨proper.accepts index asks.within, proper.refuses index asks.within⟩

/-- A wait that finds a response to a request that was carried out settles the request. -/
theorem Dialogue.step_done (proper : errand.Proper)
    (dialogue : errand.Dialogue origin sent notes station) {letter : Response}
    {later : List Response} (waiting : notes.letters = letter :: later)
    (good : letter.result = .ok)
    : ∃ further, errand.Dialogue origin sent further station.step := by
  obtain ⟨waits, tells⟩ := dialogue.tells letter (waiting ▸ List.mem_cons_self)
  obtain ⟨entry, waits⟩ := Option.isSome_iff_exists.mp waits
  obtain ⟨ready, rest, reads, rest_read, stepped⟩ := dialogue.step_letter proper waiting
  have accepted : station.step = ready.accept entry letter := by
    rw [stepped, Station.handleResponse, reads.window, waits]
    dsimp only
    rw [good, if_pos ((dialogue.asks waits).accepts proper).1]
  cases tells with
  | later again =>
      rw [again] at good
      cases good
  | done _ payload carried_out =>
      rw [accepted]
      exact ⟨_, dialogue.read_done proper waiting waits payload carried_out reads rest_read⟩

/-- A wait that finds a response to a request that the board put off sends it out again. -/
theorem Dialogue.step_again (proper : errand.Proper)
    (dialogue : errand.Dialogue origin sent notes station) {letter : Response}
    {later : List Response} (waiting : notes.letters = letter :: later)
    (again : letter.result = .timeout)
    : ∃ further, errand.Dialogue origin sent further station.step := by
  obtain ⟨waits, _⟩ := dialogue.tells letter (waiting ▸ List.mem_cons_self)
  obtain ⟨entry, waits⟩ := Option.isSome_iff_exists.mp waits
  obtain ⟨ready, rest, reads, rest_read, stepped⟩ := dialogue.step_letter proper waiting
  have refused : ¬ entry.request.accepts letter.result = true := by
    rw [again, ((dialogue.asks waits).accepts proper).2]
    decide
  have retry : letter.result.isRetry = true := by rw [again, ResultCode.isRetry]
  have waits_still : ready.window.outstanding.get? letter.sequence = some entry := by
    rw [reads.window, waits]
  have resent : station.step = ready.resend letter.sequence (.result letter.result) := by
    rw [stepped, Station.handleResponse, waits_still]
    dsimp only
    rw [if_neg refused, if_pos retry]
  obtain ⟨further, resumed, _⟩ :=
    (dialogue.read_again waiting again reads rest_read).resend proper waits_still
      (dialogue.unread_of_cons waiting) (.result letter.result)
  exact ⟨further, resent ▸ resumed⟩

/-- Each wait keeps the dialogue: a request is settled, or goes out again. -/
theorem Dialogue.step (proper : errand.Proper)
    (dialogue : errand.Dialogue origin sent notes station)
    : ∃ further, errand.Dialogue origin sent further station.step := by
  cases waiting : notes.letters with
  | nil =>
      have nothing : station.line.connection.pending = [] := by
        simpa [waiting] using dialogue.post.letters
      have waited := await_nothing station.window.config.timeout dialogue.post.open_still
        dialogue.inbox nothing
      have stepped : station.step = station.handleSilence := by
        simp only [Station.step, waited, noAnswer, Error.isTimeout, if_true]
      rw [stepped]
      exact dialogue.silence proper waiting
  | cons letter later =>
      obtain ⟨_, tells⟩ := dialogue.tells letter (waiting ▸ List.mem_cons_self)
      cases tells with
      | later again => exact dialogue.step_again proper waiting again
      | done good _ _ =>
          obtain ⟨further, settled⟩ := dialogue.step_done proper waiting good
          exact ⟨further, settled⟩

/-- Waiting keeps the dialogue, by the recursion of the wait. -/
theorem Dialogue.drain (proper : errand.Proper) (limit : Nat)
    (dialogue : errand.Dialogue origin sent notes station)
    : ∃ further, errand.Dialogue origin sent further (station.drain limit) := by
  fun_induction Station.drain limit station generalizing notes with
  | case1 station few => exact ⟨notes, dialogue⟩
  | case2 station many ih =>
      obtain ⟨further, stepped⟩ := dialogue.step proper
      exact ih stepped

-----------------------------------------------------------------------------------------
-- Sending and finishing
-----------------------------------------------------------------------------------------

/-- After a full window was emptied there is room for one request more. -/
theorem Dialogue.makeRoom (proper : errand.Proper)
    (dialogue : errand.Dialogue origin sent notes station)
    : ∃ further,
        errand.Dialogue origin sent further station.makeRoom
        ∧ station.makeRoom.window.inProgress < errand.config.window := by
  unfold Station.makeRoom
  rw [dialogue.config]
  dsimp only
  split
  · obtain ⟨further, drained⟩ := dialogue.drain proper errand.config.lowWater
    exact ⟨further, drained, Nat.lt_of_le_of_lt (Station.inProgress_drain_le _ station)
      errand.config.lowWater_lt_window⟩
  · next room => exact ⟨notes, dialogue, Nat.not_le.mp room⟩

/-- A request that goes out under a new number is one more that waits. -/
theorem Adds.inProgress {connection : Connection Peer}
    (adds : Adds sequence entry connection station after)
    (free : station.window.outstanding.get? sequence = none)
    : after.window.inProgress = station.window.inProgress + 1 := by
  have absent : station.window.outstanding.contains sequence = false := by
    rw [Table.contains, free]
    rfl
  rw [Window.inProgress, adds.outstanding, Table.size_insert, absent]
  rfl

/-- With the next request under a new number, all requests so far are answered or wait. -/
theorem Dialogue.account_insert (dialogue : errand.Dialogue origin sent notes station)
    (free : station.window.outstanding.get? sequence = none) (entry : Outstanding)
    : (notes.answered
          ++ (station.window.outstanding.insert sequence entry).keys.map
              (Function.update notes.owner sequence sent)).Perm
        (List.range (sent + 1)) := by
  have unlisted : sequence ∉ station.window.outstanding.keys := by
    rw [Table.mem_keys_iff, free]
    simp
  have others : ∀ other ∈ station.window.outstanding.keys,
      Function.update notes.owner sequence sent other = notes.owner other := by
    intro other member
    refine Function.update_of_ne ?_ _ _
    rintro rfl
    exact unlisted member
  have owners := (Table.keys_insert_perm_of_new free entry).map
    (Function.update notes.owner sequence sent)
  rw [List.map_cons, Function.update_self, List.map_congr_left others] at owners
  rw [List.range_succ]
  exact (owners.append_left _).trans
    (List.perm_middle.trans ((dialogue.account.cons sent).trans
      (List.perm_append_singleton _ _).symm))

/-- Where there is room, the next request goes out under a number that is not in use. -/
theorem Dialogue.dispatch (proper : errand.Proper)
    (ready : errand.Dialogue origin sent notes station.makeRoom)
    (room : station.makeRoom.window.inProgress < errand.config.window)
    (next : sent < errand.count)
    (free : station.makeRoom.window.outstanding.get? sequence = none)
    : ∃ further after,
        station.send (errand.request sent) sequence (errand.handler sent) = (.ok (), after)
        ∧ errand.Dialogue origin (sent + 1) further after
        ∧ after.window.inProgress = station.makeRoom.window.inProgress + 1 := by
  have unregistered : station.makeRoom.line.dispatcher.isRegistered sequence = false := by
    rw [Dispatcher.isRegistered, Table.contains, ready.routes, free]
    rfl
  obtain ⟨connection, _, _, went, _, _⟩ := ready.post.send proper next sequence
  have enrolled_open : (station.makeRoom.enroll sequence).line.connection.closed = false :=
    ready.post.open_still
  have transmitted := transmit_of_send enrolled_open went
  have config : station.window.config = errand.config := by
    rw [← (Station.Path.releases station.makeRoom_path).owner.config, ready.config]
  have sending := station.send_sending (errand.request sent) sequence (errand.handler sent)
  generalize done : station.send (errand.request sent) sequence (errand.handler sent)
    = outcome at sending
  cases sending with
  | malformed invalid =>
      rw [proper.valid sent next] at invalid
      cases invalid
  | taken _ used =>
      rw [unregistered] at used
      cases used
  | refused _ _ tried =>
      rw [config, transmitted] at tried
      cases tried
  | sent _ _ tried =>
      rw [config, transmitted] at tried
      obtain rfl := (Prod.mk.inj tried).2
      rw [config] at done ⊢
      let request := (errand.request sent).numbered sequence
      let entry : Outstanding :=
        { request
          datagram := request.datagram errand.config.tag
          remaining := station.makeRoom.window.config.budget - 1
          handler := errand.handler sent }
      have asks : errand.Asks sent sequence entry := ⟨next, rfl, rfl, rfl⟩
      have enough : station.makeRoom.line.connection.peer.board.refusals ≤ entry.remaining := by
        change _ ≤ station.makeRoom.window.config.budget - 1
        rw [ready.config]
        exact Nat.le_sub_one_of_lt ready.spare
      have unread : ∀ letter ∈ notes.letters, letter.sequence ≠ sequence := by
        intro letter member same
        have waits := (ready.tells letter member).1
        rw [same, free] at waits
        cases waits
      let enrolled := station.makeRoom.enroll sequence
      let after := ({ enrolled with line := { enrolled.line with connection } }.log
        (.transmitted enrolled.line.connection.number entry.datagram none)).enlist request
          sequence entry.datagram (errand.handler sent)
      have adds : Adds sequence entry connection station.makeRoom after :=
        ⟨rfl, fun other => Table.get?_insert _ sequence _ other, rfl, ⟨rfl, rfl⟩, rfl, rfl,
          Array.toList_push⟩
      have grown := adds.inProgress free
      have account := ready.account_insert free entry
      rw [← adds.outstanding] at account
      obtain ⟨_, _, later, _⟩ := ready.add proper unread asks enough went adds account
        ⟨by rw [grown]; exact Nat.succ_le_succ ready.few.1, by rw [grown]; exact room⟩
      exact ⟨_, after, rfl, later, grown⟩

/-- The next request goes out under a number that is not in use, after room was made for it. -/
theorem Dialogue.send (proper : errand.Proper)
    (dialogue : errand.Dialogue origin sent notes station) (next : sent < errand.count)
    (free : station.window.outstanding.get? sequence = none)
    : ∃ further after,
        station.send (errand.request sent) sequence (errand.handler sent) = (.ok (), after)
        ∧ errand.Dialogue origin (sent + 1) further after := by
  obtain ⟨further, ready, room⟩ := dialogue.makeRoom proper
  have released := Station.Path.releases station.makeRoom_path
  have free_still : station.makeRoom.window.outstanding.get? sequence = none := by
    rw [← Option.not_isSome_iff_eq_none]
    intro waits
    have waited := released.waited sequence waits
    rw [Window.isOutstanding, Table.contains, free] at waited
    cases waited
  obtain ⟨further, after, done, later, _⟩ := ready.dispatch proper room next free_still
  exact ⟨further, after, done, later⟩

/-- Waiting to the end answers every request that was sent once, and nothing is left to be read. -/
theorem Dialogue.finish (proper : errand.Proper)
    (dialogue : errand.Dialogue origin sent notes station)
    : ∃ further,
        errand.Dialogue origin sent further station.finish
        ∧ station.finish.window.outstanding.entries = []
        ∧ further.letters = []
        ∧ further.answered.Perm (List.range sent) := by
  obtain ⟨further, drained⟩ := dialogue.drain proper 0
  have none_left : station.finish.window.outstanding.entries = [] :=
    List.length_eq_zero_iff.mp (Nat.le_zero.mp (Station.inProgress_drain_le 0 station))
  have none_waits (sequence : UInt16)
      : station.finish.window.outstanding.get? sequence = none := by
    simp [Table.get?, none_left, Table.find]
  refine ⟨further, drained, none_left, ?_, ?_⟩
  · refine List.eq_nil_iff_forall_not_mem.mpr fun letter member => ?_
    have waits := (drained.tells letter member).1
    rw [← Station.finish, none_waits] at waits
    cases waits
  · have account := drained.account
    rw [← Station.finish, Table.keys, none_left] at account
    simpa using account

end Errand

end MeshControl.Board
