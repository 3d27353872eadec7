import MeshControl.Proofs.Link.Career
import MeshControl.Proofs.Link.Completion

/-! The budget of requests. Every event of a connection that many windows share belongs to the
career of one request, and what a waiting request has left is what its career has not used up.
-/

namespace MeshControl.Link

open Scp

-----------------------------------------------------------------------------------------
-- Events by request
-----------------------------------------------------------------------------------------

/-- The events of one request among those of all. -/
def eventsOf (index : Nat) (log : List (Nat × Event)) : List Event :=
  (log.filter fun entry => entry.1 = index).map Prod.snd

theorem eventsOf_append (index : Nat) (first second : List (Nat × Event))
    : eventsOf index (first ++ second) = eventsOf index first ++ eventsOf index second := by
  simp only [eventsOf, List.filter_append, List.map_append]

/-- Events that all belong to one request. -/
theorem eventsOf_map (index owner : Nat) (events : List Event)
    : eventsOf index (events.map fun event => (owner, event))
      = if owner = index then events else [] := by
  by_cases same : owner = index
  · simp [eventsOf, List.filter_map, Function.comp_def, same]
  · simp [eventsOf, List.filter_map, Function.comp_def, same]

namespace Junction

variable {ρ : Type}

/-- The careers of all requests that were offered on a connection, with each event of the journal
under the index of its request: each request has exactly the events of its career, each career is
lawful, and each request that waits has a career that waits.
-/
structure Book (place : Nat) (junction : Junction ρ) (careers : List Career)
    (log : List (Nat × Event)) : Prop where
  located : junction.line.connection.number = place
  written : log.map Prod.snd = junction.journal.toList
  indexed : ∀ entry ∈ log, entry.1 < careers.length
  told
    : ∀ {index : Nat} {career : Career},
        careers[index]? = some career → eventsOf index log = career.events place
  lawful : ∀ career ∈ careers, career.Lawful
  waiting
    : ∀ {number window},
        junction.windows.get? number = some window
        → ∀ {sequence entry},
            window.outstanding.get? sequence = some entry
            → ∃ (index : Nat) (career : Career),
                careers[index]? = some career
                ∧ career.Waits number window.config sequence entry

/-- A connection that nobody has used has no careers. -/
theorem fresh_book (connection : Connection ρ)
    : Book connection.number (fresh connection) [] [] where
  located := rfl
  written := rfl
  indexed := by simp
  told := by simp
  lawful := by simp
  waiting := by
    intro number window found
    cases found

/-- A book stays right where no event was written down and no other requests wait. -/
theorem Book.of_subset {place : Nat} {before after : Junction ρ} {careers : List Career}
    {log : List (Nat × Event)} (book : Book place before careers log)
    (connection : after.line.connection.number = before.line.connection.number)
    (journal : after.journal = before.journal)
    (waited
      : ∀ {number window},
          after.windows.get? number = some window
          → ∀ {sequence entry},
              window.outstanding.get? sequence = some entry
              → ∃ earlier,
                  before.windows.get? number = some earlier
                  ∧ earlier.config = window.config
                  ∧ earlier.outstanding.get? sequence = some entry)
    : Book place after careers log where
  located := connection.trans book.located
  written := by rw [journal, book.written]
  indexed := book.indexed
  told := book.told
  lawful := book.lawful
  waiting found _ _ waits := by
    obtain ⟨earlier, had, config, waits⟩ := waited found waits
    exact config ▸ book.waiting had waits

/-- Where one request of one window changed, every other one waits as it did. -/
theorem waited_of_alters {junction : Junction ρ} {number owner : Nat} {station after : Station ρ}
    {sequence other : UInt16} {events : List Event}
    (alters : station.Alters after sequence events) {window : Window}
    (found : (junction.update number after).windows.get? owner = some window)
    {entry : Outstanding} (waits : window.outstanding.get? other = some entry)
    : (owner = number ∧ other = sequence ∧ window = after.window)
      ∨ (¬(owner = number ∧ other = sequence)
        ∧ ∃ earlier,
            (junction.update number station).windows.get? owner = some earlier
            ∧ earlier.config = window.config
            ∧ earlier.outstanding.get? other = some entry) := by
  simp only [update, Table.get?_insert] at found ⊢
  by_cases here : owner = number
  · rw [if_pos here, Option.some.injEq] at found
    subst found
    by_cases same : other = sequence
    · exact .inl ⟨here, same, rfl⟩
    · rw [alters.others other same] at waits
      exact .inr ⟨fun both => same both.2, station.window, by rw [if_pos here],
        alters.config.symm, waits⟩
  · rw [if_neg here] at found
    exact .inr ⟨fun both => here both.1, window, by rw [if_neg here, found], rfl, waits⟩

/-- What happened to one request that waits is written under its index, and its career takes the
place of the old one. The careers of other waiting requests have other indices, since a career
knows its window and its sequence number.
-/
theorem Book.amend {place : Nat} {junction : Junction ρ} {careers : List Career}
    {log : List (Nat × Event)} {number : Nat} {station after : Station ρ}
    (book : Book place (junction.update number station) careers log) {sequence : UInt16}
    {entry : Outstanding} {index : Nat} {career next : Career}
    (listed : careers[index]? = some career)
    (own : career.Waits number station.window.config sequence entry) {events : List Event}
    (alters : station.Alters after sequence events) (lawful : next.Lawful)
    (told : next.events place = career.events place ++ events)
    (still
      : ∀ {held},
          after.window.outstanding.get? sequence = some held
          → next.Waits number station.window.config sequence held)
    : Book place (junction.update number after) (careers.set index next)
        (log ++ events.map fun event => (index, event)) := by
  have within : index < careers.length := (List.getElem?_eq_some_iff.mp listed).1
  refine ⟨alters.place.trans book.located, ?_, ?_, ?_, ?_, ?_⟩
  · simp only [List.map_append, book.written, List.map_map, Function.comp_def, List.map_id']
    exact alters.journal.symm
  · intro entry member
    rw [List.length_set]
    rcases List.mem_append.mp member with early | late
    · exact book.indexed entry early
    · obtain ⟨event, _, rfl⟩ := List.mem_map.mp late
      exact within
  · intro other held listed_now
    rw [eventsOf_append, eventsOf_map]
    by_cases same : index = other
    · subst same
      rw [List.getElem?_set_self within, Option.some.injEq] at listed_now
      subst listed_now
      rw [if_pos rfl, told, book.told listed]
    · rw [List.getElem?_set_ne same] at listed_now
      rw [if_neg same, List.append_nil, book.told listed_now]
  · intro held member
    rcases List.mem_or_eq_of_mem_set member with old | rfl
    · exact book.lawful held old
    · exact lawful
  · intro owner window found other held waits
    rcases waited_of_alters alters found waits with
      ⟨rfl, rfl, rfl⟩ | ⟨apart, earlier, had, config, waited⟩
    · exact ⟨index, next, List.getElem?_set_self within, alters.config ▸ still waits⟩
    · obtain ⟨spot, known, there, own_there⟩ := book.waiting had waited
      refine ⟨spot, known, ?_, config ▸ own_there⟩
      rw [List.getElem?_set_ne, there]
      rintro rfl
      obtain rfl := Option.some.inj (listed.symm.trans there)
      have request : entry.request = held.request :=
        congrArg Promise.request (own.promise.symm.trans own_there.promise)
      have numbered := own.numbered
      rw [request, own_there.numbered, Option.some.injEq] at numbered
      exact apart ⟨own_there.sender.symm.trans own.sender, numbered⟩

/-- A request that is offered begins a career at the end of the book. -/
theorem Book.enter {place : Nat} {junction : Junction ρ} {careers : List Career}
    {log : List (Nat × Event)} {number : Nat} {station after : Station ρ}
    (book : Book place (junction.update number station) careers log) {sequence : UInt16}
    {career : Career} (alters : station.Alters after sequence (career.events place))
    (lawful : career.Lawful)
    (waited
      : ∀ {held},
          after.window.outstanding.get? sequence = some held
          → station.window.outstanding.get? sequence = some held
            ∨ career.Waits number station.window.config sequence held)
    : Book place (junction.update number after) (careers ++ [career])
        (log ++ (career.events place).map fun event => (careers.length, event)) := by
  refine ⟨alters.place.trans book.located, ?_, ?_, ?_, ?_, ?_⟩
  · simp only [List.map_append, book.written, List.map_map, Function.comp_def, List.map_id']
    exact alters.journal.symm
  · intro entry member
    rw [List.length_append, List.length_singleton]
    rcases List.mem_append.mp member with early | late
    · exact Nat.lt_succ_of_lt (book.indexed entry early)
    · obtain ⟨event, _, rfl⟩ := List.mem_map.mp late
      exact Nat.lt_succ_self careers.length
  · intro index held listed
    rw [eventsOf_append, eventsOf_map]
    rw [List.getElem?_append] at listed
    split at listed
    · next within =>
        rw [if_neg (Nat.ne_of_gt within), List.append_nil, book.told listed]
    · next beyond =>
        obtain ⟨last, rfl⟩ : index = careers.length ∧ career = held := by
          rw [List.getElem?_singleton] at listed
          split at listed
          · exact ⟨by omega, Option.some.inj listed⟩
          · cases listed
        have unheard : eventsOf index log = [] := by
          rw [eventsOf, List.filter_eq_nil_iff.mpr, List.map_nil]
          intro entry member
          have := book.indexed entry member
          simp
          omega
        rw [unheard, if_pos last.symm, List.nil_append]
  · intro held member
    rcases List.mem_append.mp member with old | new
    · exact book.lawful held old
    · exact List.mem_singleton.mp new ▸ lawful
  · intro owner window found other held waits
    have keeps {earlier : Window}
        (had : (junction.update number station).windows.get? owner = some earlier)
        (waited : earlier.outstanding.get? other = some held)
        : ∃ (index : Nat) (known : Career),
            (careers ++ [career])[index]? = some known
            ∧ known.Waits owner earlier.config other held := by
      obtain ⟨index, known, listed, own⟩ := book.waiting had waited
      have within := (List.getElem?_eq_some_iff.mp listed).1
      exact ⟨index, known, by rw [List.getElem?_append_left within, listed], own⟩
    rcases waited_of_alters alters found waits with
      ⟨rfl, rfl, rfl⟩ | ⟨_, earlier, had, config, still⟩
    · rw [alters.config]
      rcases waited waits with before | now
      · exact keeps (Table.get?_insert_self junction.windows owner station.window) before
      · exact ⟨careers.length, career, List.getElem?_concat_length, now⟩
    · exact config ▸ keeps had still

-----------------------------------------------------------------------------------------
-- Every step keeps a book
-----------------------------------------------------------------------------------------

variable {place number : Nat} {junction : Junction ρ} {offers : List Offer}
  {station after : Station ρ}

/-- There is a book of a connection in which exactly these offers, in this order, are the
beginnings of careers.
-/
def Recorded (place : Nat) (junction : Junction ρ) (offers : List Offer) : Prop :=
  ∃ careers log, careers.map Career.offer = offers ∧ Book place junction careers log

theorem Recorded.located (recorded : Recorded place junction offers)
    : junction.line.connection.number = place := by
  obtain ⟨careers, log, _, book⟩ := recorded
  exact book.located

/-- Work that writes nothing down and changes no request keeps a book. -/
theorem Recorded.of_same
    (recorded : Recorded place (junction.update number station) offers)
    (connection : after.line.connection.number = station.line.connection.number)
    (journal : after.journal = station.journal)
    (config : after.window.config = station.window.config)
    (outstanding : after.window.outstanding = station.window.outstanding)
    : Recorded place (junction.update number after) offers := by
  obtain ⟨careers, log, begun, book⟩ := recorded
  refine ⟨careers, log, begun, book.of_subset connection journal ?_⟩
  intro owner window found sequence entry waits
  simp only [update, Table.get?_insert] at found ⊢
  split at found
  · next here =>
      obtain rfl := Option.some.inj found
      exact ⟨station.window, by rw [if_pos here], config.symm, outstanding ▸ waits⟩
  · next elsewhere => exact ⟨window, by rw [if_neg elsewhere, found], rfl, waits⟩

/-- What happened to a request that waits is the next part of its career. -/
theorem Recorded.amend
    (recorded : Recorded place (junction.update number station) offers) {sequence : UInt16}
    {entry : Outstanding} (waits : station.window.outstanding.get? sequence = some entry)
    (goes_on
      : ∀ career : Career,
          career.Lawful
          → career.Waits number station.window.config sequence entry
          → ∃ (next : Career) (events : List Event),
              next.offer = career.offer
              ∧ station.Alters after sequence events
              ∧ next.Lawful
              ∧ next.events place = career.events place ++ events
              ∧ ∀ {held},
                  after.window.outstanding.get? sequence = some held
                  → next.Waits number station.window.config sequence held)
    : Recorded place (junction.update number after) offers := by
  obtain ⟨careers, log, begun, book⟩ := recorded
  obtain ⟨index, career, listed, own⟩ :=
    book.waiting (Table.get?_insert_self junction.windows number station.window) waits
  obtain ⟨next, events, same, alters, lawful, told, still⟩ :=
    goes_on career (book.lawful career (List.mem_of_getElem? listed)) own
  refine ⟨_, _, ?_, book.amend listed own alters lawful told still⟩
  obtain ⟨within, rfl⟩ := List.getElem?_eq_some_iff.mp listed
  rw [List.map_set, same, ← begun]
  refine List.ext_getElem? fun other => ?_
  rw [List.getElem?_set]
  split
  · next here => simp [← here, within]
  · rfl

/-- A window that is put back as it is keeps a book. -/
theorem Recorded.put_back
    (recorded : Recorded place junction offers) {number : Nat} {window : Window}
    (found : junction.windows.get? number = some window)
    : Recorded place (junction.update number (junction.station window)) offers := by
  obtain ⟨careers, log, begun, book⟩ := recorded
  refine ⟨careers, log, begun, book.of_subset rfl rfl ?_⟩
  intro owner held listed sequence entry waits
  simp only [update, station, Table.get?_insert] at listed
  split at listed
  · next here =>
      obtain rfl := Option.some.inj listed
      exact ⟨window, here ▸ found, rfl, waits⟩
  · exact ⟨held, listed, rfl, waits⟩

/-- A request that is offered begins a career. -/
theorem Recorded.enter
    (recorded : Recorded place (junction.update number station) offers) {sequence : UInt16}
    {career : Career} (alters : station.Alters after sequence (career.events place))
    (lawful : career.Lawful)
    (waited
      : ∀ {held},
          after.window.outstanding.get? sequence = some held
          → station.window.outstanding.get? sequence = some held
            ∨ career.Waits number station.window.config sequence held)
    : Recorded place (junction.update number after) (offers ++ [career.offer]) := by
  obtain ⟨careers, log, begun, book⟩ := recorded
  exact ⟨_, _, by rw [List.map_append, begun]; rfl, book.enter alters lawful waited⟩

/-- A request that is refused at once never waits. -/
theorem Recorded.refuse {offer : Offer} {room : Station ρ} {sequence : UInt16} {error : Error}
    (recorded : Recorded place (junction.update offer.number room) offers)
    (refused : offer.refusal = some error)
    (encoded : offer.promise.request.encode offer.config.tag = .ok offer.datagram)
    (tries : room.Tries after sequence offer.datagram (some error))
    (same : after.window = room.window)
    : Recorded place (junction.update offer.number after) (offers ++ [offer]) := by
  have tried : room.Tries after sequence (Career.blank offer).offer.datagram (some error) := tries
  obtain ⟨career, events, which, alters, told⟩ := tried.refuses recorded.located rfl rfl
  have lawful := Career.lawful_blank encoded (by rw [refused]; exact Option.some_ne_none error)
  obtain rfl : career.events place = events := told
  have waited {held : Outstanding}
      (waits : after.window.outstanding.get? sequence = some held)
      : room.window.outstanding.get? sequence = some held := same ▸ waits
  rcases which with rfl | rfl
  · exact recorded.enter alters lawful fun waits => .inl (waited waits)
  · exact recorded.enter alters (lawful.refuse_blank refused) fun waits => .inl (waited waits)

/-- A request that is sent and kept waits, with one time less than its budget left. -/
theorem Recorded.enlist {offer : Offer} {room : Station ρ} {sequence : UInt16}
    (recorded : Recorded place (junction.update offer.number room) offers)
    (kept : offer.refusal = none)
    (encoded : offer.promise.request.encode offer.config.tag = .ok offer.datagram)
    (settings : offer.config = room.window.config)
    (numbered : offer.promise.request.sequence = some sequence)
    (tries : room.Tries after sequence offer.datagram none)
    : Recorded place
        (junction.update offer.number
          (after.enlist offer.promise.request sequence offer.datagram offer.promise.handler))
        (offers ++ [offer]) := by
  have located : room.line.connection.number = place := recorded.located
  have sent := tries.sent
  rw [located] at sent
  have enlisted : Station.Alters after
      (after.enlist offer.promise.request sequence offer.datagram offer.promise.handler)
      sequence [] :=
    ⟨(List.append_nil _).symm, rfl, rfl, fun other apart => by
      simp [Station.enlist, Table.get?_insert, apart]⟩
  have told : (Career.blank offer).send.events place = [.transmitted place offer.datagram none] :=
    Career.events_send place rfl rfl
  have alters := sent.trans enlisted
  rw [List.append_nil, ← told] at alters
  refine recorded.enter alters (Career.lawful_send_blank encoded kept) fun {held} waits => .inr ?_
  simp only [Station.enlist, Table.get?_insert_self, Option.some.injEq] at waits
  subst waits
  refine ⟨rfl, settings, rfl, numbered, rfl, kept, rfl, rfl, ?_⟩
  have least : 1 ≤ room.window.config.budget := Nat.le_max_right room.window.config.sends 1
  simp only [sent.config, Career.send, Career.blank]
  omega

variable [Responder ρ]

/-- Every move of a window keeps a book, by cases on the move. -/
theorem Recorded.move
    (recorded : Recorded place (junction.update number station) offers)
    (move : station.Move after)
    : Recorded place (junction.update number after) offers := by
  have located : station.line.connection.number = place := recorded.located
  cases move with
  | @hear _ line waited =>
      refine recorded.of_same ?_ rfl rfl rfl
      have stays := Station.number_await station.line station.window.inbox
        station.window.config.timeout
      rwa [waited] at stays
  | overlook => exact recorded.of_same rfl rfl rfl rfl
  | lapse => exact recorded.of_same rfl rfl rfl rfl
  | @accept entry response waits accepted =>
      refine recorded.amend waits fun career lawful own => ?_
      obtain ⟨outcome, settled, alters⟩ := Station.accept_alters own.numbered accepted
      refine ⟨career.settle outcome, _, rfl, alters, lawful.settle own settled, ?_, ?_⟩
      · rw [Career.events_settle place outcome own.unsettled, own.promise]
      · intro held waits_still
        simp [Station.outstanding_accept] at waits_still
  | @fail sequence entry waits error =>
      refine recorded.amend waits fun career lawful own => ?_
      refine ⟨career.settle (.failed error), _, rfl, Station.fail_alters waits error,
        lawful.settle own (Settlement.lawful_failed entry.promise error), ?_, ?_⟩
      · rw [Career.events_settle place _ own.unsettled, own.promise]
      · intro held waits_still
        simp [Station.outstanding_fail, waits] at waits_still
  | @renew after sequence entry remaining reason waits left sent =>
      refine recorded.amend waits fun career lawful own => ?_
      have alters := (Station.renew_tries sent).sent
      rw [located, own.datagram] at alters
      refine ⟨career.send, _, rfl, alters, lawful.send own (by omega),
        Career.events_send place own.unbroken own.unsettled, ?_⟩
      intro held waits_still
      rw [Station.waits_of_renew sent, Option.some.injEq] at waits_still
      exact waits_still ▸ own.send left reason
  | @refuse middle sequence entry remaining reason error waits left refused =>
      refine recorded.amend waits fun career lawful own => ?_
      have tries := Station.renew_tries refused
      rw [own.datagram] at tries
      obtain ⟨tried, events, which, alters, told⟩ :=
        tries.refuses located own.unbroken own.unsettled
      have fails := Station.fail_alters (Station.waits_of_renew refused) error
      have begun : tried.offer = career.offer := by rcases which with rfl | rfl <;> rfl
      have unsettled : tried.outcome = none := by
        rcases which with rfl | rfl <;> exact own.unsettled
      refine ⟨tried.settle (.failed error), _, begun, alters.trans fails, ?_, ?_, ?_⟩
      · rcases which with rfl | rfl
        · exact lawful.settle own (Settlement.lawful_failed entry.promise error)
        · exact lawful.refuse own (by omega) error
      · rw [Career.events_settle place _ unsettled, told, begun, own.promise,
          List.append_assoc]
        rfl
      · intro held waits_still
        simp [Station.outstanding_fail, Station.waits_of_renew refused] at waits_still

/-- So does a path, by induction on its moves. -/
theorem Recorded.path
    (recorded : Recorded place (junction.update number station) offers)
    (path : station.Path after)
    : Recorded place (junction.update number after) offers :=
  Station.Path.keeps path
    (fun move (held : Recorded place (junction.update number _) offers) => held.move move)
    recorded

/-- One step of the windows that share a connection, with the requests that are offered in it. A
window at work may stop after any of its moves; before it offers a request it may work, too.
-/
inductive Step : Junction ρ → List Offer → Junction ρ → Prop
  | openWindow (junction : Junction ρ) (config : Config)
    : Step junction [] (junction.openWindow config).2
  | takeFailures (junction : Junction ρ) (number : Nat)
    : Step junction [] (junction.takeFailures number).2
  | drop (junction : Junction ρ) (number : Nat)
    : Step junction [] (junction.drop number)
  | arrive (junction : Junction ρ) (reaction : Reaction)
    : Step junction [] (junction.inject reaction)
  | work {junction : Junction ρ} {number : Nat} {window : Window} {after : Station ρ}
    (found : junction.windows.get? number = some window)
    (path : (junction.station window).Path after)
    : Step junction [] (junction.update number after)
  | refuse {junction : Junction ρ} {offer : Offer} {window : Window} {room after : Station ρ}
    {sequence : UInt16} {error : Error}
    (found : junction.windows.get? offer.number = some window)
    (settings : offer.config = window.config)
    (path : (junction.station window).Path room)
    (numbered : offer.promise.request.sequence = some sequence)
    (valid : offer.promise.request.validate = .ok ())
    (free : room.line.dispatcher.isRegistered sequence = false)
    (refused : offer.refusal = some error)
    (tried : (room.enroll sequence).transmit offer.datagram = (some error, after))
    : Step junction [offer] (junction.update offer.number (after.withdraw sequence))
  | enlist {junction : Junction ρ} {offer : Offer} {window : Window} {room after : Station ρ}
    {sequence : UInt16}
    (found : junction.windows.get? offer.number = some window)
    (settings : offer.config = window.config)
    (path : (junction.station window).Path room)
    (numbered : offer.promise.request.sequence = some sequence)
    (valid : offer.promise.request.validate = .ok ())
    (free : room.line.dispatcher.isRegistered sequence = false)
    (kept : offer.refusal = none)
    (tried : (room.enroll sequence).transmit offer.datagram = (none, after))
    : Step junction [offer]
        (junction.update offer.number
          (after.enlist offer.promise.request sequence offer.datagram offer.promise.handler))

/-- Any number of steps, with all requests that are offered in them. -/
inductive Reaches (start : Junction ρ) : List Offer → Junction ρ → Prop
  | refl : Reaches start [] start
  | tail {offers more : List Offer} {junction after : Junction ρ}
    (reached : Reaches start offers junction) (step : Step junction more after)
    : Reaches start (offers ++ more) after

/-- Every step keeps a book, in which its offers come last. -/
theorem Recorded.step {place : Nat} {junction after : Junction ρ} {offers more : List Offer}
    (recorded : Recorded place junction offers) (step : Step junction more after)
    : Recorded place after (offers ++ more) := by
  cases step with
  | openWindow config =>
      obtain ⟨careers, log, begun, book⟩ := recorded
      rw [List.append_nil]
      refine ⟨careers, log, begun, book.of_subset rfl rfl ?_⟩
      intro number window found sequence entry waits
      simp only [Junction.openWindow, Table.get?_insert] at found
      split at found
      · obtain rfl := Option.some.inj found
        cases waits
      · exact ⟨window, found, rfl, waits⟩
  | takeFailures number =>
      obtain ⟨careers, log, begun, book⟩ := recorded
      rw [List.append_nil]
      unfold Junction.takeFailures
      cases had : junction.windows.get? number with
      | none => exact ⟨careers, log, begun, book⟩
      | some window =>
          refine ⟨careers, log, begun, book.of_subset rfl rfl ?_⟩
          intro owner held found sequence entry waits
          simp only [Window.takeFailures, Table.get?_insert] at found
          split at found
          · next here =>
              obtain rfl := Option.some.inj found
              exact ⟨window, here ▸ had, rfl, waits⟩
          · exact ⟨held, found, rfl, waits⟩
  | drop number =>
      obtain ⟨careers, log, begun, book⟩ := recorded
      rw [List.append_nil]
      unfold Junction.drop
      cases had : junction.windows.get? number with
      | none => exact ⟨careers, log, begun, book⟩
      | some window =>
          refine ⟨careers, log, begun, book.of_subset rfl rfl ?_⟩
          intro owner held found sequence entry waits
          exact ⟨held, (Table.of_get?_erase found).2, rfl, waits⟩
  | arrive reaction =>
      obtain ⟨careers, log, begun, book⟩ := recorded
      rw [List.append_nil]
      exact ⟨careers, log, begun, book.of_subset rfl rfl fun found _ _ waits =>
        ⟨_, found, rfl, waits⟩⟩
  | work found path =>
      rw [List.append_nil]
      exact (recorded.put_back found).path path
  | refuse found _ path _ valid _ refused tried =>
      exact (((recorded.put_back found).path path).refuse refused (Career.encode_of_valid valid)
        (Station.enroll_tries tried) (Station.of_transmit tried).1).of_same rfl rfl rfl rfl
  | enlist found settings path numbered valid _ kept tried =>
      have same := (Station.Path.releases path).owner.config
      exact ((recorded.put_back found).path path).enlist kept (Career.encode_of_valid valid)
        (settings.trans same.symm) numbered (Station.enroll_tries tried)

/-- Any number of steps keep a book, by induction on them. -/
theorem Reaches.recorded {connection : Connection ρ} {offers : List Offer} {junction : Junction ρ}
    (reached : Reaches (fresh connection) offers junction)
    : Recorded connection.number junction offers := by
  induction reached with
  | refl => exact ⟨[], [], rfl, fresh_book connection⟩
  | tail _ step ih => exact ih.step step

/-- Steps add up. -/
theorem Reaches.trans {start middle after : Junction ρ} {offers more : List Offer}
    (first : Reaches start offers middle) (second : Reaches middle more after)
    : Reaches start (offers ++ more) after := by
  induction second with
  | refl =>
      rw [List.append_nil]
      exact first
  | tail _ step ih =>
      rw [← List.append_assoc]
      exact ih.tail step

theorem Step.reaches {start after : Junction ρ} {offers : List Offer}
    (step : Step start offers after)
    : Reaches start offers after :=
  Reaches.refl.tail step

/-- A send is one step, whose offer is kept just when the send succeeds. -/
theorem send_reaches (junction : Junction ρ) (number : Nat) (request : Request)
    (sequence : UInt16) (handler : Handler)
    : ∃ offers,
        Reaches junction offers (junction.send number request sequence handler).2
        ∧ ∀ owner,
            kept owner offers
            = junction.accepts owner (.send number request sequence handler) := by
  simp only [accepts]
  unfold Junction.send
  cases found : junction.windows.get? number with
  | none => exact ⟨[], .refl, fun owner => by simp [kept]⟩
  | some window =>
      dsimp only
      have ending := Station.send_sending (junction.station window) request sequence handler
      generalize (junction.station window).send request sequence handler = outcome at ending ⊢
      have room := Station.makeRoom_path (junction.station window)
      cases ending with
      | malformed _ => exact ⟨[], (Step.work found .refl).reaches, fun owner => by simp [kept]⟩
      | taken _ _ => exact ⟨[], (Step.work found room).reaches, fun owner => by simp [kept]⟩
      | @refused error after valid free tried =>
          have step : Step junction
              [⟨number, window.config, ⟨request.numbered sequence, handler⟩, some error⟩]
              (junction.update number (after.withdraw sequence)) :=
            .refuse found rfl room rfl valid free rfl tried
          exact ⟨_, step.reaches, fun owner => by simp [kept]⟩
      | @sent after valid free tried =>
          have step : Step junction
              [⟨number, window.config, ⟨request.numbered sequence, handler⟩, none⟩]
              (junction.update number
                (after.enlist (request.numbered sequence) sequence
                  ((request.numbered sequence).datagram window.config.tag) handler)) :=
            .enlist found rfl room rfl valid free rfl tried
          refine ⟨_, step.reaches, fun owner => ?_⟩
          by_cases same : number = owner <;> simp [kept, same]

/-- Every operation is a number of steps. -/
theorem perform_reaches (junction : Junction ρ) (operation : Operation)
    : ∃ offers,
        Reaches junction offers (junction.perform operation)
        ∧ ∀ owner, kept owner offers = junction.accepts owner operation := by
  cases operation with
  | openWindow config => exact ⟨[], (Step.openWindow junction config).reaches, fun _ => rfl⟩
  | send number request sequence handler =>
      exact junction.send_reaches number request sequence handler
  | finish number =>
      refine ⟨[], ?_, fun _ => rfl⟩
      simp only [perform]
      unfold Junction.finish
      cases found : junction.windows.get? number with
      | none => exact .refl
      | some window => exact (Step.work found (Station.drain_path 0 _)).reaches
  | takeFailures number => exact ⟨[], (Step.takeFailures junction number).reaches, fun _ => rfl⟩
  | drop number => exact ⟨[], (Step.drop junction number).reaches, fun _ => rfl⟩
  | arrive reaction => exact ⟨[], (Step.arrive junction reaction).reaches, fun _ => rfl⟩

/-- A history is a number of steps, by induction on its operations. -/
theorem run_reaches (junction : Junction ρ) (operations : List Operation)
    : ∃ offers,
        Reaches junction offers (junction.run operations)
        ∧ ∀ owner, kept owner offers = accepted owner junction operations := by
  induction operations generalizing junction with
  | nil => exact ⟨[], .refl, fun _ => rfl⟩
  | cons operation rest ih =>
      obtain ⟨offers, first, one⟩ := junction.perform_reaches operation
      obtain ⟨more, second, all⟩ := ih (junction.perform operation)
      refine ⟨offers ++ more, first.trans second, fun owner => ?_⟩
      rw [kept_append, one, all]
      rfl

/-- In every state that windows on one connection can reach, each event belongs to one request. The
request goes out as its own bytes, as often as its budget allows at most, and never after it has
ended; while it waits, it has left what it was not sent yet. Every history of sends and waits
reaches its state in such steps, and the requests that it takes on are offered in them.
Witness: the book of careers, which every step keeps.
-/
theorem careers_kept (connection : Connection ρ)
    : (∀ offers junction,
        Reaches (fresh connection) offers junction
        → ∃ careers log,
            careers.map Career.offer = offers
            ∧ Book connection.number junction careers log)
      ∧ ∀ operations,
          ∃ offers,
            Reaches (fresh connection) offers ((fresh connection).run operations)
            ∧ ∀ number, kept number offers = accepted number (fresh connection) operations :=
  ⟨fun _ _ reached => reached.recorded, (fresh connection).run_reaches⟩

/-- Two requests in a window whose peer is silent have a career each. -/
theorem careers_kept_silent
    : let request := Operation.getVersion .origin 0
      let junction := (fresh silentConnection).run
        [.openWindow {}, .send 0 request 7 {}, .send 0 request 8 {}, .finish 0]
      ∃ careers log,
        kept 0 (careers.map Career.offer)
          = [⟨request.numbered 7, {}⟩, ⟨request.numbered 8, {}⟩]
        ∧ Book 0 junction careers log := by
  intro request junction
  obtain ⟨all, histories⟩ := careers_kept silentConnection
  obtain ⟨offers, reached, taken⟩ := histories
    [.openWindow {}, .send 0 request 7 {}, .send 0 request 8 {}, .finish 0]
  obtain ⟨careers, log, begun, book⟩ := all offers junction reached
  exact ⟨careers, log, by rw [begun, taken 0]; rfl, book⟩

end Junction

end MeshControl.Link
