import Mathlib.Data.List.Permutation
import MeshControl.Link.Transcript
import MeshControl.Proofs.Board.Counting
import MeshControl.Proofs.Link.Row

/-! Counting over connections that do whatever they like. The chips are asked one after another;
the answers may come in any order and more than once. A count is the exact sum of the words that
the taken answers begin with, one for each chip; a sum that does not fit into a word stops the
program instead.
-/

namespace MeshControl

open Scp Link Operation Board

namespace Session

-----------------------------------------------------------------------------------------
-- Requests and answers
-----------------------------------------------------------------------------------------

/-- The request for the count of one of some chips. -/
def chipRequest (application : UInt8) (core : Core.State) (chips : List Chip) (index : Nat)
    : Request :=
  countRequest application core (chips.getD index .origin)

/-- What a count wants of an answer. -/
def countHandler : Handler where
  check := fun response => (parseCount response).map fun _ => ()

/-- An answer is good enough exactly if it has a word. -/
theorem countHandler_check_eq_ok_iff (response : Response)
    : countHandler.check response = .ok () ↔ 4 ≤ response.payload.length := by
  constructor
  · intro good
    by_contra short
    have refused : response.payload.length < 4 := Nat.not_le.mp short
    simp [countHandler, parseCount, Response.firstWord, refused, Except.map] at good
  · intro long
    simp [countHandler, parseCount_of_long long, Except.map]

/-- An answer with a word was taken for the request of a chip. -/
def Answers (events : List Event) (chip : Chip) (response : Response) : Prop :=
  ∃ request audience,
    .accepted request response audience ∈ events
    ∧ request.header.destination = chip
    ∧ 4 ≤ response.payload.length

section Requests

variable {application : UInt8} {core : Core.State} {chips : List Chip} {passage : Passage}
  {origin journal : List Event} {tag : UInt8} {settled : List Settlement} {left : List Promise}
  {offered taken : Nat}

/-- At each place among some chips there is one of them. -/
theorem getD_mem {index : Nat} (within : index < chips.length)
    : chips.getD index .origin ∈ chips := by
  rw [List.getD_eq_getElem _ _ within]
  exact List.getElem_mem within

/-- Chips that are all different have places that can be told apart. -/
theorem getD_injOn (distinct : chips.Nodup)
    : Set.InjOn (fun index => chips.getD index .origin) (Set.Iio chips.length) := by
  intro index early place late same
  have here : index < chips.length := early
  have there : place < chips.length := late
  simp only [List.getD_eq_getElem, here, there] at same
  exact (distinct.getElem_inj_iff).mp same

/-- So have their requests. -/
theorem promise_injOn_of_nodup (distinct : chips.Nodup)
    : Set.InjOn (passage.promise (chipRequest application core chips) fun _ => countHandler)
        (Set.Iio chips.length) :=
  fun _ early _ late same =>
    getD_injOn distinct early late
      (congrArg (fun promise : Promise => promise.request.header.destination) same)

/-- An answer that was taken for a chip ended the request of that chip. -/
theorem ends_of_answers
    (traced
      : passage.Traced origin journal tag (chipRequest application core chips)
          (fun _ => countHandler) settled left offered taken)
    (distinct : chips.Nodup) (few : taken ≤ chips.length) {index : Nat}
    (within : index < chips.length) {response : Response}
    (answers : Answers passage.events (chips.getD index .origin) response)
    : passage.Ends (chipRequest application core chips) (fun _ => countHandler) settled index
        response := by
  obtain ⟨request, audience, member, destination, _⟩ := answers
  obtain ⟨place, early, rfl, _, ended⟩ := traced.heard member
  obtain rfl := getD_injOn distinct (Nat.lt_of_lt_of_le early few) within destination
  exact ended

end Requests

-----------------------------------------------------------------------------------------
-- The sum of the answers
-----------------------------------------------------------------------------------------

/-- Only what the senders were told of makes up the answers. -/
theorem filterMap_told (events : List Event)
    : (told events).filterMap Errand.answer? = events.filterMap Errand.answer? := by
  rw [told, List.filterMap_filter]
  congr
  funext event
  cases event <;> rfl

section Sum

variable {application : UInt8} {core : Core.State} {chips : List Chip} {passage : Passage}
  {origin journal : List Event} {tag : UInt8} {settled : List Settlement} {offered : Nat}
  {answer : Chip → Response}

/-- Where no request has failed, each settlement brought the answer of its chip. -/
theorem answer?_of_settled
    (traced
      : passage.Traced origin journal tag (chipRequest application core chips)
          (fun _ => countHandler) settled [] offered chips.length)
    (clean : settled.flatMap Settlement.failures = []) (distinct : chips.Nodup)
    (answered : ∀ chip ∈ chips, Answers passage.events chip (answer chip))
    {settlement : Settlement} (ended : settlement ∈ settled)
    : settlement.events.filterMap Errand.answer?
      = [(.nobody, (answer settlement.promise.request.header.destination).payload)] := by
  obtain ⟨index, within, promised⟩ := traced.promised ended
  have known := ends_of_answers traced distinct (Nat.le_refl _) within
    (answered _ (getD_mem within))
  have faultless := List.flatMap_eq_nil_iff.mp clean _ ended
  obtain ⟨promise, outcome⟩ := settlement
  obtain rfl : promise = passage.promise _ _ index := promised
  cases outcome with
  | answered response =>
      have same := traced.same_ending (promise_injOn_of_nodup distinct) known
        ⟨_, ended, rfl, .inl rfl⟩
      change [(Audience.nobody, response.payload)] = [(_, (answer (chips.getD index _)).payload)]
      rw [same]
  | rejected => cases faultless
  | failed => cases faultless

/-- Then the answers of all chips bring one word for each, in whatever order they came. -/
theorem brought_of_traced
    (traced
      : passage.Traced origin journal tag (chipRequest application core chips)
          (fun _ => countHandler) settled [] offered chips.length)
    (clean : settled.flatMap Settlement.failures = []) (distinct : chips.Nodup)
    (answered : ∀ chip ∈ chips, Answers passage.events chip (answer chip))
    : brought passage.events
      = (chips.map fun chip => (leadingWord (answer chip).payload).toNat).sum := by
  let word (promise : Promise) : Nat :=
    (leadingWord (answer promise.request.header.destination).payload).toNat
  have words : (passage.events.filterMap Errand.answer?).map
        (fun answer => (leadingWord answer.2).toNat)
      = (settled.map Settlement.promise).map word := by
    rw [← filterMap_told, traced.told, List.filterMap_flatMap,
      List.flatMap_congr fun settlement ended =>
        answer?_of_settled traced clean distinct answered ended]
    simp [← List.map_eq_flatMap, word, Function.comp_def]
  have polled
      : ((List.range chips.length).map
            (passage.promise (chipRequest application core chips) fun _ => countHandler)).map word
        = chips.map fun chip => (leadingWord (answer chip).payload).toNat := by
    rw [List.map_map]
    exact map_range_getD chips fun chip => (leadingWord (answer chip).payload).toNat
  have each := traced.promises.map word
  rw [List.append_nil, polled] at each
  rw [brought, words, each.sum_nat]

end Sum

-----------------------------------------------------------------------------------------
-- Counts
-----------------------------------------------------------------------------------------

variable {ρ : Type}

/-- A count over some events: which answers were taken for it, when it succeeds, and what it gives.
-/
structure Tallies (application : UInt8) (core : Core.State) (chips : List Chip)
    (events : List Event) (result : Except Halt UInt32) : Prop where
  /-- Each answer that was taken is for one of the chips, with the number of its request and a
  result that counts. -/
  taken
    : ∀ request response audience,
        .accepted request response audience ∈ events
        → ∃ chip ∈ chips,
            request = (countRequest application core chip).numbered response.sequence
            ∧ (response.result = .ok ∨ response.result = .p2pNoReply)
  /-- No other answer is taken for a chip. -/
  once
    : ∀ chip one other, Answers events chip one → Answers events chip other → one = other
  /-- Each chip is counted once, with the word in its answer. -/
  sums
    : ∀ answer : Chip → Response,
        (∀ chip ∈ chips, Answers events chip (answer chip))
        → brought events
          = (chips.map fun chip => (leadingWord (answer chip).payload).toNat).sum
  /-- An answer for every chip is all that a count needs, as long as the sum fits, and nothing less
  will do; the sum is exact. -/
  succeeds
    : ∀ total,
        result = .ok total
        ↔ (∀ chip ∈ chips, ∃ response, Answers events chip response)
          ∧ total.toNat = brought events
  /-- A sum that does not fit stops the program, whatever else happens. -/
  overflows : result = .error .overflow ↔ 2 ^ 32 ≤ brought events

/-- No chip is asked twice. -/
theorem nodup_countChips (session : Session ρ) : session.countChips.Nodup := by
  unfold countChips
  split
  · split
    · exact List.nodup_singleton _
    · exact Topology.nodup_ethernetChips _
  · exact List.nodup_singleton _

variable [Responder ρ]

/-- A count gives a sum exactly if its batch goes well and the sum is that of the answers. -/
theorem given_eq_ok_iff {events : Array Event} {verdict : Except Halt Unit} {sum : UInt32}
    : ((total events).bind fun sum => verdict.map fun () => sum) = .ok sum
      ↔ verdict = .ok () ∧ sum.toNat = brought events.toList := by
  rw [total_eq]
  split
  · next fits =>
      have exact_sum : (UInt32.ofNat (brought events.toList)).toNat = brought events.toList := by
        rw [UInt32.toNat_ofNat', Nat.mod_eq_of_lt fits]
      cases verdict with
      | error halt => simp [Except.bind, Except.map]
      | ok => simp [Except.bind, Except.map, ← UInt32.toNat_inj, exact_sum, eq_comm]
  · next many =>
      have small := sum.toNat_lt
      simp only [Except.bind, reduceCtorEq, false_iff, not_and]
      omega

/-- It stops at the sum exactly if the sum is too large. -/
theorem given_eq_overflow_iff {events : Array Event} {verdict : Except Halt Unit}
    (unstopped : verdict ≠ .error .overflow)
    : ((total events).bind fun sum => verdict.map fun () => sum) = .error .overflow
      ↔ 2 ^ 32 ≤ brought events.toList := by
  rw [total_eq]
  split
  · next fits =>
      refine iff_of_false ?_ (Nat.not_le.mpr fits)
      cases verdict with
      | error halt => simpa [Except.bind, Except.map] using unstopped
      | ok => simp [Except.bind, Except.map]
  · next many => exact iff_of_true rfl (Nat.not_lt.mp many)

/-- A batch about the counts of some chips tallies them. -/
theorem tallies_of_batch {hub after : Hub ρ} {config : Config} {application : UInt8}
    {core : Core.State} {chips : List Chip} {verdict : Except Halt Unit} (distinct : chips.Nodup)
    (fresh : hub.journal.toList = [])
    (done
      : hub.batch config chips.length (countOrder application core chips) = (verdict, after))
    : Tallies application core chips after.journal.toList
        ((total after.journal).bind fun sum => verdict.map fun () => sum) := by
  have made
      : ∀ index < chips.length,
          countOrder application core chips index
            = { request := .ok (chipRequest application core chips index)
                handler := countHandler } :=
    fun _ _ => rfl
  obtain ⟨passage, settled, left, offered, taken, traced, some_offered, within, paid, ended⟩ :=
    Hub.batch_traced made done
  have few : taken ≤ chips.length := Nat.le_trans some_offered within
  have apart : Set.InjOn
      (passage.promise (chipRequest application core chips) fun _ => countHandler)
      (Set.Iio chips.length) :=
    promise_injOn_of_nodup distinct
  have own : after.journal.toList = passage.events := by
    rw [traced.journal, fresh, List.nil_append]
  -- The batch goes well exactly if all chips have answered.
  have whole
      : verdict = .ok ()
        ↔ ∀ chip ∈ chips, ∃ response, Answers passage.events chip response := by
    rw [ended]
    constructor
    · rintro ⟨rfl, clean⟩ chip polled
      rw [paid rfl] at traced
      obtain ⟨index, early, rfl⟩ := List.getElem_of_mem polled
      obtain ⟨response, member, fine⟩ := traced.answered clean early
      exact ⟨response, _, _, member, List.getD_eq_getElem _ _ early,
        (countHandler_check_eq_ok_iff _).mp fine⟩
    · intro answered
      refine traced.faultless_of_endings apart few fun index early => ?_
      obtain ⟨response, answers⟩ := answered _ (getD_mem early)
      obtain ⟨_, _, _, _, long⟩ := id answers
      exact ⟨response, ends_of_answers traced distinct few early answers,
        (countHandler_check_eq_ok_iff _).mpr long⟩
  have unstopped : verdict ≠ .error .overflow := by
    have runs := hub.batch_ne_overflow config fun index within =>
      (congrArg Order.request (made index within)).trans_ne nofun
    rwa [done] at runs
  rw [own]
  refine ⟨?taken, ?once, ?sums, ?succeeds, ?overflows⟩
  case taken =>
    intro request response audience member
    obtain ⟨index, early, rfl, _⟩ := traced.heard member
    obtain ⟨number, accepts⟩ := traced.suited member
    refine ⟨_, getD_mem (Nat.lt_of_lt_of_le early few), ?_, ?_⟩
    · rw [← Option.some.inj number]
      rfl
    · simpa [Passage.request, Request.numbered, chipRequest, countRequest, Request.accepts]
        using accepts
  case once =>
    intro chip one other early late
    obtain ⟨request, audience, member, destination, long⟩ := id early
    obtain ⟨index, within, rfl, _, ended⟩ := traced.heard member
    obtain rfl := destination
    exact traced.same_ending (apart.mono (Set.Iio_subset_Iio few)) ended
      (ends_of_answers traced distinct few (Nat.lt_of_lt_of_le within few) late)
  case sums =>
    intro answer answered
    obtain ⟨rfl, clean⟩ :=
      ended.mp (whole.mpr fun chip polled => ⟨answer chip, answered chip polled⟩)
    rw [paid rfl] at traced
    exact brought_of_traced traced clean distinct answered
  case succeeds =>
    intro sum
    rw [← whole, ← own]
    exact given_eq_ok_iff
  case overflows =>
    rw [← own]
    exact given_eq_overflow_iff unstopped

/-- A count on an open session, for an application of its own, over connections that do whatever
they like. Each chip is asked once, and at most one answer is taken for it, in whatever order the
answers come and however often. The count succeeds exactly if an answer with a word was taken for
each chip and their sum fits into a word, and then gives the exact sum; a sum that does not fit is
no result but stops the program.
-/
theorem count_tallies {session after : Session ρ} {application : UInt8} {core : Core.State}
    {result : Except Halt UInt32} (open_still : session.closed = false) (own : application ≠ 0)
    (done : session.count application core = (result, after))
    : session.countChips.Nodup
      ∧ ∃ events,
          after.hub.journal.toList = session.hub.journal.toList ++ events
          ∧ Tallies application core session.countChips events result := by
  rw [count_of_own open_still own] at done
  generalize ran
    : Hub.batch { session.hub with journal := #[] } .countState session.countChips.length
        (countOrder application core session.countChips) = outcome at done
  obtain ⟨verdict, last⟩ := outcome
  obtain ⟨rfl, rfl⟩ := Prod.mk.inj done
  exact ⟨nodup_countChips session, last.journal.toList, Array.toList_append,
    tallies_of_batch (nodup_countChips session) rfl ran⟩

/-- The chip that an answer was taken for, and what it brought. -/
def heard? : Event → Option (Chip × List UInt8)
  | .accepted request response _ => some (request.header.destination, response.payload)
  | _ => none

/-- A word that was heard from a chip came in an answer. -/
theorem exists_answer_of_heard {events : List Event} {chip : Chip} {word : UInt32}
    (heard : (chip, Wire.word word) ∈ events.filterMap heard?)
    : ∃ response, Answers events chip response ∧ leadingWord response.payload = word := by
  obtain ⟨event, member, same⟩ := List.mem_filterMap.mp heard
  cases event with
  | accepted request response audience =>
      obtain ⟨destination, payload⟩ := Prod.mk.inj (Option.some.inj same)
      have long : 4 ≤ response.payload.length := by
        rw [payload]
        exact Nat.le_of_eq (Wire.length_word _).symm
      exact ⟨response, ⟨request, audience, member, destination, long⟩,
        by rw [payload, leadingWord_word]⟩
  | transmitted => cases same
  | failed => cases same

/-- What was heard from three chips are the words of their answers. -/
theorem answers_of_heard {events : List Event} {first second third : UInt32}
    (heard
      : events.filterMap heard?
        = [(⟨4, 8⟩, Wire.word third), (⟨8, 4⟩, Wire.word second), (.origin, Wire.word first)])
    : ∃ answer : Chip → Response,
        (∀ chip ∈ [.origin, ⟨8, 4⟩, ⟨4, 8⟩], Answers events chip (answer chip))
        ∧ ([.origin, ⟨8, 4⟩, ⟨4, 8⟩].map fun chip => (leadingWord (answer chip).payload).toNat)
          = [first.toNat, second.toNat, third.toNat] := by
  obtain ⟨corner, told, rfl⟩ :=
    exists_answer_of_heard (by simp [heard] : (.origin, Wire.word first) ∈ events.filterMap heard?)
  obtain ⟨right, said, rfl⟩ :=
    exists_answer_of_heard (by simp [heard] : (⟨8, 4⟩, Wire.word second) ∈ events.filterMap heard?)
  obtain ⟨upper, spoken, rfl⟩ :=
    exists_answer_of_heard (by simp [heard] : (⟨4, 8⟩, Wire.word third) ∈ events.filterMap heard?)
  let answer (chip : Chip) : Response :=
    if chip = .origin then corner else if chip = ⟨8, 4⟩ then right else upper
  refine ⟨answer, ?_, rfl⟩
  intro chip polled
  simp only [List.mem_cons, List.not_mem_nil, or_false] at polled
  rcases polled with rfl | rfl | rfl
  · exact told
  · exact said
  · exact spoken

/-- An answer that brings a word. -/
def wordAnswer (sequence : UInt16) (word : UInt32) : Arrival :=
  .datagram
    (Response.encode (.toMonitor .origin .replyNotExpected) .ok sequence (Wire.word word))

/-- A session with a machine of three sockets. Its board answers three requests the wrong way
round, the last one twice.
-/
def threeSockets (first second third : UInt32) : Session Transcript where
  hub :=
    { lines :=
        [{ connection :=
            { number := 0
              name := "board"
              chip := .origin
              peer :=
                { known :=
                    [{}, {},
                      { arrivals :=
                          [wordAnswer 2 third, wordAnswer 1 second, wordAnswer 2 third,
                            wordAnswer 0 first] }] } } }]
      selector := .mostDirect ⟨0, .origin⟩ [] (some ⟨12, 12⟩) }
  chipLines := 1
  boots := []
  config := {}

/-- The chips of these sockets. -/
theorem countChips_threeSockets (first second third : UInt32)
    : (threeSockets first second third).countChips = [.origin, ⟨8, 4⟩, ⟨4, 8⟩] := by
  change (⟨12, 12⟩ : Topology).ethernetChips = _
  decide

/-- The words 5, 7 and 11 make 23. -/
theorem count_tallies_threeSockets
    : ∃ total after,
        (threeSockets 5 7 11).count 1 .running = (.ok total, after) ∧ total.toNat = 23 := by
  have heard : ((threeSockets 5 7 11).count 1 .running).2.hub.journal.toList.filterMap heard?
      = [(⟨4, 8⟩, Wire.word 11), (⟨8, 4⟩, Wire.word 7), (.origin, Wire.word 5)] := by
    rw [count, countChips_threeSockets]
    cbv
  generalize done : (threeSockets 5 7 11).count 1 .running = outcome at heard
  obtain ⟨result, after⟩ := outcome
  obtain ⟨_, events, journal, tallies⟩ := count_tallies rfl (by decide) done
  obtain rfl : after.hub.journal.toList = events := journal
  obtain ⟨answer, answers, words⟩ := answers_of_heard heard
  rw [countChips_threeSockets] at tallies
  have sum := tallies.sums answer answers
  rw [words] at sum
  have succeeds := (tallies.succeeds 23).mpr
    ⟨fun chip polled => ⟨_, answers chip polled⟩, sum.symm⟩
  exact ⟨23, after, by rw [succeeds], rfl⟩

/-- All chips answer, but the words 2^32 - 1, 1 and 0 make 2^32, and there is no count. -/
theorem count_stops_at_sum
    : ∃ after,
        (threeSockets 0xffffffff 1 0).count 1 .running = (.error .overflow, after)
        ∧ ∃ answer : Chip → Response,
          let chips := (threeSockets 0xffffffff 1 0).countChips
          (∀ chip ∈ chips, Answers after.hub.journal.toList chip (answer chip))
          ∧ (chips.map fun chip => (leadingWord (answer chip).payload).toNat).sum = 2 ^ 32 := by
  have heard
      : ((threeSockets 0xffffffff 1 0).count 1 .running).2.hub.journal.toList.filterMap heard?
        = [(⟨4, 8⟩, Wire.word 0), (⟨8, 4⟩, Wire.word 1), (.origin, Wire.word 0xffffffff)] := by
    rw [count, countChips_threeSockets]
    cbv
  have stopped : ((threeSockets 0xffffffff 1 0).count 1 .running).1 = .error .overflow := by
    rw [count, countChips_threeSockets]
    cbv
  generalize done : (threeSockets 0xffffffff 1 0).count 1 .running = outcome at heard stopped
  obtain ⟨_, after⟩ := outcome
  obtain rfl := stopped
  obtain ⟨answer, answers, words⟩ := answers_of_heard heard
  rw [countChips_threeSockets]
  exact ⟨after, rfl, answer, answers, by rw [words]; rfl⟩

end Session

end MeshControl
