import MeshControl.Proofs.Link.Batch
import Mathlib.Data.Set.Function
import Mathlib.Order.Interval.Set.Basic

/-! Batches whose senders look at the answers. Whatever is asked of an answer, the requests of a
row go out in their order, each that was taken on ends once or is left behind when the row breaks
off, and the batch succeeds exactly if all were taken on and none of them failed.
-/

namespace MeshControl.Link

open Scp

-----------------------------------------------------------------------------------------
-- Rows that have come to an end
-----------------------------------------------------------------------------------------

namespace Passage

/-- What is known of a row however it went: so many of its requests were offered, in their order,
and so many of them were taken on; each of these ended, or was left behind.
-/
structure Traced (passage : Passage) (origin journal : List Event) (tag : UInt8)
    (plain : Nat → Request) (handler : Nat → Handler) (settled : List Settlement)
    (left : List Promise) (offered taken : Nat) : Prop where
  journal : journal = origin ++ passage.events
  tried : passage.InOrder tag plain (transmissions passage.events) offered
  promises
    : ((List.range taken).map (passage.promise plain handler)).Perm
        (settled.map Settlement.promise ++ left)
  told : told passage.events = settled.flatMap Settlement.events
  lawful : ∀ settlement ∈ settled, settlement.Lawful

/-- The answer ended a request of the row, whether or not its sender found fault with it. -/
def Ends (passage : Passage) (plain : Nat → Request) (handler : Nat → Handler)
    (settled : List Settlement) (index : Nat) (response : Response) : Prop :=
  ∃ settlement ∈ settled,
    settlement.promise = passage.promise plain handler index
    ∧ (settlement.outcome = .answered response
      ∨ ∃ error, settlement.outcome = .rejected response error)

variable {passage : Passage} {origin journal : List Event} {tag : UInt8} {plain : Nat → Request}
  {handler : Nat → Handler} {settled : List Settlement} {left : List Promise}
  {ledger after : Ledger}

/-- Where nobody is told of two requests of a row, its requests can be told apart. -/
theorem promise_injOn_of_audience
    (apart : Function.Injective fun index => (handler index).audience) (indices : Set Nat)
    : Set.InjOn (passage.promise plain handler) indices :=
  fun _ _ _ _ same =>
    apart (congrArg (fun promise : Promise => promise.handler.audience) same)

namespace Ongoing

/-- A row whose next request is not offered. -/
theorem traced (ongoing : passage.Ongoing origin tag plain handler settled ledger)
    : passage.Traced origin ledger.journal tag plain handler settled ledger.promises
        passage.numbers.length passage.numbers.length :=
  ⟨ongoing.journal, ongoing.tried, ongoing.promises, ongoing.told, ongoing.lawful⟩

/-- A row whose next request the connection refused. -/
theorem refused (ongoing : passage.Ongoing origin tag plain handler settled ledger)
    {number : UInt16} {connection : Nat} {error : Error}
    (written
      : after.journal
        = ledger.journal
          ++ [.transmitted connection
              (((plain passage.numbers.length).numbered number).datagram tag) (some error)])
    : ((passage.assign number).extend
          [.transmitted connection
            (((plain passage.numbers.length).numbered number).datagram tag)
            (some error)]).Traced
        origin after.journal tag plain handler settled ledger.promises
        (passage.numbers.length + 1) passage.numbers.length where
  journal := by
    rw [written, ongoing.journal, List.append_assoc]
    rfl
  tried := (ongoing.tried_next (some error)).extend _
  promises := (List.Perm.of_eq (map_promise_assign passage plain handler number)).trans
    ongoing.promises
  told := by
    change Link.told (passage.events ++ _) = _
    rw [told_append, ongoing.told]
    exact List.append_nil _
  lawful := ongoing.lawful

end Ongoing

namespace Traced

variable {offered taken : Nat}

/-- What ended is a request of the row that was taken on. -/
theorem promised
    (traced
      : passage.Traced origin journal tag plain handler settled left offered taken)
    {settlement : Settlement} (ended : settlement ∈ settled)
    : ∃ index < taken, settlement.promise = passage.promise plain handler index := by
  have listed := traced.promises.mem_iff.mpr
    (List.mem_append_left _ (List.mem_map_of_mem ended))
  obtain ⟨index, within, same⟩ := List.mem_map.mp listed
  exact ⟨index, List.mem_range.mp within, same.symm⟩

/-- An answer that was taken ended the request of the row that it is for. -/
theorem heard
    (traced
      : passage.Traced origin journal tag plain handler settled left offered taken)
    {request : Request} {response : Response} {audience : Audience}
    (member : .accepted request response audience ∈ passage.events)
    : ∃ index < taken,
        request = passage.request plain index
        ∧ audience = (handler index).audience
        ∧ passage.Ends plain handler settled index response := by
  have shown : .accepted request response audience ∈ Link.told passage.events :=
    List.mem_filter.mpr ⟨member, rfl⟩
  obtain ⟨settlement, ended, told⟩ := List.mem_flatMap.mp (traced.told ▸ shown)
  obtain ⟨index, within, promise⟩ := traced.promised ended
  have about : request = settlement.promise.request
      ∧ audience = settlement.promise.handler.audience
      ∧ (settlement.outcome = .answered response
        ∨ ∃ error, settlement.outcome = .rejected response error) := by
    obtain ⟨promise, outcome⟩ := settlement
    cases outcome with
    | answered =>
        cases List.mem_singleton.mp told
        exact ⟨rfl, rfl, .inl rfl⟩
    | rejected _ error =>
        rcases List.mem_cons.mp told with same | last
        · cases same
          exact ⟨rfl, rfl, .inr ⟨error, rfl⟩⟩
        · cases List.mem_singleton.mp last
    | failed => cases List.mem_singleton.mp told
  rw [promise] at about
  exact ⟨index, within, about.1, about.2.1, settlement, ended, promise, about.2.2⟩

/-- Such an answer has the number of its request, and a result that the request takes. -/
theorem suited
    (traced
      : passage.Traced origin journal tag plain handler settled left offered taken)
    {request : Request} {response : Response} {audience : Audience}
    (member : .accepted request response audience ∈ passage.events)
    : request.sequence = some response.sequence ∧ request.accepts response.result = true := by
  obtain ⟨index, _, rfl, _, ⟨promise, outcome⟩, ended, promised, ending⟩ := traced.heard member
  have lawful := traced.lawful _ ended
  obtain rfl : promise = passage.promise plain handler index := promised
  rcases ending with rfl | ⟨_, rfl⟩
  · exact ⟨lawful.1, lawful.2.1⟩
  · exact ⟨lawful.1, lawful.2.1⟩

/-- Where the requests of the row can be told apart, a request ends once. -/
theorem once
    (traced
      : passage.Traced origin journal tag plain handler settled left offered taken)
    (apart : Set.InjOn (passage.promise plain handler) (Set.Iio taken))
    {first second : Settlement} (one : first ∈ settled) (other : second ∈ settled)
    (same : first.promise = second.promise)
    : first = second := by
  have distinct : ((List.range taken).map (passage.promise plain handler)).Nodup :=
    List.nodup_range.map_on fun _ early _ late equal =>
      apart (List.mem_range.mp early) (List.mem_range.mp late) equal
  have ended := List.Nodup.of_append_left (traced.promises.nodup distinct)
  exact List.inj_on_of_nodup_map ended one other same

/-- Then the answers that ended a request are one. -/
theorem same_ending
    (traced
      : passage.Traced origin journal tag plain handler settled left offered taken)
    (apart : Set.InjOn (passage.promise plain handler) (Set.Iio taken)) {index : Nat}
    {one other : Response} (early : passage.Ends plain handler settled index one)
    (late : passage.Ends plain handler settled index other)
    : one = other := by
  obtain ⟨settlement, ended, promised, outcome⟩ := early
  obtain ⟨later, gone, kept, ending⟩ := late
  obtain rfl := traced.once apart ended gone (promised.trans kept.symm)
  rcases outcome with answered | ⟨_, rejected⟩
  · rcases ending with again | ⟨_, again⟩
    · cases answered.symm.trans again
      rfl
    · cases answered.symm.trans again
  · rcases ending with again | ⟨_, again⟩
    · cases rejected.symm.trans again
    · cases rejected.symm.trans again
      rfl

/-- Where nobody is told of two requests of the row, two answers that were taken for one sender are
the same answer to the same request.
-/
theorem same_answer
    (traced
      : passage.Traced origin journal tag plain handler settled left offered taken)
    (apart : Function.Injective fun index => (handler index).audience)
    {first second : Request} {one other : Response} {audience : Audience}
    (early : .accepted first one audience ∈ passage.events)
    (late : .accepted second other audience ∈ passage.events)
    : first = second ∧ one = other := by
  obtain ⟨index, _, rfl, here, ended⟩ := traced.heard early
  obtain ⟨place, _, rfl, there, gone⟩ := traced.heard late
  obtain rfl := apart (here.symm.trans there)
  exact ⟨rfl, traced.same_ending (promise_injOn_of_audience apart _) ended gone⟩

/-- A request whose sender finds fault with the answer has failed. -/
theorem failed
    (traced
      : passage.Traced origin journal tag plain handler settled left offered taken)
    {request : Request} {response : Response} {audience : Audience}
    (member : .accepted request response audience ∈ passage.events)
    (faulty
      : ∀ index,
          (handler index).audience = audience
          → ∃ error, (handler index).check response = .error error)
    : settled.flatMap Settlement.failures ≠ [] := by
  obtain ⟨index, _, _, about, ⟨promise, outcome⟩, ended, promised, ending⟩ :=
    traced.heard member
  obtain ⟨error, fault⟩ := faulty index about.symm
  have lawful := traced.lawful _ ended
  obtain rfl : promise = passage.promise plain handler index := promised
  intro faultless
  have clean := List.flatMap_eq_nil_iff.mp faultless _ ended
  rcases ending with rfl | ⟨_, rfl⟩
  · exact absurd (fault.symm.trans lawful.2.2) nofun
  · cases clean

/-- Where none failed and none is left behind, every request got an answer. -/
theorem answered
    (traced
      : passage.Traced origin journal tag plain handler settled [] offered taken)
    (faultless : settled.flatMap Settlement.failures = []) {index : Nat} (within : index < taken)
    : ∃ response,
        .accepted (passage.request plain index) response (handler index).audience
          ∈ passage.events
        ∧ (handler index).check response = .ok () := by
  have listed : passage.promise plain handler index ∈ settled.map Settlement.promise := by
    have member := traced.promises.mem_iff.mp
      (List.mem_map_of_mem (List.mem_range.mpr within))
    rwa [List.append_nil] at member
  obtain ⟨⟨promise, outcome⟩, ended, same⟩ := List.mem_map.mp listed
  obtain rfl : promise = passage.promise plain handler index := same
  have clean := List.flatMap_eq_nil_iff.mp faultless _ ended
  have lawful := traced.lawful _ ended
  cases outcome with
  | answered response =>
      have told : .accepted (passage.request plain index) response (handler index).audience
          ∈ Link.told passage.events := by
        rw [traced.told]
        exact List.mem_flatMap.mpr ⟨_, ended, List.mem_singleton.mpr rfl⟩
      exact ⟨response, (List.mem_filter.mp told).1, lawful.2.2⟩
  | rejected => cases clean
  | failed => cases clean

/-- Where every request of a row ended with a good answer, all were taken on, and none failed. -/
theorem faultless_of_endings
    (traced
      : passage.Traced origin journal tag plain handler settled left offered taken)
    {count : Nat} (apart : Set.InjOn (passage.promise plain handler) (Set.Iio count))
    (few : taken ≤ count)
    (good
      : ∀ index < count,
          ∃ response,
            passage.Ends plain handler settled index response
            ∧ (handler index).check response = .ok ())
    : taken = count ∧ settled.flatMap Settlement.failures = [] := by
  refine ⟨Nat.le_antisymm few (Nat.le_of_not_lt fun short => ?_), ?_⟩
  · obtain ⟨_, ⟨settlement, ended, promised, _⟩, _⟩ := good taken short
    obtain ⟨index, within, kept⟩ := traced.promised ended
    have same : taken = index :=
      apart short (Nat.lt_trans within short) (promised.symm.trans kept)
    omega
  · refine List.flatMap_eq_nil_iff.mpr fun settlement ended => ?_
    obtain ⟨index, within, promised⟩ := traced.promised ended
    obtain ⟨response, ⟨other, gone, kept, ending⟩, fine⟩ :=
      good index (Nat.lt_of_lt_of_le within few)
    obtain rfl := traced.once (apart.mono (Set.Iio_subset_Iio few)) ended gone
      (promised.trans kept.symm)
    have lawful := traced.lawful _ ended
    obtain ⟨promise, outcome⟩ := settlement
    obtain rfl : promise = passage.promise plain handler index := promised
    rcases ending with rfl | ⟨error, rfl⟩
    · rfl
    · exact absurd (fine.symm.trans lawful.2.2) nofun

/-- So it is where every sender of a row is told of a good answer, and nobody of two of them. -/
theorem faultless
    (traced
      : passage.Traced origin journal tag plain handler settled left offered taken)
    (apart : Function.Injective fun index => (handler index).audience)
    {count : Nat} (few : taken ≤ count)
    (good
      : ∀ index < count,
          ∃ request response,
            .accepted request response (handler index).audience ∈ passage.events
            ∧ (handler index).check response = .ok ())
    : taken = count ∧ settled.flatMap Settlement.failures = [] := by
  refine traced.faultless_of_endings (promise_injOn_of_audience apart _) few ?_
  intro index within
  obtain ⟨_, response, member, fine⟩ := good index within
  obtain ⟨place, _, _, about, ended⟩ := traced.heard member
  obtain rfl := apart about
  exact ⟨response, ended, fine⟩

end Traced

end Passage

-----------------------------------------------------------------------------------------
-- Processes with a row
-----------------------------------------------------------------------------------------

namespace Process

variable {ρ : Type} {origin : List Event} {tag : UInt8} {plain : Nat → Request}
  {handler : Nat → Handler} {passage : Passage} {hub after : Hub ρ} {process later : Process}
  {result : Except Halt Unit}

/-- A process that may still send the rest of a row. -/
structure Engaged (origin : List Event) (tag : UInt8) (plain : Nat → Request)
    (handler : Nat → Handler) (passage : Passage) (hub : Hub ρ) (process : Process) : Prop where
  seated : process.Seated hub.dispatchers
  tagged : process.config.tag = tag
  unfinished : process.finished = false
  ongoing : ∃ settled, passage.Ongoing origin tag plain handler settled (ledger hub process)

theorem Engaged.start (hub : Hub ρ) (config : Config) (plain : Nat → Request)
    (handler : Nat → Handler)
    : Engaged hub.journal.toList config.tag plain handler {} hub { config } where
  seated := by
    intro number window found
    cases found
  tagged := rfl
  unfinished := rfl
  ongoing := ⟨[], .start _ _ _ _⟩

/-- So far a process has gone: so many requests are on their way, or the row broke off before. -/
inductive Course (origin : List Event) (tag : UInt8) (plain : Nat → Request)
    (handler : Nat → Handler) : Nat → Except Halt Unit → Hub ρ → Process → Prop
  | onward {passage : Passage} {hub : Hub ρ} {process : Process}
    (engaged : Engaged origin tag plain handler passage hub process)
    : Course origin tag plain handler passage.numbers.length (.ok ()) hub process
  | halted {passage : Passage} {settled : List Settlement} {left : List Promise}
    {count offered taken : Nat} {halt : Halt} {hub : Hub ρ} {process : Process}
    (seated : process.Seated hub.dispatchers)
    (traced
      : passage.Traced origin hub.journal.toList tag plain handler settled left offered taken)
    (some_offered : taken ≤ offered) (within : offered ≤ count) (few : taken < count)
    : Course origin tag plain handler count (.error halt) hub process

variable [Responder ρ]

/-- One more request: older ones may end before, then it goes out or the row breaks off. -/
theorem Engaged.send (engaged : Engaged origin tag plain handler passage hub process)
    (done
      : Process.send hub process (plain passage.numbers.length) (handler passage.numbers.length)
        = (result, after, later))
    : Course origin tag plain handler (passage.numbers.length + 1) result after later := by
  obtain ⟨seated, tagged, unfinished, settled, ongoing⟩ := engaged
  obtain ⟨turn, finished, number, events, more, tried, taken,
    ⟨middle, settles, takes⟩, offered⟩ := send_turn seated done
  rw [tagged] at settles offered
  have drained := ongoing.settles settles
  cases offered with
  | withheld halt =>
      have traced := drained.traced
      rw [← List.append_nil middle.journal, ← takes.journal] at traced
      exact .halted turn.seated traced (Nat.le_refl _) (Nat.le_succ _) (Nat.lt_succ_self _)
  | refused connection error =>
      exact .halted turn.seated (drained.refused takes.journal) (Nat.le_succ _) (Nat.le_refl _)
        (Nat.lt_succ_self _)
  | sent connection =>
      have onward : Engaged origin tag plain handler _ after later :=
        ⟨turn.seated, by rw [turn.config, tagged], finished.trans unfinished, _,
          drained.sent takes⟩
      have course := Course.onward onward
      rwa [Passage.length_extend, Passage.length_assign, Passage.length_extend] at course

/-- So many requests one after another, by induction on their number. -/
theorem Engaged.sendAll {orders : Nat → Order} (count : Nat)
    (made
      : ∀ index < passage.numbers.length + count,
          orders index = { request := .ok (plain index), handler := handler index })
    (engaged : Engaged origin tag plain handler passage hub process)
    (done
      : Process.sendAll orders hub process passage.numbers.length count
        = (result, after, later))
    : Course origin tag plain handler (passage.numbers.length + count) result after later := by
  induction count generalizing passage hub process with
  | zero =>
      obtain ⟨rfl, rfl, rfl⟩ : .ok () = result ∧ hub = after ∧ process = later := by
        simpa [Process.sendAll] using done
      exact .onward engaged
  | succ count ih =>
      rw [Process.sendAll, made _ (by omega)] at done
      dsimp only at done
      generalize sent
        : Process.send hub process (plain passage.numbers.length) (handler passage.numbers.length)
          = outcome at done
      obtain ⟨verdict, middle, between⟩ := outcome
      have course := engaged.send sent
      generalize reached : passage.numbers.length + 1 = length at course
      cases course with
      | @onward next _ _ onward =>
          have remaining : passage.numbers.length + (count + 1)
              = next.numbers.length + count := by
            omega
          rw [remaining] at made ⊢
          rw [reached] at done
          exact ih made onward done
      | halted seated traced some_offered within few =>
          obtain ⟨rfl, rfl, rfl⟩ := by simpa using done
          exact .halted seated traced some_offered (by omega) (by omega)

/-- Once a process has waited for its row, every request has ended, and the check tells whether
one failed.
-/
theorem Engaged.finishAndCheck {result : Except Error Unit}
    (engaged : Engaged origin tag plain handler passage hub process)
    (done : Process.finishAndCheck hub process = (result, after, later))
    : later.Seated after.dispatchers
      ∧ ∃ events settled,
          (passage.extend events).Traced origin after.journal.toList tag plain handler settled []
            passage.numbers.length passage.numbers.length
          ∧ (result = .ok () ↔ settled.flatMap Settlement.failures = []) := by
  obtain ⟨seated, tagged, unfinished, settled, ongoing⟩ := engaged
  unfold Process.finishAndCheck at done
  generalize waited : Process.finish hub process = outcome at done
  obtain ⟨verdict, middle, between⟩ := outcome
  obtain ⟨turn, _, ⟨events, more, settles⟩, outcome⟩ := finish_turn seated waited
  rcases outcome with ⟨_, rfl, paid⟩ | ⟨again, _⟩
  · obtain ⟨rfl, rfl, rfl⟩ := by simpa using done
    rw [tagged] at settles
    have ended := ongoing.settles settles
    have traced := ended.traced
    have nothing_left : (ledger middle between).promises = [] := paid
    rw [nothing_left] at traced
    refine ⟨turn.seated, events, _, traced, ?_⟩
    rw [check_eq_ok_iff, ← ended.failures]
    rfl
  · rw [unfinished] at again
    cases again

end Process

/-- A batch offers its requests in their order, and succeeds exactly if all of them were taken on
and none failed; then none is left behind.
-/
theorem Hub.batch_traced {ρ : Type} [Responder ρ] {hub after : Hub ρ} {config : Config}
    {count : Nat} {orders : Nat → Order} {plain : Nat → Request} {handler : Nat → Handler}
    {result : Except Halt Unit}
    (made
      : ∀ index < count,
          orders index = { request := .ok (plain index), handler := handler index })
    (done : hub.batch config count orders = (result, after))
    : ∃ passage settled left offered taken,
        Passage.Traced passage hub.journal.toList after.journal.toList config.tag plain handler
          settled left offered taken
        ∧ taken ≤ offered
        ∧ offered ≤ count
        ∧ (taken = count → left = [])
        ∧ (result = .ok () ↔ taken = count ∧ settled.flatMap Settlement.failures = []) := by
  unfold Hub.batch at done
  generalize sent : Process.sendAll orders hub { config } 0 count = outcome at done
  obtain ⟨verdict, middle, between⟩ := outcome
  have course := (Process.Engaged.start hub config plain handler).sendAll count
    (by simpa using made) sent
  generalize reached : ({} : Passage).numbers.length + count = length at course
  have same : length = count := by simpa using reached.symm
  cases course with
  | onward engaged =>
      dsimp only at done
      generalize checked : Process.finishAndCheck middle between = ending at done
      obtain ⟨verdict, last, finished⟩ := ending
      obtain ⟨seated, events, settled, traced, verdict_iff⟩ := engaged.finishAndCheck checked
      obtain ⟨rfl, rfl⟩ := by simpa using done
      rw [← (Process.drop_yields seated).2] at traced
      refine ⟨_, settled, [], _, _, traced, Nat.le_refl _, Nat.le_of_eq same, fun _ => rfl, ?_⟩
      rw [mapError_eq_ok_iff, verdict_iff]
      simp [same]
  | halted seated traced some_offered within few =>
      obtain ⟨rfl, rfl⟩ := by simpa using done
      rw [← (Process.drop_yields seated).2] at traced
      refine ⟨_, _, _, _, _, traced, some_offered, by omega, fun whole => by omega, ?_⟩
      constructor
      · nofun
      · rintro ⟨whole, _⟩
        omega

/-- An exchange is a batch that gives its events if it succeeds. -/
theorem Hub.exchange_traced {ρ : Type} [Responder ρ] {hub after : Hub ρ} {config : Config}
    {count : Nat} {orders : Nat → Order} {plain : Nat → Request} {handler : Nat → Handler}
    {result : Except Halt (Array Event)}
    (made
      : ∀ index < count,
          orders index = { request := .ok (plain index), handler := handler index })
    (done : hub.exchange config count orders = (result, after))
    : ∃ passage settled left offered taken,
        Passage.Traced passage hub.journal.toList after.journal.toList config.tag plain handler
          settled left offered taken
        ∧ taken ≤ offered
        ∧ offered ≤ count
        ∧ (taken = count → left = [])
        ∧ ((∃ events, result = .ok events)
          ↔ taken = count ∧ settled.flatMap Settlement.failures = [])
        ∧ ∀ events, result = .ok events → events.toList = passage.events := by
  unfold Hub.exchange Hub.apart at done
  dsimp only at done
  generalize ran : Hub.batch { hub with journal := #[] } config count orders = outcome at done
  obtain ⟨verdict, last⟩ := outcome
  obtain ⟨rfl, rfl⟩ := Prod.mk.inj done
  obtain ⟨passage, settled, left, offered, taken, traced, some_offered, within, paid, whole⟩ :=
    Hub.batch_traced made ran
  have events : last.journal.toList = passage.events := by
    rw [traced.journal]
    exact List.nil_append _
  refine ⟨passage, settled, left, offered, taken, ?_, some_offered, within, paid, ?_, ?_⟩
  · have written
        : (hub.journal ++ last.journal).toList = hub.journal.toList ++ passage.events := by
      rw [Array.toList_append, events]
    exact ⟨written, traced.tried, traced.promises, traced.told, traced.lawful⟩
  · rw [← whole]
    cases verdict with
    | ok => exact ⟨fun _ => rfl, fun _ => ⟨_, rfl⟩⟩
    | error => exact ⟨nofun, nofun⟩
  · intro given same
    cases verdict with
    | ok =>
        cases same
        exact events
    | error => cases same

end MeshControl.Link
