import MeshControl.Proofs.Link.Turn
import Mathlib.Data.List.Range

/-! A process that sends a row of requests and then waits. The requests go out for the first time
in their order, whatever goes out again in between, and the process reports success exactly if
every one of them was accepted.
-/

namespace MeshControl.Link

open Scp

-----------------------------------------------------------------------------------------
-- Passages
-----------------------------------------------------------------------------------------

/-- The request that was accepted, if the event tells of one. -/
def Event.accepted? : Event → Option Request
  | .accepted request _ _ => some request
  | _ => none

/-- The requests that were accepted, in the order of their answers. -/
def acceptances (events : List Event) : List Request :=
  events.filterMap Event.accepted?

/-- The datagram of a transmission that the connection took. -/
def Event.delivered? : Event → Option Datagram
  | .transmitted _ datagram none => some datagram
  | _ => none

/-- What the connections took, in order. -/
def deliveries (events : List Event) : List Datagram :=
  events.filterMap Event.delivered?

/-- The event tells that a request failed. -/
def Event.isFailure : Event → Bool
  | .failed .. => true
  | _ => false

/-- What happened while a row of requests was sent and waited for, and the sequence numbers
that they were given.
-/
structure Passage where
  events : List Event := []
  numbers : List UInt16 := []

namespace Passage

/-- A request of the row under its number. -/
def request (passage : Passage) (plain : Nat → Request) (index : Nat) : Request :=
  (plain index).numbered (passage.numbers.getD index 0)

/-- These are datagrams of the row, so many of them, each for the first time only after those
before it.
-/
def InOrder (passage : Passage) (tag : UInt8) (plain : Nat → Request) (datagrams : List Datagram)
    (count : Nat) : Prop :=
  ∃ labels : List Nat,
    datagrams = labels.map (fun index => (passage.request plain index).datagram tag)
    ∧ labels.eraseDups = List.range count

/-- Only the row was sent, in its order; so it was tried, and so the connections took it. -/
def Ordered (passage : Passage) (tag : UInt8) (plain : Nat → Request) (count : Nat) : Prop :=
  (∃ offered ≤ count, passage.InOrder tag plain (transmissions passage.events) offered)
    ∧ ∃ sent ≤ count, passage.InOrder tag plain (deliveries passage.events) sent

/-- Every request of the row was accepted. -/
def Complete (passage : Passage) (plain : Nat → Request) (count : Nat) : Prop :=
  (acceptances passage.events).Perm ((List.range count).map (passage.request plain))

/-- Some request failed. -/
def Failed (passage : Passage) : Prop :=
  ∃ event ∈ passage.events, event.isFailure = true

/-- More has happened. -/
def extend (passage : Passage) (events : List Event) : Passage :=
  { passage with events := passage.events ++ events }

/-- One more request has its number. -/
def assign (passage : Passage) (number : UInt16) : Passage :=
  { passage with numbers := passage.numbers ++ [number] }

theorem length_extend (passage : Passage) (events : List Event)
    : (passage.extend events).numbers.length = passage.numbers.length :=
  rfl

theorem length_assign (passage : Passage) (number : UInt16)
    : (passage.assign number).numbers.length = passage.numbers.length + 1 := by
  simp [assign]

theorem request_assign {passage : Passage} (plain : Nat → Request) (number : UInt16)
    {index : Nat} (known : index < passage.numbers.length)
    : (passage.assign number).request plain index = passage.request plain index := by
  simp [request, assign, List.getElem?_append_left known]

theorem request_assign_last (passage : Passage) (plain : Nat → Request) (number : UInt16)
    : (passage.assign number).request plain passage.numbers.length
      = (plain passage.numbers.length).numbered number := by
  simp [request, assign]

end Passage

theorem acceptances_append (first second : List Event)
    : acceptances (first ++ second) = acceptances first ++ acceptances second :=
  List.filterMap_append

theorem deliveries_append (first second : List Event)
    : deliveries (first ++ second) = deliveries first ++ deliveries second :=
  List.filterMap_append

/-- What a connection took was tried. -/
theorem deliveries_subset (events : List Event)
    : deliveries events ⊆ transmissions events := by
  intro datagram member
  obtain ⟨event, listed, taken⟩ := List.mem_filterMap.mp member
  refine List.mem_filterMap.mpr ⟨event, listed, ?_⟩
  cases event with
  | transmitted connection datagram refusal =>
      cases refusal with
      | none => exact taken
      | some error => cases taken
  | accepted => cases taken
  | failed => cases taken

-----------------------------------------------------------------------------------------
-- First times
-----------------------------------------------------------------------------------------

/-- A list of values of a function has a list of arguments. -/
theorem exists_labels {α : Type} {value : Nat → α} {bound : Nat} (values : List α)
    (all : ∀ item ∈ values, ∃ index < bound, value index = item)
    : ∃ labels : List Nat, values = labels.map value ∧ ∀ label ∈ labels, label < bound := by
  induction values with
  | nil => exact ⟨[], rfl, by simp⟩
  | cons item rest ih =>
      obtain ⟨index, within, here⟩ := all item List.mem_cons_self
      obtain ⟨labels, same, bounded⟩ :=
        ih fun other member => all other (List.mem_cons_of_mem _ member)
      refine ⟨index :: labels, by rw [same, List.map_cons, here], ?_⟩
      intro label member
      rcases List.mem_cons.mp member with rfl | later
      · exact within
      · exact bounded label later

theorem mem_of_eraseDups {labels : List Nat} {count : Nat}
    (first : labels.eraseDups = List.range count) (label : Nat)
    : label ∈ labels ↔ label < count := by
  rw [← List.mem_eraseDups, first, List.mem_range]

/-- What goes out again changes no first time. -/
theorem eraseDups_repeated {labels again : List Nat} {count : Nat}
    (first : labels.eraseDups = List.range count) (known : ∀ label ∈ again, label < count)
    : (labels ++ again).eraseDups = List.range count := by
  have none_new : again.removeAll labels = [] := by
    simp only [List.removeAll, List.filter_eq_nil_iff]
    intro label member
    simp [(mem_of_eraseDups first label).mpr (known label member)]
  rw [List.eraseDups_append, first, none_new]
  simp

/-- The next in order goes out for its first time. -/
theorem eraseDups_next {labels : List Nat} {count : Nat}
    (first : labels.eraseDups = List.range count)
    : (labels ++ [count]).eraseDups = List.range (count + 1) := by
  have new : count ∉ labels := by
    rw [mem_of_eraseDups first]
    omega
  have kept : [count].removeAll labels = [count] := by
    simp [List.removeAll, new]
  rw [List.eraseDups_append, first, kept, List.range_succ]
  rfl

namespace Passage

variable {passage : Passage} {tag : UInt8} {plain : Nat → Request} {datagrams : List Datagram}
  {count : Nat}

theorem InOrder.nil (passage : Passage) (tag : UInt8) (plain : Nat → Request)
    : passage.InOrder tag plain [] 0 :=
  ⟨[], rfl, rfl⟩

/-- What the requests go out as does not change while others get their numbers. -/
theorem InOrder.assign (ordered : passage.InOrder tag plain datagrams count)
    (known : count ≤ passage.numbers.length) (number : UInt16)
    : (passage.assign number).InOrder tag plain datagrams count := by
  obtain ⟨labels, same, first⟩ := ordered
  refine ⟨labels, ?_, first⟩
  rw [same]
  apply List.map_congr_left
  intro index member
  have within : index < passage.numbers.length :=
    Nat.lt_of_lt_of_le ((mem_of_eraseDups first index).mp member) known
  rw [request_assign plain number within]

/-- What happens later does not change what the requests go out as. -/
theorem InOrder.extend (ordered : passage.InOrder tag plain datagrams count)
    (events : List Event)
    : (passage.extend events).InOrder tag plain datagrams count :=
  ordered

theorem InOrder.repeated {again : List Datagram}
    (ordered : passage.InOrder tag plain datagrams count)
    (known
      : ∀ datagram ∈ again,
          ∃ index < count, (passage.request plain index).datagram tag = datagram)
    : passage.InOrder tag plain (datagrams ++ again) count := by
  obtain ⟨labels, same, first⟩ := ordered
  obtain ⟨more, repeats, bounded⟩ := exists_labels again known
  refine ⟨labels ++ more, ?_, eraseDups_repeated first bounded⟩
  rw [List.map_append, ← same, ← repeats]

theorem InOrder.next (ordered : passage.InOrder tag plain datagrams count)
    : passage.InOrder tag plain (datagrams ++ [(passage.request plain count).datagram tag])
        (count + 1) := by
  obtain ⟨labels, same, first⟩ := ordered
  refine ⟨labels ++ [count], ?_, eraseDups_next first⟩
  rw [List.map_append, ← same, List.map_singleton]

end Passage

-----------------------------------------------------------------------------------------
-- Settlements of requests that ask for nothing but success
-----------------------------------------------------------------------------------------

namespace Settlement

def isAnswered (settlement : Settlement) : Bool :=
  match settlement.outcome with
  | .answered _ => true
  | _ => false

/-- A request without a test of its own is either accepted or fails, and shows as that. -/
theorem plain_cases {settlement : Settlement} (lawful : settlement.Lawful)
    (plain : settlement.promise.handler = {})
    : (settlement.isAnswered = true
        ∧ acceptances settlement.events = [settlement.promise.request]
        ∧ settlement.failures = []
        ∧ ∀ event ∈ settlement.events, event.isFailure = false)
      ∨ (settlement.isAnswered = false
        ∧ acceptances settlement.events = []
        ∧ settlement.failures ≠ []) := by
  obtain ⟨promise, outcome⟩ := settlement
  cases outcome with
  | answered response =>
      refine .inl ⟨rfl, rfl, rfl, ?_⟩
      intro event member
      cases List.mem_singleton.mp member
      rfl
  | rejected response error =>
      obtain ⟨_, _, verdict⟩ := lawful
      rw [plain] at verdict
      cases verdict
  | failed error => exact .inr ⟨rfl, rfl, by simp [failures]⟩

end Settlement

theorem acceptances_told (events : List Event)
    : acceptances (told events) = acceptances events := by
  induction events with
  | nil => rfl
  | cons event rest ih =>
      cases event with
      | transmitted => exact ih
      | accepted request _ _ => exact congrArg (request :: ·) ih
      | failed => exact ih

/-- What was accepted are the requests whose settlements are answers, in order. -/
theorem acceptances_settled {settled : List Settlement}
    (lawful : ∀ settlement ∈ settled, settlement.Lawful)
    (plain : ∀ settlement ∈ settled, settlement.promise.handler = {})
    : acceptances (settled.flatMap Settlement.events)
      = (settled.filter Settlement.isAnswered).map fun settlement =>
          settlement.promise.request := by
  induction settled with
  | nil => rfl
  | cons settlement rest ih =>
      simp only [List.forall_mem_cons] at lawful plain
      have later := ih lawful.2 plain.2
      rw [List.flatMap_cons, acceptances_append, later]
      rcases Settlement.plain_cases lawful.1 plain.1 with ⟨yes, own, _⟩ | ⟨no, own, _⟩
      · rw [own, List.filter_cons_of_pos yes]
        rfl
      · rw [own, List.filter_cons_of_neg (by simp [no])]
        rfl

/-- Nothing is left to collect exactly if every settlement is an answer. -/
theorem failures_eq_nil_iff {settled : List Settlement}
    (lawful : ∀ settlement ∈ settled, settlement.Lawful)
    (plain : ∀ settlement ∈ settled, settlement.promise.handler = {})
    : settled.flatMap Settlement.failures = []
      ↔ ∀ settlement ∈ settled, settlement.isAnswered = true := by
  rw [List.flatMap_eq_nil_iff]
  constructor
  · intro empty settlement member
    rcases Settlement.plain_cases (lawful settlement member) (plain settlement member) with
      ⟨yes, _⟩ | ⟨_, _, nonempty⟩
    · exact yes
    · exact absurd (empty settlement member) nonempty
  · intro answered settlement member
    rcases Settlement.plain_cases (lawful settlement member) (plain settlement member) with
      ⟨_, _, empty, _⟩ | ⟨no, _⟩
    · exact empty
    · rw [answered settlement member] at no
      cases no

-----------------------------------------------------------------------------------------
-- On the way through a row
-----------------------------------------------------------------------------------------

namespace Passage

/-- A request of the row under its number, with what its sender wants of the answer. -/
def promise (passage : Passage) (plain : Nat → Request) (handler : Nat → Handler) (index : Nat)
    : Promise :=
  ⟨passage.request plain index, handler index⟩

/-- The first requests of a row are on their way, whatever their senders want: each has its number
and went out in order, and each is settled or still promised.
-/
structure Ongoing (passage : Passage) (origin : List Event) (tag : UInt8) (plain : Nat → Request)
    (handler : Nat → Handler) (settled : List Settlement) (ledger : Ledger) : Prop where
  journal : ledger.journal = origin ++ passage.events
  tried : passage.InOrder tag plain (transmissions passage.events) passage.numbers.length
  promises
    : ((List.range passage.numbers.length).map (passage.promise plain handler)).Perm
        (settled.map Settlement.promise ++ ledger.promises)
  told : told passage.events = settled.flatMap Settlement.events
  failures : ledger.failures = settled.flatMap Settlement.failures
  lawful : ∀ settlement ∈ settled, settlement.Lawful

theorem map_promise_assign (passage : Passage) (plain : Nat → Request) (handler : Nat → Handler)
    (number : UInt16)
    : (List.range passage.numbers.length).map ((passage.assign number).promise plain handler)
      = (List.range passage.numbers.length).map (passage.promise plain handler) := by
  apply List.map_congr_left
  intro index member
  rw [promise, request_assign plain number (List.mem_range.mp member)]
  rfl

namespace Ongoing

variable {origin : List Event} {tag : UInt8} {plain : Nat → Request} {handler : Nat → Handler}
  {passage : Passage} {settled : List Settlement} {ledger after : Ledger}

theorem start (origin : List Event) (tag : UInt8) (plain : Nat → Request)
    (handler : Nat → Handler)
    : Ongoing {} origin tag plain handler [] ⟨origin, [], []⟩ where
  journal := (List.append_nil _).symm
  tried := .nil _ _ _
  promises := .refl _
  told := rfl
  failures := rfl
  lawful := by simp

/-- Only requests that have their numbers go out again. -/
theorem repeats (ongoing : passage.Ongoing origin tag plain handler settled ledger)
    {datagram : Datagram}
    (repeated : ∃ promise ∈ ledger.promises, promise.request.datagram tag = datagram)
    : ∃ index < passage.numbers.length,
        (passage.request plain index).datagram tag = datagram := by
  obtain ⟨promise, promised, same⟩ := repeated
  have listed := ongoing.promises.mem_iff.mpr (List.mem_append_right _ promised)
  obtain ⟨index, within, rfl⟩ := List.mem_map.mp listed
  exact ⟨index, List.mem_range.mp within, same⟩

/-- Older requests that end, and go out again until then, change nothing of the order. -/
theorem settles (ongoing : passage.Ongoing origin tag plain handler settled ledger)
    {events : List Event} {more : List Settlement}
    (settles : Ledger.Settles tag ledger after events more)
    : (passage.extend events).Ongoing origin tag plain handler (settled ++ more) after where
  journal := by
    rw [settles.journal, ongoing.journal, List.append_assoc]
    rfl
  tried := by
    change (passage.extend events).InOrder tag plain (transmissions (passage.events ++ events)) _
    rw [transmissions_append]
    exact ongoing.tried.repeated fun datagram member =>
      ongoing.repeats (settles.repeats datagram member)
  promises := by
    have left := settles.promises.append_left (settled.map Settlement.promise)
    rw [List.map_append, List.append_assoc]
    exact ongoing.promises.trans left
  told := by
    change Link.told (passage.events ++ events) = _
    rw [told_append, ongoing.told, settles.told, List.flatMap_append]
  failures := by rw [settles.failures, ongoing.failures, List.flatMap_append]
  lawful := by
    intro settlement member
    rcases List.mem_append.mp member with early | late
    · exact ongoing.lawful settlement early
    · exact settles.lawful settlement late

/-- The next request is offered under its number, whether or not it is taken. -/
theorem tried_next (ongoing : passage.Ongoing origin tag plain handler settled ledger)
    {number : UInt16} {connection : Nat} (refusal : Option Error)
    : (passage.assign number).InOrder tag plain
        (transmissions
          (passage.events
            ++ [.transmitted connection
                (((plain passage.numbers.length).numbered number).datagram tag) refusal]))
        (passage.numbers.length + 1) := by
  have next := (ongoing.tried.assign (Nat.le_refl _) number).next
  rw [request_assign_last] at next
  rw [transmissions_append]
  exact next

/-- The next request goes out and is promised from then on. -/
theorem sent (ongoing : passage.Ongoing origin tag plain handler settled ledger)
    {number : UInt16} {connection : Nat}
    (takes
      : Ledger.Takes ledger after
          [.transmitted connection
            (((plain passage.numbers.length).numbered number).datagram tag) none]
          [⟨(plain passage.numbers.length).numbered number, handler passage.numbers.length⟩])
    : ((passage.assign number).extend
          [.transmitted connection
            (((plain passage.numbers.length).numbered number).datagram tag) none]).Ongoing
        origin tag plain handler settled after where
  journal := by
    rw [takes.journal, ongoing.journal, List.append_assoc]
    rfl
  tried := by
    change (passage.assign number).InOrder tag plain _ (passage.assign number).numbers.length
    rw [length_assign]
    exact ongoing.tried_next none
  promises := by
    have last : (passage.assign number).promise plain handler passage.numbers.length
        = ⟨(plain passage.numbers.length).numbered number, handler passage.numbers.length⟩ := by
      rw [promise, request_assign_last]
    change ((List.range (passage.assign number).numbers.length).map
      ((passage.assign number).promise plain handler)).Perm _
    rw [length_assign, List.range_succ, List.map_append, map_promise_assign, List.map_singleton,
      last]
    refine (ongoing.promises.append_right _).trans ?_
    rw [List.append_assoc]
    exact takes.promises.append_left _
  told := by
    change Link.told (passage.events ++ _) = _
    rw [told_append, ongoing.told]
    exact List.append_nil _
  failures := by rw [takes.failures, ongoing.failures]
  lawful := ongoing.lawful

end Ongoing

/-- The first requests of a row are on their way: each has its number and went out in order, and
each is settled or still promised.
-/
structure Progress (passage : Passage) (origin : List Event) (tag : UInt8) (plain : Nat → Request)
    (settled : List Settlement) (ledger : Ledger) : Prop where
  journal : ledger.journal = origin ++ passage.events
  tried : passage.InOrder tag plain (transmissions passage.events) passage.numbers.length
  taken : passage.InOrder tag plain (deliveries passage.events) passage.numbers.length
  promises
    : ((List.range passage.numbers.length).map fun index =>
        (⟨passage.request plain index, {}⟩ : Promise)).Perm
        (settled.map Settlement.promise ++ ledger.promises)
  told : told passage.events = settled.flatMap Settlement.events
  failures : ledger.failures = settled.flatMap Settlement.failures
  lawful : ∀ settlement ∈ settled, settlement.Lawful

namespace Progress

variable {origin : List Event} {tag : UInt8} {plain : Nat → Request} {passage : Passage}
  {settled : List Settlement} {ledger after : Ledger}

theorem start (origin : List Event) (tag : UInt8) (plain : Nat → Request)
    : Progress {} origin tag plain [] ⟨origin, [], []⟩ where
  journal := (List.append_nil _).symm
  tried := .nil _ _ _
  taken := .nil _ _ _
  promises := .refl _
  told := rfl
  failures := rfl
  lawful := by simp

/-- A row of plain requests is a row. -/
theorem ongoing (progress : passage.Progress origin tag plain settled ledger)
    : passage.Ongoing origin tag plain (fun _ => {}) settled ledger :=
  ⟨progress.journal, progress.tried, progress.promises, progress.told, progress.failures,
    progress.lawful⟩

theorem of_ongoing (ongoing : passage.Ongoing origin tag plain (fun _ => {}) settled ledger)
    (taken
      : passage.InOrder tag plain (deliveries passage.events) passage.numbers.length)
    : passage.Progress origin tag plain settled ledger :=
  ⟨ongoing.journal, ongoing.tried, taken, ongoing.promises, ongoing.told, ongoing.failures,
    ongoing.lawful⟩

/-- Older requests that end, and go out again until then, change nothing of the order. -/
theorem settles (progress : passage.Progress origin tag plain settled ledger)
    {events : List Event} {more : List Settlement}
    (settles : Ledger.Settles tag ledger after events more)
    : (passage.extend events).Progress origin tag plain (settled ++ more) after := by
  refine .of_ongoing (progress.ongoing.settles settles) ?_
  change (passage.extend events).InOrder tag plain (deliveries (passage.events ++ events)) _
  rw [deliveries_append]
  exact progress.taken.repeated fun datagram member =>
    progress.ongoing.repeats (settles.repeats datagram (deliveries_subset events member))

/-- The next request goes out and is promised from then on. -/
theorem sent (progress : passage.Progress origin tag plain settled ledger) {number : UInt16}
    {connection : Nat}
    (takes
      : Ledger.Takes ledger after
          [.transmitted connection
            (((plain passage.numbers.length).numbered number).datagram tag) none]
          [⟨(plain passage.numbers.length).numbered number, {}⟩])
    : ((passage.assign number).extend
          [.transmitted connection
            (((plain passage.numbers.length).numbered number).datagram tag) none]).Progress
        origin tag plain settled after := by
  refine .of_ongoing (progress.ongoing.sent takes) ?_
  have next := (progress.taken.assign (Nat.le_refl _) number).next
  rw [request_assign_last, ← length_assign passage number] at next
  change InOrder _ tag plain (deliveries (passage.events ++ _)) _
  rw [deliveries_append]
  exact next.extend _

/-- The requests ask for nothing but success. -/
theorem plain_handlers (progress : passage.Progress origin tag plain settled ledger)
    : ∀ settlement ∈ settled, settlement.promise.handler = {} := by
  intro settlement member
  have listed := progress.promises.mem_iff.mpr
    (List.mem_append_left _ (List.mem_map_of_mem member))
  obtain ⟨_, _, same⟩ := List.mem_map.mp listed
  rw [← same]

/-- What was accepted are the requests whose settlements are answers. -/
theorem acceptances (progress : passage.Progress origin tag plain settled ledger)
    : acceptances passage.events
      = (settled.filter Settlement.isAnswered).map fun settlement =>
          settlement.promise.request := by
  rw [← acceptances_told, progress.told]
  exact acceptances_settled progress.lawful progress.plain_handlers

/-- Every settlement is that of a request that went out. -/
theorem settled_le (progress : passage.Progress origin tag plain settled ledger)
    : settled.length ≤ passage.numbers.length := by
  have lengths := progress.promises.length_eq
  simp only [List.length_map, List.length_range, List.length_append] at lengths
  omega

theorem acceptances_le (progress : passage.Progress origin tag plain settled ledger)
    : (Link.acceptances passage.events).length ≤ passage.numbers.length := by
  rw [progress.acceptances, List.length_map]
  exact Nat.le_trans (List.length_filter_le _ _) progress.settled_le

/-- Once nothing is promised any more, the row is complete exactly if nothing failed. -/
theorem complete_iff (progress : passage.Progress origin tag plain settled ledger)
    (paid : ledger.promises = [])
    : passage.Complete plain passage.numbers.length ↔ ledger.failures = [] := by
  have requests : ((List.range passage.numbers.length).map (passage.request plain)).Perm
      (settled.map fun settlement => settlement.promise.request) := by
    have all := progress.promises.map Promise.request
    rw [paid, List.append_nil, List.map_map, List.map_map] at all
    exact all
  rw [progress.failures, failures_eq_nil_iff progress.lawful progress.plain_handlers]
  simp only [Complete]
  rw [progress.acceptances]
  constructor
  · intro complete
    have same_length := complete.length_eq.trans requests.length_eq
    simp only [List.length_map] at same_length
    exact List.length_filter_eq_length_iff.mp same_length
  · intro answered
    rw [List.filter_eq_self.mpr answered]
    exact requests.symm

/-- In a row that is complete nothing has failed. -/
theorem spotless (progress : passage.Progress origin tag plain settled ledger)
    (collected : ledger.failures = [])
    : ¬ passage.Failed := by
  rintro ⟨event, member, failed⟩
  have answered := (failures_eq_nil_iff progress.lawful progress.plain_handlers).mp
    (progress.failures ▸ collected)
  have shown : event ∈ Link.told passage.events := by
    refine List.mem_filter.mpr ⟨member, ?_⟩
    cases event with
    | failed => rfl
    | transmitted => cases failed
    | accepted => cases failed
  rw [progress.told] at shown
  obtain ⟨settlement, listed, own⟩ := List.mem_flatMap.mp shown
  rcases Settlement.plain_cases (progress.lawful settlement listed)
      (progress.plain_handlers settlement listed) with ⟨_, _, _, clean⟩ | ⟨unanswered, _⟩
  · rw [clean event own] at failed
    cases failed
  · rw [answered settlement listed] at unanswered
    cases unanswered

end Progress

-----------------------------------------------------------------------------------------
-- The end of a row
-----------------------------------------------------------------------------------------

/-- A row came to its end before all of its requests had been sent. -/
structure Broken (passage : Passage) (origin journal : List Event) (tag : UInt8)
    (plain : Nat → Request) (count : Nat) : Prop where
  journal : journal = origin ++ passage.events
  ordered : passage.Ordered tag plain count
  few : (acceptances passage.events).length < count

/-- The result of a row tells whether all of its requests were accepted. -/
structure Reported (passage : Passage) (origin journal : List Event) (tag : UInt8)
    (plain : Nat → Request) (count : Nat) (result : Except Halt Unit) : Prop where
  journal : journal = origin ++ passage.events
  ordered : passage.Ordered tag plain count
  verdict : result = .ok () ↔ passage.Complete plain count
  failed : passage.Failed → ¬ passage.Complete plain count

variable {origin journal : List Event} {tag : UInt8} {plain : Nat → Request} {passage : Passage}
  {count : Nat}

theorem Broken.later {total : Nat} (broken : passage.Broken origin journal tag plain count)
    (within : count ≤ total)
    : passage.Broken origin journal tag plain total := by
  obtain ⟨⟨offered, some_offered, tried⟩, sent, some_sent, taken⟩ := broken.ordered
  exact ⟨broken.journal, ⟨⟨offered, Nat.le_trans some_offered within, tried⟩,
    sent, Nat.le_trans some_sent within, taken⟩, Nat.lt_of_lt_of_le broken.few within⟩

/-- A row that broke off is not complete, and ends in an error. -/
theorem Broken.reported (broken : passage.Broken origin journal tag plain count)
    (halt : Halt)
    : passage.Reported origin journal tag plain count (.error halt) := by
  have incomplete : ¬ passage.Complete plain count := by
    intro complete
    have lengths := complete.length_eq
    simp only [List.length_map, List.length_range] at lengths
    have := broken.few
    omega
  refine ⟨broken.journal, broken.ordered, ?_, fun _ => incomplete⟩
  constructor
  · intro impossible
    cases impossible
  · intro complete
    exact absurd complete incomplete

namespace Progress

variable {settled : List Settlement} {ledger after : Ledger}

theorem ordered (progress : passage.Progress origin tag plain settled ledger)
    : passage.Ordered tag plain passage.numbers.length :=
  ⟨⟨_, Nat.le_refl _, progress.tried⟩, _, Nat.le_refl _, progress.taken⟩

/-- A row of which the next request is never sent. -/
theorem stopped (progress : passage.Progress origin tag plain settled ledger)
    : passage.Broken origin ledger.journal tag plain (passage.numbers.length + 1) := by
  refine ⟨progress.journal, ?_, Nat.lt_succ_of_le progress.acceptances_le⟩
  exact ⟨⟨_, Nat.le_succ _, progress.tried⟩, _, Nat.le_succ _, progress.taken⟩

/-- A row whose next request the connection refused. -/
theorem refused (progress : passage.Progress origin tag plain settled ledger) {number : UInt16}
    {connection : Nat} {error : Error}
    (written
      : after.journal = ledger.journal
        ++ [.transmitted connection
          (((plain passage.numbers.length).numbered number).datagram tag) (some error)])
    : ((passage.assign number).extend
          [.transmitted connection
            (((plain passage.numbers.length).numbered number).datagram tag)
            (some error)]).Broken
        origin after.journal tag plain (passage.numbers.length + 1) := by
  have taken := progress.taken.assign (Nat.le_refl _) number
  refine ⟨?_, ⟨⟨passage.numbers.length + 1, Nat.le_refl _, ?_⟩,
    passage.numbers.length, Nat.le_succ _, ?_⟩, ?_⟩
  · rw [written, progress.journal, List.append_assoc]
    rfl
  · exact (progress.ongoing.tried_next (some error)).extend _
  · change InOrder _ tag plain (deliveries (passage.events ++ _)) _
    rw [deliveries_append]
    exact (List.append_nil (deliveries passage.events)).symm ▸ taken.extend _
  · change (Link.acceptances (passage.events ++ _)).length < _
    rw [acceptances_append]
    exact (List.append_nil (Link.acceptances passage.events)).symm
      ▸ Nat.lt_succ_of_le progress.acceptances_le

/-- A row in which every request has ended. -/
theorem reported (progress : passage.Progress origin tag plain settled ledger)
    (paid : ledger.promises = []) {result : Except Halt Unit}
    (verdict : result = .ok () ↔ ledger.failures = [])
    : passage.Reported origin ledger.journal tag plain passage.numbers.length result where
  journal := progress.journal
  ordered := progress.ordered
  verdict := verdict.trans (progress.complete_iff paid).symm
  failed failed complete := progress.spotless ((progress.complete_iff paid).mp complete) failed

end Progress

end Passage

end MeshControl.Link
