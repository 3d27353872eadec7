import Mathlib.Data.List.Perm.Basic
import MeshControl.Proofs.Link.Routing

/-! Datagrams that nobody asked for, strewn among those that arrive. A wait reads past them: it
ends as it would without them, and they are counted where they are long enough to be told.
-/

namespace MeshControl.Link

open Scp

-----------------------------------------------------------------------------------------
-- Strewing
-----------------------------------------------------------------------------------------

/-- Some datagrams lie among what arrives, at any places, in their order. -/
inductive Strewn : List Datagram → List Arrival → List Arrival → Prop
  | nil : Strewn [] [] []
  | same {extras : List Datagram} {calm noisy : List Arrival} (arrival : Arrival)
    (strewn : Strewn extras calm noisy)
    : Strewn extras (arrival :: calm) (arrival :: noisy)
  | extra {extras : List Datagram} {calm noisy : List Arrival} (datagram : Datagram)
    (strewn : Strewn extras calm noisy)
    : Strewn (datagram :: extras) calm (.datagram datagram :: noisy)

/-- Nothing is strewn where all is as it was. -/
theorem Strewn.refl (arrivals : List Arrival) : Strewn [] arrivals arrivals := by
  induction arrivals with
  | nil => exact .nil
  | cons arrival rest ih => exact .same arrival ih

/-- Datagrams alone are strewn among nothing. -/
theorem Strewn.alone (extras : List Datagram) : Strewn extras [] (extras.map .datagram) := by
  induction extras with
  | nil => exact .nil
  | cons datagram rest ih => exact .extra datagram ih

/-- What arrives later may have datagrams among it as well. -/
theorem Strewn.append {extras more : List Datagram} {calm noisy later later_noisy : List Arrival}
    (first : Strewn extras calm noisy) (second : Strewn more later later_noisy)
    : Strewn (extras ++ more) (calm ++ later) (noisy ++ later_noisy) := by
  induction first with
  | nil => exact second
  | same arrival _ ih => exact .same arrival ih
  | extra datagram _ ih => exact .extra datagram ih

/-- More datagrams may be strewn among what has some already. -/
theorem Strewn.again {extras more : List Datagram} {calm noisy noisier : List Arrival}
    (first : Strewn extras calm noisy) (second : Strewn more noisy noisier)
    : ∃ all, all.Perm (extras ++ more) ∧ Strewn all calm noisier := by
  induction second generalizing extras calm with
  | nil =>
      cases first
      exact ⟨[], .refl _, .nil⟩
  | @extra more noisy noisier datagram _ ih =>
      obtain ⟨all, whole, strewn⟩ := ih first
      exact ⟨datagram :: all, (whole.cons datagram).trans List.perm_middle.symm,
        .extra datagram strewn⟩
  | @same more noisy noisier arrival _ ih =>
      cases first with
      | same _ first =>
          obtain ⟨all, whole, strewn⟩ := ih first
          exact ⟨all, whole, .same arrival strewn⟩
      | extra datagram first =>
          obtain ⟨all, whole, strewn⟩ := ih first
          exact ⟨datagram :: all, whole.cons datagram, .extra datagram strewn⟩

/-- Datagrams for the gaps before some arrivals, gap by gap; those that are left over come last. -/
abbrev Gaps := List (List Datagram)

/-- Puts datagrams into the gaps before some arrivals. -/
def strew : Gaps → List Arrival → List Arrival
  | [], arrivals => arrivals
  | gaps, [] => gaps.flatten.map .datagram
  | gap :: gaps, arrival :: rest => gap.map .datagram ++ arrival :: strew gaps rest

theorem strewn_strew (gaps : Gaps) (arrivals : List Arrival)
    : Strewn gaps.flatten arrivals (strew gaps arrivals) := by
  fun_induction strew gaps arrivals with
  | case1 arrivals => exact .refl arrivals
  | case2 gaps _ => exact .alone gaps.flatten
  | case3 gap gaps arrival rest ih =>
      rw [List.flatten_cons]
      exact (Strewn.alone gap).append (.same arrival ih)

-----------------------------------------------------------------------------------------
-- Strays
-----------------------------------------------------------------------------------------

/-- The datagram is too short to be told whose it is, or has a number that is not in use. -/
def Stray (used : Set UInt16) (datagram : Datagram) : Prop :=
  datagram.length < payloadOffset
  ∨ ∃ code sequence, Response.peek datagram = .ok (code, sequence) ∧ sequence ∉ used

/-- The datagram is long enough to be told. -/
def isTold (datagram : Datagram) : Bool :=
  payloadOffset ≤ datagram.length

namespace Dispatcher

/-- A dispatcher that has counted so many more stale datagrams. -/
def ahead (dispatcher : Dispatcher) (more : Nat) : Dispatcher :=
  { dispatcher with stale := dispatcher.stale + more }

theorem ahead_ahead (dispatcher : Dispatcher) (first second : Nat)
    : (dispatcher.ahead first).ahead second = dispatcher.ahead (second + first) := by
  simp only [ahead, Nat.add_assoc, Nat.add_comm second first]

/-- Only numbers in use have routes. -/
def Knows (dispatcher : Dispatcher) (used : Set UInt16) : Prop :=
  ∀ sequence, dispatcher.isRegistered sequence = true → sequence ∈ used

variable {dispatcher : Dispatcher} {used : Set UInt16}

theorem Knows.of_sameRoutes {after : Dispatcher} (knows : dispatcher.Knows used)
    (same : dispatcher.SameRoutes after)
    : after.Knows used := by
  intro sequence registered
  rw [isRegistered, same.routes] at registered
  exact knows sequence registered

/-- The count makes no difference to what is in an inbox. -/
theorem pop?_ahead (dispatcher : Dispatcher) (more inbox : Nat)
    : (dispatcher.ahead more).pop? inbox
      = (dispatcher.pop? inbox).map fun taken => (taken.1, taken.2.ahead more) := by
  have same : (dispatcher.ahead more).inbox inbox = dispatcher.inbox inbox := rfl
  unfold pop?
  rw [same]
  cases dispatcher.inbox inbox <;> rfl

theorem pop?_ahead_of_none {inbox : Nat} (nothing : dispatcher.pop? inbox = none) (more : Nat)
    : (dispatcher.ahead more).pop? inbox = none := by
  rw [pop?_ahead, nothing]
  rfl

/-- The count makes no difference to where a datagram goes. -/
theorem route_ahead (dispatcher : Dispatcher) (more : Nat) (datagram : Datagram)
    : (dispatcher.ahead more).route datagram = (dispatcher.route datagram).ahead more := by
  have same : (dispatcher.ahead more).routes = dispatcher.routes := rfl
  unfold route
  cases Response.peek datagram with
  | error _ => rfl
  | ok told =>
      dsimp only
      rw [same]
      cases dispatcher.routes.get? told.2 with
      | some number => rfl
      | none => simp only [ahead, Nat.add_right_comm]

/-- A stray datagram goes nowhere, and is counted if it is long enough. -/
theorem route_stray (knows : dispatcher.Knows used) {datagram : Datagram}
    (stray : Stray used datagram)
    : dispatcher.route datagram = dispatcher.ahead ([datagram].countP isTold) := by
  rcases stray with short | ⟨code, sequence, told, unused⟩
  · have untold : isTold datagram = false := by
      rw [isTold, decide_eq_false_iff_not]
      omega
    have unread : ∃ error, Response.peek datagram = .error error := by
      rw [Response.peek, if_pos short]
      exact ⟨_, rfl⟩
    obtain ⟨error, unread⟩ := unread
    simp [route, unread, ahead, untold]
  · have long : isTold datagram = true := by
      by_contra short
      have short : datagram.length < payloadOffset := by simpa [isTold] using short
      rw [Response.peek, if_pos short] at told
      cases told
    have unrouted : dispatcher.routes.get? sequence = none := by
      by_contra led
      exact unused (knows sequence (Option.isSome_iff_ne_none.mpr led))
    simp [route, told, unrouted, ahead, long]

section Steps

variable {inbox : Nat} (nothing : dispatcher.pop? inbox = none) {limit : Duration}
  (pending : List Arrival)
include nothing

/-- A wait of no length that finds nothing reads nothing. -/
theorem awaitFrom_of_zero (short : limit.nanoseconds = 0)
    : awaitFrom inbox limit pending dispatcher
      = (.error (noAnswer limit), pending, dispatcher) := by
  cases pending <;> simp [awaitFrom, nothing, short]

variable (long : limit.nanoseconds ≠ 0)
include long

/-- A wait reads a datagram and goes on. -/
theorem awaitFrom_of_datagram (datagram : Datagram)
    : awaitFrom inbox limit (.datagram datagram :: pending) dispatcher
      = awaitFrom inbox limit pending (dispatcher.route datagram) := by
  simp only [awaitFrom, nothing, if_neg long]

/-- A wait goes on after a time in which nothing came. -/
theorem awaitFrom_of_silence {error : Error} (silent : error.isTimeout = true)
    : awaitFrom inbox limit (.failure error :: pending) dispatcher
      = awaitFrom inbox limit pending dispatcher := by
  simp only [awaitFrom, nothing, if_neg long, silent, if_true]

/-- A wait ends at a failure. -/
theorem awaitFrom_of_failure {error : Error} (loud : error.isTimeout = false)
    : awaitFrom inbox limit (.failure error :: pending) dispatcher
      = (.error error, pending, dispatcher) := by
  simp only [awaitFrom, nothing, if_neg long, loud, Bool.false_eq_true, if_false]

end Steps

/-- A wait from this dispatcher on, with some datagrams among what has arrived, comes to the same
as one without them: some of them are read, and those that are long enough are counted; the others
are left.
-/
def Passes (dispatcher : Dispatcher) (inbox : Nat) (limit : Duration) (extras : List Datagram)
    (noisy : List Arrival) (more : Nat)
    (outcome : Except Error Datagram × List Arrival × Dispatcher) : Prop :=
  ∃ read left pending,
    extras = read ++ left
    ∧ Strewn left outcome.2.1 pending
    ∧ awaitFrom inbox limit noisy dispatcher
      = (outcome.1, pending, outcome.2.2.ahead (more + read.countP isTold))

section Waits

variable {extras : List Datagram} {calm noisy : List Arrival}

/-- A wait that reads nothing passes over nothing. -/
theorem passes_unread (strewn : Strewn extras calm noisy) {inbox : Nat} {limit : Duration}
    (unread : dispatcher.pop? inbox ≠ none ∨ limit.nanoseconds = 0) (more : Nat)
    : (dispatcher.ahead more).Passes inbox limit extras noisy more
        (awaitFrom inbox limit calm dispatcher) := by
  have ahead := pop?_ahead dispatcher more inbox
  cases lies : dispatcher.pop? inbox with
  | some taken =>
      rw [lies] at ahead
      rw [awaitFrom_of_pop? lies]
      exact ⟨[], extras, noisy, rfl, strewn, awaitFrom_of_pop? ahead limit noisy⟩
  | none =>
      have short : limit.nanoseconds = 0 := unread.resolve_left (not_not.mpr lies)
      rw [lies] at ahead
      rw [awaitFrom_of_zero lies calm short]
      exact ⟨[], extras, noisy, rfl, strewn, awaitFrom_of_zero ahead noisy short⟩

/-- One that finds nothing passes over a stray that comes first. -/
theorem Passes.cons {inbox : Nat} {limit : Duration} {more : Nat} {datagram : Datagram}
    {outcome : Except Error Datagram × List Arrival × Dispatcher}
    (passed
      : (dispatcher.ahead (more + [datagram].countP isTold)).Passes inbox limit extras noisy
          (more + [datagram].countP isTold) outcome)
    (knows : dispatcher.Knows used) (stray : Stray used datagram)
    (nothing : dispatcher.pop? inbox = none) (long : limit.nanoseconds ≠ 0)
    : (dispatcher.ahead more).Passes inbox limit (datagram :: extras) (.datagram datagram :: noisy)
        more outcome := by
  obtain ⟨read, left, pending, rfl, strewn, passed⟩ := passed
  refine ⟨datagram :: read, left, pending, rfl, strewn, ?_⟩
  have counted : more + (datagram :: read).countP isTold
      = more + [datagram].countP isTold + read.countP isTold := by
    rw [← List.singleton_append, List.countP_append, Nat.add_assoc]
  rw [awaitFrom_of_datagram (pop?_ahead_of_none nothing more) noisy long, route_ahead,
    route_stray knows stray, ahead_ahead, counted, passed]

/-- A wait comes to the same with stray datagrams among what has arrived, by induction on how they
are strewn.
-/
theorem passes (strewn : Strewn extras calm noisy)
    (strays : ∀ datagram ∈ extras, Stray used datagram) (knows : dispatcher.Knows used)
    (inbox : Nat) (limit : Duration) (more : Nat)
    : (dispatcher.ahead more).Passes inbox limit extras noisy more
        (awaitFrom inbox limit calm dispatcher) := by
  induction strewn generalizing dispatcher more with
  | nil =>
      by_cases found : dispatcher.pop? inbox = none
      · have ahead := pop?_ahead_of_none found more
        refine ⟨[], [], [], rfl, ?_, ?_⟩
        · simp only [awaitFrom, found]
          exact .nil
        · simp only [awaitFrom, found, ahead]
          rfl
      · exact passes_unread .nil (.inl found) more
  | @same extras calm noisy arrival strewn ih =>
      by_cases reads : dispatcher.pop? inbox = none ∧ limit.nanoseconds ≠ 0
      · obtain ⟨nothing, long⟩ := reads
        have ahead := pop?_ahead_of_none nothing more
        cases arrival with
        | datagram bytes =>
            have routed := ih strays (knows.of_sameRoutes (route_sameRoutes dispatcher bytes)) more
            rw [← route_ahead] at routed
            rw [awaitFrom_of_datagram nothing calm long]
            simpa only [Passes, awaitFrom_of_datagram ahead noisy long] using routed
        | failure error =>
            cases silent : error.isTimeout with
            | true =>
                have passed := ih strays knows more
                rw [awaitFrom_of_silence nothing calm long silent]
                simpa only [Passes, awaitFrom_of_silence ahead noisy long silent] using passed
            | false =>
                rw [awaitFrom_of_failure nothing calm long silent]
                exact ⟨[], extras, noisy, rfl, strewn, awaitFrom_of_failure ahead noisy long silent⟩
      · exact passes_unread (.same arrival strewn) (by tauto) more
  | @extra extras calm noisy datagram strewn ih =>
      by_cases reads : dispatcher.pop? inbox = none ∧ limit.nanoseconds ≠ 0
      · obtain ⟨nothing, long⟩ := reads
        have later := fun other member => strays other (List.mem_cons_of_mem datagram member)
        exact (ih later knows _).cons knows (strays datagram List.mem_cons_self) nothing long
      · exact passes_unread (.extra datagram strewn) (by tauto) more

end Waits

end Dispatcher

end MeshControl.Link
