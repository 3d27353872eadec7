import MeshControl.Proofs.Board.Storage
import MeshControl.Proofs.Flood.Protocol
import MeshControl.Proofs.Link.Concern
import MeshControl.Proofs.Link.Shortage
import Mathlib.Data.List.Perm.Subperm
import Mathlib.Data.List.Permutation

/-! The start of programs. A program is started only after the board has confirmed every request
that loads it; where one of them fails, or the start itself would be refused, nothing starts.
-/

namespace MeshControl

open Scp Link Operation

-----------------------------------------------------------------------------------------
-- Confirmed requests
-----------------------------------------------------------------------------------------

namespace Link

/-- The request that was answered with success under its own number, if the event tells of one. -/
def Event.confirmed? : Event → Option Request
  | .accepted request response _ =>
      if request.sequence = some response.sequence ∧ response.result = .ok then some request
      else none
  | _ => none

/-- The requests that were answered with success, in the order of their answers. -/
def confirmations (events : List Event) : List Request :=
  events.filterMap Event.confirmed?

/-- Each of some requests was answered with success, under a number of its own. -/
def Confirmed (requests : List Request) (events : List Event) : Prop :=
  ∃ numbers : List UInt16,
    numbers.length = requests.length
    ∧ (List.zipWith Request.numbered requests numbers).Subperm (confirmations events)

/-- One of some requests ended with an error. -/
def Event.Fails (requests : List Request) (event : Event) : Prop :=
  ∃ request ∈ requests, ∃ sequence error audience,
    event = .failed (request.numbered sequence) error audience

/-- A transmission that starts programs. -/
def Event.Starts (event : Event) : Prop :=
  ∃ datagram ∈ event.datagram?, ∃ request,
    Request.decode datagram = .ok request ∧ request.command = .applicationRun

/-- The promise is to have programs started. -/
def Promise.Starts (promise : Promise) : Prop :=
  promise.request.command = .applicationRun

theorem Confirmed.append {first second : List Request} {early late : List Event}
    (one : Confirmed first early) (other : Confirmed second late)
    : Confirmed (first ++ second) (early ++ late) := by
  obtain ⟨numbers, length, confirmed⟩ := one
  obtain ⟨more, length_more, confirmed_more⟩ := other
  refine ⟨numbers ++ more, by simp [length, length_more], ?_⟩
  rw [List.zipWith_append length.symm, confirmations, List.filterMap_append]
  exact confirmed.append confirmed_more

/-- What was confirmed stays so. -/
theorem Confirmed.later {requests : List Request} {events : List Event}
    (confirmed : Confirmed requests events) (more : List Event)
    : Confirmed requests (events ++ more) := by
  have nothing : Confirmed [] more := ⟨[], rfl, List.nil_subperm⟩
  simpa using confirmed.append nothing

-----------------------------------------------------------------------------------------
-- Loads
-----------------------------------------------------------------------------------------

/-- The promise is to have one of some requests answered. -/
def Promise.IsOf (requests : List Request) (promise : Promise) : Prop :=
  ∃ request ∈ requests, ∃ sequence, promise.request = request.numbered sequence

/-- Requests were sent, and no others; if the result is success, all of them were confirmed and none
failed. Where one failed a load over a steady selector returns.
-/
structure Loads (selector : Selector) (tag : UInt8) (requests : List Request)
    (events : List Event) (result : Except Halt Unit) : Prop where
  own : ∀ event ∈ events, ∃ promise, promise.IsOf requests ∧ event.Concerns tag promise
  confirmed : result = .ok () → Confirmed requests events
  spotless : result = .ok () → ∀ event ∈ events, event.isFailure = false
  returns : selector.Steady → (∃ event ∈ events, event.isFailure = true) → Returns result

namespace Loads

variable {selector next : Selector} {tag : UInt8} {requests more : List Request}
  {events later : List Event} {result : Except Halt Unit}

/-- Where nothing could be sent, nothing happened. -/
theorem nothing (selector : Selector) (tag : UInt8) (requests : List Request) (halt : Halt)
    : Loads selector tag requests [] (.error halt) :=
  ⟨by simp, nofun, nofun, by simp⟩

/-- A load that stops stops before what would have come next. -/
theorem stops {halt : Halt} (loads : Loads selector tag requests events (.error halt))
    (more : List Request)
    : Loads selector tag (requests ++ more) events (.error halt) := by
  refine ⟨fun event member => ?_, nofun, nofun, loads.returns⟩
  obtain ⟨promise, ⟨request, listed, sequence, same⟩, concerns⟩ := loads.own event member
  exact ⟨promise, ⟨request, List.mem_append_left more listed, sequence, same⟩, concerns⟩

/-- One load after another, which finds the selector steady if the first does. -/
theorem append (first : Loads selector tag requests events (.ok ()))
    (second : Loads next tag more later result) (still : selector.Steady → next.Steady)
    : Loads selector tag (requests ++ more) (events ++ later) result := by
  refine ⟨fun event member => ?_, fun succeeded => ?_, fun succeeded event member => ?_,
    fun steady ⟨event, member, failed⟩ => ?_⟩
  · rcases List.mem_append.mp member with early | late
    · obtain ⟨promise, ⟨request, listed, own⟩, concerns⟩ := first.own event early
      exact ⟨promise, ⟨request, List.mem_append_left more listed, own⟩, concerns⟩
    · obtain ⟨promise, ⟨request, listed, own⟩, concerns⟩ := second.own event late
      exact ⟨promise, ⟨request, List.mem_append_right requests listed, own⟩, concerns⟩
  · exact (first.confirmed rfl).append (second.confirmed succeeded)
  · rcases List.mem_append.mp member with early | late
    · exact first.spotless rfl event early
    · exact second.spotless succeeded event late
  · rcases List.mem_append.mp member with early | late
    · rw [first.spotless rfl event early] at failed
      cases failed
    · exact second.returns (still steady) ⟨event, late, failed⟩

/-- A load of requests that start nothing starts nothing. -/
theorem starts_nothing (loads : Loads selector tag requests events result)
    (harmless : ∀ request ∈ requests, request.command ≠ .applicationRun)
    : ∀ event ∈ events, ¬ event.Starts := by
  rintro event member ⟨datagram, sent, request, decoded, starting⟩
  obtain ⟨promise, ⟨plain, listed, sequence, same⟩, concerns⟩ := loads.own event member
  cases event with
  | accepted => cases sent
  | failed => cases sent
  | transmitted connection bytes refusal =>
      obtain rfl := Option.mem_some.mp sent
      obtain rfl : bytes = promise.request.datagram tag := concerns
      rw [Request.decode_datagram, same] at decoded
      obtain rfl := Except.ok.inj decoded
      exact harmless plain listed starting

end Loads

/-- The answers to requests that accept nothing but success are confirmations. -/
theorem confirmations_eq {tag : UInt8} {requests : List Request} {events : List Event}
    (strict : ∀ request ∈ requests, request.accepted = [.ok])
    (own : ∀ event ∈ events, ∃ promise, promise.IsOf requests ∧ event.Concerns tag promise)
    : confirmations events = acceptances events := by
  refine List.filterMap_congr fun event member => ?_
  obtain ⟨promise, ⟨request, listed, sequence, same⟩, concerns⟩ := own event member
  cases event with
  | transmitted => rfl
  | failed => rfl
  | accepted answered response audience =>
      obtain ⟨rfl, _, numbered, accepts⟩ := concerns
      have success : response.result = .ok := by
        rw [same] at accepts
        simpa [Request.accepts, Request.numbered, strict request listed] using accepts
      simp [Event.confirmed?, Event.accepted?, numbered, success]

/-- A batch of plain requests for one chip that accept nothing but success is a load. -/
theorem Hub.batch_loads {ρ : Type} [Responder ρ] {hub after : Hub ρ} {config : Config}
    {count : Nat} {orders : Nat → Order} {plain : Nat → Request} {chip : Chip}
    {result : Except Halt Unit}
    (plain_orders : ∀ index < count, orders index = { request := .ok (plain index) })
    (strict : ∀ index < count, (plain index).accepted = [.ok])
    (together : ∀ index < count, (plain index).header.destination = chip)
    (done : hub.batch config count orders = (result, after))
    : (hub.selector.Steady → after.selector.Steady)
      ∧ ∃ events,
          after.journal.toList = hub.journal.toList ++ events
          ∧ Loads hub.selector config.tag ((List.range count).map plain) events result := by
  have ordered (index : Nat) (request : Request) (sequence : UInt16) (within : index < count)
      (made : (orders index).request = .ok request)
      : Promise.IsOf ((List.range count).map plain)
          ⟨request.numbered sequence, (orders index).handler⟩ := by
    rw [plain_orders index within] at made
    obtain rfl := Except.ok.inj made
    exact ⟨_, List.mem_map_of_mem (List.mem_range.mpr within), sequence, rfl⟩
  obtain ⟨events, written, own⟩ := Hub.batch_extends ordered done
  obtain ⟨passage, reported⟩ := Hub.batch_reported plain_orders done
  obtain rfl : events = passage.events :=
    List.append_cancel_left (written.symm.trans reported.journal)
  have still (steady : hub.selector.Steady) : after.selector.Steady := by
    have same := hub.selector_batch steady config count orders
    rw [done] at same
    exact same ▸ steady
  refine ⟨still, passage.events, written, own, fun succeeded => ?_,
    fun succeeded event member => ?_, fun steady ⟨event, member, failed⟩ => ?_⟩
  · have all_strict : ∀ request ∈ (List.range count).map plain, request.accepted = [.ok] := by
      intro request listed
      obtain ⟨index, within, rfl⟩ := List.mem_map.mp listed
      exact strict index (List.mem_range.mp within)
    refine ⟨(List.range count).map fun index => passage.numbers.getD index 0, by simp, ?_⟩
    have row : List.zipWith Request.numbered ((List.range count).map plain)
        ((List.range count).map fun index => passage.numbers.getD index 0)
        = (List.range count).map (passage.request plain) := by
      rw [List.zipWith_map, List.zipWith_self]
      rfl
    rw [confirmations_eq all_strict own, row]
    exact (reported.verdict.mp succeeded).symm.subperm
  · cases failed : event.isFailure with
    | false => rfl
    | true =>
        exact absurd (reported.verdict.mp succeeded) (reported.failed ⟨event, member, failed⟩)
  · have heard : told passage.events ≠ [] := by
      refine List.ne_nil_of_mem (List.mem_filter.mpr ⟨member, ?_⟩)
      cases event with
      | failed => rfl
      | transmitted => cases failed
      | accepted => cases failed
    exact Hub.batch_returns_of_told steady
      (fun index within =>
        ⟨plain index, congrArg Order.request (plain_orders index within), together index within⟩)
      done written heard

end Link

-----------------------------------------------------------------------------------------
-- Loading a program
-----------------------------------------------------------------------------------------

/-- Where a program is to run: on processors of one chip, or of several. -/
inductive Launch
  | one (subset : Core.Subset)
  | several (subsets : Core.Subsets)

namespace Launch

/-- The chips with the processors that are to run the program. -/
def subsets : Launch → List Core.Subset
  | one subset => [subset]
  | several subsets => subsets.toList

/-- The requests that load a program: its pieces, or a start, its blocks and an end. -/
def loading (ids : Flood.Ids) (program : List UInt8) : Launch → List Request
  | one subset =>
      (List.range (Flood.pieces program)).map fun index =>
        let (address, data) := Board.pieceOf programAddress program index
        writeRequest subset.chip address data
  | several _ =>
      let id := ids.draw.1
      [floodFillStart id (UInt8.ofNat (Flood.pieces program)) none]
        ++ (List.range (Flood.pieces program)).map (Flood.row id programAddress program)
        ++ [floodFillEnd id 0 0 false]

def perform {ρ : Type} [Responder ρ] (session : Session ρ) (program : List UInt8)
    (application : UInt8) (wait : Bool) : Launch → Except Halt Unit × Session ρ
  | one subset => session.execute subset program application wait
  | several subsets => session.executeFlood subsets program application wait

/-- Loading starts nothing. -/
theorem loading_harmless (ids : Flood.Ids) (program : List UInt8) (launch : Launch)
    : ∀ request ∈ launch.loading ids program, request.command ≠ .applicationRun := by
  intro request listed
  have known : request.command ∈ [Command.write, .nearestNeighbour, .floodFillData] := by
    cases launch with
    | one subset =>
        obtain ⟨index, _, rfl⟩ := List.mem_map.mp listed
        simp [writeRequest]
    | several subsets =>
        simp only [loading, List.mem_append, List.mem_singleton, List.mem_map] at listed
        rcases listed with (rfl | ⟨index, _, rfl⟩) | rfl
        · simp [floodFillStart]
        · simp [Flood.row, dataRequest]
        · simp [floodFillEnd]
  intro starts
  rw [starts] at known
  exact absurd known (by decide)

end Launch

variable {ρ : Type} [Responder ρ]

/-- A piece of a program goes into one request, since pieces do not cross the end of memory. -/
theorem writeOrder_program (chip : Chip) {program : List UInt8} {index : Nat}
    (within : index < Flood.pieces program)
    : Session.writeOrder chip programAddress program index
      = { request :=
            .ok (writeRequest chip (Board.pieceOf programAddress program index).1
              (Board.pieceOf programAddress program index).2) } := by
  obtain ⟨some_data, fits, _⟩ := @Board.length_pieceOf programAddress program index
    ((Flood.lt_pieces_iff program index).mp within)
  have inside : (Board.pieceOf programAddress program index).1.toNat
      + (Board.pieceOf programAddress program index).2.length ≤ 2 ^ 32 := by
    have place : (Board.pieceOf programAddress program index).1.toNat
        = (0x67800000 + index * maxData % 2 ^ 32) % 2 ^ 32 := by
      rw [Board.pieceOf, UInt32.toNat_add, UInt32.toNat_ofNat']
      rfl
    simp only [maxData] at place fits
    omega
  exact congrArg (fun request => ({ request } : Order))
    (writeMemory_of_fits chip some_data fits inside)

omit [Responder ρ] in
/-- An open session does with its connections what it is told to. -/
theorem Session.whenOpen_of_open {α : Type} {session : Session ρ}
    (open_still : session.closed = false) (run : Hub ρ → Except Halt α × Hub ρ)
    : session.whenOpen run
      = ((run session.hub).1, { session with hub := (run session.hub).2 }) := by
  rw [whenOpen, if_neg (by simp [open_still])]

/-- Writing a program is a load. -/
theorem Session.write_loads {session after : Session ρ} {subset : Core.Subset}
    {program : List UInt8} {result : Except Halt Unit} (open_still : session.closed = false)
    (done : session.write subset.chip programAddress program = (result, after))
    : ∃ events,
        after.hub.journal.toList = session.hub.journal.toList ++ events
        ∧ Loads session.hub.selector session.config.tag
            ((Launch.one subset).loading session.ids program) events result
        ∧ after = { session with hub := after.hub } := by
  rw [write, whenOpen_of_open open_still] at done
  obtain ⟨rfl, rfl⟩ := Prod.mk.inj done
  cases checkAddressRange programAddress (UInt64.ofNat program.length) with
  | error halt => exact ⟨[], (List.append_nil _).symm, .nothing _ _ _ halt, rfl⟩
  | ok =>
      generalize ran
        : session.hub.batch session.config (Flood.pieces program)
            (writeOrder subset.chip programAddress program) = outcome
      obtain ⟨_, events, written, loads⟩ := Hub.batch_loads
        (fun _ within => writeOrder_program subset.chip within) (fun _ _ => rfl) (fun _ _ => rfl)
        ran
      exact ⟨events, written, loads, rfl⟩

namespace Flood

variable {hub after : Hub ρ} {ids left : Ids} {config : Config} {result : Except Halt Unit}

theorem start_loads {id blocks : UInt8} (done : start hub config id blocks = (result, after))
    : (hub.selector.Steady → after.selector.Steady)
      ∧ ∃ events,
          after.journal.toList = hub.journal.toList ++ events
          ∧ Loads hub.selector config.tag ((List.range 1).map (opening id blocks)) events result :=
  Hub.batch_loads (fun _ _ => rfl) (fun _ _ => rfl) (fun _ _ => rfl) done

theorem finish_loads {id : UInt8} (done : finish hub config id = (result, after))
    : ∃ events,
        after.journal.toList = hub.journal.toList ++ events
        ∧ Loads hub.selector config.tag ((List.range 1).map (closing id)) events result :=
  (Hub.batch_loads (fun _ _ => rfl) (fun _ _ => rfl) (fun _ _ => rfl) done).2

/-- Flooding a program is a load of three stages. -/
theorem write_loads (subsets : Core.Subsets) {program : List UInt8}
    (done : write hub ids config programAddress program = (result, after, left))
    : ∃ events,
        after.journal.toList = hub.journal.toList ++ events
        ∧ Loads hub.selector config.tag ((Launch.several subsets).loading ids program) events
            result := by
  unfold write at done
  split at done
  · next halt _ =>
      obtain ⟨rfl, rfl, rfl⟩ := by simpa using done
      exact ⟨[], (List.append_nil _).symm, .nothing _ _ _ halt⟩
  · dsimp only at done
    generalize first : start hub config ids.draw.1 _ = outcome at done
    obtain ⟨verdict, started⟩ := outcome
    obtain ⟨still, early, written, starts⟩ := start_loads first
    cases verdict with
    | error halt =>
        obtain ⟨rfl, rfl, rfl⟩ := by simpa using done
        exact ⟨early, written, (starts.stops _).stops _⟩
    | ok =>
        dsimp only at done
        generalize second : started.batch config (pieces program) _ = outcome at done
        obtain ⟨verdict, delivered⟩ := outcome
        have blocks : ∀ index < pieces program,
            deliver ids.draw.1 (blockAt programAddress program index)
              = { request := .ok (row ids.draw.1 programAddress program index) } :=
          fun index within => deliver_blockAt _ _ ((lt_pieces_iff program index).mp within)
        obtain ⟨onward, middle, more, delivers⟩ :=
          Hub.batch_loads blocks (fun _ _ => rfl) (fun _ _ => rfl) second
        have both := starts.append delivers still
        cases verdict with
        | error halt =>
            obtain ⟨rfl, rfl, rfl⟩ := by simpa using done
            exact ⟨early ++ middle, by rw [more, written, List.append_assoc], both.stops _⟩
        | ok =>
            dsimp only at done
            generalize third : finish delivered config ids.draw.1 = outcome at done
            obtain ⟨verdict, last⟩ := outcome
            obtain ⟨late, rest, finishes⟩ := finish_loads third
            obtain ⟨rfl, rfl, rfl⟩ := by simpa using done
            refine ⟨early ++ middle ++ late, ?_, both.append finishes (onward ∘ still)⟩
            rw [rest, more, written]
            simp only [List.append_assoc]

end Flood

-----------------------------------------------------------------------------------------
-- Starting it
-----------------------------------------------------------------------------------------

namespace Operation

/-- A program may not run as the system's application, nor on a processor that chips do not keep
for programs.
-/
def Barred (application : UInt8) (subset : Core.Subset) : Prop :=
  application = 0 ∨ ∃ number ∈ subset.processors.list, number = 0 ∨ number > 17

/-- A start is refused if it is barred, and else is a request to run an application. -/
theorem applicationRun_cases (application : UInt8) (subset : Core.Subset) (wait : Bool)
    : (Barred application subset
        ∧ ∃ name value reason,
            applicationRun application subset wait
              = .error (.invalidParameter name value reason))
      ∨ (¬ Barred application subset
        ∧ ∃ run,
            applicationRun application subset wait = .ok run
            ∧ run.command = .applicationRun) := by
  by_cases system : application = 0
  · have checked : checkApplication application
        = .error (.invalidParameter "app_id" (toString application) "0 은 시스템 예약") := by
      rw [checkApplication, if_pos system]
    rw [applicationRun, checked]
    exact .inl ⟨Or.inl system, _, _, _, rfl⟩
  · have checked : checkApplication application = .ok () := by
      rw [checkApplication, if_neg system]
    rw [applicationRun, checked]
    by_cases outside : (subset.processors.list.any fun number => number = 0 ∨ number > 17) = true
    · obtain ⟨number, member, out⟩ := List.any_eq_true.mp outside
      rw [if_pos outside]
      exact .inl ⟨Or.inr ⟨number, member, by simpa using out⟩, _, _, _, rfl⟩
    · rw [if_neg outside]
      refine .inr ⟨?_, _, rfl, rfl⟩
      rintro (zero | ⟨number, member, out⟩)
      · exact system zero
      · exact outside (List.any_eq_true.mpr ⟨number, member, by simpa using out⟩)

/-- One start that is barred refuses all of them, wherever it stands; by induction on the chips. -/
theorem mapM_applicationRun_cases (application : UInt8) (subsets : List Core.Subset) (wait : Bool)
    : ((∃ subset ∈ subsets, Barred application subset)
        ∧ ∃ name value reason,
            subsets.mapM (fun subset => applicationRun application subset wait)
              = .error (.invalidParameter name value reason))
      ∨ ((∀ subset ∈ subsets, ¬ Barred application subset)
        ∧ ∃ runs,
            subsets.mapM (fun subset => applicationRun application subset wait) = .ok runs
            ∧ ∀ run ∈ runs, run.command = .applicationRun) := by
  induction subsets with
  | nil => exact .inr ⟨List.forall_mem_nil _, [], rfl, List.forall_mem_nil _⟩
  | cons first rest ih =>
      rw [List.mapM_cons]
      rcases applicationRun_cases application first wait with
        ⟨barred, name, value, reason, refused⟩ | ⟨free, run, made, starts⟩
      · rw [refused]
        exact .inl ⟨⟨first, List.mem_cons_self, barred⟩, name, value, reason, rfl⟩
      · rw [made]
        rcases ih with
          ⟨⟨subset, member, barred⟩, name, value, reason, refused⟩ | ⟨all_free, runs, all, start⟩
        · rw [refused]
          exact .inl ⟨⟨subset, List.mem_cons_of_mem first member, barred⟩, name, value, reason,
            rfl⟩
        · rw [all]
          refine .inr ⟨?_, run :: runs, rfl, ?_⟩
          · exact List.forall_mem_cons.mpr ⟨free, all_free⟩
          · exact List.forall_mem_cons.mpr ⟨starts, start⟩

end Operation

-----------------------------------------------------------------------------------------
-- Loaded first, started then
-----------------------------------------------------------------------------------------

/-- Whatever starts, starts after all of some requests were confirmed; if one of them was not, or
failed, nothing starts and there is no success. A call over a steady selector returns with an error
if one of them failed.
-/
structure Secured (selector : Selector) (requests : List Request) (events : List Event)
    (result : Except Halt Unit) : Prop where
  loaded
    : ∀ early event late,
        events = early ++ event :: late → event.Starts → Confirmed requests early
  stopped
    : ¬ Confirmed requests events ∨ (∃ event ∈ events, event.Fails requests)
      → (∀ event ∈ events, ¬ event.Starts) ∧ ∃ halt, result = .error halt
  reported
    : selector.Steady
      → (∃ event ∈ events, event.Fails requests)
      → ∃ error, result = .error (.failed error)

namespace Link.Loads

variable {selector : Selector} {tag : UInt8} {requests : List Request}
  {events later : List Event}

/-- Where loading ends with an error, nothing starts. -/
theorem secured_of_error {halt : Halt} (loads : Loads selector tag requests events (.error halt))
    (harmless : ∀ request ∈ requests, request.command ≠ .applicationRun)
    : Secured selector requests events (.error halt) := by
  have idle := loads.starts_nothing harmless
  refine ⟨?_, fun _ => ⟨idle, halt, rfl⟩, ?_⟩
  · rintro early event late rfl starts
    exact absurd starts (idle event (by simp))
  · rintro steady ⟨_, member, request, _, sequence, error, audience, rfl⟩
    obtain ⟨error, rfl⟩ := (loads.returns steady ⟨_, member, rfl⟩).failed
    exact ⟨error, rfl⟩

/-- Where it succeeds, programs may be started, and nothing but that may happen from then on. -/
theorem secured (loads : Loads selector tag requests events (.ok ()))
    (harmless : ∀ request ∈ requests, request.command ≠ .applicationRun)
    (running
      : ∀ event ∈ later,
          ∃ promise : Promise, promise.Starts ∧ event.Concerns tag promise)
    (result : Except Halt Unit)
    : Secured selector requests (events ++ later) result := by
  have confirmed := loads.confirmed rfl
  have spotless : ¬ ∃ event ∈ events ++ later, event.Fails requests := by
    rintro ⟨event, member, request, listed, sequence, error, audience, rfl⟩
    rcases List.mem_append.mp member with early | late
    · exact absurd (loads.spotless rfl _ early) (by simp [Event.isFailure])
    · obtain ⟨promise, starts, same, _⟩ := running _ late
      rw [Promise.Starts, ← same] at starts
      exact absurd starts (harmless request listed)
  refine ⟨fun early event late split starts => ?_, ?_, fun _ failed => absurd failed spotless⟩
  · rcases List.append_eq_append_iff.mp split with ⟨more, rfl, _⟩ | ⟨more, rfl, rest⟩
    · exact confirmed.later more
    · cases more with
      | nil => simpa using confirmed
      | cons first behind =>
          obtain rfl : event = first := (List.cons.inj rest).1
          exact absurd starts (loads.starts_nothing harmless event (by simp))
  · rintro (unconfirmed | failed)
    · exact absurd (confirmed.later later) unconfirmed
    · exact absurd failed spotless

end Link.Loads

namespace Session

omit [Responder ρ] in
/-- What is done under a lock finds the session as it was but for the locks. -/
theorem guarded_run {α : Type} {session after : Session ρ} {ask : Locks Unit → Locks Unit}
    {run : Session ρ → α × Session ρ} {result : α}
    (done : session.guarded ask run = (result, after))
    : ∃ locks middle, run { session with locks } = (result, middle) ∧ after.hub = middle.hub := by
  obtain ⟨rfl, rfl⟩ := Prod.mk.inj done
  exact ⟨_, _, rfl, rfl⟩

omit [Responder ρ] in
/-- A call that does nothing starts nothing. -/
theorem secured_of_idle {session : Session ρ} (launch : Launch) (program : List UInt8)
    (halt : Halt)
    : ∃ events,
        session.hub.journal.toList = session.hub.journal.toList ++ events
        ∧ Secured session.hub.selector (launch.loading session.ids program) events
            (.error halt) :=
  ⟨[], (List.append_nil _).symm,
    Loads.secured_of_error (.nothing _ 0 _ halt) (launch.loading_harmless session.ids program)⟩

/-- A program for one chip starts only when it has been loaded. -/
theorem execute_secured {session after : Session ρ} {subset : Core.Subset} {program : List UInt8}
    {application : UInt8} {wait : Bool} {result : Except Halt Unit}
    (done : session.execute subset program application wait = (result, after))
    : ∃ events,
        after.hub.journal.toList = session.hub.journal.toList ++ events
        ∧ Secured session.hub.selector ((Launch.one subset).loading session.ids program)
            events result := by
  unfold execute at done
  split at done
  · obtain ⟨rfl, rfl⟩ := Prod.mk.inj done
    exact secured_of_idle _ program _
  · next open_still =>
      rcases applicationRun_cases application subset wait with
        ⟨_, _, _, _, refused⟩ | ⟨_, run, made, starts⟩
      · rw [refused] at done
        obtain ⟨rfl, rfl⟩ := Prod.mk.inj done
        exact secured_of_idle _ program _
      · rw [made] at done
        obtain ⟨locks, middle, ran, hub⟩ := guarded_run done
        have ready : ({ session with locks } : Session ρ).closed = false := by
          simpa using open_still
        rw [hub]
        generalize wrote
          : ({ session with locks } : Session ρ).write subset.chip programAddress program = outcome
          at ran
        obtain ⟨verdict, loaded⟩ := outcome
        obtain ⟨events, written, loads, same⟩ := write_loads ready wrote
        have harmless := (Launch.one subset).loading_harmless session.ids program
        cases verdict with
        | error halt =>
            obtain ⟨rfl, rfl⟩ := Prod.mk.inj ran
            exact ⟨events, written, loads.secured_of_error harmless⟩
        | ok =>
            have open_loaded : loaded.closed = false := by rw [same]; exact ready
            have config : loaded.config = session.config := by rw [same]
            dsimp only at ran
            rw [send, whenOpen_of_open open_loaded, config] at ran
            generalize executed : loaded.hub.execute session.config run = outcome at ran
            obtain ⟨answer, last⟩ := outcome
            obtain ⟨rfl, rfl⟩ := Prod.mk.inj ran
            have starting (sequence : UInt16)
                : Promise.Starts ⟨run.numbered sequence, { audience := .caller }⟩ := starts
            obtain ⟨more, later, running⟩ := Hub.execute_extends starting executed
            exact ⟨events ++ more, by rw [later, written, List.append_assoc],
              loads.secured harmless running _⟩

/-- So does one for several chips. -/
theorem executeFlood_secured {session after : Session ρ} {subsets : Core.Subsets}
    {program : List UInt8} {application : UInt8} {wait : Bool} {result : Except Halt Unit}
    (done : session.executeFlood subsets program application wait = (result, after))
    : ∃ events,
        after.hub.journal.toList = session.hub.journal.toList ++ events
        ∧ Secured session.hub.selector
            ((Launch.several subsets).loading session.ids program) events result := by
  unfold executeFlood at done
  split at done
  · obtain ⟨rfl, rfl⟩ := Prod.mk.inj done
    exact secured_of_idle _ program _
  · next open_still =>
      rcases mapM_applicationRun_cases application subsets.toList wait with
        ⟨_, _, _, _, refused⟩ | ⟨_, runs, made, start⟩
      · rw [refused] at done
        obtain ⟨rfl, rfl⟩ := Prod.mk.inj done
        exact secured_of_idle _ program _
      · rw [made] at done
        obtain ⟨locks, middle, ran, hub⟩ := guarded_run done
        rw [hub]
        generalize flooded
          : Flood.write session.hub session.ids session.config programAddress program = outcome
        obtain ⟨verdict, loaded, ids⟩ := outcome
        obtain ⟨events, written, loads⟩ := Flood.write_loads subsets flooded
        have harmless := (Launch.several subsets).loading_harmless session.ids program
        simp only [flood, flooded] at ran
        cases verdict with
        | error halt =>
            obtain ⟨rfl, rfl⟩ := Prod.mk.inj ran
            exact ⟨events, written, loads.secured_of_error harmless⟩
        | ok =>
            dsimp only at ran
            rw [whenOpen_of_open (by simpa using open_still)] at ran
            generalize started : loaded.batch session.config runs.length _ = outcome at ran
            obtain ⟨answer, last⟩ := outcome
            obtain ⟨rfl, rfl⟩ := Prod.mk.inj ran
            have starting (index : Nat) (run : Request) (sequence : UInt16)
                (_ : index < runs.length)
                (made
                  : ((runs[index]?).elim (.error (.failed .closed)) .ok : Except Halt Request)
                    = .ok run)
                : Promise.Starts ⟨run.numbered sequence, {}⟩ := by
              cases listed : runs[index]? with
              | none =>
                  rw [listed] at made
                  cases made
              | some request =>
                  rw [listed] at made
                  obtain rfl := Except.ok.inj made
                  exact start request (List.mem_of_getElem? listed)
            obtain ⟨more, later, running⟩ := Hub.batch_extends starting started
            exact ⟨events ++ more, by rw [later, written, List.append_assoc],
              loads.secured harmless running _⟩

end Session

/-- A call that is barred for one of its chips does nothing. -/
theorem Launch.perform_barred {session : Session ρ} {launch : Launch} {application : UInt8}
    (open_still : session.closed = false)
    (barred : ∃ subset ∈ launch.subsets, Barred application subset) (program : List UInt8)
    (wait : Bool)
    : ∃ name value reason,
        launch.perform session program application wait
          = (.error (.failed (.invalidParameter name value reason)), session) := by
  cases launch with
  | one subset =>
      obtain ⟨_, member, barred⟩ := barred
      obtain rfl := List.mem_singleton.mp member
      rcases applicationRun_cases application _ wait with
        ⟨_, name, value, reason, refused⟩ | ⟨free, _⟩
      · refine ⟨name, value, reason, ?_⟩
        rw [perform, Session.execute, if_neg (by simp [open_still]), refused]
      · exact absurd barred free
  | several subsets =>
      rcases mapM_applicationRun_cases application subsets.toList wait with
        ⟨_, name, value, reason, refused⟩ | ⟨free, _⟩
      · refine ⟨name, value, reason, ?_⟩
        rw [perform, Session.executeFlood, if_neg (by simp [open_still]), refused]
      · obtain ⟨subset, member, barred⟩ := barred
        exact absurd barred (free subset member)

/-- A program starts only when every request that loads it has been answered with success, and
neither starts nor succeeds where one was not, or failed; where one failed, the call returns with an
error, since the selector of a session is steady. Where the start itself is barred for one of the
chips, wherever that stands among them, an open session refuses the call and does nothing.
Witness: what the stages of the call write down, each about its own requests only.
-/
theorem Launch.starts_loaded (session : Session ρ) (launch : Launch) (program : List UInt8)
    (application : UInt8) (wait : Bool)
    : let (result, after) := launch.perform session program application wait
      (∃ events,
        after.hub.journal.toList = session.hub.journal.toList ++ events
        ∧ Secured session.hub.selector (launch.loading session.ids program) events result)
      ∧ (session.closed = false
        → (∃ subset ∈ launch.subsets, Barred application subset)
        → after = session
          ∧ ∃ name value reason,
            result = .error (.failed (.invalidParameter name value reason))) := by
  generalize done : launch.perform session program application wait = outcome
  obtain ⟨result, after⟩ := outcome
  refine ⟨?_, fun open_still barred => ?_⟩
  · cases launch with
    | one subset => exact Session.execute_secured done
    | several subsets => exact Session.executeFlood_secured done
  · obtain ⟨name, value, reason, refused⟩ :=
      Launch.perform_barred open_still barred program wait
    obtain ⟨rfl, rfl⟩ := Prod.mk.inj (done.symm.trans refused)
    exact ⟨rfl, name, value, reason, rfl⟩

/-- A session with a board that accepts so many requests. -/
def acceptingSession (requests : Nat) : Session Transcript :=
  { hub := Flood.acceptingHub requests, chipLines := 1, boots := [], config := {} }

/-- On one chip the third event is the start, which the confirmation of the one piece precedes; a
processor that is barred, on the second of two chips, leaves the session as it was.
-/
theorem Launch.starts_loaded_origin
    : let session := acceptingSession 2
      let launch := Launch.one (.ofList .origin [1])
      let barred := Launch.several (.ofCores [(⟨0, 0⟩, 1), (⟨0, 1⟩, 18)])
      (∃ early event late,
        (launch.perform session [1, 2, 3] 16 false).2.hub.journal.toList = early ++ event :: late
        ∧ event.Starts
        ∧ Confirmed (launch.loading session.ids [1, 2, 3]) early)
      ∧ (barred.perform session [1, 2, 3] 16 false).2 = session := by
  intro session launch barred
  have command : ((launch.perform session [1, 2, 3] 16 false).2.hub.journal.toList[2]?.bind
      Event.datagram?).bind (fun datagram => (Request.decode datagram).toOption.map
        Request.command) = some .applicationRun := by cbv
  have first := starts_loaded session launch [1, 2, 3] 16 false
  have second := starts_loaded session barred [1, 2, 3] 16 false
  generalize launch.perform session [1, 2, 3] 16 false = outcome at command first ⊢
  generalize barred.perform session [1, 2, 3] 16 false = refused at second ⊢
  obtain ⟨result, after⟩ := outcome
  obtain ⟨_, unchanged⟩ := refused
  obtain ⟨⟨events, written, secured⟩, _⟩ := first
  have whole : after.hub.journal.toList = events := written
  rw [whole] at command ⊢
  simp only [Option.bind_eq_some_iff, Option.map_eq_some_iff] at command
  obtain ⟨datagram, ⟨event, third, sent⟩, request, read, starting⟩ := command
  have decoded : Request.decode datagram = .ok request := by
    cases made : Request.decode datagram with
    | error error =>
        rw [made] at read
        cases read
    | ok other =>
        rw [made] at read
        exact congrArg Except.ok (Option.some.inj read)
  have starts : event.Starts := ⟨datagram, sent, request, decoded, starting⟩
  have split : events = events.take 2 ++ event :: events.drop 3 := by
    obtain ⟨within, rfl⟩ := List.getElem?_eq_some_iff.mp third
    rw [← List.drop_eq_getElem_cons within, List.take_append_drop]
  have bars : ∃ subset ∈ barred.subsets, Barred 16 subset :=
    ⟨.ofList ⟨0, 1⟩ [18], by decide, Or.inr ⟨18, by decide, by decide⟩⟩
  exact ⟨⟨_, event, _, split, starts, secured.loaded _ event _ split starts⟩,
    (second.2 rfl bars).1⟩

end MeshControl
