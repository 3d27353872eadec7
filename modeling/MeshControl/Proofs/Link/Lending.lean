import MeshControl.Proofs.Link.Turn

/-! Sequence numbers on loan. A process that sends takes numbers that were free, and no others; it
holds the numbers of its waiting requests and has given every other one back. When it goes away, on
whatever path, all numbers of all connections lead where they led before it came.
-/

namespace MeshControl.Link

open Scp

-----------------------------------------------------------------------------------------
-- Loans of one connection
-----------------------------------------------------------------------------------------

/-- The numbers that are held were free before, and every other one leads where it led. -/
structure Lends (before after : UInt16 → Option Nat) (held : UInt16 → Bool) : Prop where
  free : ∀ sequence, held sequence = true → before sequence = none
  kept : ∀ sequence, held sequence = false → after sequence = before sequence

theorem Lends.refl (routes : UInt16 → Option Nat) : Lends routes routes fun _ => false where
  free _ held := by cases held
  kept _ _ := rfl

namespace Station

variable {ρ : Type} {base : UInt16 → Option Nat} {before after : Station ρ}

/-- A request that ends gives its number back. -/
theorem Releases.lends (released : Releases before after)
    (lends : Lends base before.line.dispatcher.routes.get? before.window.isOutstanding)
    : Lends base after.line.dispatcher.routes.get? after.window.isOutstanding where
  free sequence waits := lends.free sequence (released.waited sequence waits)
  kept sequence ended := by
    cases waited : before.window.isOutstanding sequence with
    | true => rw [released.freed sequence waited ended, lends.free sequence waited]
    | false => rw [released.kept sequence (ended.trans waited.symm), lends.kept sequence waited]

/-- A request that is taken on takes a number that was free. -/
theorem Admits.lends {sequence : UInt16} (admitted : Admits before after sequence)
    (lends : Lends base before.line.dispatcher.routes.get? before.window.isOutstanding)
    : Lends base after.line.dispatcher.routes.get? after.window.isOutstanding where
  free other waits := by
    rw [admitted.waiting] at waits
    cases waited : before.window.isOutstanding other with
    | true => exact lends.free other waited
    | false =>
        have same : other = sequence := by simpa [waited] using waits
        rw [← lends.kept other waited, same, admitted.free]
  kept other ended := by
    rw [admitted.waiting] at ended
    have apart : other ≠ sequence := by
      intro same
      simp [same] at ended
    rw [admitted.routes, if_neg apart]
    exact lends.kept other (by simpa [apart] using ended)

/-- After a send the window holds what it held or less, and the number of its own request. -/
theorem send_lends [Responder ρ] {request : Request} {sequence : UInt16} {handler : Handler}
    {result : Except Error Unit}
    (lends : Lends base before.line.dispatcher.routes.get? before.window.isOutstanding)
    (done : before.send request sequence handler = (result, after))
    : Lends base after.line.dispatcher.routes.get? after.window.isOutstanding := by
  cases result with
  | error error => exact (releases_of_send_error done).lends lends
  | ok =>
      obtain ⟨room, released, admitted⟩ := admits_of_send_ok done
      exact admitted.lends (released.lends lends)

end Station

-----------------------------------------------------------------------------------------
-- Loans of all connections
-----------------------------------------------------------------------------------------

/-- Where the sequence numbers of all connections lead. -/
def Hub.routing {ρ : Type} (hub : Hub ρ) : List (UInt16 → Option Nat) :=
  hub.dispatchers.map fun dispatcher => dispatcher.routes.get?

/-- A request of the process waits on this connection under this number. -/
def Process.holds (process : Process) (number : Nat) (sequence : UInt16) : Bool :=
  (process.windows.get? number).any fun window => window.isOutstanding sequence

/-- All that a process took from the connections are the numbers that it holds. -/
structure Process.Borrows (process : Process) (before after : List (UInt16 → Option Nat))
    : Prop where
  length : after.length = before.length
  lends
    : ∀ {number old new},
        before[number]? = some old
        → after[number]? = some new
        → Lends old new (process.holds number)

namespace Process

variable {ρ : Type} {base : List (UInt16 → Option Nat)} {hub after : Hub ρ}
  {process later : Process}

theorem routing_of_line {number : Nat} {line : Line ρ} (found : hub.line? number = some line)
    : hub.routing[number]? = some line.dispatcher.routes.get? := by
  rw [Hub.routing, List.getElem?_map, dispatchers_of_line found, Option.map_some]

theorem routing_set {number : Nat} {line : Line ρ} (lines : after.lines = hub.lines.set number line)
    : after.routing = hub.routing.set number line.dispatcher.routes.get? := by
  rw [Hub.routing, dispatchers_set lines, List.map_set, Hub.routing]

theorem holds_of_window {number : Nat} {window : Window}
    (found : process.windows.get? number = some window)
    : process.holds number = window.isOutstanding := by
  funext sequence
  simp [holds, found]

theorem holds_insert {number : Nat} {window : Window}
    (windows : later.windows = process.windows.insert number window) (other : Nat)
    : later.holds other = if other = number then window.isOutstanding else process.holds other := by
  funext sequence
  simp only [holds, windows, Table.get?_insert]
  split <;> rfl

/-- A process that has no windows yet has borrowed nothing. -/
theorem borrows_nothing (config : Config) (routing : List (UInt16 → Option Nat))
    : Process.Borrows { config } routing routing where
  length := rfl
  lends old new := by
    obtain rfl := Option.some.inj (old.symm.trans new)
    exact .refl _

/-- What a process took depends only on the numbers that it holds. -/
theorem Borrows.of_holds {routing : List (UInt16 → Option Nat)}
    (borrows : process.Borrows base routing) (holds : later.holds = process.holds)
    : later.Borrows base routing where
  length := borrows.length
  lends old new := holds ▸ borrows.lends old new

/-- A turn on one connection keeps account of the others. -/
theorem Borrows.turn {routing : List (UInt16 → Option Nat)}
    (borrows : process.Borrows base routing) {number : Nat} {window : Window}
    {routes : UInt16 → Option Nat}
    (windows : later.windows = process.windows.insert number window)
    (lends : ∀ old, base[number]? = some old → Lends old routes window.isOutstanding)
    : later.Borrows base (routing.set number routes) where
  length := List.length_set.trans borrows.length
  lends {other old new} was is := by
    rw [holds_insert windows]
    split
    · next same =>
        subst same
        obtain ⟨_, rfl⟩ := by simpa [List.getElem?_set_self'] using is
        exact lends old was
    · next apart =>
        rw [List.getElem?_set_ne (Ne.symm apart)] at is
        exact borrows.lends was is

/-- A window that is opened holds nothing yet, and leads nobody anywhere. -/
theorem holds_of_engage {number : Nat} {line engaged : Line ρ} {window : Window}
    (ready : process.engage number line = (window, engaged, later))
    : later.holds = process.holds
      ∧ later.holds number = window.isOutstanding
      ∧ engaged.dispatcher.routes = line.dispatcher.routes := by
  unfold engage at ready
  split at ready
  · next held found =>
      obtain ⟨rfl, rfl, rfl⟩ : held = window ∧ line = engaged ∧ process = later := by
        simpa using ready
      exact ⟨rfl, holds_of_window found, rfl⟩
  · next absent =>
      simp only [Dispatcher.openInbox, Prod.mk.injEq] at ready
      obtain ⟨rfl, rfl, rfl⟩ := ready
      have nothing : process.holds number = fun _ => false := by
        funext sequence
        simp [holds, absent]
      refine ⟨funext fun other => ?_, (holds_insert rfl number).trans (if_pos rfl), rfl⟩
      refine (holds_insert rfl other).trans ?_
      split
      · next same =>
          rw [same, nothing]
          rfl
      · rfl

/-- A number is in use in a process exactly if the process holds it on some connection. -/
theorem isOutstanding_iff (process : Process) (sequence : UInt16)
    : process.isOutstanding sequence = true
      ↔ ∃ number, process.holds number sequence = true := by
  simp only [isOutstanding, List.any_eq_true, Table.mem_values_iff, holds, Option.any_eq_true]
  constructor
  · rintro ⟨window, ⟨number, found⟩, waits⟩
    exact ⟨number, window, found, waits⟩
  · rintro ⟨number, window, found, waits⟩
    exact ⟨window, ⟨number, found⟩, waits⟩

/-- A window that is opened takes no number. -/
theorem isTaken_of_engage {process later : Process} {number : Nat} {line engaged : Line ρ}
    {window : Window} (ready : process.engage number line = (window, engaged, later))
    : later.isTaken engaged = process.isTaken line := by
  obtain ⟨holds, _, routes⟩ := holds_of_engage ready
  funext sequence
  rw [Bool.eq_iff_iff]
  simp only [isTaken, Bool.or_eq_true, isOutstanding_iff, holds, Dispatcher.isRegistered, routes]

/-- So the number of a request is the same, whether the window was there or not. -/
theorem assign_of_engage {process later : Process} {number : Nat} {line engaged : Line ρ}
    {window : Window} (ready : process.engage number line = (window, engaged, later))
    (wanted : Option UInt16) (sequences : SequenceGenerator)
    : later.assign engaged wanted sequences = process.assign line wanted sequences := by
  simp only [assign, isTaken_of_engage ready]

variable [Responder ρ] {request : Request} {handler : Handler} {result : Except Halt Unit}

/-- After a send a process has borrowed what it holds, by cases on how the send ended. -/
theorem Borrows.send (borrows : process.Borrows base hub.routing)
    (done : Process.send hub process request handler = (result, after, later))
    : later.Borrows base after.routing := by
  have ending := send_sending hub process request handler
  rw [done] at ending
  cases ending with
  | idle lines =>
      have routing : after.routing = hub.routing := by
        rw [Hub.routing, Hub.dispatchers, lines]
        rfl
      rwa [routing]
  | opened found ready lines =>
      obtain ⟨holds, _, routes⟩ := holds_of_engage ready
      have here := routing_of_line found
      have routing : after.routing = hub.routing := by
        rw [routing_set lines, routes]
        obtain ⟨bound, same⟩ := List.getElem?_eq_some_iff.mp here
        rw [← same, List.set_getElem_self]
      rw [routing]
      exact borrows.of_holds holds
  | tried found ready sent lines =>
      obtain ⟨holds, held, routes⟩ := holds_of_engage ready
      rw [routing_set lines]
      refine (borrows.of_holds holds).turn rfl fun old was => ?_
      refine Station.send_lends ?_ sent
      have lends := borrows.lends was (routing_of_line found)
      rw [← holds, held, ← routes] at lends
      exact lends

/-- Waiting for the requests of a window gives numbers back and takes none. -/
theorem Borrows.finishWindow {number : Nat} (borrows : process.Borrows base hub.routing)
    (done : finishWindow hub process number = (after, later))
    : later.Borrows base after.routing := by
  unfold Process.finishWindow at done
  split at done
  · next line window found held =>
      obtain ⟨rfl, rfl⟩ := Prod.mk.inj done
      let start : Station ρ := { line, window, journal := hub.journal }
      have path := Station.drain_path 0 start
      have lines : (hub.update number start.finish).lines
          = hub.lines.set number (start.drain 0).line := rfl
      rw [routing_set lines]
      refine borrows.turn rfl fun old was => path.releases.lends ?_
      have lends := borrows.lends was (routing_of_line found)
      rwa [holds_of_window held] at lends
  · obtain ⟨rfl, rfl⟩ := Prod.mk.inj done
    exact borrows

/-- So does waiting window by window, by induction on the windows. -/
theorem Borrows.foldl_finishWindow (numbers : List Nat) (borrows : process.Borrows base hub.routing)
    (done
      : numbers.foldl
          (fun state number => Process.finishWindow state.1 state.2 number) (hub, process)
        = (after, later))
    : later.Borrows base after.routing := by
  induction numbers generalizing hub process with
  | nil =>
      obtain ⟨rfl, rfl⟩ := Prod.mk.inj done
      exact borrows
  | cons number rest ih => exact ih (borrows.finishWindow rfl) done

theorem Borrows.finish {result : Except Error Unit}
    (borrows : process.Borrows base hub.routing)
    (done : Process.finish hub process = (result, after, later))
    : later.Borrows base after.routing := by
  unfold Process.finish at done
  split at done
  · obtain ⟨rfl, rfl, rfl⟩ := by simpa using done
    exact borrows
  · simp only [Prod.mk.injEq] at done
    obtain ⟨_, hubs, processes⟩ := done
    have closing : Borrows { process with finished := true } base hub.routing :=
      borrows.of_holds rfl
    exact closing.foldl_finishWindow _ (Prod.ext hubs processes)

theorem Borrows.finishAndCheck {result : Except Error Unit}
    (borrows : process.Borrows base hub.routing)
    (done : Process.finishAndCheck hub process = (result, after, later))
    : later.Borrows base after.routing := by
  unfold Process.finishAndCheck at done
  generalize waited : Process.finish hub process = outcome at done
  obtain ⟨verdict, middle, between⟩ := outcome
  cases verdict <;>
  · obtain ⟨rfl, rfl, rfl⟩ := by simpa using done
    exact borrows.finish waited

/-- Requests are sent one after another, by induction on their number. -/
theorem Borrows.sendAll {orders : Nat → Order} {index count : Nat}
    (borrows : process.Borrows base hub.routing)
    (done : Process.sendAll orders hub process index count = (result, after, later))
    : later.Borrows base after.routing := by
  induction count generalizing hub process index with
  | zero =>
      obtain ⟨rfl, rfl, rfl⟩ : .ok () = result ∧ hub = after ∧ process = later := by
        simpa [Process.sendAll] using done
      exact borrows
  | succ count ih =>
      rw [Process.sendAll] at done
      split at done
      · obtain ⟨rfl, rfl, rfl⟩ := by simpa using done
        exact borrows
      · split at done
        · next sent =>
            obtain ⟨rfl, rfl, rfl⟩ := by simpa using done
            exact borrows.send sent
        · next sent => exact ih (borrows.send sent) done

-----------------------------------------------------------------------------------------
-- Everything is given back
-----------------------------------------------------------------------------------------

omit [Responder ρ] in
/-- Windows that go away free the numbers of their requests, by induction on them. -/
theorem routing_foldl_vacate (entries : List (Nat × Window)) (number : Nat)
    : (entries.foldl vacate hub).routing[number]?
      = hub.routing[number]?.map fun routes sequence =>
          bif entries.any fun entry => entry.1 == number && entry.2.isOutstanding sequence then none
          else routes sequence := by
  induction entries generalizing hub with
  | nil => simp
  | cons entry rest ih =>
      rw [List.foldl_cons, ih]
      simp only [Hub.routing, List.getElem?_map, dispatchers_vacate, Option.map_map]
      congr 1
      funext dispatcher sequence
      have keys : sequence ∈ entry.2.outstanding.keys ↔ entry.2.isOutstanding sequence = true :=
        Table.mem_keys_iff _ _
      simp only [Function.comp_apply, List.any_cons]
      by_cases same : entry.1 = number
      · cases waits : entry.2.isOutstanding sequence <;>
          simp [same, waits, keys, Dispatcher.discard, Dispatcher.get?_foldl_unregister]
      · simp [same, beq_eq_false_iff_ne.mpr same]

omit [Responder ρ] in
/-- The numbers that a process holds are those of the requests in its windows. -/
theorem holds_eq_any (process : Process) (number : Nat) (sequence : UInt16)
    : process.holds number sequence
      = process.windows.entries.any fun entry =>
          entry.1 == number && entry.2.isOutstanding sequence := by
  rw [Bool.eq_iff_iff]
  simp only [holds, Option.any_eq_true, List.any_eq_true, Bool.and_eq_true, beq_iff_eq]
  constructor
  · rintro ⟨window, found, waits⟩
    exact ⟨(number, window), Table.mem_entries_iff.mpr found, rfl, waits⟩
  · rintro ⟨⟨_, window⟩, member, rfl, waits⟩
    exact ⟨window, Table.mem_entries_iff.mp member, waits⟩

omit [Responder ρ] in
/-- A process that goes away gives back all that it borrowed. -/
theorem Borrows.drop (borrows : process.Borrows base hub.routing)
    : (process.drop hub).routing = base := by
  have dropped : process.drop hub = process.windows.entries.foldl vacate hub := rfl
  refine List.ext_getElem? fun number => ?_
  rw [dropped, routing_foldl_vacate]
  simp only [← holds_eq_any]
  cases was : base[number]? with
  | none =>
      have beyond : hub.routing.length ≤ number := by
        rw [borrows.length]
        exact List.getElem?_eq_none_iff.mp was
      rw [List.getElem?_eq_none beyond, Option.map_none]
  | some old =>
      have within : number < hub.routing.length := by
        rw [borrows.length]
        exact (List.getElem?_eq_some_iff.mp was).1
      have is := List.getElem?_eq_getElem within
      have lends := borrows.lends was is
      rw [is, Option.map_some, Option.some.injEq]
      funext sequence
      cases held : process.holds number sequence with
      | true => exact (lends.free sequence held).symm
      | false => exact lends.kept sequence held

end Process

namespace Hub

variable {ρ : Type} [Responder ρ]

/-- Whatever becomes of a batch, all numbers lead where they led before. -/
theorem routing_batch (hub : Hub ρ) (config : Config) (count : Nat) (orders : Nat → Order)
    : (hub.batch config count orders).2.routing = hub.routing := by
  unfold batch
  generalize sent : Process.sendAll orders hub { config } 0 count = outcome
  obtain ⟨verdict, middle, between⟩ := outcome
  have borrows := (Process.borrows_nothing config hub.routing).sendAll sent
  cases verdict with
  | error error => exact borrows.drop
  | ok =>
      dsimp only
      generalize waited : Process.finishAndCheck middle between = ending
      obtain ⟨verdict, last, later⟩ := ending
      exact (borrows.finishAndCheck waited).drop

theorem routing_of_batch {hub after : Hub ρ} {config : Config} {count : Nat}
    {orders : Nat → Order} {result : Except Halt Unit}
    (done : hub.batch config count orders = (result, after))
    : after.routing = hub.routing := by
  have same := hub.routing_batch config count orders
  rwa [done] at same

end Hub

end MeshControl.Link
