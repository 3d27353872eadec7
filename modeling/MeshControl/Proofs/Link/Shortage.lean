import MeshControl.Proofs.Link.Batch
import MeshControl.Proofs.Link.FirstFailure
import MeshControl.Proofs.Link.Numbering
import MeshControl.Proofs.Link.Occupancy
import MeshControl.Proofs.Link.Steadiness

/-! When sequence numbers run short. A batch goes on for ever only where all numbers of a connection
are in use. While each connection has a free number for every request this never happens. On a
single connection it happens only before anything was heard there: a window is emptied only when it
is full and a number was found, and then there are more numbers than it holds.
-/

namespace MeshControl.Link

open Scp

variable {ρ : Type}

/-- How many numbers of a connection are in use, which are those that lead somewhere. -/
def inUseAt (routing : List (UInt16 → Option Nat)) (number : Nat) : Nat :=
  (routing[number]?).elim 0 fun routes => inUse fun sequence => (routes sequence).isSome

/-- Each connection has so many numbers that nobody uses. -/
def Hub.HasRoom (hub : Hub ρ) (count : Nat) : Prop :=
  ∀ number, inUseAt hub.routing number + count ≤ sequenceCount

/-- Room depends on nothing but where the numbers lead. -/
theorem Hub.HasRoom.of_routing {hub after : Hub ρ} {count : Nat} (room : hub.HasRoom count)
    (same : after.routing = hub.routing)
    : after.HasRoom count :=
  fun number => same ▸ room number

/-- A send that finds room tells nobody anything. -/
theorem Station.told_of_room [Responder ρ] {station after : Station ρ} {request : Request}
    {sequence : UInt16} {handler : Handler} {result : Except Error Unit}
    (room : station.window.inProgress < station.window.config.window)
    (done : station.send request sequence handler = (result, after))
    : ∃ events,
        after.journal.toList = station.journal.toList ++ events ∧ told events = [] := by
  have dispatched := dispatched_of_room room request sequence handler
  rw [done] at dispatched
  cases dispatched with
  | kept_back => exact ⟨[], (List.append_nil _).symm, rfl⟩
  | @offered _ tried _ written own =>
      refine ⟨tried, written, List.filter_eq_nil_iff.mpr fun event member => ?_⟩
      obtain ⟨_, rfl⟩ := own event member
      exact Bool.false_ne_true

namespace Process

-----------------------------------------------------------------------------------------
-- The numbers that a process finds taken
-----------------------------------------------------------------------------------------

variable {base : List (UInt16 → Option Nat)} {hub after : Hub ρ} {process later : Process}
  {number : Nat} {line : Line ρ}

/-- The numbers in use in a window are as many as the requests that wait in it. -/
theorem inUse_isOutstanding (window : Window)
    : inUse window.isOutstanding = window.inProgress :=
  inUse_contains window.outstanding

/-- A process has no more numbers in use than requests whose end it owes, by induction on its
windows.
-/
theorem inUse_isOutstanding_le (process : Process)
    : inUse process.isOutstanding ≤ process.promises.length := by
  unfold isOutstanding promises
  induction process.windows.values with
  | nil => exact Nat.le_of_eq (inUse_eq_zero fun _ => rfl)
  | cons window rest ih =>
      have first : window.promises.length = window.inProgress := by
        simp [Window.promises, Table.values, Window.inProgress, Table.size]
      simp only [List.any_cons, List.flatMap_cons, List.length_append, first,
        ← inUse_isOutstanding]
      exact Nat.le_trans (inUse_or_le _ _) (Nat.add_le_add_left ih _)

/-- What a process finds taken on a connection is its own, or was in use when it came. -/
theorem Borrows.isTaken_iff (borrows : process.Borrows base hub.routing)
    (found : hub.line? number = some line)
    : ∃ routes,
        base[number]? = some routes
        ∧ (∀ sequence, process.holds number sequence = true → routes sequence = none)
        ∧ ∀ sequence,
            process.isTaken line sequence
            = (process.isOutstanding sequence || (routes sequence).isSome) := by
  have is := routing_of_line found
  have within : number < base.length := by
    rw [← borrows.length]
    exact (List.getElem?_eq_some_iff.mp is).1
  have was := List.getElem?_eq_getElem within
  have lends := borrows.lends was is
  refine ⟨_, was, lends.free, fun sequence => ?_⟩
  rw [isTaken, Dispatcher.isRegistered, Table.contains]
  cases held : process.holds number sequence with
  | true =>
      have own := (process.isOutstanding_iff sequence).mpr ⟨number, held⟩
      rw [own, Bool.true_or, Bool.true_or]
  | false => rw [lends.kept sequence held]

theorem inUseAt_of_listed {routes : UInt16 → Option Nat} (listed : base[number]? = some routes)
    : inUseAt base number = inUse fun sequence => (routes sequence).isSome := by
  rw [inUseAt, listed, Option.elim_some]

/-- No more numbers are taken than were in use and are in use in the process. -/
theorem Borrows.inUse_isTaken_le (borrows : process.Borrows base hub.routing)
    (found : hub.line? number = some line)
    : inUse (process.isTaken line) ≤ inUse process.isOutstanding + inUseAt base number := by
  obtain ⟨routes, listed, _, taken⟩ := borrows.isTaken_iff found
  rw [inUseAt_of_listed listed, funext taken]
  exact inUse_or_le _ _

-----------------------------------------------------------------------------------------
-- A single connection
-----------------------------------------------------------------------------------------

/-- All requests of the process are on one connection, in a window of these settings. -/
structure Confined (process : Process) (number : Nat) (config : Config) : Prop where
  configured : process.config = config
  alone : ∀ other, other ≠ number → process.windows.get? other = none
  settings : ∀ window, process.windows.get? number = some window → window.config = config
  fits
    : ∀ window,
        process.windows.get? number = some window → window.inProgress ≤ config.window

variable {config : Config}

theorem confined_nothing (number : Nat) (config : Config)
    : Confined { config } number config :=
  ⟨rfl, fun _ _ => rfl, nofun, nofun⟩

/-- A window that is put in its place keeps a process where it is. -/
theorem Confined.insert (confined : process.Confined number config) {window : Window}
    (settings : window.config = config) (fits : window.inProgress ≤ config.window)
    (configured : later.config = process.config)
    (windows : later.windows = process.windows.insert number window)
    : later.Confined number config := by
  have here {other : Window} (held : later.windows.get? number = some other)
      : window = other := by
    rw [windows, Table.get?_insert, if_pos rfl] at held
    exact Option.some.inj held
  refine ⟨configured.trans confined.configured, fun other apart => ?_,
    fun other held => here held ▸ settings, fun other held => here held ▸ fits⟩
  rw [windows, Table.get?_insert, if_neg apart]
  exact confined.alone other apart

/-- Engaging its connection does so, too. -/
theorem Confined.engage (confined : process.Confined number config) {engaged : Line ρ}
    {window : Window} (ready : process.engage number line = (window, engaged, later))
    : later.Confined number config
      ∧ window.config = config
      ∧ window.inProgress ≤ config.window := by
  rcases engage_cases ready with ⟨held, rfl⟩ | ⟨_, rfl, rfl⟩
  · exact ⟨confined, confined.settings window held, confined.fits window held⟩
  · have none_waits : Window.inProgress
        { config := process.config, inbox := line.dispatcher.fresh } ≤ config.window :=
      Nat.zero_le _
    exact ⟨confined.insert confined.configured none_waits rfl rfl, confined.configured,
      none_waits⟩

/-- On its connection a process finds exactly those numbers taken that were in use, and its own. -/
theorem Confined.inUse_isTaken (confined : process.Confined number config)
    (borrows : process.Borrows base hub.routing) (found : hub.line? number = some line)
    : inUse (process.isTaken line) = inUse (process.holds number) + inUseAt base number := by
  obtain ⟨routes, listed, free, taken⟩ := borrows.isTaken_iff found
  have own : process.isOutstanding = process.holds number := by
    funext sequence
    rw [Bool.eq_iff_iff, isOutstanding_iff]
    refine ⟨fun ⟨other, held⟩ => ?_, fun held => ⟨number, held⟩⟩
    by_cases same : other = number
    · exact same ▸ held
    · rw [holds, confined.alone other same] at held
      cases held
  rw [inUseAt_of_listed listed, funext taken, own]
  refine inUse_or_of_apart fun sequence held => ?_
  rw [free sequence held, Option.isSome_none]

/-- The free numbers of a connection are more than its window holds. -/
def Ample (base : List (UInt16 → Option Nat)) (number : Nat) (config : Config) : Prop :=
  config.window + inUseAt base number < sequenceCount

-----------------------------------------------------------------------------------------
-- Numbers enough
-----------------------------------------------------------------------------------------

variable [Responder ρ] {request : Request} {handler : Handler} {result : Except Halt Unit}

/-- Where each connection has a free number more than the process has requests, a send returns. -/
theorem Borrows.send_returns (borrows : process.Borrows base hub.routing)
    (room : ∀ number, inUseAt base number + process.promises.length < sequenceCount)
    (request : Request) (handler : Handler)
    : Returns (Process.send hub process request handler).1 := by
  have ending := send_sending hub process request handler
  generalize Process.send hub process request handler = outcome at ending
  cases ending with
  | idle => exact .inr ⟨_, rfl⟩
  | @opened halt number line _ _ _ _ found ready _ _ _ unnumbered =>
      rw [assign_of_engage ready] at unnumbered
      cases halt with
      | failed error => exact .inr ⟨error, rfl⟩
      | overflow => exact absurd unnumbered (process.assign_ne_overflow line _ _)
      | endless =>
          have all := inUse_of_assign_endless unnumbered
          have most := borrows.inUse_isTaken_le found
          have own := process.inUse_isOutstanding_le
          have free := room number
          omega
  | @tried _ _ _ _ _ _ verdict =>
      cases verdict with
      | ok => exact .inl ⟨(), rfl⟩
      | error error => exact .inr ⟨error, rfl⟩

omit [Responder ρ] in
/-- A process that is on its way through a row owes no more requests than have their numbers. -/
theorem Underway.promises_le {origin : List Event} {tag : UInt8} {plain : Nat → Request}
    {passage : Passage} (underway : Underway origin tag plain passage hub process)
    : process.promises.length ≤ passage.numbers.length := by
  obtain ⟨_, progress⟩ := underway.progress
  have lengths := progress.promises.length_eq
  simp only [List.length_map, List.length_range, List.length_append, ledger] at lengths
  omega

/-- Where each connection has a free number for every request of a row, sending the next returns. -/
theorem Underway.send_returns {origin : List Event} {tag : UInt8} {plain : Nat → Request}
    {passage : Passage} {total : Nat}
    (underway : Underway origin tag plain passage hub process)
    (borrows : process.Borrows base hub.routing)
    (room : ∀ number, inUseAt base number + total ≤ sequenceCount)
    (next : passage.numbers.length < total) (request : Request)
    : Returns (Process.send hub process request {}).1 := by
  refine borrows.send_returns (fun number => ?_) request {}
  have few := underway.promises_le
  have free := room number
  omega

/-- So does sending the rest of it, by induction on the requests. -/
theorem Underway.sendAll_returns {origin : List Event} {tag : UInt8} {plain : Nat → Request}
    {passage : Passage} {orders : Nat → Order} (count : Nat)
    (plain_orders
      : ∀ index < passage.numbers.length + count,
          orders index = { request := .ok (plain index) })
    (underway : Underway origin tag plain passage hub process)
    (borrows : process.Borrows base hub.routing)
    (room
      : ∀ number, inUseAt base number + (passage.numbers.length + count) ≤ sequenceCount)
    : Returns (Process.sendAll orders hub process passage.numbers.length count).1 := by
  induction count generalizing passage hub process with
  | zero => exact .inl ⟨(), rfl⟩
  | succ count ih =>
      have returns :=
        underway.send_returns borrows room (by omega) (plain passage.numbers.length)
      rw [Process.sendAll, plain_orders _ (by omega)]
      dsimp only
      generalize sent
        : Process.send hub process (plain passage.numbers.length) {} = outcome at returns
      obtain ⟨verdict, middle, between⟩ := outcome
      have advance := underway.send sent
      generalize reached : passage.numbers.length + 1 = length at advance
      cases advance with
      | @onward next _ _ onward =>
          have remaining : passage.numbers.length + (count + 1)
              = next.numbers.length + count := by
            omega
          rw [remaining] at plain_orders room
          exact ih plain_orders onward (borrows.send sent) room
      | halted => exact returns

-----------------------------------------------------------------------------------------
-- Nothing heard
-----------------------------------------------------------------------------------------

/-- A send of a process that stays on one connection. The search for a number goes on for ever only
where the free numbers are no more than the window holds. There nothing is ever heard: a window is
read only when it is full, and it is not full while a number is free.
-/
theorem Confined.send (confined : process.Confined number config)
    (borrows : process.Borrows base hub.routing)
    (chosen : (hub.selector.select request.header.destination).1.number = number)
    (done : Process.send hub process request handler = (result, after, later))
    : later.Confined number config
      ∧ (result = .error .endless → ¬ Ample base number config)
      ∧ (¬ Ample base number config
        → ∃ events,
            after.journal.toList = hub.journal.toList ++ events ∧ told events = []) := by
  have ending := send_sending hub process request handler
  rw [done] at ending
  cases ending with
  | idle _ journal =>
      exact ⟨confined, nofun, fun _ => ⟨[], by rw [journal, List.append_nil], rfl⟩⟩
  | @opened halt _ line _ window _ _ found ready _ journal same unnumbered =>
      obtain rfl := same.symm.trans chosen
      obtain ⟨still, _, fits⟩ := confined.engage ready
      refine ⟨still, ?_, fun _ => ⟨[], by rw [journal, List.append_nil], rfl⟩⟩
      rintro ⟨⟩ ample
      rw [assign_of_engage ready] at unnumbered
      have all := inUse_of_assign_endless unnumbered
      obtain ⟨holds, held, _⟩ := holds_of_engage ready
      rw [confined.inUse_isTaken borrows found, ← holds, held, inUse_isOutstanding] at all
      unfold Ample at ample
      omega
  | @tried _ line engaged window _ sequence verdict station _ found ready sent _ journal same _
      numbered =>
      obtain rfl := same.symm.trans chosen
      obtain ⟨still, settings, fits⟩ := confined.engage ready
      let start : Station ρ := { line := engaged, window, journal := hub.journal }
      have last
          : start.SendMoment request sequence handler (start.send request sequence handler).2 :=
        .done
      have most := last.inProgress_le (settings ▸ fits)
      have configured := start.config_send request sequence handler
      rw [sent] at most configured
      refine ⟨still.insert ?_ ?_ rfl rfl, ?_, fun scarce => ?_⟩
      · exact configured.trans settings
      · exact settings ▸ most
      · cases verdict <;> nofun
      · have room : window.inProgress < window.config.window := by
          have some_free := inUse_of_assign_ok numbered
          obtain ⟨holds, held, _⟩ := holds_of_engage ready
          rw [isTaken_of_engage ready, confined.inUse_isTaken borrows found, ← holds, held,
            inUse_isOutstanding] at some_free
          rw [settings]
          unfold Ample at scarce
          omega
        rw [journal]
        exact Station.told_of_room room sent

/-- Sending on one connection goes on for ever only before anything was heard; by induction on the
requests.
-/
theorem Confined.sendAll_endless {orders : Nat → Order} {index count : Nat}
    (confined : process.Confined number config) (borrows : process.Borrows base hub.routing)
    (steady : hub.selector.Steady)
    (made
      : ∀ place < index + count,
          ∃ request,
            (orders place).request = .ok request
            ∧ (hub.selector.select request.header.destination).1.number = number)
    (done
      : Process.sendAll orders hub process index count = (.error .endless, after, later))
    : ¬ Ample base number config
      ∧ ∃ events,
          after.journal.toList = hub.journal.toList ++ events ∧ told events = [] := by
  induction count generalizing hub process index with
  | zero => cases done
  | succ count ih =>
      obtain ⟨request, order, chosen⟩ := made index (by omega)
      rw [Process.sendAll, order] at done
      dsimp only at done
      have same := selector_send steady process request (orders index).handler
      generalize sent
        : Process.send hub process request (orders index).handler = outcome at done same
      obtain ⟨verdict, middle, between⟩ := outcome
      obtain ⟨still, scarce, unheard⟩ := confined.send borrows chosen sent
      cases verdict with
      | error halt =>
          obtain ⟨rfl, rfl, rfl⟩ := by simpa using done
          exact ⟨scarce rfl, unheard (scarce rfl)⟩
      | ok =>
          dsimp only at same
          rw [← same] at steady made
          obtain ⟨scarce, more, written, silent⟩ :=
            ih still (borrows.send sent) steady (fun place within => made place (by omega)) done
          obtain ⟨events, before, quiet⟩ := unheard scarce
          refine ⟨scarce, events ++ more, ?_, ?_⟩
          · rw [written, before, List.append_assoc]
          · rw [told_append, quiet, silent, List.append_nil]

end Process

namespace Hub

variable [Responder ρ] {hub after : Hub ρ} {config : Config} {count : Nat}
  {orders : Nat → Order}

/-- Where each connection has a free number for every request, a batch of plain requests returns;
the numbers are free again afterwards.
-/
theorem batch_returns_of_room {total : Nat} {result : Except Halt Unit}
    (plain_orders : ∀ index < count, ∃ request, orders index = { request := .ok request })
    (within : count ≤ total) (room : hub.HasRoom total)
    (done : hub.batch config count orders = (result, after))
    : Returns result ∧ after.HasRoom total := by
  refine ⟨?_, room.of_routing (routing_of_batch done)⟩
  choose! plain plain_orders using plain_orders
  have sends := (Process.Underway.start hub config plain).sendAll_returns count
    (by simpa using plain_orders) (Process.borrows_nothing config hub.routing) fun number => by
      have free := room number
      simp only [List.length_nil]
      omega
  unfold batch at done
  generalize Process.sendAll orders hub { config } _ count = outcome at sends done
  obtain ⟨verdict, middle, between⟩ := outcome
  cases verdict with
  | error halt =>
      obtain ⟨rfl, -⟩ := Prod.mk.inj done
      exact sends
  | ok =>
      obtain ⟨rfl, -⟩ := Prod.mk.inj done
      exact returns_mapError _

/-- A batch of requests for one chip goes on for ever only where nothing was heard: they all take
the same connection.
-/
theorem batch_endless {chip : Chip} (steady : hub.selector.Steady)
    (together
      : ∀ index < count,
          ∃ request,
            (orders index).request = .ok request ∧ request.header.destination = chip)
    (done : hub.batch config count orders = (.error .endless, after))
    : ∃ events,
        after.journal.toList = hub.journal.toList ++ events ∧ told events = [] := by
  unfold batch at done
  generalize sent : Process.sendAll orders hub { config } 0 count = outcome at done
  obtain ⟨verdict, middle, between⟩ := outcome
  cases verdict with
  | error halt =>
      obtain ⟨rfl, rfl⟩ := by simpa using done
      rw [Process.journal_drop]
      let number := (hub.selector.select chip).1.number
      have made
          : ∀ place < 0 + count,
              ∃ request,
                (orders place).request = .ok request
                ∧ (hub.selector.select request.header.destination).1.number = number := by
        intro place within
        obtain ⟨request, order, same⟩ := together place (by omega)
        exact ⟨request, order, by rw [same]⟩
      exact ((Process.confined_nothing number config).sendAll_endless
        (Process.borrows_nothing config hub.routing) steady made sent).2
  | ok =>
      dsimp only at done
      generalize Process.finishAndCheck middle between = ending at done
      obtain ⟨result, last, later⟩ := ending
      have stuck : result.mapError Halt.failed = .error .endless := congrArg Prod.fst done
      cases result <;> cases stuck

/-- A batch of requests for one chip returns where anything was heard. -/
theorem batch_returns_of_told {chip : Chip} {result : Except Halt Unit} {events : List Event}
    (steady : hub.selector.Steady)
    (together
      : ∀ index < count,
          ∃ request,
            (orders index).request = .ok request ∧ request.header.destination = chip)
    (done : hub.batch config count orders = (result, after))
    (written : after.journal.toList = hub.journal.toList ++ events) (heard : told events ≠ [])
    : Returns result := by
  cases result with
  | ok => exact .inl ⟨(), rfl⟩
  | error halt =>
      cases halt with
      | failed error => exact .inr ⟨error, rfl⟩
      | overflow =>
          have unstopped : (hub.batch config count orders).1 ≠ .error .overflow := by
            refine hub.batch_ne_overflow config fun index within => ?_
            obtain ⟨request, order, _⟩ := together index within
            rw [order]
            nofun
          exact absurd (congrArg Prod.fst done) unstopped
      | endless =>
          obtain ⟨silent, same, quiet⟩ := batch_endless steady together done
          obtain rfl := List.append_cancel_left (written.symm.trans same)
          exact absurd quiet heard

/-- So does an exchange, which without success ends with an error then. -/
theorem exchange_fails_of_told {chip : Chip} {halt : Halt} {events : List Event}
    (steady : hub.selector.Steady)
    (together
      : ∀ index < count,
          ∃ request,
            (orders index).request = .ok request ∧ request.header.destination = chip)
    (done : hub.exchange config count orders = (.error halt, after))
    (written : after.journal.toList = hub.journal.toList ++ events) (heard : told events ≠ [])
    : ∃ error, halt = .failed error := by
  unfold exchange apart at done
  dsimp only at done
  let blank : Hub ρ := { hub with journal := #[] }
  generalize ran : blank.batch config count orders = outcome at done
  obtain ⟨verdict, last⟩ := outcome
  obtain ⟨stopped, rfl⟩ := Prod.mk.inj done
  have own : last.journal.toList = blank.journal.toList ++ events :=
    List.append_cancel_left (Array.toList_append.symm.trans written)
  have steady_still : blank.selector.Steady := steady
  cases verdict with
  | error =>
      obtain rfl := Except.error.inj stopped
      exact (batch_returns_of_told steady_still together ran own heard).failed
  | ok => cases stopped

end Hub

end MeshControl.Link
