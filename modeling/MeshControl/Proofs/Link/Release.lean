import MeshControl.Proofs.Link.Move
import MeshControl.Proofs.Table.Contents

/-! Routes while a window is at work: the number of a request that ends is free, and no other
route changes. A send adds the route of its own request and nothing else.
-/

namespace MeshControl.Link

-----------------------------------------------------------------------------------------
-- Reading never changes a route
-----------------------------------------------------------------------------------------

/-- Two dispatchers that lead the same numbers to the same inboxes. -/
structure Dispatcher.SameRoutes (before after : Dispatcher) : Prop where
  routes : after.routes = before.routes
  fresh : after.fresh = before.fresh

namespace Dispatcher

theorem SameRoutes.refl (dispatcher : Dispatcher) : SameRoutes dispatcher dispatcher :=
  ⟨rfl, rfl⟩

theorem SameRoutes.trans {before middle after : Dispatcher}
    (first : SameRoutes before middle) (second : SameRoutes middle after)
    : SameRoutes before after :=
  ⟨second.routes.trans first.routes, second.fresh.trans first.fresh⟩

/-- Putting a datagram into an inbox changes no route. -/
theorem route_sameRoutes (dispatcher : Dispatcher) (datagram : Datagram)
    : SameRoutes dispatcher (dispatcher.route datagram) := by
  unfold route
  split
  · exact .refl dispatcher
  · split <;> exact ⟨rfl, rfl⟩

/-- Taking a datagram out of an inbox changes no route. -/
theorem sameRoutes_of_pop? {dispatcher after : Dispatcher} {number : Nat}
    {datagram : Datagram} (taken : dispatcher.pop? number = some (datagram, after))
    : SameRoutes dispatcher after := by
  unfold pop? at taken
  split at taken
  · cases taken
  · simp only [Option.some.injEq, Prod.mk.injEq] at taken
    obtain ⟨_, rfl⟩ := taken
    exact ⟨rfl, rfl⟩

/-- A wait where something lies in the inbox takes it out. -/
theorem awaitFrom_of_pop? {dispatcher rest : Dispatcher} {inbox : Nat} {datagram : Datagram}
    (lies : dispatcher.pop? inbox = some (datagram, rest)) (limit : Duration)
    (pending : List Arrival)
    : awaitFrom inbox limit pending dispatcher = (.ok datagram, pending, rest) := by
  cases pending <;> simp [awaitFrom, lies]

/-- A wait changes no route, by induction on what it reads. -/
theorem awaitFrom_sameRoutes (inbox : Nat) (limit : Duration) (pending : List Arrival)
    (dispatcher : Dispatcher)
    : SameRoutes dispatcher (awaitFrom inbox limit pending dispatcher).2.2 := by
  fun_induction awaitFrom inbox limit pending dispatcher with
  | case1 dispatcher datagram after taken => exact sameRoutes_of_pop? taken
  | case2 dispatcher _ => exact .refl dispatcher
  | case3 dispatcher arrival rest datagram after taken => exact sameRoutes_of_pop? taken
  | case4 => exact .refl _
  | case5 rest dispatcher _ _ bytes ih => exact (route_sameRoutes dispatcher bytes).trans ih
  | case6 rest dispatcher _ _ error _ ih => exact ih
  | case7 => exact .refl _

/-- Freeing some numbers takes exactly their routes away, by induction on them. -/
theorem get?_foldl_unregister (sequences : List UInt16) (dispatcher : Dispatcher)
    (sequence : UInt16)
    : (sequences.foldl unregister dispatcher).routes.get? sequence
      = if sequence ∈ sequences then none else dispatcher.routes.get? sequence := by
  induction sequences generalizing dispatcher with
  | nil => simp
  | cons first rest ih =>
      rw [List.foldl_cons, ih]
      simp only [unregister, Table.get?_erase, List.mem_cons]
      by_cases later : sequence ∈ rest
      · simp [later]
      · simp [later]

theorem fresh_foldl_unregister (sequences : List UInt16) (dispatcher : Dispatcher)
    : (sequences.foldl unregister dispatcher).fresh = dispatcher.fresh := by
  induction sequences generalizing dispatcher with
  | nil => rfl
  | cons first rest ih => exact ih (dispatcher.unregister first)

end Dispatcher

/-- A wait on a line changes no route, whether the connection is closed or not. -/
theorem Line.await_sameRoutes {ρ : Type} (line : Line ρ) (inbox : Nat) (limit : Duration)
    : line.dispatcher.SameRoutes (line.await inbox limit).2.dispatcher := by
  unfold await
  split
  · split
    · next taken => exact Dispatcher.sameRoutes_of_pop? taken
    · exact .refl line.dispatcher
  · exact Dispatcher.awaitFrom_sameRoutes inbox limit line.connection.pending line.dispatcher

namespace Station

variable {ρ : Type}

-----------------------------------------------------------------------------------------
-- The parts of a station that each change leaves alone
-----------------------------------------------------------------------------------------

@[simp] theorem line_report (station : Station ρ) (entry : Outstanding) (error : Error)
    : (station.report entry error).line = station.line :=
  rfl

@[simp] theorem line_count (station : Station ρ) (change : Counters → Counters)
    : (station.count change).line = station.line :=
  rfl

/-- An accepted request leaves the window and frees its number. -/
theorem line_accept (station : Station ρ) (entry : Outstanding) (response : Scp.Response)
    : (station.accept entry response).line = (station.release response.sequence).line := by
  unfold accept
  dsimp only
  split <;> rfl

theorem outstanding_accept (station : Station ρ) (entry : Outstanding)
    (response : Scp.Response)
    : (station.accept entry response).window.outstanding
      = station.window.outstanding.erase response.sequence := by
  unfold accept
  dsimp only
  split <;> rfl

/-- A request that fails leaves the window and frees its number. -/
theorem line_fail {station : Station ρ} {sequence : UInt16} {entry : Outstanding}
    (waits : station.window.outstanding.get? sequence = some entry) (error : Error)
    : (station.fail sequence error).line = (station.release sequence).line := by
  simp [fail, waits]

/-- The settings and the inbox of a window never change. -/
structure SameOwner (before after : Window) : Prop where
  config : after.config = before.config
  inbox : after.inbox = before.inbox

theorem SameOwner.trans {before middle after : Window} (first : SameOwner before middle)
    (second : SameOwner middle after)
    : SameOwner before after :=
  ⟨second.config.trans first.config, second.inbox.trans first.inbox⟩

theorem accept_sameOwner (station : Station ρ) (entry : Outstanding)
    (response : Scp.Response)
    : SameOwner station.window (station.accept entry response).window := by
  unfold accept
  dsimp only
  split <;> exact ⟨rfl, rfl⟩

theorem fail_sameOwner (station : Station ρ) (sequence : UInt16) (error : Error)
    : SameOwner station.window (station.fail sequence error).window := by
  unfold fail
  split <;> exact ⟨rfl, rfl⟩

-----------------------------------------------------------------------------------------
-- Requests end, and their numbers are free
-----------------------------------------------------------------------------------------

/-- From one station to a later one, requests only ended: the numbers of those that ended are
free, and every other number leads where it led.
-/
structure Releases (before after : Station ρ) : Prop where
  owner : SameOwner before.window after.window
  fresh : after.line.dispatcher.fresh = before.line.dispatcher.fresh
  waited
    : ∀ sequence,
        after.window.isOutstanding sequence = true
        → before.window.isOutstanding sequence = true
  freed
    : ∀ sequence,
        before.window.isOutstanding sequence = true
        → after.window.isOutstanding sequence = false
        → after.line.dispatcher.routes.get? sequence = none
  kept
    : ∀ sequence,
        after.window.isOutstanding sequence = before.window.isOutstanding sequence
        → after.line.dispatcher.routes.get? sequence
          = before.line.dispatcher.routes.get? sequence

/-- Nothing ended where neither the window's requests nor the routes changed. -/
theorem Releases.of_same {before after : Station ρ}
    (owner : SameOwner before.window after.window)
    (waiting
      : ∀ sequence,
          after.window.isOutstanding sequence = before.window.isOutstanding sequence)
    (routes : before.line.dispatcher.SameRoutes after.line.dispatcher)
    : Releases before after := by
  refine ⟨owner, routes.fresh, fun sequence waits => waiting sequence ▸ waits, ?_, ?_⟩
  · intro sequence waits ended
    rw [waiting sequence, waits] at ended
    cases ended
  · intro sequence _
    rw [routes.routes]

/-- Exactly one request ended where its number was taken out of window and routes alike. -/
theorem Releases.of_erase {before after : Station ρ} {sequence : UInt16}
    (owner : SameOwner before.window after.window)
    (waits : before.window.isOutstanding sequence = true)
    (outstanding : after.window.outstanding = before.window.outstanding.erase sequence)
    (line : after.line = (before.release sequence).line)
    : Releases before after := by
  have routes (other : UInt16)
      : after.line.dispatcher.routes.get? other
        = if other = sequence then none
          else before.line.dispatcher.routes.get? other := by
    rw [line]
    exact Table.get?_erase before.line.dispatcher.routes sequence other
  have waiting (other : UInt16)
      : after.window.isOutstanding other
        = (if other = sequence then false else before.window.isOutstanding other) := by
    simp only [Window.isOutstanding, Table.contains, outstanding, Table.get?_erase]
    split <;> rfl
  refine ⟨owner, by rw [line]; rfl, ?_, ?_, ?_⟩
  · intro other still
    rw [waiting] at still
    split at still
    · cases still
    · exact still
  · intro other waited ended
    rw [waiting] at ended
    rw [routes]
    by_cases same : other = sequence
    · simp [same]
    · simp [same, waited] at ended
  · intro other unchanged
    rw [waiting] at unchanged
    rw [routes]
    by_cases same : other = sequence
    · subst same
      simp [waits] at unchanged
    · simp [same]

theorem Releases.refl (station : Station ρ) : Releases station station :=
  .of_same ⟨rfl, rfl⟩ (fun _ => rfl) (.refl _)

/-- Ends add up: a number is free after both stretches if its request ended in either. -/
theorem Releases.trans {before middle after : Station ρ} (first : Releases before middle)
    (second : Releases middle after)
    : Releases before after := by
  refine ⟨first.owner.trans second.owner, second.fresh.trans first.fresh,
    fun sequence waits => first.waited sequence (second.waited sequence waits), ?_, ?_⟩
  · intro sequence waited ended
    cases early : middle.window.isOutstanding sequence with
    | true => exact second.freed sequence early ended
    | false =>
        rw [second.kept sequence (ended.trans early.symm)]
        exact first.freed sequence waited early
  · intro sequence unchanged
    have steady : middle.window.isOutstanding sequence
        = before.window.isOutstanding sequence := by
      cases early : middle.window.isOutstanding sequence with
      | true => exact (first.waited sequence early).symm
      | false =>
          cases late : after.window.isOutstanding sequence with
          | true => exact absurd (second.waited sequence late) (by simp [early])
          | false => rw [← unchanged, late]
    rw [second.kept sequence (unchanged.trans steady.symm), first.kept sequence steady]

/-- Ending a request that waits frees its number and nothing else. -/
theorem fail_releases {station : Station ρ} {sequence : UInt16} {entry : Outstanding}
    (waits : station.window.outstanding.get? sequence = some entry) (error : Error)
    : Releases station (station.fail sequence error) := by
  refine .of_erase (fail_sameOwner station sequence error)
    (by simp [Window.isOutstanding, Table.contains, waits]) ?_ (line_fail waits error)
  rw [outstanding_fail, waits]

variable [Responder ρ]

@[simp] theorem dispatcher_transmit (station : Station ρ) (datagram : Datagram)
    : (station.transmit datagram).2.line.dispatcher = station.line.dispatcher := by
  unfold transmit
  dsimp only
  split <;> rfl

/-- A transmission touches neither window nor dispatcher, as seen from its outcome. -/
theorem of_transmit {station after : Station ρ} {datagram : Datagram}
    {refusal : Option Error} (sent : station.transmit datagram = (refusal, after))
    : after.window = station.window
      ∧ after.line.dispatcher = station.line.dispatcher := by
  have window := window_transmit station datagram
  have dispatcher := dispatcher_transmit station datagram
  rw [sent] at window dispatcher
  exact ⟨window, dispatcher⟩

/-- A request that was paid for and tried again waits with that repetition written down. -/
theorem waits_of_renew {station after : Station ρ} {sequence : UInt16} {entry : Outstanding}
    {remaining : Nat} {reason : Reason} {refusal : Option Error}
    (sent
      : (station.renew sequence entry remaining reason).transmit entry.datagram
        = (refusal, after))
    : after.window.outstanding.get? sequence = some (entry.repeated remaining reason) := by
  rw [(of_transmit sent).1]
  simp only [renew, outstanding_count, Table.get?_insert, if_true]

/-- A request that was paid for and tried again waits as before, under the same route. -/
theorem renew_releases {station after : Station ρ} {sequence : UInt16}
    {entry : Outstanding} {remaining : Nat} {reason : Reason} {refusal : Option Error}
    (waits : station.window.outstanding.get? sequence = some entry)
    (sent
      : (station.renew sequence entry remaining reason).transmit entry.datagram
        = (refusal, after))
    : Releases station after := by
  obtain ⟨window, dispatcher⟩ := of_transmit sent
  refine .of_same (by rw [window]; exact ⟨rfl, rfl⟩) ?_ (by rw [dispatcher]; exact .refl _)
  intro other
  rw [window]
  simp only [Window.isOutstanding, Table.contains, renew, outstanding_count,
    Table.get?_insert]
  by_cases same : other = sequence <;> simp [same, waits]

/-- Every move ends at most its own request, by cases on the move. -/
theorem Move.releases {before after : Station ρ} (move : Move before after)
    : Releases before after := by
  cases move with
  | hear waited =>
      have routes := before.line.await_sameRoutes before.window.inbox
        before.window.config.timeout
      rw [waited] at routes
      exact .of_same ⟨rfl, rfl⟩ (fun _ => rfl) routes
  | overlook => exact .of_same ⟨rfl, rfl⟩ (fun _ => rfl) (.refl _)
  | lapse => exact .of_same ⟨rfl, rfl⟩ (fun _ => rfl) (.refl _)
  | @accept entry response waits _ =>
      exact .of_erase (accept_sameOwner before entry response)
        (by simp [Window.isOutstanding, Table.contains, waits])
        (outstanding_accept before entry response) (line_accept before entry response)
  | fail waits error => exact fail_releases waits error
  | renew waits _ sent => exact renew_releases waits sent
  | @refuse _ _ _ _ _ error waits _ refused =>
      exact (renew_releases waits refused).trans
        (fail_releases (waits_of_renew refused) error)

/-- A path only ends requests, by induction on its moves. -/
theorem Path.releases {before after : Station ρ} (path : Path before after)
    : Releases before after :=
  Path.keeps path (fun move held => held.trans move.releases) (.refl before)

-----------------------------------------------------------------------------------------
-- A send adds one route, or none
-----------------------------------------------------------------------------------------

/-- From one station to a later one, exactly one request was taken on: its number was free, and
leads to the window's inbox now.
-/
structure Admits (before after : Station ρ) (sequence : UInt16) : Prop where
  owner : SameOwner before.window after.window
  fresh : after.line.dispatcher.fresh = before.line.dispatcher.fresh
  free : before.line.dispatcher.routes.get? sequence = none
  waiting
    : ∀ other,
        after.window.isOutstanding other
        = (if other = sequence then true else before.window.isOutstanding other)
  routes
    : ∀ other,
        after.line.dispatcher.routes.get? other
        = if other = sequence then some before.window.inbox
          else before.line.dispatcher.routes.get? other

omit [Responder ρ] in
theorem free_of_isRegistered {station : Station ρ} {sequence : UInt16}
    (free : station.line.dispatcher.isRegistered sequence = false)
    : station.line.dispatcher.routes.get? sequence = none := by
  simpa [Dispatcher.isRegistered, Table.contains] using free

/-- Taking back a route that was free before restores all routes. -/
theorem withdraw_releases {station after : Station ρ} {sequence : UInt16}
    {datagram : Datagram} {refusal : Option Error}
    (free : station.line.dispatcher.isRegistered sequence = false)
    (tried : (station.enroll sequence).transmit datagram = (refusal, after))
    : Releases station (after.withdraw sequence) := by
  obtain ⟨window, dispatcher⟩ := of_transmit tried
  have restored : (after.withdraw sequence).line.dispatcher.routes
      = station.line.dispatcher.routes := by
    simp only [withdraw, Dispatcher.unregister, dispatcher, enroll, Table.erase_insert]
    exact Table.erase_of_get?_eq_none (free_of_isRegistered free)
  have fresh : (after.withdraw sequence).line.dispatcher.fresh
      = station.line.dispatcher.fresh := by
    simp only [withdraw, Dispatcher.unregister, dispatcher, enroll]
  refine .of_same ?_ ?_ ⟨restored, fresh⟩
  · simp only [withdraw, window]
    exact ⟨rfl, rfl⟩
  · intro other
    simp only [withdraw, window, enroll]

/-- A request that went out waits under its own route. -/
theorem enlist_admits {station after : Station ρ} {request : Scp.Request}
    {sequence : UInt16} {datagram bytes : Datagram} {handler : Handler}
    (free : station.line.dispatcher.isRegistered sequence = false)
    (tried : (station.enroll sequence).transmit datagram = (none, after))
    : Admits station (after.enlist request sequence bytes handler) sequence := by
  obtain ⟨window, dispatcher⟩ := of_transmit tried
  refine ⟨?_, ?_, free_of_isRegistered free, ?_, ?_⟩
  · simp only [enlist, count, window]
    exact ⟨rfl, rfl⟩
  · simp only [enlist, line_count, dispatcher, enroll]
  · intro other
    simp only [enlist, Window.isOutstanding, Table.contains, outstanding_count, window,
      Table.get?_insert, enroll]
    split <;> rfl
  · intro other
    simp only [enlist, line_count, dispatcher, enroll, Table.get?_insert]

/-- A send that fails only ended older requests, by cases on how it failed. -/
theorem releases_of_send_error {station after : Station ρ} {request : Scp.Request}
    {sequence : UInt16} {handler : Handler} {error : Error}
    (failed : station.send request sequence handler = (.error error, after))
    : Releases station after := by
  have ending := send_sending station request sequence handler
  rw [failed] at ending
  cases ending with
  | malformed => exact .refl station
  | taken => exact (makeRoom_path station).releases
  | refused _ free tried =>
      exact (makeRoom_path station).releases.trans (withdraw_releases free tried)

/-- A send that succeeds first only ended older requests, then took its own on. -/
theorem admits_of_send_ok {station after : Station ρ} {request : Scp.Request}
    {sequence : UInt16} {handler : Handler}
    (succeeded : station.send request sequence handler = (.ok (), after))
    : ∃ room, Releases station room ∧ Admits room after sequence := by
  have ending := send_sending station request sequence handler
  rw [succeeded] at ending
  cases ending with
  | sent _ free tried =>
      exact ⟨station.makeRoom, (makeRoom_path station).releases, enlist_admits free tried⟩

/-- A send opens no inbox, however it ends. -/
theorem fresh_of_send {station after : Station ρ} {request : Scp.Request} {sequence : UInt16}
    {handler : Handler} {result : Except Error Unit}
    (done : station.send request sequence handler = (result, after))
    : after.line.dispatcher.fresh = station.line.dispatcher.fresh := by
  cases result with
  | error error => exact (releases_of_send_error done).fresh
  | ok =>
      obtain ⟨room, released, admitted⟩ := admits_of_send_ok done
      exact admitted.fresh.trans released.fresh

-----------------------------------------------------------------------------------------
-- Routes of a window and routes of others
-----------------------------------------------------------------------------------------

omit [Responder ρ]

/-- Every waiting request of the window has a route to the window's inbox. -/
def Anchored (station : Station ρ) : Prop :=
  ∀ sequence,
    station.window.isOutstanding sequence = true
    → station.line.dispatcher.routes.get? sequence = some station.window.inbox

theorem Releases.anchored {before after : Station ρ} (released : Releases before after)
    (anchored : before.Anchored)
    : after.Anchored := by
  intro sequence waits
  have waited := released.waited sequence waits
  rw [released.kept sequence (waits.trans waited.symm), released.owner.inbox]
  exact anchored sequence waited

/-- Where requests of a window ended, routes to other inboxes are as they were: only numbers
that led to the window's own inbox are free now.
-/
theorem Releases.others {before after : Station ρ} (released : Releases before after)
    (anchored : before.Anchored) {other : Nat} (apart : other ≠ before.window.inbox)
    (sequence : UInt16)
    : after.line.dispatcher.routes.get? sequence = some other
      ↔ before.line.dispatcher.routes.get? sequence = some other := by
  cases now : after.window.isOutstanding sequence with
  | true => rw [released.kept sequence (now.trans (released.waited sequence now).symm)]
  | false =>
      cases waited : before.window.isOutstanding sequence with
      | true =>
          rw [released.freed sequence waited now, anchored sequence waited]
          simp [Ne.symm apart]
      | false => rw [released.kept sequence (now.trans waited.symm)]

theorem Admits.anchored {before after : Station ρ} {sequence : UInt16}
    (admitted : Admits before after sequence) (anchored : before.Anchored)
    : after.Anchored := by
  intro other waits
  rw [admitted.waiting] at waits
  rw [admitted.routes, admitted.owner.inbox]
  split at waits
  · next same => simp [same]
  · next apart => rw [if_neg apart, anchored other waits]

/-- Where a window took a request on, routes to other inboxes are as they were, since the
number was free.
-/
theorem Admits.others {before after : Station ρ} {sequence : UInt16}
    (admitted : Admits before after sequence) {other : Nat}
    (apart : other ≠ before.window.inbox) (number : UInt16)
    : after.line.dispatcher.routes.get? number = some other
      ↔ before.line.dispatcher.routes.get? number = some other := by
  rw [admitted.routes]
  split
  · next same =>
      rw [same, admitted.free]
      simp [Ne.symm apart]
  · exact Iff.rfl

end Station

end MeshControl.Link
