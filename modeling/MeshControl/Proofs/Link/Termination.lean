import MeshControl.Proofs.Link.Settlement

/-! The end of waiting. A wait is a loop whose rounds may bring more to read, since a request that
is sent again may be answered again; yet it comes to an end, and what it sends is paid for by the
requests that wait when it begins.
-/

namespace MeshControl.Link

-----------------------------------------------------------------------------------------
-- Reading
-----------------------------------------------------------------------------------------

/-- A wait at an inbox reads from the front of what has arrived, by induction on it. -/
theorem Dispatcher.awaitFrom_suffix (inbox : Nat) (limit : Duration) (pending : List Arrival)
    (dispatcher : Dispatcher)
    : (awaitFrom inbox limit pending dispatcher).2.1 <:+ pending := by
  fun_induction awaitFrom inbox limit pending dispatcher with
  | case1 => exact List.suffix_rfl
  | case2 => exact List.suffix_rfl
  | case3 => exact List.suffix_rfl
  | case4 => exact List.suffix_rfl
  | case5 rest dispatcher _ _ bytes ih => exact ih.trans (List.suffix_cons _ rest)
  | case6 rest dispatcher _ _ error _ ih => exact ih.trans (List.suffix_cons _ rest)
  | case7 rest => exact List.suffix_cons _ rest

/-- A wait on a line reads each arrival at most once, and none that is not there yet. -/
theorem Line.await_suffix {ρ : Type} (line : Line ρ) (inbox : Nat) (limit : Duration)
    : (line.await inbox limit).2.connection.pending <:+ line.connection.pending := by
  unfold await
  split
  · split <;> exact List.suffix_rfl
  · exact Dispatcher.awaitFrom_suffix inbox limit line.connection.pending line.dispatcher

-----------------------------------------------------------------------------------------
-- What waiting may cost
-----------------------------------------------------------------------------------------

/-- How often the waiting requests may still be sent, taken together. -/
def Window.sendsLeft (window : Window) : Nat :=
  window.outstanding.weight Outstanding.remaining

namespace Station

variable {ρ : Type}

/-- From one station to a later one, every transmission was one that a request had left. -/
def Spends (before after : Station ρ) : Prop :=
  ∃ events,
    after.journal.toList = before.journal.toList ++ events
    ∧ (transmissions events).length + after.window.sendsLeft ≤ before.window.sendsLeft

theorem Spends.of_same {before after : Station ρ} (journal : after.journal = before.journal)
    (left : after.window.sendsLeft = before.window.sendsLeft)
    : Spends before after :=
  ⟨[], by rw [journal, List.append_nil], by simp [transmissions, left]⟩

theorem Spends.trans {before middle after : Station ρ} (first : Spends before middle)
    (second : Spends middle after)
    : Spends before after := by
  obtain ⟨early, written, paid⟩ := first
  obtain ⟨late, later, rest⟩ := second
  refine ⟨early ++ late, by rw [later, written, List.append_assoc], ?_⟩
  rw [transmissions_append, List.length_append]
  omega

/-- A request that leaves the window takes what it had left along. -/
theorem sendsLeft_erase {before after : Window} {sequence : UInt16} {entry : Outstanding}
    (waits : before.outstanding.get? sequence = some entry)
    (left : after.outstanding = before.outstanding.erase sequence)
    : after.sendsLeft + entry.remaining = before.sendsLeft := by
  rw [Window.sendsLeft, left]
  exact Table.weight_erase Outstanding.remaining before.outstanding waits

/-- Ending a request sends nothing. -/
theorem fail_spends {station : Station ρ} {sequence : UInt16} {entry : Outstanding}
    (waits : station.window.outstanding.get? sequence = some entry) (error : Error)
    : Spends station (station.fail sequence error) := by
  have erased : (station.fail sequence error).window.outstanding
      = station.window.outstanding.erase sequence := by rw [outstanding_fail, waits]
  have left := sendsLeft_erase waits erased
  refine ⟨[.failed entry.request error entry.handler.audience], ?_, ?_⟩
  · simp [fail, waits, report, log, release]
  · simp only [transmissions, Event.datagram?, List.filterMap_cons, List.filterMap_nil,
      List.length_nil]
    omega

/-- Taking an answer sends nothing, whatever the sender makes of it. -/
theorem accept_spends {station : Station ρ} {entry : Outstanding} {response : Scp.Response}
    (waits : station.window.outstanding.get? response.sequence = some entry)
    : Spends station (station.accept entry response) := by
  have left := sendsLeft_erase waits (outstanding_accept station entry response)
  cases verdict : entry.handler.check response with
  | ok =>
      refine ⟨[.accepted entry.request response entry.handler.audience], ?_, ?_⟩
      · simp [accept, verdict, log, count, release]
      · simp only [transmissions, Event.datagram?, List.filterMap_cons, List.filterMap_nil,
          List.length_nil]
        omega
  | error error =>
      refine ⟨[.accepted entry.request response entry.handler.audience,
        .failed entry.request error entry.handler.audience], ?_, ?_⟩
      · simp [accept, verdict, log, count, release, report]
      · simp only [transmissions, Event.datagram?, List.filterMap_cons, List.filterMap_nil,
          List.length_nil]
        omega

variable [Responder ρ]

/-- A request that is sent again, or refused, has one time less left. -/
theorem renew_spends {station after : Station ρ} {sequence : UInt16} {entry : Outstanding}
    {remaining : Nat} {reason : Reason} {refusal : Option Error}
    (waits : station.window.outstanding.get? sequence = some entry)
    (left : entry.remaining = remaining + 1)
    (sent
      : (station.renew sequence entry remaining reason).transmit entry.datagram
        = (refusal, after))
    : Spends station after := by
  have exchanged := Table.weight_insert_of_get? Outstanding.remaining
    station.window.outstanding (entry.repeated remaining reason) waits
  have paid : after.window.sendsLeft + 1 = station.window.sendsLeft := by
    have spent : (entry.repeated remaining reason).remaining = remaining := rfl
    rw [(of_transmit sent).1]
    simp only [Window.sendsLeft, renew, outstanding_count]
    omega
  rcases journal_of_transmit sent with ⟨_, unwritten⟩ | written
  · refine ⟨[], by rw [unwritten, List.append_nil]; rfl, ?_⟩
    simp only [transmissions, List.filterMap_nil, List.length_nil]
    omega
  · refine ⟨[.transmitted station.line.connection.number entry.datagram refusal], ?_, ?_⟩
    · rw [written, Array.toList_push]
      rfl
    · simp only [transmissions, Event.datagram?, List.filterMap_cons, List.filterMap_nil,
        List.length_cons, List.length_nil]
      omega

/-- Every move sends only what its request had left, by cases on the move. -/
theorem Move.spends {before after : Station ρ} (move : Move before after)
    : Spends before after := by
  cases move with
  | hear => exact .of_same rfl rfl
  | overlook => exact .of_same rfl rfl
  | lapse => exact .of_same rfl rfl
  | accept waits _ => exact accept_spends waits
  | fail waits error => exact fail_spends waits error
  | renew waits left sent => exact renew_spends waits left sent
  | @refuse _ _ _ _ _ error waits left refused =>
      exact (renew_spends waits left refused).trans
        (fail_spends (waits_of_renew refused) error)

/-- So does a path, by induction on its moves. -/
theorem Path.spends {before after : Station ρ} (path : Path before after)
    : Spends before after :=
  Path.keeps path (fun move spent => spent.trans move.spends) (.of_same rfl rfl)

-----------------------------------------------------------------------------------------
-- Loops that end
-----------------------------------------------------------------------------------------

/-- The loop that waits until at most so many requests are left, by the number of its rounds. -/
inductive Waits (limit : Nat) : Nat → Station ρ → Station ρ → Prop
  | done {station : Station ρ} (few : station.window.inProgress ≤ limit)
    : Waits limit 0 station station
  | round {rounds : Nat} {station after : Station ρ} (many : limit < station.window.inProgress)
    (rest : Waits limit rounds station.step after)
    : Waits limit (rounds + 1) station after

/-- The loop that waits for room before a request is sent, by the number of its rounds. -/
inductive Clears : Nat → Station ρ → Station ρ → Prop
  | done {station : Station ρ}
    (room : station.window.inProgress < station.window.config.window)
    : Clears 0 station station
  | round {rounds waits : Nat} {station emptied after : Station ρ}
    (full : station.window.config.window ≤ station.window.inProgress)
    (waited : Waits station.window.config.lowWater waits station emptied)
    (rest : Clears rounds emptied after)
    : Clears (rounds + 1) station after

/-- A wait is a run of its loop, by the recursion that its measure carries. -/
theorem drain_waits (limit : Nat) (station : Station ρ)
    : ∃ rounds, Waits limit rounds station (station.drain limit) := by
  fun_induction drain limit station with
  | case1 station few => exact ⟨0, .done few⟩
  | case2 station many ih =>
      obtain ⟨rounds, waits⟩ := ih
      exact ⟨rounds + 1, .round (by omega) waits⟩

/-- A window that was emptied has room. -/
theorem inProgress_makeRoom_lt (station : Station ρ)
    : station.makeRoom.window.inProgress < station.window.config.window := by
  unfold makeRoom
  dsimp only
  split
  · exact Nat.lt_of_le_of_lt (inProgress_drain_le _ station)
      (Config.lowWater_lt_window station.window.config)
  · next room => exact Nat.not_le.mp room

/-- Making room takes one round of its loop at most. -/
theorem makeRoom_clears (station : Station ρ)
    : ∃ rounds ≤ 1, Clears rounds station station.makeRoom := by
  have room := inProgress_makeRoom_lt station
  rw [← (Path.releases (makeRoom_path station)).owner.config] at room
  by_cases full : station.window.config.window ≤ station.window.inProgress
  · obtain ⟨waits, waited⟩ := drain_waits station.window.config.lowWater station
    have emptied : station.makeRoom = station.drain station.window.config.lowWater := by
      simp [makeRoom, full]
    rw [← emptied] at waited
    exact ⟨1, Nat.le_refl 1, .round full waited (.done room)⟩
  · have unchanged : station.makeRoom = station := by simp [makeRoom, full]
    rw [unchanged] at room ⊢
    exact ⟨0, Nat.zero_le 1, .done room⟩

/-- Waiting ends, from any station: whatever lies in the queues, and however the connection reacts,
refuses, fails or closes. Waiting for everything leaves nothing in progress and sends at most as
often as the requests that waited had left; so does making room, which ends with room for a
request; and each wait in between reads, from the front, some of what is there.
Witness: the moves of a wait, each of which pays for what it sends.
-/
theorem waiting_ends (station : Station ρ)
    : (∃ rounds, Waits 0 rounds station station.finish)
      ∧ station.finish.window.inProgress = 0
      ∧ (∃ events,
          station.finish.journal.toList = station.journal.toList ++ events
          ∧ (transmissions events).length ≤ station.window.sendsLeft)
      ∧ (∃ rounds ≤ 1, Clears rounds station station.makeRoom)
      ∧ station.makeRoom.window.inProgress < station.window.config.window
      ∧ (∃ events,
          station.makeRoom.journal.toList = station.journal.toList ++ events
          ∧ (transmissions events).length + station.makeRoom.window.sendsLeft
            ≤ station.window.sendsLeft)
      ∧ ∀ inbox limit,
          (station.line.await inbox limit).2.connection.pending
            <:+ station.line.connection.pending := by
  obtain ⟨events, written, spent⟩ := (drain_path 0 station).spends
  exact ⟨drain_waits 0 station, Nat.le_zero.mp (inProgress_drain_le 0 station),
    ⟨events, written, Nat.le_of_add_right_le spent⟩, makeRoom_clears station,
    inProgress_makeRoom_lt station, (makeRoom_path station).spends, station.line.await_suffix⟩

end Station

end MeshControl.Link
