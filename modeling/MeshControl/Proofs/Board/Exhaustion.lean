import MeshControl.Proofs.Board.Exchange

/-! The limit of a batch. There are only so many sequence numbers, and over a window that holds as
many requests no answer is read before all of them are in use. The search for a number for the next
request then finds none, however long it goes on: no room is made before a number was found.
-/

namespace MeshControl

open Scp Link

namespace Board.Errand

-----------------------------------------------------------------------------------------
-- All requests wait
-----------------------------------------------------------------------------------------

variable {errand : Errand} {origin : List Event} {sent : Nat} {notes : Notes}
  {station : Station Peer} {hub : Hub Peer} {line : Line Peer} {process : Process}

/-- Every request that was sent so far waits for its answer. -/
structure Crowd (errand : Errand) (origin : List Event) (sent : Nat) (notes : Notes)
    (station : Station Peer) : Prop where
  dialogue : errand.Dialogue origin sent notes station
  all_wait : station.window.outstanding.size = sent

/-- Before anything is sent nobody waits. -/
theorem Awaits.crowd (awaits : errand.Awaits hub line)
    : errand.Crowd hub.journal.toList 0 {}
        { line := { line with dispatcher := line.dispatcher.openInbox.2 }
          window := { config := errand.config, inbox := line.dispatcher.fresh }
          journal := hub.journal } where
  dialogue := awaits.dialogue
  all_wait := rfl

/-- A window that is not full needs no room to be made. -/
theorem makeRoom_of_lt {station : Station Peer}
    (room : station.window.inProgress < station.window.config.window)
    : station.makeRoom = station := by
  unfold Station.makeRoom
  rw [if_neg (Nat.not_le.mpr room)]

/-- While the window is not full the next request goes out and nothing is read, so all requests wait
on.
-/
theorem Crowd.send (proper : errand.Proper) (crowd : errand.Crowd origin sent notes station)
    (next : sent < errand.count) (room : sent < errand.config.window) {sequence : UInt16}
    (free : station.window.outstanding.get? sequence = none)
    : ∃ further after,
        station.send (errand.request sent) sequence (errand.handler sent) = (.ok (), after)
        ∧ errand.Crowd origin (sent + 1) further after := by
  obtain ⟨dialogue, all_wait⟩ := crowd
  have room_here : station.window.inProgress < errand.config.window := by
    rw [Window.inProgress, all_wait]
    exact room
  have same := makeRoom_of_lt (dialogue.config ▸ room_here)
  have ready : errand.Dialogue origin sent notes station.makeRoom := by rwa [same]
  obtain ⟨further, after, went, later, grown⟩ :=
    ready.dispatch proper (by rwa [same]) next (by rwa [same])
  refine ⟨further, after, went, later, ?_⟩
  rw [same] at grown
  exact grown.trans (congrArg (· + 1) all_wait)

/-- Once as many requests wait as there are numbers the search for another number does not end. -/
theorem Crowd.assign_endless (crowd : errand.Crowd origin sequenceCount notes station)
    (sequences : SequenceGenerator)
    : (talking errand.config station.window).assign station.line none sequences
      = .error .endless := by
  have full : ¬ ∃ sequence, station.window.outstanding.get? sequence = none := by
    rw [exists_free_iff, crowd.all_wait]
    exact Nat.lt_irrefl sequenceCount
  have busy (sequence : UInt16)
      : (talking errand.config station.window).isTaken station.line sequence = true := by
    rw [crowd.dialogue.isTaken_eq, Window.isOutstanding, Table.contains,
      Option.isSome_iff_ne_none]
    exact fun free => full ⟨sequence, free⟩
  simp only [Process.assign, nextFree_of_taken busy, Option.elim_none]

-----------------------------------------------------------------------------------------
-- Batches that are too long
-----------------------------------------------------------------------------------------

/-- After a request was sent the process stands where its station is then. -/
theorem Stands.onward (stands : errand.Stands hub process station) (after : Station Peer)
    (sequences : SequenceGenerator)
    : errand.Stands ⟨[after.line], hub.selector, sequences, after.journal⟩
        (talking errand.config after.window) after :=
  ⟨⟨_, rfl, rfl⟩, rfl, stands.selects, rfl⟩

/-- A request that there is no number for is never sent. -/
theorem Stands.send_endless (proper : errand.Proper) (stands : errand.Stands hub process station)
    (next : sent < errand.count)
    (endless
      : (talking errand.config station.window).assign station.line none hub.sequences
        = .error .endless)
    : Process.send hub process (errand.request sent) (errand.handler sent)
      = (.error .endless, hub.setLine 0 station.line,
          talking errand.config station.window) := by
  obtain ⟨line, lines, engaged⟩ := stands.engaged
  obtain ⟨chip, topology, selector⟩ := stands.selects
  have valid := proper.valid sent next
  have unnumbered := proper.unnumbered sent next
  have chosen : hub.selector.select (errand.request sent).header.destination
      = (⟨0, chip⟩, hub.selector) := by
    rw [selector, select_mostDirect]
  simp only [Process.send, stands.unfinished, valid, chosen, Hub.line?, lines,
    List.getElem?_cons_zero, engaged, unnumbered, endless, Hub.setLine]
  rfl

/-- Sending more requests than there are numbers never ends, by induction on those that are left:
the one after the last number is the one that waits for a number for ever.
-/
theorem Crowd.sendAll_endless (proper : errand.Proper)
    (wide : sequenceCount ≤ errand.config.window) (many : sequenceCount < errand.count)
    {orders : Nat → Order} (ordered : ∀ index < errand.count, orders index = errand.order index)
    (count : Nat) (stands : errand.Stands hub process station)
    (crowd : errand.Crowd origin sent notes station) (within : sent ≤ sequenceCount)
    (whole : sent + count = errand.count)
    : ∃ after later,
        Process.sendAll orders hub process sent count = (.error .endless, after, later) := by
  induction count generalizing sent notes station hub process with
  | zero => omega
  | succ count ih =>
      simp only [Process.sendAll, ordered sent (by omega), order]
      rcases Nat.eq_or_lt_of_le within with all | left
      · subst all
        rw [stands.send_endless proper (by omega) (crowd.assign_endless hub.sequences)]
        exact ⟨_, _, rfl⟩
      · obtain ⟨sequence, later, assigned, free⟩ :=
          crowd.dialogue.assign (crowd.all_wait ▸ left) hub.sequences
        obtain ⟨further, after, went, grown⟩ :=
          crowd.send proper (by omega) (Nat.lt_of_lt_of_le left wide) free
        rw [stands.send proper (by omega) assigned went grown.dialogue.failures]
        exact ih (stands.onward after later) grown left (by omega)

/-- A batch of more requests than there are numbers never ends over a window for at least as many
requests as there are numbers.
-/
theorem Awaits.batch_endless (proper : errand.Proper) (unnumbered : ¬ errand.Numbered)
    {orders : Nat → Order} (ordered : ∀ index < errand.count, orders index = errand.order index)
    (awaits : errand.Awaits hub line)
    : ∃ after, hub.batch errand.config errand.count orders = (.error .endless, after) := by
  obtain ⟨channels, many⟩ := not_or.mp unnumbered
  have wide : sequenceCount ≤ errand.config.window :=
    Nat.le_trans (Nat.not_lt.mp channels) (Nat.le_max_left _ 1)
  obtain ⟨after, later, stuck⟩ :=
    awaits.crowd.sendAll_endless proper wide (Nat.not_le.mp many) ordered errand.count
      awaits.stands (Nat.zero_le _) (Nat.zero_add _)
  exact ⟨later.drop after, by simp only [Hub.batch, stuck]⟩

theorem Awaits.exchange_endless (proper : errand.Proper) (unnumbered : ¬ errand.Numbered)
    {orders : Nat → Order} (ordered : ∀ index < errand.count, orders index = errand.order index)
    (awaits : errand.Awaits hub line)
    : ∃ after, hub.exchange errand.config errand.count orders = (.error .endless, after) := by
  obtain ⟨after, stuck⟩ := (awaits.withJournal #[]).batch_endless proper unnumbered ordered
  exact ⟨_, by simp only [Hub.exchange, Hub.apart, stuck]; rfl⟩

end Board.Errand

end MeshControl
