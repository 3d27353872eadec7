import Mathlib.Data.List.Permutation
import MeshControl.Proofs.Link.Completion
import MeshControl.Proofs.Link.Termination

/-! How full a window gets. At no moment do more requests wait than the window holds, not even
while a sender is told how its request ended. A send that finds room reads nothing; one that finds
the window full waits until it has been emptied to its low-water mark, and only then offers its
datagram to the connection.
-/

namespace MeshControl.Link

open Scp

/-- Nothing was read from a line: what had arrived is still in front of what arrives, and nothing
came into an inbox, or was found stale.
-/
structure Line.Unheard {ρ : Type} (before after : Line ρ) : Prop where
  pending : before.connection.pending <+: after.connection.pending
  inboxes : after.dispatcher.inboxes = before.dispatcher.inboxes
  stale : after.dispatcher.stale = before.dispatcher.stale

namespace Station

variable {ρ : Type}

-----------------------------------------------------------------------------------------
-- Requests that wait, in number
-----------------------------------------------------------------------------------------

/-- Where requests only ended, no more of them wait than before. -/
theorem Releases.inProgress_le {before after : Station ρ} (released : Releases before after)
    : after.window.inProgress ≤ before.window.inProgress := by
  have fewer : after.window.outstanding.keys ⊆ before.window.outstanding.keys := by
    intro sequence waits
    rw [Table.mem_keys_iff] at waits ⊢
    exact released.waited sequence waits
  have sizes := (List.subperm_of_subset after.window.outstanding.nodup fewer).length_le
  simpa only [Window.inProgress, Table.size, Table.keys, List.length_map] using sizes

/-- A request that leaves the window leaves one less waiting, and its number free. -/
theorem release_releases {station : Station ρ} {sequence : UInt16} {entry : Outstanding}
    (waits : station.window.outstanding.get? sequence = some entry)
    : Releases station (station.release sequence) :=
  .of_erase ⟨rfl, rfl⟩ (by simp [Window.isOutstanding, Table.contains, waits]) rfl rfl

/-- A request that is paid for once more waits as before. -/
theorem paid_releases {station : Station ρ} {sequence : UInt16} {entry : Outstanding}
    (waits : station.window.outstanding.get? sequence = some entry) (remaining : Nat)
    (reason : Reason)
    : Releases station (station.renew sequence entry remaining reason) := by
  refine .of_same ⟨rfl, rfl⟩ (fun other => ?_) (.refl _)
  simp only [Window.isOutstanding, Table.contains, renew, outstanding_count, Table.get?_insert]
  by_cases same : other = sequence <;> simp [same, waits]

variable [Responder ρ]

-----------------------------------------------------------------------------------------
-- Moments
-----------------------------------------------------------------------------------------

/-- The moments of a window's work: between its moves, and inside them. A repetition is paid for
before it is offered; a sender is told how its request ended when the request has left the window.
-/
inductive Moment (start : Station ρ) : Station ρ → Prop
  | now : Moment start start
  | moved {station after : Station ρ} (moment : Moment start station)
    (move : Move station after)
    : Moment start after
  | paid {station : Station ρ} {sequence : UInt16} {entry : Outstanding} (remaining : Nat)
    (reason : Reason) (moment : Moment start station)
    (waits : station.window.outstanding.get? sequence = some entry)
    : Moment start (station.renew sequence entry remaining reason)
  | offered {station after : Station ρ} {sequence : UInt16} {entry : Outstanding}
    {remaining : Nat} {reason : Reason} {refusal : Option Error}
    (moment : Moment start station)
    (waits : station.window.outstanding.get? sequence = some entry)
    (tried
      : (station.renew sequence entry remaining reason).transmit entry.datagram
        = (refusal, after))
    : Moment start after
  | telling {station : Station ρ} {sequence : UInt16} {entry : Outstanding}
    (moment : Moment start station)
    (waits : station.window.outstanding.get? sequence = some entry)
    : Moment start (station.release sequence)

/-- Everything that a path passes through is a moment. -/
theorem Path.moment {start station : Station ρ} (path : Path start station)
    : Moment start station :=
  Path.keeps path (fun move moment => moment.moved move) .now

/-- At every moment requests have only ended since the start, by cases on the moments. -/
theorem Moment.releases {start station : Station ρ} (moment : Moment start station)
    : Releases start station := by
  induction moment with
  | now => exact .refl start
  | moved _ move ih => exact ih.trans move.releases
  | paid remaining reason _ waits ih => exact ih.trans (paid_releases waits remaining reason)
  | offered _ waits tried ih => exact ih.trans (renew_releases waits tried)
  | telling _ waits ih => exact ih.trans (release_releases waits)

/-- The moments of a send: those of making room, then the number is taken, the datagram is offered
to the connection, and the request is kept or not.
-/
inductive SendMoment (start : Station ρ) (request : Request) (sequence : UInt16)
    (handler : Handler) : Station ρ → Prop
  | room {station : Station ρ} (moment : Moment start station)
    : SendMoment start request sequence handler station
  | numbered : SendMoment start request sequence handler (start.makeRoom.enroll sequence)
  | offered {datagram : Datagram} {refusal : Option Error} {after : Station ρ}
    (tried : (start.makeRoom.enroll sequence).transmit datagram = (refusal, after))
    : SendMoment start request sequence handler after
  | done : SendMoment start request sequence handler (start.send request sequence handler).2

/-- A full window has been emptied to its low-water mark when room was made; any other one is as
it was.
-/
theorem makeRoom_of_full {station : Station ρ}
    (full : station.window.config.window ≤ station.window.inProgress)
    : station.makeRoom = station.drain station.window.config.lowWater := by
  simp [makeRoom, full]

theorem makeRoom_of_room {station : Station ρ}
    (room : station.window.inProgress < station.window.config.window)
    : station.makeRoom = station := by
  simp [makeRoom, Nat.not_le.mpr room]

/-- What a send does once it has made room: it is kept back, or it offers its datagram to the
connection, which is written down unless the connection was closed. It reads nothing.
-/
inductive Dispatched (room : Station ρ) (datagram : Datagram) : Station ρ → Prop
  | kept_back : Dispatched room datagram room
  | offered {after : Station ρ} {tried : List Event} (unheard : room.line.Unheard after.line)
    (written : after.journal.toList = room.journal.toList ++ tried)
    (own
      : ∀ event ∈ tried,
          ∃ refusal, event = .transmitted room.line.connection.number datagram refusal)
    : Dispatched room datagram after

/-- A transmission reads nothing, and what arrives because of it comes last. -/
theorem unheard_of_transmit {room after : Station ρ} {sequence : UInt16} {datagram : Datagram}
    {refusal : Option Error}
    (tried : (room.enroll sequence).transmit datagram = (refusal, after))
    : room.line.Unheard after.line := by
  have dispatcher := (of_transmit tried).2
  refine ⟨?_, by rw [dispatcher]; rfl, by rw [dispatcher]; rfl⟩
  unfold transmit Connection.send at tried
  dsimp only at tried
  split at tried
  · obtain ⟨-, rfl⟩ := Prod.mk.inj tried
    exact List.prefix_rfl
  · obtain ⟨-, rfl⟩ := Prod.mk.inj tried
    exact List.prefix_append _ _

/-- What is offered to the connection is written down there, or nowhere. -/
theorem dispatched_of_transmit {room after last : Station ρ} {sequence : UInt16}
    {datagram : Datagram} {refusal : Option Error}
    (tried : (room.enroll sequence).transmit datagram = (refusal, after))
    (connection : last.line.connection = after.line.connection)
    (inboxes : last.line.dispatcher.inboxes = after.line.dispatcher.inboxes)
    (stale : last.line.dispatcher.stale = after.line.dispatcher.stale)
    (journal : last.journal = after.journal)
    : Dispatched room datagram last := by
  have unheard := unheard_of_transmit tried
  have unheard_still : room.line.Unheard last.line :=
    ⟨connection ▸ unheard.pending, inboxes.trans unheard.inboxes, stale.trans unheard.stale⟩
  obtain ⟨offered, written, own, _⟩ := written_of_transmit tried
  exact .offered unheard_still (journal ▸ written) fun event member => ⟨refusal, own event member⟩

/-- A send that may go out makes room and then offers its datagram, however it ends. -/
theorem send_dispatched (station : Station ρ) {request : Request} (sequence : UInt16)
    (handler : Handler) (valid : request.validate = .ok ())
    : Dispatched station.makeRoom
        ((request.numbered sequence).datagram station.window.config.tag)
        (station.send request sequence handler).2 := by
  have ending := send_sending station request sequence handler
  generalize station.send request sequence handler = outcome at ending
  cases ending with
  | malformed invalid =>
      rw [valid] at invalid
      cases invalid
  | taken => exact .kept_back
  | refused _ _ tried => exact dispatched_of_transmit tried rfl rfl rfl rfl
  | sent _ _ tried => exact dispatched_of_transmit tried rfl rfl rfl rfl

/-- A send that finds room offers its datagram at once, if it offers it at all. -/
theorem dispatched_of_room {station : Station ρ}
    (room : station.window.inProgress < station.window.config.window) (request : Request)
    (sequence : UInt16) (handler : Handler)
    : Dispatched station ((request.numbered sequence).datagram station.window.config.tag)
        (station.send request sequence handler).2 := by
  cases validity : request.validate with
  | error error =>
      rw [station.send_of_invalid sequence handler validity]
      exact .kept_back
  | ok =>
      have dispatched := station.send_dispatched sequence handler validity
      rwa [makeRoom_of_room room] at dispatched

-----------------------------------------------------------------------------------------
-- Windows that are not too full
-----------------------------------------------------------------------------------------

/-- A send changes no settings. -/
theorem config_send (station : Station ρ) (request : Request) (sequence : UInt16)
    (handler : Handler)
    : (station.send request sequence handler).2.window.config = station.window.config := by
  have ending := send_sending station request sequence handler
  generalize station.send request sequence handler = outcome at ending
  have config := (Path.releases (makeRoom_path station)).owner.config
  cases ending with
  | malformed => rfl
  | taken => exact config
  | refused _ _ tried => exact (congrArg Window.config (of_transmit tried).1).trans config
  | sent _ _ tried => exact (congrArg Window.config (of_transmit tried).1).trans config

/-- A window holds its requests at every moment of a send, since room was made for the new one. -/
theorem SendMoment.inProgress_le {start station : Station ρ} {request : Request}
    {sequence : UInt16} {handler : Handler}
    (moment : SendMoment start request sequence handler station)
    (held : start.window.inProgress ≤ start.window.config.window)
    : station.window.inProgress ≤ start.window.config.window := by
  have room := inProgress_makeRoom_lt start
  have offering {datagram : Datagram} {refusal : Option Error} {after : Station ρ}
      (tried : (start.makeRoom.enroll sequence).transmit datagram = (refusal, after))
      : after.window.inProgress < start.window.config.window := by
    rw [(of_transmit tried).1]
    exact room
  cases moment with
  | room moment => exact Nat.le_trans moment.releases.inProgress_le held
  | numbered => exact Nat.le_of_lt room
  | offered tried => exact Nat.le_of_lt (offering tried)
  | done =>
      have ending := send_sending start request sequence handler
      generalize start.send request sequence handler = outcome at ending
      cases ending with
      | malformed => exact held
      | taken => exact Nat.le_of_lt room
      | refused _ _ tried =>
          have withdrawn := Nat.le_of_lt (offering tried)
          exact withdrawn
      | @sent after _ _ tried =>
          have one_more : (after.enlist (request.numbered sequence) sequence
                ((request.numbered sequence).datagram start.window.config.tag)
                handler).window.inProgress
              ≤ after.window.inProgress + 1 := by
            simp only [Window.inProgress, enlist, outstanding_count, Table.size_insert]
            split <;> omega
          exact Nat.le_trans one_more (offering tried)

end Station

namespace Junction

variable {ρ : Type} [Responder ρ]

/-- No window has more requests waiting than it holds. -/
def Uncrowded (junction : Junction ρ) : Prop :=
  ∀ number window,
    junction.windows.get? number = some window → window.inProgress ≤ window.config.window

omit [Responder ρ] in
/-- A window that is put back and holds its requests changes nothing for the others. -/
theorem Uncrowded.insert {junction : Junction ρ} (uncrowded : junction.Uncrowded) (number : Nat)
    {window : Window} (held : window.inProgress ≤ window.config.window)
    (line : Line ρ) (journal : Array Event)
    : Uncrowded { line, windows := junction.windows.insert number window, journal } := by
  intro other listed found
  rw [Table.get?_insert] at found
  split at found
  · obtain rfl := Option.some.inj found
    exact held
  · exact uncrowded other listed found

theorem Uncrowded.send {junction : Junction ρ} (uncrowded : junction.Uncrowded) (number : Nat)
    (request : Request) (sequence : UInt16) (handler : Handler)
    : (junction.send number request sequence handler).2.Uncrowded := by
  unfold Junction.send
  cases found : junction.windows.get? number with
  | none => exact uncrowded
  | some window =>
      let start := junction.station window
      have last : start.SendMoment request sequence handler
          (start.send request sequence handler).2 := .done
      have most := last.inProgress_le (uncrowded number window found)
      rw [← Station.config_send start request sequence handler] at most
      exact uncrowded.insert number most _ _

theorem Uncrowded.finish {junction : Junction ρ} (uncrowded : junction.Uncrowded) (number : Nat)
    : (junction.finish number).Uncrowded := by
  unfold Junction.finish
  cases found : junction.windows.get? number with
  | none => exact uncrowded
  | some window =>
      refine uncrowded.insert number ?_ _ _
      exact Nat.le_trans (Station.inProgress_drain_le 0 _) (Nat.zero_le _)

omit [Responder ρ] in
theorem Uncrowded.takeFailures {junction : Junction ρ} (uncrowded : junction.Uncrowded)
    (number : Nat)
    : (junction.takeFailures number).2.Uncrowded := by
  unfold Junction.takeFailures
  split
  · exact uncrowded
  · next window found =>
      have held : window.takeFailures.2.inProgress ≤ window.takeFailures.2.config.window :=
        uncrowded number window found
      exact uncrowded.insert number held _ _

omit [Responder ρ] in
theorem Uncrowded.drop {junction : Junction ρ} (uncrowded : junction.Uncrowded) (number : Nat)
    : (junction.drop number).Uncrowded := by
  unfold Junction.drop
  split
  · exact uncrowded
  · exact fun other window found => uncrowded other window (Table.of_get?_erase found).2

/-- No operation crowds a window, by cases on it. -/
theorem Uncrowded.perform {junction : Junction ρ} (uncrowded : junction.Uncrowded)
    (operation : Operation)
    : (junction.perform operation).Uncrowded := by
  cases operation with
  | openWindow config => exact uncrowded.insert _ (Nat.zero_le _) _ _
  | send number request sequence handler =>
      exact uncrowded.send number request sequence handler
  | finish number => exact uncrowded.finish number
  | takeFailures number => exact uncrowded.takeFailures number
  | drop number => exact uncrowded.drop number
  | arrive reaction => exact uncrowded

/-- Nor does any history, by induction on its operations. -/
theorem Uncrowded.run {junction : Junction ρ} (uncrowded : junction.Uncrowded)
    (operations : List Operation)
    : (junction.run operations).Uncrowded := by
  induction operations generalizing junction with
  | nil => exact uncrowded
  | cons operation rest ih => exact ih (uncrowded.perform operation)

/-- No window of a history is too full, and all of them are sound. -/
theorem uncrowded_sound (connection : Connection ρ) (operations : List Operation)
    {number : Nat} {window : Window}
    (listed : ((fresh connection).run operations).windows.get? number = some window)
    : window.inProgress ≤ window.config.window ∧ window.Sound := by
  have empty : (fresh connection).Uncrowded := fun _ _ none => nomatch none
  obtain ⟨_, books⟩ :=
    (fresh_chronicle connection).run (fresh_coherent connection) operations
  exact ⟨empty.run operations number window listed, (books.accounts listed).sound⟩

/-- The discipline of every window in every history, whatever its settings and its peer. At each
moment of a wait and of a send no more requests wait than the window holds. A request that may
not go out changes nothing. A send that finds room reads nothing. One that finds the window full
waits until no more than its low-water mark are left; only datagrams of older requests go out in
the meantime, and the new one is offered to the connection afterwards.
-/
theorem window_discipline (connection : Connection ρ) (operations : List Operation)
    {number : Nat} {window : Window}
    (listed : ((fresh connection).run operations).windows.get? number = some window)
    : let start := ((fresh connection).run operations).station window
      let most := max window.config.channels 1
      let few := min window.config.waits (most - 1)
      (∀ moment, start.Moment moment → moment.window.inProgress ≤ most)
      ∧ start.Moment start.finish
      ∧ ∀ request sequence handler,
          let datagram := (request.numbered sequence).datagram window.config.tag
          let room := start.makeRoom
          let after := (start.send request sequence handler).2
          (∀ moment,
            start.SendMoment request sequence handler moment
            → moment.window.inProgress ≤ most)
          ∧ (∀ error, request.validate = .error error → after = start)
          ∧ (window.inProgress < most → start.Dispatched datagram after)
          ∧ (request.validate = .ok ()
            → window.inProgress = most
            → (∃ rounds, start.Waits few rounds room)
              ∧ start.Moment room
              ∧ room.window.inProgress ≤ few
              ∧ (∃ waited,
                  room.journal.toList = start.journal.toList ++ waited
                  ∧ ∀ sent ∈ transmissions waited,
                      ∃ promise ∈ window.promises,
                        promise.request.datagram window.config.tag = sent)
              ∧ room.Dispatched datagram after) := by
  intro start most few
  obtain ⟨held, sound⟩ := uncrowded_sound connection operations listed
  refine ⟨fun moment passed => Nat.le_trans passed.releases.inProgress_le held,
    (Station.drain_path 0 start).moment, ?_⟩
  intro request sequence handler datagram room after
  refine ⟨fun moment passed => passed.inProgress_le held, ?_, ?_, ?_⟩
  · intro error invalid
    exact congrArg Prod.snd (start.send_of_invalid sequence handler invalid)
  · intro few_wait
    exact Station.dispatched_of_room few_wait request sequence handler
  · intro valid full
    have emptied : room = start.drain few := Station.makeRoom_of_full (Nat.le_of_eq full.symm)
    obtain ⟨_, events, settled, settles⟩ := (Station.makeRoom_path start).settles sound
    refine ⟨emptied ▸ Station.drain_waits few start, (Station.makeRoom_path start).moment,
      emptied ▸ Station.inProgress_drain_le few start, ⟨events, settles.journal, settles.repeats⟩,
      start.send_dispatched sequence handler valid⟩

/-- A window of two, with a request in each of its channels. -/
def twoOfTwo : List Operation :=
  [.openWindow { channels := 2, waits := 1 }, .send 0 (Operation.getVersion .origin 0) 5 {},
    .send 0 (Operation.getVersion .origin 0) 6 {}]

/-- The third request waits until one of the two has gone, and is offered then. -/
theorem third_of_two_waits
    : ∃ window,
        ((fresh silentConnection).run twoOfTwo).windows.get? 0 = some window
        ∧ window.inProgress = 2
        ∧ let start := ((fresh silentConnection).run twoOfTwo).station window
          let request := Operation.getVersion .origin 0
          start.makeRoom.window.inProgress ≤ 1
          ∧ start.makeRoom.Dispatched ((request.numbered 7).datagram window.config.tag)
              (start.send request 7 {}).2 := by
  have present : (((fresh silentConnection).run twoOfTwo).windows.get? 0).isSome = true := by cbv
  obtain ⟨window, listed⟩ := Option.isSome_iff_exists.mp present
  have numbers : (((fresh silentConnection).run twoOfTwo).windows.get? 0).map (fun window =>
      (window.inProgress, window.config.channels, window.config.waits)) = some (2, 2, 1) := by
    cbv
  simp only [listed, Option.map_some, Option.some.injEq, Prod.mk.injEq] at numbers
  obtain ⟨full, channels, waits⟩ := numbers
  have most : max window.config.channels 1 = 2 := by omega
  have valid : (Operation.getVersion .origin 0).validate = .ok () := by cbv
  have waited := (window_discipline silentConnection twoOfTwo listed).2.2
    (Operation.getVersion .origin 0) 7 {} |>.2.2.2 valid (full.trans most.symm)
  refine ⟨window, listed, full, ?_, waited.2.2.2.2⟩
  exact Nat.le_trans waited.2.2.1 (by omega)

end Junction

end MeshControl.Link
