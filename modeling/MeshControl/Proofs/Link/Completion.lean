import MeshControl.Link.Transcript
import MeshControl.Operation.Version
import MeshControl.Proofs.Link.Chronicle
import MeshControl.Proofs.Link.Delivery

/-! Every request that was taken on is settled exactly once, and whoever was given a slot for the
outcome finds exactly one there.
-/

namespace MeshControl.Link

open Scp

namespace Group

variable {ρ : Type}

-----------------------------------------------------------------------------------------
-- Members come and go
-----------------------------------------------------------------------------------------

/-- Slots with the same owners are as much in order. -/
theorem Kept.of_owners {group : Group ρ} (kept : group.Kept) {slots : List Slot}
    (same : ∀ slot, slots[slot]?.map Slot.member = group.owner? slot)
    : Kept { group with slots } := by
  have owners (slot : Nat) : owner? { group with slots } slot = group.owner? slot := same slot
  obtain ⟨orderly, postal⟩ := kept
  refine ⟨⟨orderly.numbered, orderly.sized, orderly.seated, orderly.apart⟩,
    postal.plain, postal.closed, ?_, ?_, ?_, ?_, ?_⟩
  · intro slot number owned
    exact postal.placed (owners slot ▸ owned)
  · intro slot number member owned found
    exact postal.due (owners slot ▸ owned) found
  · intro slot number owned absent
    exact postal.gone (owners slot ▸ owned) absent
  · intro slot number member found foreign
    exact postal.foreign found (owners slot ▸ foreign)
  · intro slot unowned
    exact postal.silent (owners slot ▸ unowned)

/-- Picking an outcome up leaves its slot with its owner. -/
theorem Kept.tryReceive {group : Group ρ} (kept : group.Kept) (slot : Nat)
    : (group.tryReceive slot).2.Kept := by
  unfold Group.tryReceive
  cases found : group.slots[slot]? with
  | none => exact kept
  | some place =>
      dsimp only
      split
      · exact kept
      · split
        · apply kept.of_owners
          intro other
          obtain ⟨bound, here⟩ := List.getElem?_eq_some_iff.mp found
          rw [owner?, List.getElem?_set]
          split
          · next same =>
              subst same
              simp [bound, here]
          · rfl
        · split <;> exact kept

/-- A member that is new owes nothing, and no slot is its own yet. -/
theorem Kept.add {group : Group ρ} (kept : group.Kept) (config : Config)
    : (group.add config).2.Kept := by
  let newcomer : Member :=
    { process := { config }
      sequences := {}
      dispatchers := group.hub.lines.map fun _ => {} }
  have members (other : Nat)
      : (group.add config).2.members.get? other
        = if other = group.fresh then some newcomer else group.members.get? other :=
    Table.get?_insert group.members group.fresh newcomer other
  obtain ⟨orderly, postal⟩ := kept
  refine ⟨orderly.add config, ?_, ?_, ?_, ?_, ?_, ?_, postal.silent⟩
  · intro other member found promise promised
    rw [members] at found
    split at found
    · cases found
      cases promised
    · exact postal.plain found promise promised
  · intro other member found finished
    rw [members] at found
    split at found
    · cases found
      cases finished
    · exact postal.closed found finished
  · intro slot number owned
    exact Nat.lt_succ_of_lt (postal.placed owned)
  · intro slot number member owned found
    rw [members] at found
    split at found
    · next same => exact absurd (postal.placed owned) (by omega)
    · exact postal.due owned found
  · intro slot number owned absent
    rw [members] at absent
    split at absent
    · cases absent
    · exact postal.gone owned absent
  · intro slot number member found foreign
    rw [members] at found
    split at found
    · cases found
      rfl
    · exact postal.foreign found foreign

/-- A member that goes away owes nobody any more; its slots were told at most once. -/
theorem Kept.drop {group : Group ρ} (kept : group.Kept) (number : Nat)
    : (group.drop number).Kept := by
  refine ⟨kept.orderly.drop number, ?_⟩
  have orderly := kept.orderly
  have postal := kept.postal
  unfold Group.drop
  cases found : group.members.get? number with
  | none => exact postal
  | some member =>
      obtain ⟨_, journal⟩ := Process.drop_yields (orderly.seated_hubOf found)
      dsimp only
      generalize gone
        : group.update number (member.process.drop (group.hubOf member)) member.process
          = after
      have members (other : Nat)
          : (after.members.erase number).get? other
            = if other = number then none else group.members.get? other := by
        rw [← gone, Table.get?_erase]
        split
        · rfl
        · next apart => rw [get?_update, if_neg apart]
      have kept_journal : after.hub.journal = group.hub.journal := by
        rw [← gone, journal_update, journal, journal_hubOf]
      have owners : after.slots = group.slots := by
        rw [← gone]
        rfl
      have fresh : after.fresh = group.fresh := by
        rw [← gone]
        rfl
      apply Postal.of_posted
      · intro other listed held
        rw [members] at held
        split at held
        · cases held
        · exact postal.plain held
      · intro other listed held
        rw [members] at held
        split at held
        · cases held
        · exact postal.closed held
      · intro slot
        refine (postal.posted slot).dropped found members fresh ?_ ?_
        · simp only [owner?, owners]
        · simp only [Group.heard, kept_journal]

theorem Kept.advance {group : Group ρ} (kept : group.Kept) (count : Nat)
    : (group.advance count).Kept := by
  obtain ⟨orderly, postal⟩ := kept
  exact ⟨⟨orderly.numbered, orderly.sized, orderly.seated, orderly.apart⟩, postal.plain,
    postal.closed, postal.placed, postal.due, postal.gone, postal.foreign, postal.silent⟩

theorem Kept.inject {group : Group ρ} (kept : group.Kept) (number : Nat)
    (reaction : Reaction)
    : (group.inject number reaction).Kept := by
  obtain ⟨orderly, postal⟩ := kept
  exact ⟨orderly.inject number reaction, postal.plain, postal.closed, postal.placed,
    postal.due, postal.gone, postal.foreign, postal.silent⟩

variable [Responder ρ]

/-- A call that sends, waits and goes away keeps a group, step by step. -/
theorem Kept.execute {group : Group ρ} (kept : group.Kept) (number : Nat)
    (request : Except Halt Request)
    : (group.execute number request).2.Kept := by
  let handler : Handler := { audience := .caller }
  have elsewhere (slot : Nat) : handler.audience ≠ .slot slot := by
    intro same
    cases same
  unfold Group.execute
  cases request with
  | error error => exact kept.drop number
  | ok request =>
      dsimp only
      have sent := kept.send number request elsewhere
      split
      · next error after refused =>
          rw [refused] at sent
          exact sent.drop number
      · next after accepted =>
          rw [accepted] at sent
          exact (sent.finishAndCheck number).drop number

/-- Every action keeps a group, by cases on it. -/
theorem Kept.perform {group : Group ρ} (kept : group.Kept) (action : Action)
    : (group.perform action).Kept := by
  cases action with
  | add config => exact kept.add config
  | send number request handler elsewhere => exact kept.send number request elsewhere
  | sendForReply number request => exact kept.sendForReply number request
  | finish number => exact kept.finish number
  | finishAndCheck number => exact kept.finishAndCheck number
  | execute number request => exact kept.execute number request
  | drop number => exact kept.drop number
  | tryReceive slot => exact kept.tryReceive slot
  | advance count => exact kept.advance count
  | arrive number reaction => exact kept.inject number reaction

/-- Any history keeps a group, by induction on its actions. -/
theorem Kept.run {group : Group ρ} (kept : group.Kept) (actions : List Action)
    : (group.run actions).Kept := by
  induction actions generalizing group with
  | nil => exact kept
  | cons action rest ih => exact ih (kept.perform action)

omit [Responder ρ] in
theorem opened_kept (hub : Hub ρ) (sharing : Sharing) : (opened hub sharing).Kept := by
  have nobody {number : Nat} {member : Member}
      (found : (opened hub sharing).members.get? number = some member)
      : False := by
    cases found
  have nowhere {slot number : Nat} (owned : (opened hub sharing).owner? slot = some number)
      : False := by
    cases owned
  constructor
  · exact ⟨fun found => (nobody found).elim, fun found => (nobody found).elim,
      fun found => (nobody found).elim, fun _ found => (nobody found).elim⟩
  · exact ⟨fun found => (nobody found).elim, fun found => (nobody found).elim,
      fun owned => (nowhere owned).elim, fun owned => (nowhere owned).elim,
      fun owned => (nowhere owned).elim, fun found => (nobody found).elim, fun _ => rfl⟩

-----------------------------------------------------------------------------------------
-- What was told stays told
-----------------------------------------------------------------------------------------

omit [Responder ρ] in
theorem Deed.heard_le {group : Group ρ} (kept : group.Kept) {number : Nat} {member : Member}
    (found : group.members.get? number = some member) {hub : Hub ρ} {process : Process}
    {slots : List Slot} (deed : group.Deed number member hub process slots) (slot : Nat)
    : group.heard slot ≤ (group.update number hub process).heard slot := by
  obtain ⟨settled, taken, balances, taken_plain, _⟩ := deed.balances
  have plain := kept.postal.plain_append found taken_plain
  obtain ⟨count, journal, _⟩ := balances.countP plain slot
  simp only [Process.ledger, journal_hubOf] at journal
  simp only [heard, journal_update, journal]
  omega

omit [Responder ρ] in
theorem heard_le_act {ε α : Type} {group : Group ρ} (kept : group.Kept) (number : Nat) (gone : ε)
    (run : Hub ρ → Process → Except ε α × Hub ρ × Process)
    (deeds
      : ∀ {member result hub process},
          group.members.get? number = some member
          → run (group.hubOf member) member.process = (result, hub, process)
          → group.Deed number member hub process group.slots)
    (slot : Nat)
    : group.heard slot ≤ (group.act number gone run).2.heard slot := by
  unfold Group.act
  cases found : group.members.get? number with
  | none => exact Nat.le_refl _
  | some member =>
      dsimp only
      generalize done : run (group.hubOf member) member.process = outcome
      obtain ⟨result, hub, process⟩ := outcome
      exact (deeds found done).heard_le kept found slot

theorem heard_le_send {group : Group ρ} (kept : group.Kept) (number : Nat)
    (request : Request) {handler : Handler}
    (elsewhere : ∀ slot, handler.audience ≠ .slot slot) (slot : Nat)
    : group.heard slot ≤ (group.send number request handler).2.heard slot :=
  heard_le_act kept number _ _ (fun found done => send_deed kept found elsewhere done) slot

theorem heard_le_finish {group : Group ρ} (kept : group.Kept) (number slot : Nat)
    : group.heard slot ≤ (group.finish number).2.heard slot :=
  heard_le_act kept number _ _ (fun found done => finish_deed kept found done) slot

theorem heard_le_finishAndCheck {group : Group ρ} (kept : group.Kept) (number slot : Nat)
    : group.heard slot ≤ (group.finishAndCheck number).2.heard slot := by
  refine heard_le_act kept number _ _ (fun found done => ?_) slot
  obtain ⟨_, waited⟩ := finish_of_finishAndCheck done
  exact finish_deed kept found waited

theorem heard_le_sendForReply {group : Group ρ} (kept : group.Kept) (number : Nat)
    (request : Request) (slot : Nat)
    : group.heard slot ≤ (group.sendForReply number request).2.heard slot := by
  unfold Group.sendForReply Group.send Group.act
  cases found : group.members.get? number with
  | none => exact Nat.le_refl _
  | some member =>
      dsimp only
      generalize done : Process.send (group.hubOf member) member.process request
        { audience := .slot group.slots.length } = outcome
      obtain ⟨result, hub, process⟩ := outcome
      have deed := reply_deed kept found done
      cases result with
      | error error => exact deed.heard_le kept found slot
      | ok => exact deed.heard_le kept found slot

omit [Responder ρ] in
theorem heard_drop {group : Group ρ} (kept : group.Kept) (number slot : Nat)
    : (group.drop number).heard slot = group.heard slot := by
  unfold Group.drop
  cases found : group.members.get? number with
  | none => rfl
  | some member =>
      obtain ⟨_, journal⟩ := Process.drop_yields (kept.orderly.seated_hubOf found)
      simp only [heard, journal_update, journal, journal_hubOf]

theorem heard_le_execute {group : Group ρ} (kept : group.Kept) (number : Nat)
    (request : Except Halt Request) (slot : Nat)
    : group.heard slot ≤ (group.execute number request).2.heard slot := by
  let handler : Handler := { audience := .caller }
  have elsewhere (slot : Nat) : handler.audience ≠ .slot slot := by
    intro same
    cases same
  unfold Group.execute
  cases request with
  | error error => exact (heard_drop kept number slot).ge
  | ok request =>
      dsimp only
      have sent := kept.send number request elsewhere
      have told := heard_le_send kept number request elsewhere slot
      split
      · next error after refused =>
          rw [refused] at sent told
          exact told.trans (heard_drop sent number slot).ge
      · next after accepted =>
          rw [accepted] at sent told
          have finished := heard_le_finishAndCheck sent number slot
          have dropped := heard_drop (sent.finishAndCheck number) number slot
          exact told.trans (finished.trans dropped.ge)

/-- No action takes back what a slot was told, by cases on the action. -/
theorem heard_le_perform {group : Group ρ} (kept : group.Kept) (action : Action) (slot : Nat)
    : group.heard slot ≤ (group.perform action).heard slot := by
  cases action with
  | add config => exact Nat.le_refl _
  | send number request handler elsewhere =>
      exact heard_le_send kept number request elsewhere slot
  | sendForReply number request => exact heard_le_sendForReply kept number request slot
  | finish number => exact heard_le_finish kept number slot
  | finishAndCheck number => exact heard_le_finishAndCheck kept number slot
  | execute number request => exact heard_le_execute kept number request slot
  | drop number => exact (heard_drop kept number slot).ge
  | tryReceive other =>
      simp only [perform, Group.tryReceive]
      repeat' split
      all_goals exact Nat.le_refl _
  | advance count => exact Nat.le_refl _
  | arrive number reaction => exact Nat.le_refl _

theorem heard_le_run {group : Group ρ} (kept : group.Kept) (actions : List Action)
    (slot : Nat)
    : group.heard slot ≤ (group.run actions).heard slot := by
  induction actions generalizing group with
  | nil => exact Nat.le_refl _
  | cons action rest ih =>
      exact (heard_le_perform kept action slot).trans (ih (kept.perform action))

omit [Responder ρ] in
/-- No slot is told twice. -/
theorem Kept.heard_le_one {group : Group ρ} (kept : group.Kept) (slot : Nat)
    : group.heard slot ≤ 1 := by
  cases owned : group.owner? slot with
  | none =>
      have silent := kept.postal.silent owned
      omega
  | some number =>
      cases found : group.members.get? number with
      | none => exact kept.postal.gone owned found
      | some member =>
          have due := kept.postal.due owned found
          omega

/-- Once its member has finished, a slot has been told. -/
theorem Kept.heard_finish {group : Group ρ} (kept : group.Kept) {slot number : Nat}
    {member : Member} (owned : group.owner? slot = some number)
    (found : group.members.get? number = some member)
    : (group.finish number).2.heard slot = 1 := by
  have kept_still := kept.finish number
  unfold Group.finish Group.act at kept_still ⊢
  simp only [found] at kept_still ⊢
  generalize done : Process.finish (group.hubOf member) member.process = outcome
    at kept_still ⊢
  obtain ⟨result, hub, process⟩ := outcome
  obtain ⟨_, finished, _⟩ := Process.finish_turn (kept.orderly.seated_hubOf found) done
  have here : (group.update number hub process).members.get? number
      = some (acted hub process) := by rw [get?_update, if_pos rfl]
  have owned_still : (group.update number hub process).owner? slot = some number := owned
  have due := kept_still.postal.due owned_still here
  have nothing := kept_still.postal.closed here finished
  have owed : owes (acted hub process) slot = 0 := by rw [owes, nothing]; rfl
  rw [owed] at due
  exact due

omit [Responder ρ] in
/-- What a slot was told can be picked up. -/
theorem outcome?_of_heard {group : Group ρ} {slot : Nat} (told : 0 < group.heard slot)
    : (outcome? group.hub.journal slot).isSome = true := by
  obtain ⟨event, member, addressed⟩ := List.countP_pos_iff.mp told
  rw [outcome?, ← Array.findSome?_toList, List.findSome?_isSome_iff]
  refine ⟨event, member, ?_⟩
  cases event with
  | transmitted => cases addressed
  | accepted request response audience => simpa [Event.isFor] using addressed
  | failed request error audience => simpa [Event.isFor] using addressed

end Group

-----------------------------------------------------------------------------------------
-- Exactly one settlement for every request
-----------------------------------------------------------------------------------------

variable {ρ : Type} [Responder ρ]

/-- When a window has waited for all its requests, its account is closed: what it took on is
what was settled.
-/
theorem Junction.finish_settles (connection : Connection ρ)
    (operations : List Junction.Operation) {number : Nat} {window : Window}
    (live
      : ((Junction.fresh connection).run operations).windows.get? number = some window)
    : ∃ settled after,
        let junction := ((Junction.fresh connection).run operations).finish number
        junction.windows.get? number = some after
        ∧ after.inProgress = 0
        ∧ told junction.journal.toList = settled.flatMap (fun entry => entry.2.events)
        ∧ (∀ entry ∈ settled, entry.2.Lawful)
        ∧ (Junction.accepted number (Junction.fresh connection) operations).Perm
            ((Junction.settlementsOf number settled).map Settlement.promise)
        ∧ Junction.collected number (Junction.fresh connection) operations ++ after.failures
          = (Junction.settlementsOf number settled).flatMap Settlement.failures := by
  have coherent := Junction.fresh_coherent connection
  obtain ⟨early, chronicle⟩ :=
    (Junction.fresh_chronicle connection).run coherent operations
  obtain ⟨late, closing⟩ := chronicle.finish (coherent.run operations) number
  let start := ((Junction.fresh connection).run operations).station window
  have there : (((Junction.fresh connection).run operations).finish number).windows.get? number
      = some start.finish.window := by
    simp [Junction.finish, live, Junction.update, start]
  have waits : start.finish.window.inProgress = 0 :=
    Nat.le_zero.mp (Station.inProgress_drain_le 0 start)
  have none_left : start.finish.window.promises = [] := by
    have entries : start.finish.window.outstanding.entries = [] :=
      List.eq_nil_of_length_eq_zero waits
    simp [Window.promises, Table.values, entries]
  have account := closing.accounts there
  have promises := account.promises
  rw [none_left, List.append_nil] at promises
  exact ⟨_, start.finish.window, there, waits, closing.told, closing.lawful, promises,
    account.failures⟩

/-- Every request that was taken on is settled exactly once. For windows that share a
connection, and any history: when a window has waited for all its requests, nothing of it is in
progress, the senders were told one settlement after another, each of them lawful, the requests
that its sends took on are exactly those that were settled for it, and the failures that were
collected from it or lie in it are exactly those that its settlements left. For processes side
by side, and any history: once the process that handed a slot out has finished, the slot has
been told one outcome, and whatever comes later it is told no other.
Witness: the books of all windows, and the slots in order, kept by every step.
-/
theorem settled_exactly_once
    : (∀ (connection : Connection ρ) (operations : List Junction.Operation) (number : Nat)
          (window : Window),
        ((Junction.fresh connection).run operations).windows.get? number = some window
        → ∃ settled after,
            let junction := ((Junction.fresh connection).run operations).finish number
            junction.windows.get? number = some after
            ∧ after.inProgress = 0
            ∧ told junction.journal.toList = settled.flatMap (fun entry => entry.2.events)
            ∧ (∀ entry ∈ settled, entry.2.Lawful)
            ∧ (Junction.accepted number (Junction.fresh connection) operations).Perm
                ((Junction.settlementsOf number settled).map Settlement.promise)
            ∧ Junction.collected number (Junction.fresh connection) operations
                ++ after.failures
              = (Junction.settlementsOf number settled).flatMap Settlement.failures)
      ∧ ∀ (hub : Hub ρ) (sharing : Sharing) (actions later : List Group.Action) (slot : Nat)
          (place : Slot) (member : Member),
        ((Group.opened hub sharing).run actions).slots[slot]? = some place
        → ((Group.opened hub sharing).run actions).members.get? place.member = some member
        → let group :=
            (((Group.opened hub sharing).run actions).finish place.member).2.run later
          group.heard slot = 1 ∧ (Group.outcome? group.hub.journal slot).isSome = true := by
  constructor
  · intro connection operations number window live
    exact Junction.finish_settles connection operations live
  · intro hub sharing actions later slot place member handed live group
    have kept := (Group.opened_kept hub sharing).run actions
    have owned : ((Group.opened hub sharing).run actions).owner? slot = some place.member := by
      rw [Group.owner?, handed]
      rfl
    have first := kept.heard_finish owned live
    have finished := kept.finish place.member
    have lower := Group.heard_le_run finished later slot
    have upper := (finished.run later).heard_le_one slot
    have once : group.heard slot = 1 := by
      rw [first] at lower
      exact Nat.le_antisymm upper lower
    exact ⟨once, Group.outcome?_of_heard (by rw [once]; exact Nat.one_pos)⟩

/-- A connection whose peer never answers. -/
def silentConnection : Connection Transcript :=
  { number := 0, name := "silent", chip := .origin, peer := { known := [] } }

/-- A machine with one silent connection. -/
def silentHub : Hub Transcript :=
  { lines := [{ connection := silentConnection }], selector := .fixed ⟨0, .origin⟩ }

/-- Even where no answer comes, the one request is settled, and its slot is told. -/
theorem settled_exactly_once_silent
    : let request := Operation.getVersion .origin 0
      (∃ settled after,
        let junction := ((Junction.fresh silentConnection).run
          [.openWindow {}, .send 0 request 7 {}]).finish 0
        junction.windows.get? 0 = some after
        ∧ after.inProgress = 0
        ∧ told junction.journal.toList = settled.flatMap (fun entry => entry.2.events)
        ∧ (Junction.settlementsOf 0 settled).map Settlement.promise
          = [⟨request.numbered 7, {}⟩])
      ∧ ((Group.opened silentHub .everything).run
          [.add {}, .sendForReply 0 request, .finish 0]).heard 0 = 1 := by
  intro request
  have both := @settled_exactly_once Transcript _
  obtain ⟨settled, after, found, idle, told, _, accepted, _⟩ :=
    both.1 silentConnection [.openWindow {}, .send 0 request 7 {}] 0 _ rfl
  have taken : Junction.accepted 0 (Junction.fresh silentConnection)
      [.openWindow {}, .send 0 request 7 {}] = [⟨request.numbered 7, {}⟩] := rfl
  rw [taken, List.singleton_perm] at accepted
  have once :=
    both.2 silentHub .everything [.add {}, .sendForReply 0 request] [] 0 _ _ rfl rfl
  exact ⟨⟨settled, after, found, idle, told, accepted.symm⟩, once.1⟩

end MeshControl.Link
