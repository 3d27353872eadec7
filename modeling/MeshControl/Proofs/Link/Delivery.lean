import MeshControl.Proofs.Link.Neighbours

/-! Outcomes that are picked up later. Whatever the members of a group do, and whatever they
share, a place for an outcome is told at most once, and once its member has finished it is told.
-/

namespace MeshControl.Link

open Scp

-----------------------------------------------------------------------------------------
-- Who hears of an event
-----------------------------------------------------------------------------------------

/-- The event tells the one who waits at a slot. -/
def Event.isFor (slot : Nat) : Event → Bool
  | .transmitted .. => false
  | .accepted _ _ audience => audience = .slot slot
  | .failed _ _ audience => audience = .slot slot

/-- The request was sent by the one who waits at a slot. -/
def Promise.isFor (slot : Nat) (promise : Promise) : Bool :=
  promise.handler.audience = .slot slot

/-- Who waits at a slot has no test of his own for the answer. -/
def Promise.Plain (promise : Promise) : Prop :=
  ∀ slot,
    promise.handler.audience = .slot slot → ∀ response, promise.handler.check response = .ok ()

theorem countP_isFor_told (slot : Nat) (events : List Event)
    : (told events).countP (Event.isFor slot) = events.countP (Event.isFor slot) := by
  rw [told, List.countP_filter]
  apply List.countP_congr
  intro event _
  cases event <;> simp [Event.isFor, Event.isTold]

/-- The end of a request tells its slot once and no other slot. -/
theorem Settlement.countP_events {settlement : Settlement} (plain : settlement.promise.Plain)
    (lawful : settlement.Lawful) (slot : Nat)
    : settlement.events.countP (Event.isFor slot)
      = if settlement.promise.isFor slot then 1 else 0 := by
  obtain ⟨promise, outcome⟩ := settlement
  cases outcome with
  | answered response =>
      simp only [events, List.countP_cons, List.countP_nil, Event.isFor, Promise.isFor]
      simp
  | rejected response error =>
      obtain ⟨_, _, verdict⟩ := lawful
      have elsewhere : promise.isFor slot = false := by
        by_contra waits
        have trusted := plain slot (by simpa [Promise.isFor] using waits) response
        rw [verdict] at trusted
        cases trusted
      rw [elsewhere]
      simp only [Promise.isFor] at elsewhere
      simp [events, Event.isFor, elsewhere]
  | failed error =>
      simp only [events, List.countP_cons, List.countP_nil, Event.isFor, Promise.isFor]
      simp

/-- What is heard at a slot and what it is still owed change only by what is taken on. -/
theorem Ledger.Balances.countP {before after : Ledger} {settled : List Settlement}
    {taken : List Promise} (balances : Ledger.Balances before after settled taken)
    (plain : ∀ promise ∈ before.promises ++ taken, promise.Plain) (slot : Nat)
    : ∃ count,
        after.journal.countP (Event.isFor slot)
          = before.journal.countP (Event.isFor slot) + count
        ∧ before.promises.countP (Promise.isFor slot) + taken.countP (Promise.isFor slot)
          = count + after.promises.countP (Promise.isFor slot) := by
  have heard (settlements : List Settlement)
      (lawful : ∀ settlement ∈ settlements, settlement.Lawful)
      (trusted : ∀ settlement ∈ settlements, settlement.promise.Plain)
      : (settlements.flatMap Settlement.events).countP (Event.isFor slot)
        = (settlements.map Settlement.promise).countP (Promise.isFor slot) := by
    induction settlements with
    | nil => rfl
    | cons settlement rest ih =>
        simp only [List.forall_mem_cons] at lawful trusted
        rw [List.flatMap_cons, List.countP_append, ih lawful.2 trusted.2, List.map_cons,
          List.countP_cons, settlement.countP_events trusted.1 lawful.1, Nat.add_comm]
  have trusted : ∀ settlement ∈ settled, settlement.promise.Plain := by
    intro settlement member
    apply plain
    rw [balances.promises.mem_iff]
    exact List.mem_append_left _ (List.mem_map_of_mem member)
  refine ⟨(settled.map Settlement.promise).countP (Promise.isFor slot), ?_, ?_⟩
  · rw [← countP_isFor_told, balances.told, List.countP_append, countP_isFor_told,
      heard settled balances.lawful trusted]
  · have same := balances.promises.countP_eq (Promise.isFor slot)
    rwa [List.countP_append, List.countP_append] at same

namespace Group

variable {ρ : Type}

-----------------------------------------------------------------------------------------
-- What a group can do
-----------------------------------------------------------------------------------------

/-- What the members of a group can do, and what can happen to them. Slots are handed out by
requests for a reply alone.
-/
inductive Action
  | add (config : Config)
  | send (number : Nat) (request : Request) (handler : Handler)
    (elsewhere : ∀ slot, handler.audience ≠ .slot slot)
  | sendForReply (number : Nat) (request : Request)
  | finish (number : Nat)
  | finishAndCheck (number : Nat)
  | execute (number : Nat) (request : Except Halt Request)
  | drop (number : Nat)
  | tryReceive (slot : Nat)
  | advance (count : Nat)
  | arrive (number : Nat) (reaction : Reaction)

def perform [Responder ρ] (group : Group ρ) : Action → Group ρ
  | .add config => (group.add config).2
  | .send number request handler _ => (group.send number request handler).2
  | .sendForReply number request => (group.sendForReply number request).2
  | .finish number => (group.finish number).2
  | .finishAndCheck number => (group.finishAndCheck number).2
  | .execute number request => (group.execute number request).2
  | .drop number => group.drop number
  | .tryReceive slot => (group.tryReceive slot).2
  | .advance count => group.advance count
  | .arrive number reaction => group.inject number reaction

def run [Responder ρ] (group : Group ρ) (actions : List Action) : Group ρ :=
  actions.foldl perform group

/-- A group without members, before anything has happened on its connections. -/
def opened (hub : Hub ρ) (sharing : Sharing) : Group ρ :=
  { hub := { hub with journal := #[] }, sharing }

/-- How often a slot was told the outcome of its request. -/
def heard (group : Group ρ) (slot : Nat) : Nat :=
  group.hub.journal.toList.countP (Event.isFor slot)

-----------------------------------------------------------------------------------------
-- Slots and those who owe them
-----------------------------------------------------------------------------------------

/-- The member that owes a slot its outcome. -/
def owner? (group : Group ρ) (slot : Nat) : Option Nat :=
  group.slots[slot]?.map Slot.member

/-- How many requests of a member wait for a slot. -/
def owes (member : Member) (slot : Nat) : Nat :=
  member.process.promises.countP (Promise.isFor slot)

/-- A slot is told once or owed once by its own member, and by no other. -/
structure Postal (group : Group ρ) : Prop where
  plain
    : ∀ {number member},
        group.members.get? number = some member
        → ∀ promise ∈ member.process.promises, promise.Plain
  closed
    : ∀ {number member},
        group.members.get? number = some member
        → member.process.finished = true
        → member.process.promises = []
  placed : ∀ {slot number}, group.owner? slot = some number → number < group.fresh
  due
    : ∀ {slot number member},
        group.owner? slot = some number
        → group.members.get? number = some member
        → group.heard slot + owes member slot = 1
  gone
    : ∀ {slot number},
        group.owner? slot = some number
        → group.members.get? number = none
        → group.heard slot ≤ 1
  foreign
    : ∀ {slot number member},
        group.members.get? number = some member
        → group.owner? slot ≠ some number
        → owes member slot = 0
  silent : ∀ {slot}, group.owner? slot = none → group.heard slot = 0

/-- What a member does with its promises and the slots, on the way from one state of its process
to a later one.
-/
structure Deed (group : Group ρ) (number : Nat) (member : Member) (hub : Hub ρ)
    (process : Process) (slots : List Slot) : Prop where
  turn : Process.Turn (group.hubOf member) hub member.process process
  closed : process.finished = true → process.promises = []
  balances
    : ∃ settled taken,
        Ledger.Balances (Process.ledger (group.hubOf member) member.process)
          (Process.ledger hub process) settled taken
        ∧ (∀ promise ∈ taken, promise.Plain)
        ∧ ∀ slot,
            (slots[slot]?.map Slot.member = group.owner? slot
              ∧ taken.countP (Promise.isFor slot) = 0)
            ∨ (group.owner? slot = none ∧ slots[slot]?.map Slot.member = some number
              ∧ taken.countP (Promise.isFor slot) = 1)

theorem Postal.plain_append {group : Group ρ} (postal : group.Postal) {number : Nat}
    {member : Member} (found : group.members.get? number = some member)
    {taken : List Promise} (taken_plain : ∀ promise ∈ taken, promise.Plain)
    : ∀ promise ∈ member.process.promises ++ taken, promise.Plain := by
  intro promise listed
  rcases List.mem_append.mp listed with old | new
  · exact postal.plain found promise old
  · exact taken_plain promise new

/-- What is so of a single slot. -/
structure Posted (group : Group ρ) (slot : Nat) : Prop where
  placed : ∀ {number}, group.owner? slot = some number → number < group.fresh
  due
    : ∀ {number member},
        group.owner? slot = some number
        → group.members.get? number = some member
        → group.heard slot + owes member slot = 1
  gone
    : ∀ {number},
        group.owner? slot = some number
        → group.members.get? number = none
        → group.heard slot ≤ 1
  foreign
    : ∀ {number member},
        group.members.get? number = some member
        → group.owner? slot ≠ some number
        → owes member slot = 0
  silent : group.owner? slot = none → group.heard slot = 0

theorem Postal.posted {group : Group ρ} (postal : group.Postal) (slot : Nat)
    : group.Posted slot :=
  ⟨postal.placed, postal.due, postal.gone, postal.foreign, postal.silent⟩

namespace Posted

variable {group after : Group ρ} {slot number : Nat} {member later : Member}

/-- A slot keeps its owner while some member acts: it is told as often as it is owed less. -/
theorem acted {count : Nat} (posted : group.Posted slot)
    (found : group.members.get? number = some member)
    (members
      : ∀ other,
          after.members.get? other
          = if other = number then some later else group.members.get? other)
    (fresh : after.fresh = group.fresh) (owner : after.owner? slot = group.owner? slot)
    (heard : after.heard slot = group.heard slot + count)
    (owed : owes member slot = count + owes later slot)
    : after.Posted slot := by
  -- Only a slot of the member's own can be told anything.
  have unheard (elsewhere : group.owner? slot ≠ some number) : count = 0 := by
    have nothing := posted.foreign found elsewhere
    omega
  refine ⟨?_, ?_, ?_, ?_, ?_⟩
  · intro other owned
    rw [fresh]
    exact posted.placed (owner ▸ owned)
  · intro other listed owned held
    rw [owner] at owned
    rw [members] at held
    split at held
    · next here =>
        subst here
        cases held
        have due := posted.due owned found
        omega
    · next apart =>
        have none_new := unheard (by simpa [owned] using apart)
        have due := posted.due owned held
        omega
  · intro other owned absent
    rw [owner] at owned
    rw [members] at absent
    split at absent
    · cases absent
    · next apart =>
        have none_new := unheard (by simpa [owned] using apart)
        have gone := posted.gone owned absent
        omega
  · intro other listed held unowned
    rw [owner] at unowned
    rw [members] at held
    split at held
    · next here =>
        subst here
        cases held
        have nothing := posted.foreign found unowned
        omega
    · exact posted.foreign held unowned
  · intro unowned
    rw [owner] at unowned
    have none_new := unheard (by simp [unowned])
    have silent := posted.silent unowned
    omega

/-- A slot is new: its owner owes it one outcome, or has told it already. -/
theorem issued {count : Nat} (posted : group.Posted slot)
    (found : group.members.get? number = some member) (numbered : number < group.fresh)
    (members
      : ∀ other,
          after.members.get? other
          = if other = number then some later else group.members.get? other)
    (fresh : after.fresh = group.fresh) (unowned : group.owner? slot = none)
    (owner : after.owner? slot = some number)
    (heard : after.heard slot = group.heard slot + count)
    (owed : owes member slot + 1 = count + owes later slot)
    : after.Posted slot := by
  have unknown (other : Nat) : group.owner? slot ≠ some other := by simp [unowned]
  refine ⟨?_, ?_, ?_, ?_, ?_⟩
  · intro other owned
    rw [owner] at owned
    cases owned
    exact fresh ▸ numbered
  · intro other listed owned held
    rw [owner] at owned
    cases owned
    rw [members, if_pos rfl] at held
    cases held
    have nothing := posted.foreign found (unknown number)
    have silent := posted.silent unowned
    omega
  · intro other owned absent
    rw [owner] at owned
    cases owned
    rw [members, if_pos rfl] at absent
    cases absent
  · intro other listed held foreign
    have apart : other ≠ number := by
      rintro rfl
      exact foreign owner
    rw [members, if_neg apart] at held
    exact posted.foreign held (unknown other)
  · intro ownerless
    rw [owner] at ownerless
    cases ownerless

/-- A member goes away, and what it owed is never told. -/
theorem dropped (posted : group.Posted slot)
    (found : group.members.get? number = some member)
    (members
      : ∀ other,
          after.members.get? other
          = if other = number then none else group.members.get? other)
    (fresh : after.fresh = group.fresh) (owner : after.owner? slot = group.owner? slot)
    (heard : after.heard slot = group.heard slot)
    : after.Posted slot := by
  refine ⟨?_, ?_, ?_, ?_, ?_⟩
  · intro other owned
    rw [fresh]
    exact posted.placed (owner ▸ owned)
  · intro other listed owned held
    rw [owner] at owned
    rw [members] at held
    rw [heard]
    split at held
    · cases held
    · exact posted.due owned held
  · intro other owned absent
    rw [owner] at owned
    rw [members] at absent
    rw [heard]
    split at absent
    · next same =>
        subst same
        have due := posted.due owned found
        omega
    · exact posted.gone owned absent
  · intro other listed held foreign
    rw [owner] at foreign
    rw [members] at held
    split at held
    · cases held
    · exact posted.foreign held foreign
  · intro unowned
    rw [owner] at unowned
    rw [heard]
    exact posted.silent unowned

end Posted

/-- Slots that are in order one by one are in order. -/
theorem Postal.of_posted {group : Group ρ}
    (plain
      : ∀ {number member},
          group.members.get? number = some member
          → ∀ promise ∈ member.process.promises, promise.Plain)
    (closed
      : ∀ {number member},
          group.members.get? number = some member
          → member.process.finished = true
          → member.process.promises = [])
    (posted : ∀ slot, group.Posted slot)
    : group.Postal :=
  ⟨plain, closed, (posted _).placed, (posted _).due, (posted _).gone, (posted _).foreign,
    (posted _).silent⟩

/-- A member's deed keeps the slots in order: what it settles was owed to its own slots. -/
theorem Postal.update {group : Group ρ} (postal : group.Postal) (orderly : group.Orderly)
    {number : Nat} {member : Member} (found : group.members.get? number = some member)
    {hub : Hub ρ} {process : Process} {slots : List Slot}
    (deed : group.Deed number member hub process slots)
    : Postal { group.update number hub process with slots } := by
  obtain ⟨settled, taken, balances, taken_plain, issues⟩ := deed.balances
  let after : Group ρ := { group.update number hub process with slots }
  have plain := postal.plain_append found taken_plain
  have members (other : Nat)
      : after.members.get? other
        = if other = number then some (Group.acted hub process)
          else group.members.get? other :=
    get?_update group number hub process other
  apply Postal.of_posted
  · intro other listed held promise promised
    rw [members] at held
    split at held
    · cases held
      exact plain promise (balances.promises.mem_iff.mpr (List.mem_append_right _ promised))
    · exact postal.plain held promise promised
  · intro other listed held
    rw [members] at held
    split at held
    · cases held
      exact deed.closed
    · exact postal.closed held
  · intro slot
    obtain ⟨count, journal, promises⟩ := balances.countP plain slot
    simp only [Process.ledger, journal_hubOf] at journal
    have heard : after.heard slot = group.heard slot + count := by
      change (group.update number hub process).hub.journal.toList.countP _ = _
      rw [journal_update]
      exact journal
    change owes member slot + _ = count + owes (Group.acted hub process) slot at promises
    rcases issues slot with ⟨same, none_taken⟩ | ⟨unowned, issued, one_taken⟩
    · rw [none_taken] at promises
      exact (postal.posted slot).acted found members rfl same heard promises
    · rw [one_taken] at promises
      exact (postal.posted slot).issued found (orderly.numbered found) members rfl unowned
        issued heard promises

-----------------------------------------------------------------------------------------
-- The deeds of a member
-----------------------------------------------------------------------------------------

/-- A group whose members sit in order and whose slots are told at most once. -/
structure Kept (group : Group ρ) : Prop where
  orderly : group.Orderly
  postal : group.Postal

theorem Kept.update {group : Group ρ} (kept : group.Kept) {number : Nat} {member : Member}
    (found : group.members.get? number = some member) {hub : Hub ρ} {process : Process}
    {slots : List Slot} (deed : group.Deed number member hub process slots)
    : Kept { group.update number hub process with slots } := by
  have orderly := kept.orderly.update found deed.turn
  exact ⟨⟨orderly.numbered, orderly.sized, orderly.seated, orderly.apart⟩,
    kept.postal.update kept.orderly found deed⟩

/-- Acting keeps a group, if what the member does is a deed that hands out no slot. -/
theorem Kept.act {ε α : Type} {group : Group ρ} (kept : group.Kept) (number : Nat) (gone : ε)
    (run : Hub ρ → Process → Except ε α × Hub ρ × Process)
    (deeds
      : ∀ {member result hub process},
          group.members.get? number = some member
          → run (group.hubOf member) member.process = (result, hub, process)
          → group.Deed number member hub process group.slots)
    : (group.act number gone run).2.Kept := by
  unfold Group.act
  cases found : group.members.get? number with
  | none => exact kept
  | some member =>
      dsimp only
      generalize done : run (group.hubOf member) member.process = outcome
      obtain ⟨result, hub, process⟩ := outcome
      exact kept.update found (deeds found done)

variable [Responder ρ]

/-- What a finished process owes nothing of, it still owes nothing of after a refused send. -/
theorem closed_of_send {hub after : Hub ρ} {process later : Process} {request : Request}
    {handler : Handler} {result : Except Halt Unit}
    (closed : process.finished = true → process.promises = [])
    (same : later.finished = process.finished)
    (done : Process.send hub process request handler = (result, after, later))
    : later.finished = true → later.promises = [] := by
  intro finished
  rw [same] at finished
  rw [Process.send, if_pos finished] at done
  simp only [Prod.mk.injEq] at done
  obtain ⟨_, _, rfl⟩ := done
  exact closed finished

theorem send_deed {group : Group ρ} (kept : group.Kept) {number : Nat} {member : Member}
    (found : group.members.get? number = some member) {request : Request} {handler : Handler}
    (elsewhere : ∀ slot, handler.audience ≠ .slot slot) {result : Except Halt Unit}
    {hub : Hub ρ} {process : Process}
    (done : Process.send (group.hubOf member) member.process request handler
      = (result, hub, process))
    : group.Deed number member hub process group.slots := by
  obtain ⟨turn, same, sequence, _, settled, _, taken, sends⟩ :=
    Process.send_turn (kept.orderly.seated_hubOf found) done
  refine ⟨turn, closed_of_send (kept.postal.closed found) same done,
    settled, taken, sends.balances, ?_, ?_⟩
  · intro promise member slot waits
    cases sends.offered with
    | withheld => cases member
    | refused => cases member
    | sent =>
        cases List.mem_singleton.mp member
        exact absurd waits (elsewhere slot)
  · intro slot
    refine .inl ⟨rfl, ?_⟩
    cases sends.offered with
    | withheld => rfl
    | refused => rfl
    | sent => simp [Promise.isFor, elsewhere slot]

/-- A send for a reply hands out the next slot if it succeeds, and none if it fails. -/
theorem reply_deed {group : Group ρ} (kept : group.Kept) {number : Nat} {member : Member}
    (found : group.members.get? number = some member) {request : Request}
    {result : Except Halt Unit} {hub : Hub ρ} {process : Process}
    (done : Process.send (group.hubOf member) member.process request
        { audience := .slot group.slots.length }
      = (result, hub, process))
    : group.Deed number member hub process
        (match result with
        | .error _ => group.slots
        | .ok () => group.slots ++ [{ member := number }]) := by
  obtain ⟨turn, same, sequence, _, settled, _, taken, sends⟩ :=
    Process.send_turn (kept.orderly.seated_hubOf found) done
  refine ⟨turn, closed_of_send (kept.postal.closed found) same done,
    settled, taken, sends.balances, ?_, ?_⟩
  · intro promise member slot _ response
    cases sends.offered with
    | withheld => cases member
    | refused => cases member
    | sent =>
        cases List.mem_singleton.mp member
        rfl
  · intro slot
    cases sends.offered with
    | withheld => exact .inl ⟨rfl, rfl⟩
    | refused => exact .inl ⟨rfl, rfl⟩
    | sent =>
        by_cases here : slot = group.slots.length
        · subst here
          exact .inr ⟨by simp [owner?], by simp, by simp [Promise.isFor]⟩
        · refine .inl ⟨?_, ?_⟩
          · rcases Nat.lt_or_ge slot group.slots.length with known | beyond
            · rw [owner?, List.getElem?_append_left known]
            · have longer : (group.slots ++ [({ member := number } : Slot)]).length ≤ slot := by
                rw [List.length_append, List.length_singleton]
                omega
              rw [owner?, List.getElem?_eq_none longer, List.getElem?_eq_none beyond]
          · simp [Promise.isFor, Ne.symm here]

theorem finish_deed {group : Group ρ} (kept : group.Kept) {number : Nat} {member : Member}
    (found : group.members.get? number = some member) {result : Except Error Unit}
    {hub : Hub ρ} {process : Process}
    (done : Process.finish (group.hubOf member) member.process = (result, hub, process))
    : group.Deed number member hub process group.slots := by
  obtain ⟨turn, finished, ⟨_, settled, settles⟩, ending⟩ :=
    Process.finish_turn (kept.orderly.seated_hubOf found) done
  refine ⟨turn, fun _ => ?_, settled, [], settles.balances, by simp,
    fun slot => .inl ⟨rfl, rfl⟩⟩
  rcases ending with ⟨_, _, none_left⟩ | ⟨was_finished, _, _, rfl⟩
  · exact none_left
  · exact kept.postal.closed found was_finished

/-- Checking for failures changes nothing beyond the wait. -/
theorem finish_of_finishAndCheck {hub after : Hub ρ} {process later : Process}
    {result : Except Error Unit}
    (done : Process.finishAndCheck hub process = (result, after, later))
    : ∃ waited, Process.finish hub process = (waited, after, later) := by
  unfold Process.finishAndCheck at done
  split at done
  · next error middle between waited =>
      simp only [Prod.mk.injEq] at done
      obtain ⟨_, rfl, rfl⟩ := done
      exact ⟨_, waited⟩
  · next middle between waited =>
      simp only [Prod.mk.injEq] at done
      obtain ⟨_, rfl, rfl⟩ := done
      exact ⟨_, waited⟩

theorem Kept.send {group : Group ρ} (kept : group.Kept) (number : Nat) (request : Request)
    {handler : Handler} (elsewhere : ∀ slot, handler.audience ≠ .slot slot)
    : (group.send number request handler).2.Kept :=
  kept.act number _ _ fun found done => send_deed kept found elsewhere done

theorem Kept.finish {group : Group ρ} (kept : group.Kept) (number : Nat)
    : (group.finish number).2.Kept :=
  kept.act number _ _ fun found done => finish_deed kept found done

theorem Kept.finishAndCheck {group : Group ρ} (kept : group.Kept) (number : Nat)
    : (group.finishAndCheck number).2.Kept := by
  refine kept.act number _ _ fun found done => ?_
  obtain ⟨_, waited⟩ := finish_of_finishAndCheck done
  exact finish_deed kept found waited

theorem Kept.sendForReply {group : Group ρ} (kept : group.Kept) (number : Nat)
    (request : Request)
    : (group.sendForReply number request).2.Kept := by
  unfold Group.sendForReply Group.send Group.act
  cases found : group.members.get? number with
  | none => exact kept
  | some member =>
      dsimp only
      generalize done : Process.send (group.hubOf member) member.process request
        { audience := .slot group.slots.length } = outcome
      obtain ⟨result, hub, process⟩ := outcome
      have deed := reply_deed kept found done
      cases result with
      | error error => exact kept.update found deed
      | ok => exact kept.update found deed

end Group

end MeshControl.Link
