import MeshControl.Proofs.Link.Lending

/-! Processes in company: they share the dispatchers of their connections, draw their numbers from
generators of which each has its own or shares one, and choose connections as they like. Whatever
they do, a sequence number is registered on a connection exactly while one of them waits for it
there.
-/

namespace MeshControl.Link

open Scp

/-- A process, how it chooses connections, and the generator that its numbers come from. -/
structure Partner where
  process : Process
  selector : Selector
  generator : Nat

/-- Where sequence numbers lead, but for those that the process holds. -/
def Process.spared (process : Process) (routing : List (UInt16 → Option Nat))
    : List (UInt16 → Option Nat) :=
  routing.mapIdx fun number routes sequence =>
    if process.holds number sequence then none else routes sequence

/-- What a process borrowed are the routes of the numbers that it holds. -/
theorem Process.borrows_spared (process : Process) (routing : List (UInt16 → Option Nat))
    : process.Borrows (process.spared routing) routing where
  length := (List.length_mapIdx).symm
  lends := by
    intro number old new was is
    rw [spared, List.getElem?_mapIdx, is] at was
    obtain rfl := Option.some.inj was
    exact ⟨fun sequence held => if_pos held, fun sequence free => (if_neg (by simp [free])).symm⟩

/-- Processes that share the dispatchers of their connections. -/
structure Company (ρ : Type) where
  lines : List (Line ρ)
  /-- Generators of sequence numbers; who names the same one shares it. -/
  generators : Nat → SequenceGenerator
  partners : Table Nat Partner := .empty
  /-- The number of the next partner. -/
  fresh : Nat := 0
  journal : Array Event := #[]

namespace Company

variable {ρ : Type}

-----------------------------------------------------------------------------------------
-- Histories of a company
-----------------------------------------------------------------------------------------

/-- Connections that nobody has used yet, and generators that start anywhere. -/
def founded (connections : List (Connection ρ)) (generators : Nat → SequenceGenerator)
    : Company ρ :=
  { lines := connections.map fun connection => { connection }, generators }

/-- What a partner works with. -/
def hubOf (company : Company ρ) (partner : Partner) : Hub ρ where
  lines := company.lines
  selector := partner.selector
  sequences := company.generators partner.generator
  journal := company.journal

/-- What a partner did takes effect. -/
def update (company : Company ρ) (name : Nat) (partner : Partner) (hub : Hub ρ)
    (process : Process) : Company ρ :=
  { company with
    lines := hub.lines
    generators := fun generator =>
      if generator = partner.generator then hub.sequences else company.generators generator
    partners :=
      company.partners.insert name { partner with process, selector := hub.selector }
    journal := hub.journal }

/-- A new process. -/
def join (company : Company ρ) (config : Config) (selector : Selector) (generator : Nat)
    : Company ρ :=
  let partner : Partner := { process := { config }, selector, generator }
  { company with
    partners := company.partners.insert company.fresh partner
    fresh := company.fresh + 1 }

/-- The choice of a partner changes, as it may for reasons of its own. -/
def choose (company : Company ρ) (name : Nat) (selector : Selector) : Company ρ :=
  match company.partners.get? name with
  | none => company
  | some partner =>
      { company with partners := company.partners.insert name { partner with selector } }

/-- A partner goes away. -/
def drop (company : Company ρ) (name : Nat) : Company ρ :=
  match company.partners.get? name with
  | none => company
  | some partner =>
      let hub := partner.process.drop (company.hubOf partner)
      { company with lines := hub.lines, partners := company.partners.erase name }

/-- Something arrives at a connection that no transmission brought about. -/
def arrive (company : Company ρ) (number : Nat) (reaction : Reaction) : Company ρ :=
  { company with
    lines := company.lines.modify number fun line =>
      { line with connection := line.connection.absorb reaction } }

variable [Responder ρ]

/-- A partner sends a request; one that is gone is closed. -/
def send (company : Company ρ) (name : Nat) (request : Request) (handler : Handler)
    : Except Halt Unit × Company ρ :=
  match company.partners.get? name with
  | none => (.error (.failed .closed), company)
  | some partner =>
      let (result, hub, process) :=
        Process.send (company.hubOf partner) partner.process request handler
      (result, company.update name partner hub process)

/-- A partner waits until its requests have ended. -/
def finish (company : Company ρ) (name : Nat) : Except Error Unit × Company ρ :=
  match company.partners.get? name with
  | none => (.error .closed, company)
  | some partner =>
      let (result, hub, process) := Process.finish (company.hubOf partner) partner.process
      (result, company.update name partner hub process)

/-- What partners can do, and what can happen to their connections. -/
inductive Operation
  | join (config : Config) (selector : Selector) (generator : Nat)
  | choose (name : Nat) (selector : Selector)
  | send (name : Nat) (request : Request) (handler : Handler)
  | finish (name : Nat)
  | drop (name : Nat)
  | arrive (number : Nat) (reaction : Reaction)

/-- One completed operation. -/
def perform (company : Company ρ) : Operation → Company ρ
  | .join config selector generator => company.join config selector generator
  | .choose name selector => company.choose name selector
  | .send name request handler => (company.send name request handler).2
  | .finish name => (company.finish name).2
  | .drop name => company.drop name
  | .arrive number reaction => company.arrive number reaction

/-- Completed operations, one after the other. -/
def run (company : Company ρ) (operations : List Operation) : Company ρ :=
  operations.foldl perform company

omit [Responder ρ]

-----------------------------------------------------------------------------------------
-- Who waits
-----------------------------------------------------------------------------------------

/-- A request of the partner waits under the sequence number on the connection. -/
def Waits (company : Company ρ) (name number : Nat) (sequence : UInt16) : Prop :=
  ∃ partner,
    company.partners.get? name = some partner
    ∧ partner.process.holds number sequence = true

/-- For a partner that is about to send on a connection the sequence number is taken: somebody
waits for it there, or the partner itself does on any connection.
-/
def Taken (company : Company ρ) (name number : Nat) (sequence : UInt16) : Prop :=
  (∃ other, company.Waits other number sequence)
  ∨ ∃ elsewhere, company.Waits name elsewhere sequence

/-- The dispatchers of all connections. -/
def dispatchers (company : Company ρ) : List Dispatcher :=
  company.lines.map Line.dispatcher

/-- Partners sit on their connections and stay out of each other's way, and each number that is
registered is one that some partner waits for.
-/
structure Coherent (company : Company ρ) : Prop where
  numbered
    : ∀ {name partner}, company.partners.get? name = some partner → name < company.fresh
  seated
    : ∀ {name partner},
        company.partners.get? name = some partner
        → partner.process.Seated company.dispatchers
  apart
    : ∀ {one other partner neighbour},
        company.partners.get? one = some partner
        → company.partners.get? other = some neighbour
        → one ≠ other
        → partner.process.Apart neighbour.process
  awaited
    : ∀ {number line sequence},
        company.lines[number]? = some line
        → line.dispatcher.isRegistered sequence = true
        → ∃ name, company.Waits name number sequence

theorem founded_coherent (connections : List (Connection ρ))
    (generators : Nat → SequenceGenerator)
    : (founded connections generators).Coherent where
  numbered found := by cases found
  seated found := by cases found
  apart found := by cases found
  awaited := by
    intro number line sequence found registered
    obtain ⟨connection, _, rfl⟩ : ∃ connection, connections[number]? = some connection
        ∧ ({ connection } : Line ρ) = line := by
      simpa [founded] using found
    cases registered

/-- In a coherent company a number is registered exactly while somebody waits for it. -/
theorem Coherent.isRegistered_iff {company : Company ρ} (coherent : company.Coherent)
    {number : Nat} {line : Line ρ} (found : company.lines[number]? = some line)
    (sequence : UInt16)
    : line.dispatcher.isRegistered sequence = true
      ↔ ∃ name, company.Waits name number sequence := by
  refine ⟨coherent.awaited found, ?_⟩
  rintro ⟨name, partner, member, held⟩
  obtain ⟨window, opened, waits⟩ : ∃ window, partner.process.windows.get? number = some window
      ∧ window.isOutstanding sequence = true := by
    simpa [Process.holds, Option.any_eq_true] using held
  obtain ⟨dispatcher, listed, serves⟩ := coherent.seated member number window opened
  obtain rfl : line.dispatcher = dispatcher := by
    simpa [dispatchers, found] using listed
  rw [Dispatcher.isRegistered, Table.contains, serves.anchored sequence waits]
  rfl

-----------------------------------------------------------------------------------------
-- What the others wait for
-----------------------------------------------------------------------------------------

variable {company : Company ρ} {name : Nat} {partner : Partner}

/-- Who other than a partner is led to waits for it. -/
theorem Coherent.spared_awaited (coherent : company.Coherent)
    (member : company.partners.get? name = some partner) {number : Nat}
    {routes : UInt16 → Option Nat} {sequence : UInt16}
    (listed : (partner.process.spared (company.hubOf partner).routing)[number]? = some routes)
    (led : routes sequence ≠ none)
    : ∃ other, other ≠ name ∧ company.Waits other number sequence := by
  simp only [Process.spared, Hub.routing, Hub.dispatchers, hubOf, List.getElem?_mapIdx,
    List.getElem?_map, Option.map_map, Option.map_eq_some_iff] at listed
  obtain ⟨line, found, rfl⟩ := listed
  dsimp only [Function.comp_apply] at led
  split at led
  · exact absurd rfl led
  · next not_held =>
      have registered : line.dispatcher.isRegistered sequence = true :=
        Option.isSome_iff_ne_none.mpr led
      obtain ⟨other, neighbour, known, held⟩ := coherent.awaited found registered
      refine ⟨other, ?_, neighbour, known, held⟩
      rintro rfl
      obtain rfl := Option.some.inj (member.symm.trans known)
      exact not_held held

/-- A partner's turn keeps a company coherent, if the partner holds what it borrowed. -/
theorem Coherent.update (coherent : company.Coherent)
    (member : company.partners.get? name = some partner) {hub : Hub ρ} {process : Process}
    (turn : Process.Turn (company.hubOf partner) hub partner.process process)
    (borrows : process.Borrows (partner.process.spared (company.hubOf partner).routing) hub.routing)
    : (company.update name partner hub process).Coherent := by
  have partners (other : Nat)
      : (company.update name partner hub process).partners.get? other
        = if other = name then some { partner with process, selector := hub.selector }
          else company.partners.get? other :=
    Table.get?_insert _ _ _ _
  refine ⟨?_, ?_, ?_, ?_⟩
  · intro other listed known
    rw [partners] at known
    split at known
    · next same =>
        subst same
        exact coherent.numbered member
    · exact coherent.numbered known
  · intro other listed known
    rw [partners] at known
    split at known
    · cases known
      exact turn.seated
    · next foreign =>
        exact (coherent.seated known).spared turn.yields (coherent.apart known member foreign)
  · intro one other first second known known' foreign
    rw [partners] at known known'
    split at known
    · next same =>
        cases known
        rw [if_neg fun both => foreign (same.trans both.symm)] at known'
        have apart := coherent.apart known' member fun both => foreign (same.trans both.symm)
        exact (apart.yields turn.yields (coherent.seated known')).symm
    · next unlike =>
        split at known'
        · cases known'
          exact (coherent.apart known member unlike).yields turn.yields (coherent.seated known)
        · exact coherent.apart known known' foreign
  · intro number line sequence found registered
    change hub.lines[number]? = some line at found
    by_cases held : process.holds number sequence = true
    · exact ⟨name, _, (partners name).trans (if_pos rfl), held⟩
    · have is : hub.routing[number]? = some line.dispatcher.routes.get? :=
        Process.routing_of_line found
      have within := (List.getElem?_eq_some_iff.mp is).1
      rw [borrows.length] at within
      have was := List.getElem?_eq_getElem within
      have kept := (borrows.lends was is).kept sequence (by simpa using held)
      have led : line.dispatcher.routes.get? sequence ≠ none :=
        Option.isSome_iff_ne_none.mp registered
      obtain ⟨other, foreign, neighbour, known, waits⟩ :=
        coherent.spared_awaited member was (kept ▸ led)
      exact ⟨other, neighbour, (partners other).trans ((if_neg foreign).trans known), waits⟩

-----------------------------------------------------------------------------------------
-- What every operation keeps
-----------------------------------------------------------------------------------------

/-- A partner that goes away gives all its numbers back. -/
theorem Coherent.drop (coherent : company.Coherent) (name : Nat)
    : (company.drop name).Coherent := by
  unfold Company.drop
  cases member : company.partners.get? name with
  | none => exact coherent
  | some partner =>
      have seated : partner.process.Seated (company.hubOf partner).dispatchers :=
        coherent.seated member
      obtain ⟨yields, _⟩ := Process.drop_yields seated
      have routing := (partner.process.borrows_spared (company.hubOf partner).routing).drop
      refine ⟨?_, ?_, ?_, ?_⟩
      · intro other listed known
        exact coherent.numbered (Table.of_get?_erase known).2
      · intro other listed known
        obtain ⟨foreign, known⟩ := Table.of_get?_erase known
        exact (coherent.seated known).spared yields (coherent.apart known member foreign)
      · intro one other first second known known' foreign
        exact coherent.apart (Table.of_get?_erase known).2 (Table.of_get?_erase known').2 foreign
      · intro number line sequence found registered
        have still : (partner.process.drop (company.hubOf partner)).line? number = some line :=
          found
        have is := Process.routing_of_line still
        rw [routing] at is
        obtain ⟨other, foreign, neighbour, known, waits⟩ :=
          coherent.spared_awaited member is (Option.isSome_iff_ne_none.mp registered)
        exact ⟨other, neighbour, by rwa [Table.get?_erase, if_neg foreign], waits⟩

/-- A new partner has no windows yet, and so stays out of everyone's way. -/
theorem Coherent.join (coherent : company.Coherent) (config : Config) (selector : Selector)
    (generator : Nat)
    : (company.join config selector generator).Coherent := by
  let newcomer : Partner := { process := { config }, selector, generator }
  have partners (other : Nat)
      : (company.join config selector generator).partners.get? other
        = if other = company.fresh then some newcomer else company.partners.get? other :=
    Table.get?_insert company.partners company.fresh newcomer other
  refine ⟨?_, ?_, ?_, ?_⟩
  · intro other listed known
    change other < company.fresh + 1
    rw [partners] at known
    split at known
    · omega
    · exact Nat.lt_succ_of_lt (coherent.numbered known)
  · intro other listed known
    rw [partners] at known
    split at known
    · cases known
      intro line window opened
      cases opened
    · exact coherent.seated known
  · intro one other first second known known' foreign
    rw [partners] at known known'
    split at known
    · cases known
      intro line inbox held
      cases held
    · split at known'
      · cases known'
        intro line inbox held same
        cases same
      · exact coherent.apart known known' foreign
  · intro number line sequence found registered
    obtain ⟨other, neighbour, known, waits⟩ := coherent.awaited found registered
    have old : other ≠ company.fresh := Nat.ne_of_lt (coherent.numbered known)
    exact ⟨other, neighbour, (partners other).trans ((if_neg old).trans known), waits⟩

/-- How a partner chooses connections does not matter for who waits. -/
theorem Coherent.choose (coherent : company.Coherent) (name : Nat) (selector : Selector)
    : (company.choose name selector).Coherent := by
  unfold Company.choose
  cases member : company.partners.get? name with
  | none => exact coherent
  | some partner =>
      have same {other : Nat} {listed : Partner}
          (known : (company.partners.insert name { partner with selector }).get? other
            = some listed)
          : ∃ old, company.partners.get? other = some old ∧ old.process = listed.process := by
        rw [Table.get?_insert] at known
        split at known
        · next here =>
            cases known
            subst here
            exact ⟨partner, member, rfl⟩
        · exact ⟨listed, known, rfl⟩
      refine ⟨?_, ?_, ?_, ?_⟩
      · intro other listed known
        obtain ⟨_, old, _⟩ := same known
        exact coherent.numbered old
      · intro other listed known
        obtain ⟨_, old, process⟩ := same known
        exact process ▸ coherent.seated old
      · intro one other first second known known' foreign
        obtain ⟨_, old, process⟩ := same known
        obtain ⟨_, old', process'⟩ := same known'
        exact process ▸ process' ▸ coherent.apart old old' foreign
      · intro number line sequence found registered
        obtain ⟨other, neighbour, known, waits⟩ := coherent.awaited found registered
        by_cases here : other = name
        · subst here
          obtain rfl := Option.some.inj (member.symm.trans known)
          exact ⟨other, { partner with selector }, Table.get?_insert_self _ _ _, waits⟩
        · exact ⟨other, neighbour, by rwa [Table.get?_insert, if_neg here], waits⟩

/-- What arrives from elsewhere reaches no dispatcher before somebody reads it. -/
theorem Coherent.arrive (coherent : company.Coherent) (number : Nat) (reaction : Reaction)
    : (company.arrive number reaction).Coherent := by
  have same (other : Nat)
      : ((company.arrive number reaction).lines[other]?).map Line.dispatcher
        = (company.lines[other]?).map Line.dispatcher := by
    simp only [Company.arrive, List.getElem?_modify]
    cases company.lines[other]? with
    | none => rfl
    | some line => by_cases here : number = other <;> simp [here]
  have dispatchers : (company.arrive number reaction).dispatchers = company.dispatchers := by
    refine List.ext_getElem? fun other => ?_
    simpa only [Company.dispatchers, List.getElem?_map] using same other
  refine ⟨coherent.numbered, ?_, coherent.apart, ?_⟩
  · intro other listed known
    exact dispatchers ▸ coherent.seated known
  · intro other line sequence found registered
    have known := same other
    rw [found, Option.map_some, eq_comm, Option.map_eq_some_iff] at known
    obtain ⟨before, listed, unchanged⟩ := known
    exact coherent.awaited listed (unchanged ▸ registered)

variable [Responder ρ]

theorem Coherent.send (coherent : company.Coherent) (name : Nat) (request : Request)
    (handler : Handler)
    : (company.send name request handler).2.Coherent := by
  unfold Company.send
  cases member : company.partners.get? name with
  | none => exact coherent
  | some partner =>
      dsimp only
      generalize done : Process.send (company.hubOf partner) partner.process request handler
        = outcome
      obtain ⟨result, hub, process⟩ := outcome
      exact coherent.update member (Process.send_turn (coherent.seated member) done).1
        ((partner.process.borrows_spared _).send done)

theorem Coherent.finish (coherent : company.Coherent) (name : Nat)
    : (company.finish name).2.Coherent := by
  unfold Company.finish
  cases member : company.partners.get? name with
  | none => exact coherent
  | some partner =>
      dsimp only
      generalize done : Process.finish (company.hubOf partner) partner.process = outcome
      obtain ⟨result, hub, process⟩ := outcome
      exact coherent.update member (Process.finish_turn (coherent.seated member) done).1
        ((partner.process.borrows_spared _).finish done)

/-- Every operation keeps a company coherent, by cases on it. -/
theorem Coherent.perform (coherent : company.Coherent) (operation : Operation)
    : (company.perform operation).Coherent := by
  cases operation with
  | join config selector generator => exact coherent.join config selector generator
  | choose name selector => exact coherent.choose name selector
  | send name request handler => exact coherent.send name request handler
  | finish name => exact coherent.finish name
  | drop name => exact coherent.drop name
  | arrive number reaction => exact coherent.arrive number reaction

/-- Any history keeps a company coherent, by induction on its operations. -/
theorem Coherent.run (coherent : company.Coherent) (operations : List Operation)
    : (company.run operations).Coherent := by
  induction operations generalizing company with
  | nil => exact coherent
  | cons operation rest ih => exact ih (coherent.perform operation)

end Company

end MeshControl.Link
