import MeshControl.Link.Group
import MeshControl.Proofs.Link.Turn

/-! Processes side by side. Whether they share the dispatchers of their connections or have their
own, the turn of one leaves the seats of all others as they were.
-/

namespace MeshControl.Link.Group

variable {ρ : Type}

-----------------------------------------------------------------------------------------
-- Members and their dispatchers
-----------------------------------------------------------------------------------------

/-- The dispatchers that a member works with. -/
def dispatchersOf (group : Group ρ) (member : Member) : List Dispatcher :=
  match group.sharing with
  | .everything => group.hub.dispatchers
  | _ => member.dispatchers

/-- Connections with as many other dispatchers have exactly these. -/
theorem map_dispatcher_withDispatchers {lines : List (Line ρ)}
    {dispatchers : List Dispatcher} (sized : dispatchers.length = lines.length)
    : (withDispatchers lines dispatchers).map Line.dispatcher = dispatchers := by
  rw [withDispatchers, ← List.map_uncurry_zip_eq_zipWith, List.map_map]
  exact List.map_snd_zip (Nat.le_of_eq sized)

/-- A member acts on its own dispatchers. -/
theorem dispatchers_hubOf {group : Group ρ} {member : Member}
    (sized : member.dispatchers.length = group.hub.lines.length)
    : (group.hubOf member).dispatchers = group.dispatchersOf member := by
  unfold hubOf dispatchersOf
  cases group.sharing with
  | everything => rfl
  | sequences => exact map_dispatcher_withDispatchers sized
  | nothing => exact map_dispatcher_withDispatchers sized

theorem length_dispatchersOf {group : Group ρ} {member : Member}
    (sized : member.dispatchers.length = group.hub.lines.length)
    : (group.dispatchersOf member).length = group.hub.lines.length := by
  unfold dispatchersOf
  cases group.sharing with
  | everything => exact List.length_map _
  | sequences => exact sized
  | nothing => exact sized

theorem journal_hubOf (group : Group ρ) (member : Member)
    : (group.hubOf member).journal = group.hub.journal := by
  unfold hubOf
  cases group.sharing <;> rfl

theorem journal_update (group : Group ρ) (number : Nat) (hub : Hub ρ) (process : Process)
    : (group.update number hub process).hub.journal = hub.journal := by
  unfold update
  cases group.sharing <;> rfl

/-- A member after its turn. -/
def acted (hub : Hub ρ) (process : Process) : Member :=
  { process, sequences := hub.sequences, dispatchers := hub.dispatchers }

theorem get?_update (group : Group ρ) (number : Nat) (hub : Hub ρ) (process : Process)
    (other : Nat)
    : (group.update number hub process).members.get? other
      = if other = number then some (acted hub process) else group.members.get? other :=
  Table.get?_insert group.members number (acted hub process) other

theorem dispatchersOf_acted (group : Group ρ) (number : Nat) (hub : Hub ρ)
    (process : Process)
    : (group.update number hub process).dispatchersOf (acted hub process)
      = hub.dispatchers := by
  unfold update dispatchersOf
  cases group.sharing <;> rfl

theorem length_update {group : Group ρ} {hub : Hub ρ} (number : Nat) (process : Process)
    (sized : hub.lines.length = group.hub.lines.length)
    : (group.update number hub process).hub.lines.length = group.hub.lines.length := by
  unfold update
  cases group.sharing with
  | everything => exact sized
  | sequences => simp [withDispatchers, sized]
  | nothing => simp [withDispatchers, sized]

/-- The members of a group sit on their connections and stay out of each other's way. -/
structure Orderly (group : Group ρ) : Prop where
  numbered
    : ∀ {number member}, group.members.get? number = some member → number < group.fresh
  sized
    : ∀ {number member},
        group.members.get? number = some member
        → member.dispatchers.length = group.hub.lines.length
  seated
    : ∀ {number member},
        group.members.get? number = some member
        → member.process.Seated (group.dispatchersOf member)
  apart
    : ∀ {one other member neighbour},
        group.sharing = .everything
        → group.members.get? one = some member
        → group.members.get? other = some neighbour
        → one ≠ other
        → member.process.Apart neighbour.process

theorem Orderly.seated_hubOf {group : Group ρ} (orderly : group.Orderly) {number : Nat}
    {member : Member} (found : group.members.get? number = some member)
    : member.process.Seated (group.hubOf member).dispatchers := by
  rw [dispatchers_hubOf (orderly.sized found)]
  exact orderly.seated found

/-- What a member's turn leaves of the dispatchers of another member. -/
theorem Orderly.neighbour {group : Group ρ} (orderly : group.Orderly)
    {number other : Nat} {member neighbour : Member}
    (found : group.members.get? number = some member)
    (listed : group.members.get? other = some neighbour) (foreign : other ≠ number)
    {hub : Hub ρ} {process : Process}
    (yields
      : member.process.Yields process (group.hubOf member).dispatchers hub.dispatchers)
    : neighbour.process.Seated ((group.update number hub process).dispatchersOf neighbour)
      ∧ (group.sharing = .everything → neighbour.process.Apart process) := by
  have seated := orderly.seated listed
  rw [dispatchers_hubOf (orderly.sized found)] at yields
  unfold update dispatchersOf
  cases sharing : group.sharing with
  | everything =>
      simp only [dispatchersOf, sharing] at seated yields
      have apart := orderly.apart sharing listed found foreign
      exact ⟨seated.spared yields apart, fun _ => apart.yields yields seated⟩
  | sequences =>
      simp only [dispatchersOf, sharing] at seated
      exact ⟨seated, fun impossible => nomatch impossible⟩
  | nothing =>
      simp only [dispatchersOf, sharing] at seated
      exact ⟨seated, fun impossible => nomatch impossible⟩

theorem Orderly.length_hub {group : Group ρ} (orderly : group.Orderly) {number : Nat}
    {member : Member} (found : group.members.get? number = some member) {hub : Hub ρ}
    {process : Process}
    (yields
      : member.process.Yields process (group.hubOf member).dispatchers hub.dispatchers)
    : hub.lines.length = group.hub.lines.length := by
  have same := yields.length
  rw [dispatchers_hubOf (orderly.sized found),
    length_dispatchersOf (orderly.sized found)] at same
  rw [← same, Hub.dispatchers, List.length_map]

/-- A turn of one member keeps a group orderly. -/
theorem Orderly.update {group : Group ρ} (orderly : group.Orderly) {number : Nat}
    {member : Member} (found : group.members.get? number = some member) {hub : Hub ρ}
    {process : Process} (turn : Process.Turn (group.hubOf member) hub member.process process)
    : (group.update number hub process).Orderly := by
  have lengths := orderly.length_hub found turn.yields
  refine ⟨?_, ?_, ?_, ?_⟩
  · intro other listed held
    rw [get?_update] at held
    split at held
    · next same =>
        subst same
        exact orderly.numbered found
    · exact orderly.numbered held
  · intro other listed held
    rw [length_update number process lengths]
    rw [get?_update] at held
    split at held
    · cases held
      rw [acted, Hub.dispatchers, List.length_map, lengths]
    · exact orderly.sized held
  · intro other listed held
    rw [get?_update] at held
    split at held
    · cases held
      rw [dispatchersOf_acted]
      exact turn.seated
    · next foreign => exact (orderly.neighbour found held foreign turn.yields).1
  · intro one other first second sharing held held' foreign
    change group.sharing = .everything at sharing
    rw [get?_update] at held held'
    split at held
    · next same =>
        cases held
        subst same
        rw [if_neg (Ne.symm foreign)] at held'
        exact ((orderly.neighbour found held' (Ne.symm foreign) turn.yields).2 sharing).symm
    · next unlike =>
        split at held'
        · cases held'
          exact (orderly.neighbour found held unlike turn.yields).2 sharing
        · exact orderly.apart sharing held held' foreign

/-- A member that goes away keeps a group orderly. -/
theorem Orderly.drop {group : Group ρ} (orderly : group.Orderly) (number : Nat)
    : (group.drop number).Orderly := by
  unfold Group.drop
  cases found : group.members.get? number with
  | none => exact orderly
  | some member =>
      obtain ⟨yields, _⟩ := Process.drop_yields (orderly.seated_hubOf found)
      have lengths := orderly.length_hub found yields
      have left {other : Nat} {listed : Member}
          (held : ((group.update number (member.process.drop (group.hubOf member))
            member.process).members.erase number).get? other = some listed)
          : other ≠ number ∧ group.members.get? other = some listed := by
        obtain ⟨foreign, held⟩ := Table.of_get?_erase held
        rw [get?_update, if_neg foreign] at held
        exact ⟨foreign, held⟩
      refine ⟨?_, ?_, ?_, ?_⟩
      · intro other listed held
        exact orderly.numbered (left held).2
      · intro other listed held
        exact (orderly.sized (left held).2).trans
          (length_update number member.process lengths).symm
      · intro other listed held
        obtain ⟨foreign, known⟩ := left held
        exact (orderly.neighbour found known foreign yields).1
      · intro one other first second sharing held held' foreign
        exact orderly.apart sharing (left held).2 (left held').2 foreign

/-- A new member has no windows yet, and so stays out of everyone's way. -/
theorem Orderly.add {group : Group ρ} (orderly : group.Orderly) (config : Config)
    : (group.add config).2.Orderly := by
  let newcomer : Member :=
    { process := { config }
      sequences := {}
      dispatchers := group.hub.lines.map fun _ => {} }
  have members (other : Nat) := Table.get?_insert group.members group.fresh newcomer other
  refine ⟨?_, ?_, ?_, ?_⟩
  · intro other listed held
    change other < group.fresh + 1
    rcases Nat.lt_or_ge other group.fresh with known | _
    · omega
    · change (group.members.insert group.fresh newcomer).get? other = _ at held
      rw [members] at held
      split at held
      · omega
      · have := orderly.numbered held
        omega
  · intro other listed held
    change (group.members.insert group.fresh newcomer).get? other = _ at held
    rw [members] at held
    split at held
    · cases held
      exact List.length_map _
    · exact orderly.sized held
  · intro other listed held
    change (group.members.insert group.fresh newcomer).get? other = _ at held
    rw [members] at held
    split at held
    · cases held
      intro line window opened
      cases opened
    · exact orderly.seated held
  · intro one other first second sharing held held' foreign
    change (group.members.insert group.fresh newcomer).get? one = _ at held
    change (group.members.insert group.fresh newcomer).get? other = _ at held'
    rw [members] at held held'
    split at held
    · cases held
      intro line inbox known
      cases known
    · split at held'
      · cases held'
        intro line inbox known same
        cases same
      · exact orderly.apart sharing held held' foreign

/-- What arrives from elsewhere reaches no dispatcher before somebody reads it. -/
theorem Orderly.inject {group : Group ρ} (orderly : group.Orderly) (number : Nat)
    (reaction : Reaction)
    : (group.inject number reaction).Orderly := by
  have dispatchers : (group.inject number reaction).hub.dispatchers
      = group.hub.dispatchers := by
    apply List.ext_getElem?
    intro other
    simp only [Group.inject, Hub.inject, Hub.modifyLine, Hub.dispatchers, List.getElem?_map,
      List.getElem?_modify]
    cases group.hub.lines[other]? with
    | none => rfl
    | some line => by_cases same : number = other <;> simp [same]
  have lengths : (group.inject number reaction).hub.lines.length
      = group.hub.lines.length := by
    simp [Group.inject, Hub.inject, Hub.modifyLine]
  have same (member : Member)
      : (group.inject number reaction).dispatchersOf member
        = group.dispatchersOf member := by
    unfold dispatchersOf
    rw [dispatchers]
    rfl
  refine ⟨orderly.numbered, ?_, ?_, orderly.apart⟩
  · intro other listed held
    rw [lengths]
    exact orderly.sized held
  · intro other listed held
    rw [same]
    exact orderly.seated held

end MeshControl.Link.Group
