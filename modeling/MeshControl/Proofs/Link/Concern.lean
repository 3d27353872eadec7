import MeshControl.Proofs.Link.Turn

/-! What a batch writes down. Every event of a batch is about one of the batch's own requests: its
bytes went out, or it ended, and if with an answer, then with one that carries its number and that
it accepts.
-/

namespace MeshControl.Link

open Scp

-----------------------------------------------------------------------------------------
-- Events of promises
-----------------------------------------------------------------------------------------

/-- The event is about the request of this promise. -/
def Event.Concerns (tag : UInt8) (promise : Promise) : Event → Prop
  | .transmitted _ datagram _ => datagram = promise.request.datagram tag
  | .accepted request response audience =>
      request = promise.request
      ∧ audience = promise.handler.audience
      ∧ request.sequence = some response.sequence
      ∧ request.accepts response.result = true
  | .failed request _ audience =>
      request = promise.request ∧ audience = promise.handler.audience

/-- More was written down, and all of it is about promises of one kind. -/
def Extends (tag : UInt8) (mine : Promise → Prop) (before after : List Event) : Prop :=
  ∃ events,
    after = before ++ events
    ∧ ∀ event ∈ events, ∃ promise, mine promise ∧ event.Concerns tag promise

section Extends

variable {tag : UInt8} {mine : Promise → Prop} {before middle after : List Event}

theorem Extends.refl (tag : UInt8) (mine : Promise → Prop) (journal : List Event)
    : Extends tag mine journal journal :=
  ⟨[], (List.append_nil _).symm, by simp⟩

theorem Extends.trans (first : Extends tag mine before middle)
    (second : Extends tag mine middle after)
    : Extends tag mine before after := by
  obtain ⟨early, written, ours⟩ := first
  obtain ⟨late, later, also_ours⟩ := second
  refine ⟨early ++ late, by rw [later, written, List.append_assoc], ?_⟩
  intro event member
  rcases List.mem_append.mp member with one | other
  · exact ours event one
  · exact also_ours event other

end Extends

/-- A lawful end is told by events about its own request. -/
theorem Settlement.Lawful.concerns {settlement : Settlement} (lawful : settlement.Lawful)
    (tag : UInt8) {event : Event} (told : event ∈ settlement.events)
    : event.Concerns tag settlement.promise := by
  obtain ⟨promise, outcome⟩ := settlement
  cases outcome with
  | answered response =>
      obtain rfl := List.mem_singleton.mp told
      exact ⟨rfl, rfl, lawful.1, lawful.2.1⟩
  | rejected response error =>
      rcases List.mem_cons.mp told with rfl | last
      · exact ⟨rfl, rfl, lawful.1, lawful.2.1⟩
      · obtain rfl := List.mem_singleton.mp last
        exact ⟨rfl, rfl⟩
  | failed error =>
      obtain rfl := List.mem_singleton.mp told
      exact ⟨rfl, rfl⟩

namespace Ledger

variable {tag : UInt8} {mine : Promise → Prop} {before after : Ledger} {events : List Event}
  {settled : List Settlement}

/-- Promises that become settlements are told of, and no other ones. -/
theorem Settles.extends (settles : Settles tag before after events settled)
    (ours : ∀ promise ∈ before.promises, mine promise)
    : Extends tag mine before.journal after.journal := by
  refine ⟨events, settles.journal, fun event member => ?_⟩
  cases event with
  | transmitted connection datagram refusal =>
      have sent : datagram ∈ transmissions events :=
        List.mem_filterMap.mpr ⟨_, member, rfl⟩
      obtain ⟨promise, promised, same⟩ := settles.repeats datagram sent
      exact ⟨promise, ours promise promised, same.symm⟩
  | accepted | failed =>
      have shown : _ ∈ Link.told events := List.mem_filter.mpr ⟨member, rfl⟩
      obtain ⟨settlement, listed, told⟩ := List.mem_flatMap.mp (settles.told ▸ shown)
      have promised : settlement.promise ∈ before.promises :=
        settles.promises.mem_iff.mpr
          (List.mem_append_left _ (List.mem_map_of_mem listed))
      exact ⟨_, ours _ promised, (settles.lawful settlement listed).concerns tag told⟩

/-- A send tells of older promises, and of its own. -/
theorem Sends.extends {promise : Promise} {result : Except Halt Unit} {tried : List Event}
    {taken : List Promise}
    (sends : Sends tag promise before after result events settled tried taken)
    (ours : ∀ promise ∈ before.promises, mine promise) (own : mine promise)
    : Extends tag mine before.journal after.journal
      ∧ ∀ promise ∈ after.promises, mine promise := by
  obtain ⟨⟨middle, settles, takes⟩, offered⟩ := sends
  have still : ∀ promise ∈ middle.promises, mine promise := fun promise waits =>
    ours promise (settles.subset waits)
  have trying : Extends tag mine middle.journal after.journal := by
    refine ⟨tried, takes.journal, fun event member => ⟨promise, own, ?_⟩⟩
    cases offered with
    | withheld => cases member
    | refused | sent =>
        obtain rfl := List.mem_singleton.mp member
        rfl
  refine ⟨(settles.extends ours).trans trying, fun other waits => ?_⟩
  rcases List.mem_append.mp (takes.promises.mem_iff.mpr waits) with old | new
  · exact still other old
  · cases offered with
    | withheld => cases new
    | refused => cases new
    | sent => exact List.mem_singleton.mp new ▸ own

end Ledger

-----------------------------------------------------------------------------------------
-- Batches
-----------------------------------------------------------------------------------------

variable {ρ : Type} [Responder ρ] {mine : Promise → Prop} {hub after : Hub ρ}
  {process later : Process} {result : Except Halt Unit}

/-- Requests of one kind are sent one after another, by induction on their number. -/
theorem Process.sendAll_extends {orders : Nat → Order} (index count : Nat)
    (ordered
      : ∀ place request sequence,
          place < index + count
          → (orders place).request = .ok request
          → mine ⟨request.numbered sequence, (orders place).handler⟩)
    (seated : process.Seated hub.dispatchers)
    (ours : ∀ promise ∈ process.promises, mine promise)
    (done : Process.sendAll orders hub process index count = (result, after, later))
    : Extends process.config.tag mine hub.journal.toList after.journal.toList
      ∧ later.Seated after.dispatchers
      ∧ later.config = process.config
      ∧ ∀ promise ∈ later.promises, mine promise := by
  induction count generalizing hub process index with
  | zero =>
      obtain ⟨rfl, rfl, rfl⟩ : .ok () = result ∧ hub = after ∧ process = later := by
        simpa [Process.sendAll] using done
      exact ⟨.refl _ _ _, seated, rfl, ours⟩
  | succ count ih =>
      rw [Process.sendAll] at done
      split at done
      · obtain ⟨rfl, rfl, rfl⟩ := by simpa using done
        exact ⟨.refl _ _ _, seated, rfl, ours⟩
      · next request made =>
          generalize sent
            : Process.send hub process request (orders index).handler = outcome at done
          obtain ⟨verdict, middle, between⟩ := outcome
          obtain ⟨turn, _, sequence, events, settled, tried, taken, sends⟩ :=
            Process.send_turn seated sent
          obtain ⟨written, still⟩ :=
            sends.extends ours (ordered index request sequence (by omega) made)
          cases verdict with
          | error error =>
              obtain ⟨rfl, rfl, rfl⟩ := by simpa using done
              exact ⟨written, turn.seated, turn.config, still⟩
          | ok =>
              obtain ⟨more, seated_still, config, all⟩ := ih (index + 1)
                (fun place request sequence within =>
                  ordered place request sequence (by omega))
                turn.seated still done
              rw [turn.config] at more config
              exact ⟨written.trans more, seated_still, config, all⟩

/-- A batch writes down what happens to its own requests, and nothing else. -/
theorem Hub.batch_extends {config : Config} {count : Nat} {orders : Nat → Order}
    (ordered
      : ∀ index request sequence,
          index < count
          → (orders index).request = .ok request
          → mine ⟨request.numbered sequence, (orders index).handler⟩)
    (done : hub.batch config count orders = (result, after))
    : Extends config.tag mine hub.journal.toList after.journal.toList := by
  unfold Hub.batch at done
  generalize sent : Process.sendAll orders hub { config } 0 count = outcome at done
  obtain ⟨verdict, middle, between⟩ := outcome
  have nowhere : Process.Seated { config } hub.dispatchers := by
    intro number window found
    cases found
  have nothing : ∀ promise ∈ Process.promises { config }, mine promise := by
    intro promise member
    cases member
  obtain ⟨written, seated, same, ours⟩ :=
    Process.sendAll_extends 0 count
      (fun index request sequence within => ordered index request sequence (by omega))
      nowhere nothing sent
  cases verdict with
  | error error =>
      obtain ⟨rfl, rfl⟩ := by simpa using done
      rwa [(Process.drop_yields seated).2]
  | ok =>
      dsimp only [Process.finishAndCheck] at done
      generalize waited : Process.finish middle between = ending at done
      obtain ⟨verdict, last, finished⟩ := ending
      obtain ⟨turn, _, ⟨events, settled, settles⟩, _⟩ := Process.finish_turn seated waited
      rw [same] at settles
      have all := written.trans (settles.extends ours)
      cases verdict with
      | error | ok =>
          obtain ⟨rfl, rfl⟩ := by simpa using done
          rwa [(Process.drop_yields turn.seated).2]

/-- So does a request that is sent alone. -/
theorem Hub.execute_extends {config : Config} {request : Request}
    {result : Except Halt Response}
    (ordered : ∀ sequence, mine ⟨request.numbered sequence, { audience := .caller }⟩)
    (done : hub.execute config request = (result, after))
    : Extends config.tag mine hub.journal.toList after.journal.toList := by
  have alone : ∀ (index : Nat) (made : Request) (sequence : UInt16),
      index < 1
      → (.ok request : Except Halt Request) = .ok made
      → mine ⟨made.numbered sequence, { audience := .caller }⟩ := by
    rintro _ made sequence _ ⟨⟩
    exact ordered sequence
  unfold Hub.execute Hub.exchange Hub.apart at done
  dsimp only at done
  generalize ran : Hub.batch { hub with journal := #[] } config 1 _ = outcome at done
  obtain ⟨verdict, last⟩ := outcome
  obtain ⟨rfl, rfl⟩ := Prod.mk.inj done
  obtain ⟨events, written, ours⟩ := Hub.batch_extends alone ran
  refine ⟨events, ?_, ours⟩
  simpa using written

end MeshControl.Link
