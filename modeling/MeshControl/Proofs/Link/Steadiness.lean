import MeshControl.Proofs.Link.Lending

/-! Selectors that stay as they are. A steady selector chooses the same connection for a chip until
it is told something new; a batch leaves it as it was, and all sequence numbers leading where they
led.
-/

namespace MeshControl.Link

open Scp

/-- The selector stays as it is, whatever it chooses for; so it always chooses the same. -/
def Selector.Steady (selector : Selector) : Prop :=
  ∀ destination, (selector.select destination).2 = selector

/-- A selector by place is steady. -/
theorem Selector.steady_byPlace (directory : Directory) (topology : Option Topology)
    : (byPlace directory topology).Steady :=
  fun _ => rfl

/-- A steady selector that is told the size of its machine is still steady. -/
theorem Selector.Steady.setTopology {selector : Selector} (steady : selector.Steady)
    (machine : Topology)
    : (selector.setTopology machine).Steady := by
  cases selector with
  | fixed => exact steady
  | roundRobin => exact steady
  | byPlace directory topology => exact steady_byPlace directory (some machine)

variable {ρ : Type} {hub : Hub ρ}

namespace Process

/-- Going away chooses nothing. -/
theorem selector_drop (hub : Hub ρ) (process : Process)
    : (process.drop hub).selector = hub.selector := by
  unfold drop
  induction process.windows.entries generalizing hub with
  | nil => rfl
  | cons entry rest ih => exact (ih _).trans rfl

variable [Responder ρ]

/-- A send leaves a steady selector as it is. -/
theorem selector_send (steady : hub.selector.Steady) (process : Process) (request : Request)
    (handler : Handler)
    : (Process.send hub process request handler).2.1.selector = hub.selector := by
  unfold Process.send
  split
  · rfl
  · split
    · rfl
    · dsimp only
      split
      · exact steady _
      · generalize process.engage _ _ = engagement
        obtain ⟨window, engaged, later⟩ := engagement
        dsimp only
        split <;> exact steady _

theorem selector_finish (hub : Hub ρ) (process : Process)
    : (Process.finish hub process).2.1.selector = hub.selector := by
  unfold Process.finish
  split
  · rfl
  · refine List.foldlRecOn (motive := fun state : Hub ρ × Process =>
      state.1.selector = hub.selector) _ _ rfl ?_
    intro state same number _
    refine Eq.trans ?_ same
    unfold finishWindow
    split <;> rfl

/-- Waiting chooses nothing. -/
theorem selector_finishAndCheck (hub : Hub ρ) (process : Process)
    : (Process.finishAndCheck hub process).2.1.selector = hub.selector := by
  have finishes := selector_finish hub process
  unfold Process.finishAndCheck
  generalize Process.finish hub process = outcome at finishes
  obtain ⟨verdict, middle, between⟩ := outcome
  cases verdict <;> exact finishes

/-- Sending one request after another leaves a steady selector as it is, by induction on them. -/
theorem selector_sendAll (steady : hub.selector.Steady) (orders : Nat → Order)
    (process : Process) (index count : Nat)
    : (Process.sendAll orders hub process index count).2.1.selector = hub.selector := by
  induction count generalizing hub process index with
  | zero => rfl
  | succ count ih =>
      rw [Process.sendAll]
      split
      · rfl
      · next request _ =>
          have same := selector_send steady process request (orders index).handler
          generalize Process.send hub process request (orders index).handler = outcome at same
          obtain ⟨verdict, middle, between⟩ := outcome
          dsimp only at same
          cases verdict with
          | error halt => exact same
          | ok =>
              dsimp only
              rw [ih (same ▸ steady), same]

end Process

/-- All numbers lead where they led, and a steady selector is steady still. -/
structure Hub.Restores (hub after : Hub ρ) : Prop where
  routing : after.routing = hub.routing
  steady : hub.selector.Steady → after.selector.Steady

namespace Hub

theorem Restores.refl (hub : Hub ρ) : hub.Restores hub :=
  ⟨rfl, id⟩

theorem Restores.trans {middle after : Hub ρ} (first : hub.Restores middle)
    (second : middle.Restores after)
    : hub.Restores after :=
  ⟨second.routing.trans first.routing, second.steady ∘ first.steady⟩

variable [Responder ρ]

/-- A batch leaves a steady selector as it is. -/
theorem selector_batch (steady : hub.selector.Steady) (config : Config) (count : Nat)
    (orders : Nat → Order)
    : (hub.batch config count orders).2.selector = hub.selector := by
  have sends := Process.selector_sendAll steady orders { config } 0 count
  unfold batch
  generalize Process.sendAll orders hub { config } 0 count = outcome at sends ⊢
  obtain ⟨verdict, middle, between⟩ := outcome
  cases verdict with
  | error halt => exact (Process.selector_drop middle between).trans sends
  | ok =>
      have waits := Process.selector_finishAndCheck middle between
      dsimp only at sends ⊢
      generalize Process.finishAndCheck middle between = ending at waits ⊢
      obtain ⟨result, last, later⟩ := ending
      exact ((Process.selector_drop last later).trans waits).trans sends

/-- Whatever becomes of a batch, it leaves the hub as it found it. -/
theorem batch_restores (hub : Hub ρ) (config : Config) (count : Nat) (orders : Nat → Order)
    : hub.Restores (hub.batch config count orders).2 :=
  ⟨hub.routing_batch config count orders,
    fun steady => (hub.selector_batch steady config count orders).symm ▸ steady⟩

theorem restores_of_batch {after : Hub ρ} {config : Config} {count : Nat} {orders : Nat → Order}
    {result : Except Halt Unit} (done : hub.batch config count orders = (result, after))
    : hub.Restores after := by
  have restores := hub.batch_restores config count orders
  rwa [done] at restores

theorem exchange_restores (hub : Hub ρ) (config : Config) (count : Nat) (orders : Nat → Order)
    : hub.Restores (hub.exchange config count orders).2 :=
  have restores := batch_restores { hub with journal := #[] } config count orders
  ⟨restores.routing, restores.steady⟩

theorem execute_restores (hub : Hub ρ) (config : Config) (request : Request)
    : hub.Restores (hub.execute config request).2 :=
  hub.exchange_restores config 1 _

end Hub

end MeshControl.Link
