import MeshControl.Proofs.Link.Acceptance
import MeshControl.Proofs.Link.Routing

/-! Accounts of windows that share a connection. Over any history, what a window's sends took on
is what was settled for it and what still waits in it, and what was collected from it is what its
settlements left to collect.
-/

namespace MeshControl.Link.Junction

open Scp

variable {ρ : Type}

-----------------------------------------------------------------------------------------
-- What a history took on and handed out
-----------------------------------------------------------------------------------------

/-- What an operation hands out of the failures of a window. -/
def collects (junction : Junction ρ) (number : Nat) : Operation → List Failure
  | .takeFailures target =>
      if target = number then (junction.takeFailures target).1 else []
  | _ => []

/-- The settlements of one window among those of all. -/
def settlementsOf (number : Nat) (settled : List (Nat × Settlement)) : List Settlement :=
  (settled.filter fun entry => entry.1 = number).map Prod.snd

theorem settlementsOf_append (number : Nat) (first second : List (Nat × Settlement))
    : settlementsOf number (first ++ second)
      = settlementsOf number first ++ settlementsOf number second := by
  simp only [settlementsOf, List.filter_append, List.map_append]

/-- Settlements that all belong to one window. -/
theorem settlementsOf_map (number target : Nat) (settled : List Settlement)
    : settlementsOf number (settled.map fun settlement => (target, settlement))
      = if target = number then settled else [] := by
  induction settled with
  | nil => simp [settlementsOf]
  | cons settlement rest ih =>
      by_cases same : target = number
      · simp_all [settlementsOf]
      · simp_all [settlementsOf]

variable [Responder ρ]

/-- What an operation takes on for a window: the request of a send that succeeds. -/
def accepts (junction : Junction ρ) (number : Nat) : Operation → List Promise
  | .send target request sequence handler =>
      if target = number then
        match (junction.send target request sequence handler).1 with
        | .ok () => [⟨request.numbered sequence, handler⟩]
        | .error _ => []
      else []
  | _ => []

/-- The requests that a history took on for a window, in order. -/
def accepted (number : Nat) : Junction ρ → List Operation → List Promise
  | _, [] => []
  | junction, operation :: rest =>
      junction.accepts number operation ++ accepted number (junction.perform operation) rest

/-- The failures of a window that a history handed out, in order. -/
def collected (number : Nat) : Junction ρ → List Operation → List Failure
  | _, [] => []
  | junction, operation :: rest =>
      junction.collects number operation ++ collected number (junction.perform operation) rest

-----------------------------------------------------------------------------------------
-- Accounts and what keeps them
-----------------------------------------------------------------------------------------

/-- The account of one window: the requests it took on were settled or wait in it, and the
failures of the settled ones were collected or lie in it.
-/
structure Account (window : Window) (settled : List Settlement) (taken : List Promise)
    (handed : List Failure) : Prop where
  sound : window.Sound
  promises : taken.Perm (settled.map Settlement.promise ++ window.promises)
  failures : handed ++ window.failures = settled.flatMap Settlement.failures

omit [Responder ρ] in
/-- Work that balances a window's ledger balances its account. -/
theorem Account.balances {window : Window} {settled later : List Settlement}
    {taken more : List Promise} {handed : List Failure} {station after : Station ρ}
    (account : Account window settled taken handed) (held : station.window = window)
    (sound : after.window.Sound)
    (balances : Ledger.Balances station.ledger after.ledger later more)
    : Account after.window (settled ++ later) (taken ++ more) handed := by
  have promises := balances.promises
  have failures := balances.failures
  simp only [Station.ledger, held] at promises failures
  refine ⟨sound, ?_, ?_⟩
  · have grown := account.promises.append_right more
    rw [List.append_assoc] at grown
    rw [List.map_append, List.append_assoc]
    exact grown.trans (promises.append_left _)
  · rw [failures, ← List.append_assoc, account.failures, List.flatMap_append]

/-- The books of all windows: what was told is what was settled, one settlement after another,
every window's account balances, and a number that no window has had yet has no account.
-/
structure Chronicle (junction : Junction ρ) (settled : List (Nat × Settlement))
    (taken : Nat → List Promise) (handed : Nat → List Failure) : Prop where
  told : told junction.journal.toList = settled.flatMap fun entry => entry.2.events
  lawful : ∀ entry ∈ settled, entry.2.Lawful
  accounts
    : ∀ {number window},
        junction.windows.get? number = some window
        → Account window (settlementsOf number settled) (taken number) (handed number)
  unborn
    : ∀ number,
        junction.line.dispatcher.fresh ≤ number
        → settlementsOf number settled = [] ∧ taken number = [] ∧ handed number = []

omit [Responder ρ] in
theorem fresh_chronicle (connection : Connection ρ)
    : Chronicle (fresh connection) [] (fun _ => []) (fun _ => []) where
  told := rfl
  lawful := by simp
  accounts := by
    intro number window found
    cases found
  unborn := fun _ _ => ⟨rfl, rfl, rfl⟩

omit [Responder ρ] in
/-- Settlements of one window leave those of the others as they were. -/
theorem settlementsOf_append_map (number target : Nat) (settled : List (Nat × Settlement))
    (later : List Settlement)
    : settlementsOf number (settled ++ later.map fun settlement => (target, settlement))
      = settlementsOf number settled ++ if target = number then later else [] := by
  rw [settlementsOf_append, settlementsOf_map]

omit [Responder ρ] in
/-- Putting back a window whose work balanced its ledger keeps the books. -/
theorem Chronicle.update {junction : Junction ρ} {settled : List (Nat × Settlement)}
    {taken : Nat → List Promise} {handed : Nat → List Failure}
    (chronicle : Chronicle junction settled taken handed) (coherent : junction.Coherent)
    {number : Nat} {window : Window} (found : junction.windows.get? number = some window)
    {after : Station ρ} {later : List Settlement} {more : List Promise}
    (sound : after.window.Sound)
    (fresh : after.line.dispatcher.fresh = junction.line.dispatcher.fresh)
    (balances
      : Ledger.Balances (junction.station window).ledger after.ledger later more)
    : Chronicle (junction.update number after)
        (settled ++ later.map fun settlement => (number, settlement))
        (fun owner => taken owner ++ if number = owner then more else []) handed := by
  have born := (coherent.numbered found).2
  refine ⟨?_, ?_, ?_, ?_⟩
  · have told := balances.told
    simp only [Station.ledger, Junction.station] at told
    simp only [Junction.update, told, chronicle.told, List.flatMap_append, List.flatMap_map]
  · intro entry member
    rcases List.mem_append.mp member with early | late
    · exact chronicle.lawful entry early
    · obtain ⟨settlement, listed, rfl⟩ := List.mem_map.mp late
      exact balances.lawful settlement listed
  · intro owner held listed
    rw [settlementsOf_append_map]
    simp only [Junction.update, Table.get?_insert] at listed
    by_cases same : number = owner
    · subst same
      rw [if_pos rfl, Option.some.injEq] at listed
      subst listed
      rw [if_pos rfl, if_pos rfl]
      exact (chronicle.accounts found).balances rfl sound balances
    · rw [if_neg (Ne.symm same)] at listed
      rw [if_neg same, if_neg same, List.append_nil, List.append_nil]
      exact chronicle.accounts listed
  · intro owner later_born
    simp only [Junction.update, fresh] at later_born
    have apart : number ≠ owner := by omega
    rw [settlementsOf_append_map, if_neg apart, if_neg apart, List.append_nil,
      List.append_nil]
    exact chronicle.unborn owner later_born

omit [Responder ρ] in
/-- A new window has an empty account. -/
theorem Chronicle.openWindow {junction : Junction ρ} {settled : List (Nat × Settlement)}
    {taken : Nat → List Promise} {handed : Nat → List Failure}
    (chronicle : Chronicle junction settled taken handed) (config : Config)
    : Chronicle (junction.openWindow config).2 settled taken handed := by
  simp only [Junction.openWindow, Dispatcher.openInbox]
  refine ⟨chronicle.told, chronicle.lawful, ?_, ?_⟩
  · intro number window found
    simp only [Table.get?_insert] at found
    split at found
    · next same =>
        cases found
        obtain ⟨none_settled, none_taken, none_handed⟩ := chronicle.unborn number (by omega)
        rw [none_settled, none_taken, none_handed]
        refine ⟨⟨?_, ?_⟩, .refl _, rfl⟩
        · intro sequence entry waits
          cases waits
        · intro sequence entry waits
          cases waits
    · exact chronicle.accounts found
  · intro number later_born
    dsimp only at later_born
    exact chronicle.unborn number (by omega)

omit [Responder ρ] in
/-- A window that goes away takes its account along. -/
theorem Chronicle.drop {junction : Junction ρ} {settled : List (Nat × Settlement)}
    {taken : Nat → List Promise} {handed : Nat → List Failure}
    (chronicle : Chronicle junction settled taken handed) (number : Nat)
    : Chronicle (junction.drop number) settled taken handed := by
  unfold Junction.drop
  cases found : junction.windows.get? number with
  | none => exact chronicle
  | some window =>
      refine ⟨chronicle.told, chronicle.lawful, ?_, ?_⟩
      · intro owner held listed
        exact chronicle.accounts (Table.of_get?_erase listed).2
      · intro owner later_born
        simp only [Dispatcher.discard, Dispatcher.fresh_foldl_unregister] at later_born
        exact chronicle.unborn owner later_born

omit [Responder ρ] in
/-- Failures that are handed out stay in the books. -/
theorem Chronicle.takeFailures {junction : Junction ρ} {settled : List (Nat × Settlement)}
    {taken : Nat → List Promise} {handed : Nat → List Failure}
    (chronicle : Chronicle junction settled taken handed) (coherent : junction.Coherent)
    (number : Nat)
    : Chronicle (junction.takeFailures number).2 settled taken
        (fun owner => handed owner ++ junction.collects owner (.takeFailures number)) := by
  simp only [collects]
  unfold Junction.takeFailures
  cases found : junction.windows.get? number with
  | none =>
      simpa only [ite_self, List.append_nil] using chronicle
  | some window =>
      have born := (coherent.numbered found).2
      refine ⟨chronicle.told, chronicle.lawful, ?_, ?_⟩
      · intro owner held listed
        simp only [Window.takeFailures, Table.get?_insert] at listed ⊢
        by_cases same : number = owner
        · subst same
          rw [if_pos rfl, Option.some.injEq] at listed
          subst listed
          have account := chronicle.accounts found
          rw [if_pos rfl]
          refine ⟨⟨account.sound.keyed, account.sound.encoded⟩, account.promises, ?_⟩
          rw [List.append_nil]
          exact account.failures
        · rw [if_neg (Ne.symm same)] at listed
          rw [if_neg same, List.append_nil]
          exact chronicle.accounts listed
      · intro owner later_born
        dsimp only at later_born
        have apart : number ≠ owner := by omega
        rw [if_neg apart, List.append_nil]
        exact chronicle.unborn owner later_born

/-- Waiting for all requests of a window keeps the books. -/
theorem Chronicle.finish {junction : Junction ρ} {settled : List (Nat × Settlement)}
    {taken : Nat → List Promise} {handed : Nat → List Failure}
    (chronicle : Chronicle junction settled taken handed) (coherent : junction.Coherent)
    (number : Nat)
    : ∃ later, Chronicle (junction.finish number) (settled ++ later) taken handed := by
  unfold Junction.finish
  cases found : junction.windows.get? number with
  | none => exact ⟨[], by rwa [List.append_nil]⟩
  | some window =>
      have path := Station.drain_path 0 (junction.station window)
      obtain ⟨sound, _, later, settles⟩ := path.settles (chronicle.accounts found).sound
      have kept := chronicle.update coherent found sound (Station.Path.releases path).fresh
        settles.balances
      simp only [ite_self, List.append_nil] at kept
      exact ⟨_, kept⟩

/-- A send keeps the books: what it takes on is its request if it succeeds, else nothing. -/
theorem Chronicle.send {junction : Junction ρ} {settled : List (Nat × Settlement)}
    {taken : Nat → List Promise} {handed : Nat → List Failure}
    (chronicle : Chronicle junction settled taken handed) (coherent : junction.Coherent)
    (number : Nat) (request : Request) (sequence : UInt16) (handler : Handler)
    : ∃ later,
        Chronicle (junction.send number request sequence handler).2 (settled ++ later)
          (fun owner =>
            taken owner ++ junction.accepts owner (.send number request sequence handler))
          handed := by
  simp only [accepts]
  unfold Junction.send
  cases found : junction.windows.get? number with
  | none =>
      refine ⟨[], ?_⟩
      simpa only [ite_self, List.append_nil] using chronicle
  | some window =>
      dsimp only
      generalize sent : (junction.station window).send request sequence handler = outcome
      obtain ⟨result, after⟩ := outcome
      have account := chronicle.accounts found
      obtain ⟨sound, _, later, _, more, sends⟩ :=
        Station.send_sends account.sound (coherent.anchored found) sent
      have kept := chronicle.update coherent found sound (Station.fresh_of_send sent)
        sends.balances
      refine ⟨later.map fun settlement => (number, settlement), ?_⟩
      cases result with
      | error error =>
          cases sends.offered with
          | withheld => exact kept
          | refused => exact kept
      | ok =>
          cases sends.offered with
          | sent => exact kept

/-- Every operation keeps the books, by cases on it. -/
theorem Chronicle.perform {junction : Junction ρ} {settled : List (Nat × Settlement)}
    {taken : Nat → List Promise} {handed : Nat → List Failure}
    (chronicle : Chronicle junction settled taken handed) (coherent : junction.Coherent)
    (operation : Operation)
    : ∃ later,
        Chronicle (junction.perform operation) (settled ++ later)
          (fun owner => taken owner ++ junction.accepts owner operation)
          (fun owner => handed owner ++ junction.collects owner operation) := by
  cases operation with
  | openWindow config =>
      refine ⟨[], ?_⟩
      simp only [accepts, collects, List.append_nil]
      exact chronicle.openWindow config
  | send number request sequence handler =>
      obtain ⟨later, kept⟩ := chronicle.send coherent number request sequence handler
      refine ⟨later, ?_⟩
      simp only [collects, List.append_nil]
      exact kept
  | finish number =>
      obtain ⟨later, kept⟩ := chronicle.finish coherent number
      refine ⟨later, ?_⟩
      simp only [accepts, collects, List.append_nil]
      exact kept
  | takeFailures number =>
      refine ⟨[], ?_⟩
      simp only [accepts, List.append_nil]
      exact chronicle.takeFailures coherent number
  | drop number =>
      refine ⟨[], ?_⟩
      simp only [accepts, collects, List.append_nil]
      exact chronicle.drop number
  | arrive reaction =>
      refine ⟨[], ?_⟩
      simp only [accepts, collects, List.append_nil]
      exact ⟨chronicle.told, chronicle.lawful, chronicle.accounts, chronicle.unborn⟩

/-- Any history keeps the books, by induction on its operations. -/
theorem Chronicle.run {junction : Junction ρ} {settled : List (Nat × Settlement)}
    {taken : Nat → List Promise} {handed : Nat → List Failure}
    (chronicle : Chronicle junction settled taken handed) (coherent : junction.Coherent)
    (operations : List Operation)
    : ∃ later,
        Chronicle (junction.run operations) (settled ++ later)
          (fun owner => taken owner ++ accepted owner junction operations)
          (fun owner => handed owner ++ collected owner junction operations) := by
  induction operations generalizing junction settled taken handed with
  | nil =>
      refine ⟨[], ?_⟩
      simp only [accepted, collected, List.append_nil]
      exact chronicle
  | cons operation rest ih =>
      obtain ⟨first, one⟩ := chronicle.perform coherent operation
      obtain ⟨later, all⟩ := ih one (coherent.perform operation)
      refine ⟨first ++ later, ?_⟩
      simp only [List.append_assoc] at all
      exact all

end MeshControl.Link.Junction
