import MeshControl.Proofs.Link.Passage
import MeshControl.Proofs.Link.Turn

/-! Batches of plain requests. While a process sends one request after another, its ledger is on
its way through their row; the result of the batch tells whether all of them were accepted.
-/

namespace MeshControl.Link

open Scp

namespace Process

variable {ρ : Type} {origin : List Event} {tag : UInt8} {plain : Nat → Request}
  {passage : Passage} {hub after : Hub ρ} {process later : Process} {result : Except Halt Unit}

/-- A process that may still send the rest of a row. -/
structure Underway (origin : List Event) (tag : UInt8) (plain : Nat → Request)
    (passage : Passage) (hub : Hub ρ) (process : Process) : Prop where
  seated : process.Seated hub.dispatchers
  tagged : process.config.tag = tag
  unfinished : process.finished = false
  progress : ∃ settled, passage.Progress origin tag plain settled (ledger hub process)

theorem Underway.start (hub : Hub ρ) (config : Config) (plain : Nat → Request)
    : Underway hub.journal.toList config.tag plain {} hub { config } where
  seated := by
    intro number window found
    cases found
  tagged := rfl
  unfinished := rfl
  progress := ⟨[], .start _ _ _⟩

/-- So far a process has gone: so many requests are on their way, or the row broke off. -/
inductive Advance (origin : List Event) (tag : UInt8) (plain : Nat → Request)
    : Nat → Except Halt Unit → Hub ρ → Process → Prop
  | onward {passage : Passage} {hub : Hub ρ} {process : Process}
    (underway : Underway origin tag plain passage hub process)
    : Advance origin tag plain passage.numbers.length (.ok ()) hub process
  | halted {passage : Passage} {count : Nat} {halt : Halt} {hub : Hub ρ} {process : Process}
    (seated : process.Seated hub.dispatchers)
    (broken : passage.Broken origin hub.journal.toList tag plain count)
    : Advance origin tag plain count (.error halt) hub process

variable [Responder ρ]

/-- One more request: older ones may end before, then it goes out or the row breaks off. -/
theorem Underway.send (underway : Underway origin tag plain passage hub process)
    (done
      : Process.send hub process (plain passage.numbers.length) {} = (result, after, later))
    : Advance origin tag plain (passage.numbers.length + 1) result after later := by
  obtain ⟨seated, tagged, unfinished, settled, progress⟩ := underway
  obtain ⟨turn, finished, number, events, more, tried, taken,
    ⟨middle, settles, takes⟩, offered⟩ := send_turn seated done
  rw [tagged] at settles offered
  have drained := progress.settles settles
  cases offered with
  | withheld halt =>
      have stopped := drained.stopped
      rw [← List.append_nil middle.journal, ← takes.journal] at stopped
      exact .halted turn.seated stopped
  | refused connection error => exact .halted turn.seated (drained.refused takes.journal)
  | sent connection =>
      have onward : Underway origin tag plain _ after later :=
        ⟨turn.seated, by rw [turn.config, tagged], finished.trans unfinished, _,
          drained.sent takes⟩
      have advance := Advance.onward onward
      rwa [Passage.length_extend, Passage.length_assign, Passage.length_extend] at advance

/-- So many requests one after another, by induction on their number. -/
theorem Underway.sendAll {orders : Nat → Order} (count : Nat)
    (plain_orders
      : ∀ index < passage.numbers.length + count,
          orders index = { request := .ok (plain index) })
    (underway : Underway origin tag plain passage hub process)
    (done
      : Process.sendAll orders hub process passage.numbers.length count
        = (result, after, later))
    : Advance origin tag plain (passage.numbers.length + count) result after later := by
  induction count generalizing passage hub process with
  | zero =>
      obtain ⟨rfl, rfl, rfl⟩ : .ok () = result ∧ hub = after ∧ process = later := by
        simpa [Process.sendAll] using done
      exact .onward underway
  | succ count ih =>
      rw [Process.sendAll, plain_orders _ (by omega)] at done
      dsimp only at done
      generalize sent
        : Process.send hub process (plain passage.numbers.length) {} = outcome at done
      obtain ⟨verdict, middle, between⟩ := outcome
      have advance := underway.send sent
      generalize reached : passage.numbers.length + 1 = length at advance
      cases advance with
      | @onward next _ _ onward =>
          have remaining : passage.numbers.length + (count + 1)
              = next.numbers.length + count := by
            omega
          rw [remaining] at plain_orders ⊢
          rw [reached] at done
          exact ih plain_orders onward done
      | halted seated broken =>
          obtain ⟨rfl, rfl, rfl⟩ := by simpa using done
          exact .halted seated (broken.later (by omega))

/-- After waiting nothing is promised, whatever the process had reached. -/
theorem Underway.finish {result : Except Error Unit}
    (underway : Underway origin tag plain passage hub process)
    (done : Process.finish hub process = (result, after, later))
    : result = .ok ()
      ∧ later.Seated after.dispatchers
      ∧ ∃ events settled,
          (passage.extend events).Progress origin tag plain settled (ledger after later)
          ∧ (ledger after later).promises = [] := by
  obtain ⟨seated, tagged, unfinished, settled, progress⟩ := underway
  obtain ⟨turn, _, ⟨events, more, settles⟩, outcome⟩ := finish_turn seated done
  rw [tagged] at settles
  rcases outcome with ⟨_, finished, paid⟩ | ⟨again, _⟩
  · exact ⟨finished, turn.seated, events, _, progress.settles settles, paid⟩
  · rw [unfinished] at again
    cases again

theorem check_eq_ok_iff (process : Process)
    : process.check = .ok () ↔ process.failures = [] := by
  cases failed : process.failures with
  | nil => simp [check, failed]
  | cons first rest => simp [check, failed]

/-- Waiting for a whole row and checking reports whether all of it was accepted. -/
theorem Underway.finishAndCheck {result : Except Error Unit}
    (underway : Underway origin tag plain passage hub process)
    (done : Process.finishAndCheck hub process = (result, after, later))
    : later.Seated after.dispatchers
      ∧ ∃ whole : Passage,
          whole.Reported origin after.journal.toList tag plain passage.numbers.length
            (result.mapError .failed) := by
  unfold Process.finishAndCheck at done
  generalize waited : Process.finish hub process = outcome at done
  obtain ⟨verdict, middle, between⟩ := outcome
  obtain ⟨rfl, seated, events, settled, progress, paid⟩ := underway.finish waited
  obtain ⟨rfl, rfl, rfl⟩ := by simpa using done
  exact ⟨seated, _, progress.reported paid (mapError_eq_ok_iff.trans (check_eq_ok_iff between))⟩

end Process

-----------------------------------------------------------------------------------------
-- What a batch may end with
-----------------------------------------------------------------------------------------

/-- A number is refused, or searched for; neither takes a sum. -/
theorem Process.assign_ne_overflow {ρ : Type} (process : Process) (line : Line ρ)
    (wanted : Option UInt16) (sequences : SequenceGenerator)
    : process.assign line wanted sequences ≠ .error .overflow := by
  unfold assign
  split
  · split <;> nofun
  · cases nextFree (process.isTaken line) sequenceCount sequences with
    | none => nofun
    | some found => nofun

theorem Process.send_ne_overflow {ρ : Type} [Responder ρ] (hub : Hub ρ) (process : Process)
    (request : Request) (handler : Handler)
    : (Process.send hub process request handler).1 ≠ .error .overflow := by
  unfold Process.send
  split
  · nofun
  · split
    · nofun
    · dsimp only
      split
      · nofun
      · next line found =>
          generalize process.engage _ line = engagement
          obtain ⟨window, engaged, later⟩ := engagement
          dsimp only
          split
          · next halt refused =>
              rintro ⟨⟩
              exact later.assign_ne_overflow _ _ _ refused
          · next sequence _ _ =>
              generalize Station.send (_ : Station ρ) request sequence handler = outcome
              obtain ⟨result, station⟩ := outcome
              cases result with
              | error error => nofun
              | ok => nofun

/-- Sending stops at a sum only where the request is one that cannot be made for that reason; by
induction on the requests.
-/
theorem Process.sendAll_ne_overflow {ρ : Type} [Responder ρ] {orders : Nat → Order}
    {index count : Nat} (hub : Hub ρ) (process : Process)
    (made : ∀ place < index + count, (orders place).request ≠ .error .overflow)
    : (Process.sendAll orders hub process index count).1 ≠ .error .overflow := by
  induction count generalizing hub process index with
  | zero => nofun
  | succ count ih =>
      rw [Process.sendAll]
      split
      · next halt refused =>
          rintro ⟨⟩
          exact made index (by omega) refused
      · next request _ =>
          have sends := Process.send_ne_overflow hub process request (orders index).handler
          generalize Process.send hub process request (orders index).handler = outcome at sends
          obtain ⟨result, after, later⟩ := outcome
          cases result with
          | error halt => exact sends
          | ok => exact ih after later fun place within => made place (by omega)

theorem Hub.batch_ne_overflow {ρ : Type} [Responder ρ] {orders : Nat → Order} {count : Nat}
    (hub : Hub ρ) (config : Config)
    (made : ∀ index < count, (orders index).request ≠ .error .overflow)
    : (hub.batch config count orders).1 ≠ .error .overflow := by
  have sends : (Process.sendAll orders hub { config } 0 count).1 ≠ .error .overflow :=
    Process.sendAll_ne_overflow hub { config } fun place within => made place (by omega)
  unfold Hub.batch
  generalize Process.sendAll orders hub { config } 0 count = outcome at sends
  obtain ⟨verdict, middle, between⟩ := outcome
  cases verdict with
  | error halt => exact sends
  | ok =>
      dsimp only
      generalize Process.finishAndCheck middle between = ending
      obtain ⟨result, last, finished⟩ := ending
      cases result with
      | error error => nofun
      | ok => nofun

theorem Hub.exchange_ne_overflow {ρ : Type} [Responder ρ] {orders : Nat → Order} {count : Nat}
    (hub : Hub ρ) (config : Config)
    (made : ∀ index < count, (orders index).request ≠ .error .overflow)
    : (hub.exchange config count orders).1 ≠ .error .overflow := by
  have runs := Hub.batch_ne_overflow { hub with journal := #[] } config made
  change (Hub.batch { hub with journal := #[] } config count orders).1.map _ ≠ _
  generalize (Hub.batch { hub with journal := #[] } config count orders).1 = verdict at runs
  cases verdict with
  | error halt => exact fun same => runs (congrArg Except.error (Except.error.inj same))
  | ok => nofun

-----------------------------------------------------------------------------------------
-- Whole batches
-----------------------------------------------------------------------------------------

/-- A batch of plain requests reports whether the whole row was accepted. -/
theorem Hub.batch_reported {ρ : Type} [Responder ρ] {hub after : Hub ρ} {config : Config}
    {count : Nat} {orders : Nat → Order} {plain : Nat → Request} {result : Except Halt Unit}
    (plain_orders : ∀ index < count, orders index = { request := .ok (plain index) })
    (done : hub.batch config count orders = (result, after))
    : ∃ passage : Passage,
        passage.Reported hub.journal.toList after.journal.toList config.tag plain count
          result := by
  unfold Hub.batch at done
  generalize sent : Process.sendAll orders hub { config } 0 count = outcome at done
  obtain ⟨verdict, middle, between⟩ := outcome
  have advance := (Process.Underway.start hub config plain).sendAll count
    (by simpa using plain_orders) sent
  generalize reached : ({} : Passage).numbers.length + count = length at advance
  have same : length = count := by simpa using reached.symm
  cases advance with
  | onward underway =>
      dsimp only at done
      generalize checked : Process.finishAndCheck middle between = ending at done
      obtain ⟨verdict, last, finished⟩ := ending
      obtain ⟨seated, whole, reported⟩ := underway.finishAndCheck checked
      obtain ⟨rfl, rfl⟩ := by simpa using done
      refine ⟨whole, ?_⟩
      rwa [(Process.drop_yields seated).2, ← same]
  | @halted passage _ halt _ _ seated broken =>
      obtain ⟨rfl, rfl⟩ := by simpa using done
      refine ⟨passage, ?_⟩
      rw [(Process.drop_yields seated).2, ← same]
      exact broken.reported halt

end MeshControl.Link
