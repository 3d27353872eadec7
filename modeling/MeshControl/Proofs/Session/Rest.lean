import MeshControl.Link.Transcript
import MeshControl.Proofs.Flood.Transaction
import MeshControl.Proofs.Locks.Alone
import MeshControl.Session
import Mathlib.Data.List.Permutation

/-! A session between its operations. Every operation gives back the sequence numbers that it took
and the locks that it asked for, however it ends, so the next one finds the session at rest.
-/

namespace MeshControl

open Scp Link

-----------------------------------------------------------------------------------------
-- Floods
-----------------------------------------------------------------------------------------

namespace Flood

variable {ρ : Type} [Responder ρ]

theorem finish_restores (hub : Hub ρ) (config : Config) (id : UInt8)
    : hub.Restores (finish hub config id).2 :=
  hub.batch_restores config 1 _

/-- Whatever becomes of a flood, it leaves the hub as it found it. -/
theorem write_restores (hub : Hub ρ) (ids : Ids) (config : Config) (base : UInt32)
    (data : List UInt8)
    : hub.Restores (write hub ids config base data).2.1 := by
  unfold write
  split
  · exact .refl hub
  · dsimp only
    split
    · next started => exact Hub.restores_of_batch started
    · next started =>
        have begun := Hub.restores_of_batch started
        split
        · next delivered => exact begun.trans (Hub.restores_of_batch delivered)
        · next delivered =>
            exact (begun.trans (Hub.restores_of_batch delivered)).trans (finish_restores ..)

/-- The same holds of a flood from a source, whatever the source does. -/
theorem writeFrom_restores (hub : Hub ρ) (ids : Ids) (config : Config) (base : UInt32)
    (source : List UInt8) (bytes : UInt64) (failure : IoFailure)
    : hub.Restores (writeFrom hub ids config base source bytes failure).1.hub := by
  unfold writeFrom
  split
  · exact .refl hub
  · next blocks _ =>
      dsimp only
      split
      · next started => exact Hub.restores_of_batch started
      · next announced started =>
          have begun := Hub.restores_of_batch started
          obtain ⟨routed, stays⟩ :=
            deliverFrom_restores (Process.borrows_nothing config announced.routing) ids.draw.1 0
              base bytes.toNat source failure
          have delivered := begun.trans ⟨routed, fun steady => (stays steady).symm ▸ steady⟩
          split
          · exact delivered
          · exact delivered.trans (finish_restores ..)

end Flood

namespace Session

variable {ρ : Type} {session middle after : Session ρ}

-----------------------------------------------------------------------------------------
-- What an operation gives back
-----------------------------------------------------------------------------------------

/-- The connections were left as they were found, and all locks are as they were. -/
structure Restores (session after : Session ρ) : Prop where
  hub : session.hub.Restores after.hub
  locks : after.locks = session.locks

theorem Restores.refl (session : Session ρ) : session.Restores session :=
  ⟨.refl session.hub, rfl⟩

theorem Restores.trans (first : session.Restores middle) (second : middle.Restores after)
    : session.Restores after :=
  ⟨first.hub.trans second.hub, second.locks.trans first.locks⟩

theorem whenOpen_restores {α : Type} {run : Hub ρ → Except Halt α × Hub ρ}
    (kept : ∀ hub : Hub ρ, hub.Restores (run hub).2) (session : Session ρ)
    : session.Restores (session.whenOpen run).2 := by
  unfold whenOpen
  split
  · exact .refl session
  · exact ⟨kept session.hub, rfl⟩

/-- What is done under a lock that nobody else has leaves all locks free. -/
theorem guarded_restores {α : Type} {ask : Locks Unit → Locks Unit} {held : Locks Unit}
    {run : Session ρ → α × Session ρ} (free : session.locks = {})
    (granted : (ask {}).settle.2 = held) (released : (held.release ()).1.settle.2 = {})
    (kept : ∀ locked : Session ρ, locked.Restores (run locked).2)
    : session.Restores (session.guarded ask run).2 := by
  have kept := kept { session with locks := held }
  simp only [guarded, free, granted]
  refine ⟨kept.hub, ?_⟩
  rw [kept.locks, released, free]

theorem guarded_askFlood_restores {α : Type} {run : Session ρ → α × Session ρ}
    (free : session.locks = {}) (kept : ∀ locked : Session ρ, locked.Restores (run locked).2)
    : session.Restores (session.guarded (·.askFlood ()) run).2 :=
  guarded_restores free (congrArg Prod.snd (Locks.settle_askFlood ()))
    (congrArg Prod.snd (Locks.settle_release_flooding ())) kept

theorem guarded_askChip_restores {α : Type} {run : Session ρ → α × Session ρ} (chip : Chip)
    (free : session.locks = {}) (kept : ∀ locked : Session ρ, locked.Restores (run locked).2)
    : session.Restores (session.guarded (·.askChip () chip) run).2 :=
  guarded_restores free (congrArg Prod.snd (Locks.settle_askChip () chip))
    (congrArg Prod.snd (Locks.settle_release_executing () chip)) kept

variable [Responder ρ]

theorem send_restores (session : Session ρ) (request : Request)
    : session.Restores (session.send request).2 :=
  whenOpen_restores (fun hub => hub.execute_restores _ request) session

theorem sendManagement_restores (session : Session ρ) (request : Request)
    : session.Restores (session.sendManagement request).2 := by
  refine whenOpen_restores (fun hub => ?_) session
  split
  · exact .refl hub
  · next line _ _ =>
      let target : Candidate := ⟨line.connection.number, line.connection.chip⟩
      have restores :=
        Hub.execute_restores { hub with selector := .fixed target } Config.management request
      exact ⟨restores.routing, id⟩

theorem read_restores (session : Session ρ) (chip : Chip) (base : UInt32) (length : UInt64)
    : session.Restores (session.read chip base length).2 := by
  refine whenOpen_restores (fun hub => ?_) session
  split
  · exact .refl hub
  · split
    · exact .refl hub
    · exact hub.exchange_restores ..

theorem write_restores (session : Session ρ) (chip : Chip) (base : UInt32) (data : List UInt8)
    : session.Restores (session.write chip base data).2 := by
  refine whenOpen_restores (fun hub => ?_) session
  split
  · exact .refl hub
  · exact hub.batch_restores ..

theorem count_restores (session : Session ρ) (application : UInt8) (state : Core.State)
    : session.Restores (session.count application state).2 := by
  refine whenOpen_restores (fun hub => ?_) session
  split
  · exact .refl hub
  · exact hub.exchange_restores ..

theorem flood_restores (session : Session ρ) (base : UInt32) (data : List UInt8)
    : session.Restores (session.flood base data).2 :=
  ⟨Flood.write_restores .., rfl⟩

theorem floodWrite_restores (free : session.locks = {}) (base : UInt32) (data : List UInt8)
    : session.Restores (session.floodWrite base data).2 := by
  unfold floodWrite
  split
  · exact .refl session
  · exact guarded_askFlood_restores free fun locked => locked.flood_restores base data

theorem floodWriteFrom_restores (free : session.locks = {}) (base : UInt32)
    (source : List UInt8) (bytes : UInt64) (failure : IoFailure)
    : session.Restores (session.floodWriteFrom base source bytes failure).2.2 := by
  unfold floodWriteFrom
  split
  · exact .refl session
  · split
    next done =>
      obtain rfl := congrArg Prod.snd done
      dsimp only
      refine guarded_askFlood_restores free fun _ => ?_
      exact ⟨Flood.writeFrom_restores .., rfl⟩

theorem execute_restores (free : session.locks = {}) (subset : Core.Subset)
    (program : List UInt8) (application : UInt8) (wait : Bool)
    : session.Restores (session.execute subset program application wait).2 := by
  unfold execute
  split
  · exact .refl session
  · split
    · exact .refl session
    · next run _ =>
        refine guarded_askChip_restores subset.chip free fun locked => ?_
        have written := locked.write_restores subset.chip programAddress program
        split
        · next wrote =>
            rwa [wrote] at written
        · next loaded wrote =>
            rw [wrote] at written
            exact written.trans (loaded.send_restores run)

theorem executeFlood_restores (free : session.locks = {}) (subsets : Core.Subsets)
    (program : List UInt8) (application : UInt8) (wait : Bool)
    : session.Restores (session.executeFlood subsets program application wait).2 := by
  unfold executeFlood
  split
  · exact .refl session
  · split
    · exact .refl session
    · refine guarded_askFlood_restores free fun locked => ?_
      have flooded := locked.flood_restores programAddress program
      split
      · next wrote => rwa [wrote] at flooded
      · next loaded wrote =>
          rw [wrote] at flooded
          exact flooded.trans (whenOpen_restores (fun hub => hub.batch_restores ..) loaded)

-----------------------------------------------------------------------------------------
-- Histories of a session
-----------------------------------------------------------------------------------------

/-- What can be done with a session, and what can arrive at its connections meanwhile. -/
inductive Operation
  | send (request : Request)
  | sendManagement (request : Request)
  | read (chip : Chip) (base : UInt32) (length : UInt64)
  | write (chip : Chip) (base : UInt32) (data : List UInt8)
  | floodWrite (base : UInt32) (data : List UInt8)
  | floodWriteFrom (base : UInt32) (source : List UInt8) (bytes : UInt64) (failure : IoFailure)
  | execute (subset : Core.Subset) (program : List UInt8) (application : UInt8) (wait : Bool)
  | executeFlood (subsets : Core.Subsets) (program : List UInt8) (application : UInt8)
    (wait : Bool)
  | count (application : UInt8) (state : Core.State)
  | setTopology (machine : Topology)
  | close
  | arrive (number : Nat) (reaction : Reaction)

/-- One completed operation, whatever its result. -/
def perform (session : Session ρ) : Operation → Session ρ
  | .send request => (session.send request).2
  | .sendManagement request => (session.sendManagement request).2
  | .read chip base length => (session.read chip base length).2
  | .write chip base data => (session.write chip base data).2
  | .floodWrite base data => (session.floodWrite base data).2
  | .floodWriteFrom base source bytes failure =>
      (session.floodWriteFrom base source bytes failure).2.2
  | .execute subset program application wait =>
      (session.execute subset program application wait).2
  | .executeFlood subsets program application wait =>
      (session.executeFlood subsets program application wait).2
  | .count application state => (session.count application state).2
  | .setTopology machine => session.setTopology machine
  | .close => session.close
  | .arrive number reaction => session.inject number reaction

/-- Completed operations, one after the other. -/
def complete (session : Session ρ) (operations : List Operation) : Session ρ :=
  operations.foldl perform session

omit [Responder ρ] in
theorem close_restores (session : Session ρ) : session.Restores session.close := by
  unfold close
  split
  · exact .refl session
  · exact ⟨⟨by simp [Hub.routing, Hub.dispatchers], id⟩, rfl⟩

omit [Responder ρ] in
theorem inject_restores (session : Session ρ) (number : Nat) (reaction : Reaction)
    : session.Restores (session.inject number reaction) := by
  refine ⟨⟨List.ext_getElem? fun other => ?_, id⟩, rfl⟩
  simp only [inject, Hub.inject, Hub.modifyLine, Hub.routing, Hub.dispatchers, List.getElem?_map,
    List.getElem?_modify]
  cases session.hub.lines[other]? with
  | none => rfl
  | some line => by_cases same : number = other <;> simp [same]

/-- Every operation on a session whose locks are free restores it, by cases on the operation. -/
theorem perform_restores (free : session.locks = {}) (operation : Operation)
    : session.Restores (session.perform operation) := by
  cases operation with
  | send request => exact session.send_restores request
  | sendManagement request => exact session.sendManagement_restores request
  | read chip base length => exact session.read_restores chip base length
  | write chip base data => exact session.write_restores chip base data
  | floodWrite base data => exact floodWrite_restores free base data
  | floodWriteFrom base source bytes failure =>
      exact floodWriteFrom_restores free base source bytes failure
  | execute subset program application wait =>
      exact execute_restores free subset program application wait
  | executeFlood subsets program application wait =>
      exact executeFlood_restores free subsets program application wait
  | count application state => exact session.count_restores application state
  | setTopology machine => exact ⟨⟨rfl, fun steady => steady.setTopology machine⟩, rfl⟩
  | close => exact session.close_restores
  | arrive number reaction => exact session.inject_restores number reaction

/-- So does any history, by induction on its operations. -/
theorem complete_restores (free : session.locks = {}) (operations : List Operation)
    : session.Restores (session.complete operations) := by
  induction operations generalizing session with
  | nil => exact .refl session
  | cons operation rest ih =>
      have first := perform_restores free operation
      exact first.trans (ih (first.locks.trans free))

-----------------------------------------------------------------------------------------
-- A session at rest
-----------------------------------------------------------------------------------------

omit [Responder ρ] in
/-- A new session has connections on which no number leads anywhere, free locks, and a selector by
place.
-/
theorem rest_of_open? {chips management : List (Connection ρ)} {boots : Nat}
    {topology : Option Topology} {config : Config}
    (opened : open? chips management boots topology config = .ok session)
    : session.locks = {}
      ∧ session.hub.routing = (chips ++ management).map (fun _ _ => none)
      ∧ session.hub.selector.Steady := by
  unfold open? at opened
  dsimp only at opened
  generalize Hub.candidates _ = pool at opened
  cases pool with
  | nil => cases opened
  | cons first others =>
      obtain rfl := Except.ok.inj opened
      refine ⟨rfl, List.ext_getElem? fun number => ?_, Selector.steady_byPlace _ _⟩
      simp only [Hub.routing, Hub.dispatchers, List.getElem?_map, List.getElem?_mapIdx,
        Option.map_map]
      rfl

/-- After any history of operations on a session, each of which may have succeeded or failed and
whatever the connections did meanwhile, it is at rest: no sequence number is registered on any of
its connections, so any may be registered; nobody works on a chip or has a lock, so whoever asks to
flood or to work on a chip gets leave at once.
Witness: the numbers that a batch borrows are given back when its process goes away, and a lone
caller leaves the locks as it found them.
-/
theorem rests_after_history {chips management : List (Connection ρ)} {boots : Nat}
    {topology : Option Topology} {config : Config}
    (opened : open? chips management boots topology config = .ok session)
    (operations : List Operation)
    : let after := session.complete operations
      after.hub.lines.length = chips.length + management.length
      ∧ (∀ line ∈ after.hub.lines, ∀ sequence,
          line.dispatcher.isRegistered sequence = false
          ∧ ∀ inbox, ∃ dispatcher, line.dispatcher.register sequence inbox = .ok dispatcher)
      ∧ after.active = 0
      ∧ after.locks = {}
      ∧ (after.locks.askFlood ()).settle.1 = [((), .flood)]
      ∧ ∀ chip, (after.locks.askChip () chip).settle.1 = [((), .chip chip)] := by
  intro after
  obtain ⟨free, nowhere, _⟩ := rest_of_open? opened
  have restores : session.Restores after := complete_restores free operations
  have routing := restores.hub.routing.trans nowhere
  have locks := restores.locks.trans free
  refine ⟨?_, fun line member sequence => ?_, ?_, locks, ?_, fun chip => ?_⟩
  · simpa [Hub.routing, Hub.dispatchers] using congrArg List.length routing
  · have led : line.dispatcher.routes.get? ∈ after.hub.routing :=
      List.mem_map_of_mem (List.mem_map_of_mem member)
    rw [routing] at led
    obtain ⟨_, _, same⟩ := List.mem_map.mp led
    have unregistered : line.dispatcher.isRegistered sequence = false := by
      simp [Dispatcher.isRegistered, Table.contains, ← same]
    exact ⟨unregistered, fun inbox => ⟨_, by simp [Dispatcher.register, unregistered]; rfl⟩⟩
  · rw [active, locks]
  · rw [locks, Locks.settle_askFlood]
  · rw [locks, Locks.settle_askChip]

/-- A board that accepts one request and is silent from then on. -/
def fadingBoard : Connection Transcript :=
  let accepted : Datagram :=
    Response.datagramWithCode (.toMonitor .origin .replyNotExpected) ResultCode.ok.code 0 []
  let peer : Transcript := { known := [{ arrivals := [.datagram accepted] }] }
  { number := 0, name := "board", chip := .origin, peer }

/-- A source ends in the middle of a flood that has begun, a program cannot be loaded, and the
session is closed; even so, the number that was tried last is free, and a flood may begin.
-/
theorem rests_after_history_fadingBoard
    : ∃ session : Session Transcript,
        open? [fadingBoard] [] 0 none {} = .ok session
        ∧ (session.floodWriteFrom 0x60000000 [1, 2] 5).1 = .error (.failed (.io .endOfData))
        ∧ let after :=
            session.complete
              [.floodWriteFrom 0x60000000 [1, 2] 5 .endOfData,
                .execute (.ofList .origin [1]) [1, 2, 3] 16 false, .close]
          (∃ line ∈ after.hub.lines, line.dispatcher.isRegistered 1 = false)
          ∧ (after.locks.askFlood ()).settle.1 = [((), .flood)] := by
  refine ⟨_, rfl, by cbv, ?_⟩
  obtain ⟨length, free, _, _, granted, _⟩ :=
    rests_after_history (rfl : open? [fadingBoard] [] 0 none {} = .ok _)
      [.floodWriteFrom 0x60000000 [1, 2] 5 .endOfData,
        .execute (.ofList .origin [1]) [1, 2, 3] 16 false, .close]
  have connected := Nat.lt_of_lt_of_eq Nat.one_pos length.symm
  obtain ⟨line, member⟩ := List.exists_mem_of_length_pos connected
  exact ⟨⟨line, member, (free line member 1).1⟩, granted⟩

/-- After any history a session has what its calls need to return: a selector that is steady, and
connections on which every number is free.
-/
theorem ready_after_history {chips management : List (Connection ρ)} {boots : Nat}
    {topology : Option Topology} {config : Config}
    (opened : open? chips management boots topology config = .ok session)
    (operations : List Operation)
    : let after := session.complete operations
      after.hub.selector.Steady ∧ after.hub.HasRoom sequenceCount := by
  intro after
  obtain ⟨free, nowhere, steady⟩ := rest_of_open? opened
  have restores : session.Restores after := complete_restores free operations
  refine ⟨restores.hub.steady steady, fun number => ?_⟩
  have none_used : inUseAt after.hub.routing number = 0 := by
    rw [restores.hub.routing, nowhere, inUseAt, List.getElem?_map]
    cases (chips ++ management)[number]? with
    | none => rfl
    | some =>
        rw [Option.map_some, Option.elim_some]
        exact inUse_eq_zero fun _ => rfl
  rw [none_used, Nat.zero_add]

end Session

end MeshControl
