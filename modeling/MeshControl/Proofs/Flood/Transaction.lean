import MeshControl.Proofs.Flood.Delivery
import MeshControl.Proofs.Link.Shortage

/-! Floods as transactions of three stages. One that passes the check of its size takes one of
three courses, and the next begins only after every request of the one before was accepted.
-/

namespace MeshControl.Flood

open Scp Operation Link

-----------------------------------------------------------------------------------------
-- Floods
-----------------------------------------------------------------------------------------

/-- What is to be written into the memory of every chip: data at hand, or so many bytes that a
source is to give.
-/
inductive Task
  | whole (base : UInt32) (data : List UInt8)
  | streamed (base : UInt32) (source : List UInt8) (bytes : UInt64)

namespace Task

def base : Task → UInt32
  | whole base _ => base
  | streamed base _ _ => base

/-- The number of bytes to be written. -/
def wanted : Task → Nat
  | whole _ data => data.length
  | streamed _ _ bytes => bytes.toNat

/-- The bytes that there are. -/
def data : Task → List UInt8
  | whole _ data => data
  | streamed _ source bytes => source.take bytes.toNat

/-- The source ends early. -/
def Short (task : Task) : Prop :=
  task.data.length < task.wanted

/-- The check that comes before everything else. -/
def check (task : Task) : Except Halt UInt8 :=
  checkSize task.base (UInt64.ofNat task.wanted)

/-- The number of blocks, as it is announced. -/
def announced : Task → UInt8
  | whole _ data => UInt8.ofNat (pieces data)
  | streamed _ _ bytes => UInt8.ofNat (blocksFor bytes.toNat)

def perform {ρ : Type} [Responder ρ] (hub : Hub ρ) (ids : Ids) (config : Config)
    : Task → Except Halt Unit × Hub ρ × Ids
  | whole base data => write hub ids config base data
  | streamed base source bytes =>
      let (delivered, ids) := writeFrom hub ids config base source bytes
      (delivered.result, delivered.hub, ids)

end Task

/-- The row of the one request that starts a flood. -/
def opening (id blocks : UInt8) (_ : Nat) : Request :=
  floodFillStart id blocks none

/-- The row of the one request that ends a flood. -/
def closing (id : UInt8) (_ : Nat) : Request :=
  floodFillEnd id 0 0 false

/-- The three stages of a flood. -/
structure Transaction where
  starting : Passage := {}
  delivering : Passage := {}
  ending : Passage := {}

namespace Transaction

/-- All that happened, in order. -/
def events (transaction : Transaction) : List Event :=
  transaction.starting.events ++ transaction.delivering.events ++ transaction.ending.events

def Started (transaction : Transaction) (task : Task) (id : UInt8) : Prop :=
  transaction.starting.Complete (opening id task.announced) 1

def Delivered (transaction : Transaction) (task : Task) (id : UInt8) : Prop :=
  transaction.delivering.Complete (row id task.base task.data) (blocksFor task.wanted)

def Ended (transaction : Transaction) (id : UInt8) : Prop :=
  transaction.ending.Complete (closing id) 1

/-- The stages follow each other as they must, and the result tells how far they came. -/
structure Orderly (transaction : Transaction) (task : Task) (id tag : UInt8)
    (result : Except Halt Unit) : Prop where
  start
    : transaction.starting.Ordered tag (opening id task.announced) 1
  blocks
    : transaction.delivering.Ordered tag (row id task.base task.data)
        (blocksFor task.wanted)
  finish : transaction.ending.Ordered tag (closing id) 1
  after_start : transaction.delivering.events ≠ [] → transaction.Started task id
  after_blocks
    : transaction.ending.events ≠ []
      → transaction.Started task id ∧ transaction.Delivered task id
  stopped
    : transaction.starting.Failed ∨ transaction.delivering.Failed ∨ task.Short
      → (∃ halt, result = .error halt) ∧ transaction.ending.events = []
  verdict
    : result = .ok ()
      ↔ transaction.Started task id ∧ transaction.Delivered task id ∧ transaction.Ended id

end Transaction

-----------------------------------------------------------------------------------------
-- How far a flood comes
-----------------------------------------------------------------------------------------

/-- A flood ends in one of three ways: its start failed, its blocks failed, or it came to its
own end, which may have failed as well.
-/
inductive Course (task : Task) (id tag : UInt8) (origin : List Event)
    : Except Halt Unit → List Event → Transaction → Prop
  | unstarted {starting : Passage} {journal : List Event} {halt : Halt}
    (first
      : starting.Reported origin journal tag (opening id task.announced) 1 (.error halt))
    : Course task id tag origin (.error halt) journal { starting }
  | undelivered {starting delivering : Passage} {started journal : List Event} {halt : Halt}
    (first : starting.Reported origin started tag (opening id task.announced) 1 (.ok ()))
    (second
      : delivering.Reported started journal tag (row id task.base task.data)
          (blocksFor task.wanted) (.error halt))
    : Course task id tag origin (.error halt) journal { starting, delivering }
  | closed {starting delivering ending : Passage} {started delivered journal : List Event}
    {result : Except Halt Unit}
    (first : starting.Reported origin started tag (opening id task.announced) 1 (.ok ()))
    (second
      : delivering.Reported started delivered tag (row id task.base task.data)
          (blocksFor task.wanted) (.ok ()))
    (long : ¬ task.Short)
    (third : ending.Reported delivered journal tag (closing id) 1 result)
    : Course task id tag origin result journal { starting, delivering, ending }

namespace Course

variable {task : Task} {id tag : UInt8} {origin journal : List Event}
  {result : Except Halt Unit} {transaction : Transaction}

/-- Its stages are all that happened. -/
theorem journal_eq (course : Course task id tag origin result journal transaction)
    : journal = origin ++ transaction.events := by
  cases course with
  | unstarted first => simpa [Transaction.events] using first.journal
  | undelivered first second =>
      rw [second.journal, first.journal]
      simp [Transaction.events]
  | closed first second _ third =>
      rw [third.journal, second.journal, first.journal]
      simp [Transaction.events]

/-- A stage that was never reached has sent nothing. -/
theorem ordered_empty (tag : UInt8) (plain : Nat → Request) (count : Nat)
    : Passage.Ordered {} tag plain count :=
  ⟨⟨0, Nat.zero_le _, .nil _ _ _⟩, 0, Nat.zero_le _, .nil _ _ _⟩

theorem orderly (course : Course task id tag origin result journal transaction)
    : transaction.Orderly task id tag result := by
  cases course with
  | @unstarted starting _ halt first =>
      have not_started : ¬ starting.Complete (opening id task.announced) 1 := by
        intro complete
        cases first.verdict.mpr complete
      exact {
        start := first.ordered
        blocks := ordered_empty _ _ _
        finish := ordered_empty _ _ _
        after_start := fun happened => absurd rfl happened
        after_blocks := fun happened => absurd rfl happened
        stopped := fun _ => ⟨⟨halt, rfl⟩, rfl⟩
        verdict := ⟨nofun, fun all => absurd all.1 not_started⟩ }
  | @undelivered starting delivering _ _ halt first second =>
      have started := first.verdict.mp rfl
      have not_delivered : ¬ delivering.Complete (row id task.base task.data)
          (blocksFor task.wanted) := by
        intro complete
        cases second.verdict.mpr complete
      exact {
        start := first.ordered
        blocks := second.ordered
        finish := ordered_empty _ _ _
        after_start := fun _ => started
        after_blocks := fun happened => absurd rfl happened
        stopped := fun _ => ⟨⟨halt, rfl⟩, rfl⟩
        verdict := ⟨nofun, fun all => absurd all.2.1 not_delivered⟩ }
  | closed first second long third =>
      have started := first.verdict.mp rfl
      have delivered := second.verdict.mp rfl
      exact {
        start := first.ordered
        blocks := second.ordered
        finish := third.ordered
        after_start := fun _ => started
        after_blocks := fun _ => ⟨started, delivered⟩
        stopped := by
          rintro (failed | failed | short)
          · exact absurd started (first.failed failed)
          · exact absurd delivered (second.failed failed)
          · exact absurd short long
        verdict :=
          ⟨fun succeeded => ⟨started, delivered, third.verdict.mp succeeded⟩,
            fun all => third.verdict.mpr all.2.2⟩ }

end Course

variable {ρ : Type} [Responder ρ] {hub after : Hub ρ} {ids left : Ids} {config : Config}
  {result : Except Halt Unit}

theorem start_reported {id blocks : UInt8} (done : start hub config id blocks = (result, after))
    : ∃ passage : Passage,
        passage.Reported hub.journal.toList after.journal.toList config.tag (opening id blocks) 1
          result :=
  Hub.batch_reported (fun _ _ => rfl) done

theorem start_returns {id blocks : UInt8} {count : Nat} (some_blocks : 0 < count)
    (room : hub.HasRoom count) (done : start hub config id blocks = (result, after))
    : Returns result ∧ after.HasRoom count :=
  Hub.batch_returns_of_room (fun _ _ => ⟨_, rfl⟩) some_blocks room done

theorem finish_reported {id : UInt8} (done : finish hub config id = (result, after))
    : ∃ passage : Passage,
        passage.Reported hub.journal.toList after.journal.toList config.tag (closing id) 1
          result :=
  Hub.batch_reported (fun _ _ => rfl) done

theorem finish_returns {id : UInt8} {count : Nat} (some_blocks : 0 < count)
    (room : hub.HasRoom count) (done : finish hub config id = (result, after))
    : Returns result :=
  (Hub.batch_returns_of_room (fun _ _ => ⟨_, rfl⟩) some_blocks room done).1

/-- A delivery gives back all that its process borrowed, and leaves a steady selector as it is; by
the recursion of the delivery.
-/
theorem deliverFrom_restores {routing : List (UInt16 → Option Nat)} {process : Process}
    (borrows : process.Borrows routing hub.routing) (id number : UInt8) (address : UInt32)
    (remaining : Nat) (source : List UInt8) (failure : IoFailure)
    : let delivered := deliverFrom hub process id number address remaining source failure
      delivered.hub.routing = routing
      ∧ (hub.selector.Steady → delivered.hub.selector = hub.selector) := by
  fun_induction deliverFrom hub process id number address remaining source failure with
  | case1 hub process number address source result after later ended =>
      have waits := Process.selector_finishAndCheck hub process
      rw [ended] at waits
      exact ⟨(borrows.finishAndCheck ended).drop,
        fun _ => (Process.selector_drop after later).trans waits⟩
  | case2 hub process number address remaining source _ size short result after later ended =>
      have waits := Process.selector_finish hub process
      rw [ended] at waits
      exact ⟨(borrows.finish ended).drop, fun _ => (Process.selector_drop after later).trans waits⟩
  | case3 hub process number address remaining source _ size enough block rest error after later
      sent =>
      refine ⟨(borrows.sendAll sent).drop, fun steady => ?_⟩
      have sends := Process.selector_sendAll steady (fun _ => deliver id block) process 0 1
      rw [sent] at sends
      exact (Process.selector_drop after later).trans sends
  | case4 hub process number address remaining source _ size enough block rest after later sent
      ih =>
      obtain ⟨routed, stays⟩ := ih (borrows.sendAll sent)
      refine ⟨routed, fun steady => ?_⟩
      have sends := Process.selector_sendAll steady (fun _ => deliver id block) process 0 1
      rw [sent] at sends
      dsimp only at sends
      rw [stays (sends ▸ steady), sends]

/-- Where each connection has a free number for every block, a delivery returns, whatever becomes
of its source; by induction on the blocks to come.
-/
theorem deliverFrom_returns {origin : List Event} {tag id number : UInt8}
    {base address : UInt32} {source rest : List UInt8} {bytes remaining : Nat}
    {process : Process} {passage : Passage}
    {routing : List (UInt16 → Option Nat)}
    (underway
      : Process.Underway origin tag (row id base (source.take bytes)) passage hub process)
    (reached
      : Reached base source bytes passage.numbers.length number address remaining rest)
    (borrows : process.Borrows routing hub.routing)
    (room : ∀ number, inUseAt routing number + blocksFor bytes ≤ sequenceCount)
    (failure : IoFailure)
    : Returns (deliverFrom hub process id number address remaining rest failure).result := by
  fun_induction deliverFrom hub process id number address remaining rest failure
    generalizing passage with
  | case1 => exact returns_mapError _
  | case2 => exact .inr ⟨_, rfl⟩
  | case3 hub process number address remaining rest more size enough block left halt after
      later =>
      rename_i sent
      obtain ⟨next, some_data⟩ := reached.block more enough
      have one
          : Process.sendAll (fun _ => deliver id block) hub process 0 1
            = Process.send hub process
                (row id base (source.take bytes) passage.numbers.length) {} := by
        rw [show block = _ from next]
        exact sendAll_one hub process (deliver_blockAt id base some_data)
      have returns := underway.send_returns borrows room (reached.lt_blocksFor more)
        (row id base (source.take bytes) passage.numbers.length)
      rw [← one, sent] at returns
      exact returns
  | case4 hub process number address remaining rest more size enough block left after later =>
      rename_i sent ih
      have advance := sendAll_block underway reached more enough sent
      generalize length : passage.numbers.length + 1 = length at advance
      cases advance with
      | onward onward =>
          exact ih onward (length ▸ reached.next more enough) (borrows.sendAll sent)

/-- A flood that passes the check has a block. -/
theorem blocksFor_pos {base : UInt32} {bytes : Nat} {blocks : UInt8}
    (checked : checkSize base (UInt64.ofNat bytes) = .ok blocks)
    : 0 < blocksFor bytes := by
  obtain ⟨⟨some_bytes, _⟩, _⟩ := fits_of_checkSize checked
  rw [UInt64.toNat_ofNat'] at some_bytes
  simp only [blocksFor, maxData]
  omega

/-- A flood of data at hand that passes the check draws a number and takes one of the courses. It
returns where each connection has a free number for every block.
-/
theorem write_course {base : UInt32} {data : List UInt8} {blocks : UInt8}
    (checked : checkSize base (UInt64.ofNat data.length) = .ok blocks)
    (done : write hub ids config base data = (result, after, left))
    : left = ids.draw.2
      ∧ (hub.HasRoom (blocksFor data.length) → Returns result)
      ∧ ∃ transaction,
          Course (.whole base data) ids.draw.1 config.tag hub.journal.toList result
            after.journal.toList transaction := by
  have some_blocks := blocksFor_pos checked
  simp only [write, checked] at done
  generalize first : start hub config ids.draw.1 (UInt8.ofNat (pieces data)) = outcome at done
  obtain ⟨verdict, started⟩ := outcome
  obtain ⟨starting, reported⟩ := start_reported first
  have begins (room : hub.HasRoom (blocksFor data.length)) :=
    start_returns some_blocks room first
  cases verdict with
  | error halt =>
      obtain ⟨rfl, rfl, rfl⟩ := by simpa using done
      exact ⟨rfl, fun room => (begins room).1, _, .unstarted reported⟩
  | ok =>
      dsimp only at done
      generalize second
        : started.batch config (pieces data)
            (fun index => deliver ids.draw.1 (blockAt base data index))
          = outcome at done
      obtain ⟨verdict, delivered⟩ := outcome
      have orders : ∀ index < pieces data,
          deliver ids.draw.1 (blockAt base data index)
            = { request := .ok (row ids.draw.1 base data index) } := fun index within =>
        deliver_blockAt _ _ ((lt_pieces_iff data index).mp within)
      obtain ⟨delivering, all⟩ := Hub.batch_reported orders second
      have delivers (room : hub.HasRoom (blocksFor data.length)) :=
        Hub.batch_returns_of_room (fun index within => ⟨_, orders index within⟩) (Nat.le_refl _)
          (begins room).2 second
      cases verdict with
      | error halt =>
          obtain ⟨rfl, rfl, rfl⟩ := by simpa using done
          exact ⟨rfl, fun room => (delivers room).1, _, .undelivered reported all⟩
      | ok =>
          dsimp only at done
          generalize third : finish delivered config ids.draw.1 = outcome at done
          obtain ⟨verdict, last⟩ := outcome
          obtain ⟨ending, closed⟩ := finish_reported third
          obtain ⟨rfl, rfl, rfl⟩ := by simpa using done
          exact ⟨rfl, fun room => finish_returns some_blocks (delivers room).2 third, _,
            .closed reported all (Nat.lt_irrefl _) closed⟩

/-- A flood from a source that passes the check does so, too. -/
theorem writeFrom_course {base : UInt32} {source : List UInt8} {bytes : UInt64}
    {failure : IoFailure} {blocks : UInt8} {delivered : Delivered ρ}
    (checked : checkSize base bytes = .ok blocks)
    (done : writeFrom hub ids config base source bytes failure = (delivered, left))
    : left = ids.draw.2
      ∧ (hub.HasRoom (blocksFor bytes.toNat) → Returns delivered.result)
      ∧ ∃ transaction,
          Course (.streamed base source bytes) ids.draw.1 config.tag hub.journal.toList
            delivered.result delivered.hub.journal.toList transaction := by
  have announced : blocks = UInt8.ofNat (blocksFor bytes.toNat) := (fits_of_checkSize checked).2
  have some_blocks : 0 < blocksFor bytes.toNat :=
    blocksFor_pos (by rwa [UInt64.ofNat_toNat])
  simp only [writeFrom, checked] at done
  generalize first : start hub config ids.draw.1 blocks = outcome at done
  obtain ⟨verdict, started⟩ := outcome
  obtain ⟨starting, reported⟩ := start_reported first
  have begins (room : hub.HasRoom (blocksFor bytes.toNat)) :=
    start_returns some_blocks room first
  rw [announced] at reported
  cases verdict with
  | error halt =>
      obtain ⟨rfl, rfl⟩ := by simpa using done
      exact ⟨rfl, fun room => (begins room).1, _, .unstarted reported⟩
  | ok =>
      dsimp only at done
      have underway := Process.Underway.start started config
        (row ids.draw.1 base (source.take bytes.toNat))
      obtain ⟨⟨delivering, all⟩, short⟩ :=
        deliverFrom_reported underway (.start base source bytes.toNat)
      have borrows := Process.borrows_nothing config started.routing
      have delivers (room : hub.HasRoom (blocksFor bytes.toNat)) :=
        deliverFrom_returns underway (.start base source bytes.toNat) borrows (begins room).2
          failure
      obtain ⟨kept, _⟩ :=
        deliverFrom_restores borrows ids.draw.1 0 base bytes.toNat source failure
      generalize second
        : deliverFrom started { config } ids.draw.1 0 base bytes.toNat source failure = middle
          at done all short kept delivers
      obtain ⟨verdict, unread, after_blocks⟩ := middle
      cases verdict with
      | error halt =>
          obtain ⟨rfl, rfl⟩ := by simpa using done
          exact ⟨rfl, delivers, _, .undelivered reported all⟩
      | ok =>
          dsimp only at done short kept
          generalize third : finish after_blocks config ids.draw.1 = outcome at done
          obtain ⟨verdict, last⟩ := outcome
          obtain ⟨ending, closed⟩ := finish_reported third
          obtain ⟨rfl, rfl⟩ := by simpa using done
          have long : ¬ (Task.streamed base source bytes).Short := by
            intro early
            simp only [Task.Short, Task.data, Task.wanted, List.length_take] at early
            obtain ⟨halt, impossible⟩ := short (by omega)
            cases impossible
          exact ⟨rfl,
            fun room => finish_returns some_blocks ((begins room).2.of_routing kept) third, _,
            .closed reported all long closed⟩

theorem perform_course {task : Task} {blocks : UInt8} (checked : task.check = .ok blocks)
    (done : task.perform hub ids config = (result, after, left))
    : left = ids.draw.2
      ∧ (hub.HasRoom (blocksFor task.wanted) → Returns result)
      ∧ ∃ transaction,
          Course task ids.draw.1 config.tag hub.journal.toList result after.journal.toList
            transaction := by
  cases task with
  | whole base data => exact write_course checked done
  | streamed base source bytes =>
      simp only [Task.check, Task.base, Task.wanted, UInt64.ofNat_toNat] at checked
      simp only [Task.perform] at done
      generalize written : writeFrom hub ids config base source bytes = outcome at done
      obtain ⟨delivered, last⟩ := outcome
      obtain ⟨rfl, rfl, rfl⟩ := by simpa using done
      exact writeFrom_course checked written

/-- A flood that does not pass the check does nothing. -/
theorem perform_refused {task : Task} {halt : Halt} (refused : task.check = .error halt)
    : task.perform hub ids config = (.error halt, hub, ids) := by
  cases task with
  | whole base data =>
      simp only [Task.check, Task.base, Task.wanted] at refused
      simp only [Task.perform, write, refused]
  | streamed base source bytes =>
      simp only [Task.check, Task.base, Task.wanted, UInt64.ofNat_toNat] at refused
      simp only [Task.perform, writeFrom, refused]

end MeshControl.Flood
