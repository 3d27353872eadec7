import Mathlib.Data.List.Permutation
import MeshControl.Proofs.Flood.Protocol

/-! Floods of data at hand and floods from a source are one. A source that gives the very same
bytes makes the loop over what remains send the blocks that the data are cut into, so that a flood
from it leaves everything as the flood of the data would.
-/

namespace MeshControl

open Scp Operation Link

-----------------------------------------------------------------------------------------
-- The rest of a batch
-----------------------------------------------------------------------------------------

namespace Link

variable {ρ : Type} [Responder ρ]

/-- What a batch still does behind some of its orders: it sends the others, waits, checks, and
leaves no request behind.
-/
def Process.conclude (orders : Nat → Order) (hub : Hub ρ) (process : Process)
    (index count : Nat) : Except Halt Unit × Hub ρ :=
  match Process.sendAll orders hub process index count with
  | (.error halt, hub, process) => (.error halt, process.drop hub)
  | (.ok (), hub, process) =>
      let (result, hub, process) := Process.finishAndCheck hub process
      (result.mapError .failed, process.drop hub)

theorem Hub.batch_eq_conclude (hub : Hub ρ) (config : Config) (count : Nat)
    (orders : Nat → Order)
    : hub.batch config count orders = Process.conclude orders hub { config } 0 count :=
  rfl

/-- An order is sent alone as it is among the others. -/
theorem Process.sendAll_succ (orders : Nat → Order) (hub : Hub ρ) (process : Process)
    (index count : Nat)
    : Process.sendAll orders hub process index (count + 1)
      = match Process.sendAll (fun _ => orders index) hub process 0 1 with
        | (.error halt, hub, process) => (.error halt, hub, process)
        | (.ok (), hub, process) => Process.sendAll orders hub process (index + 1) count := by
  rw [Process.sendAll, Process.sendAll]
  cases (orders index).request with
  | error halt => rfl
  | ok request =>
      dsimp only
      generalize Process.send hub process request (orders index).handler = outcome
      obtain ⟨result, after, later⟩ := outcome
      cases result with
      | error halt => rfl
      | ok => rfl

/-- A batch that is to send one more order breaks off there, or has the others before it. -/
theorem Process.conclude_succ (orders : Nat → Order) (hub : Hub ρ) (process : Process)
    (index count : Nat)
    : Process.conclude orders hub process index (count + 1)
      = match Process.sendAll (fun _ => orders index) hub process 0 1 with
        | (.error halt, hub, process) => (.error halt, process.drop hub)
        | (.ok (), hub, process) =>
            Process.conclude orders hub process (index + 1) count := by
  rw [conclude, sendAll_succ]
  generalize Process.sendAll (fun _ => orders index) hub process 0 1 = outcome
  obtain ⟨result, after, later⟩ := outcome
  cases result with
  | error halt => rfl
  | ok => rfl

end Link

namespace Flood

-----------------------------------------------------------------------------------------
-- The delivery
-----------------------------------------------------------------------------------------

variable {ρ : Type} [Responder ρ]

/-- While bytes are wanted, a source that has them all gives the next block in full. -/
theorem Reached.supplied {base address : UInt32} {source rest : List UInt8}
    {bytes index remaining : Nat} {number : UInt8}
    (reached : Reached base source bytes index number address remaining rest)
    (more : remaining ≠ 0) (enough : bytes ≤ source.length)
    : ¬ rest.length < min remaining maxData := by
  cases reached with
  | before within read =>
      rw [List.length_drop]
      omega
  | behind => exact absurd rfl more

/-- A delivery from a source that has all bytes does what is left of a batch of the blocks; by
induction on the blocks to come.
-/
theorem deliverFrom_eq_conclude {base address : UInt32} {source rest : List UInt8}
    {bytes index remaining : Nat} {number : UInt8} (hub : Hub ρ) (process : Process) (id : UInt8)
    (failure : IoFailure)
    (reached : Reached base source bytes index number address remaining rest)
    (enough : bytes ≤ source.length)
    : let delivered := deliverFrom hub process id number address remaining rest failure
      (delivered.result, delivered.hub)
        = Process.conclude (fun index => deliver id (blockAt base (source.take bytes) index))
            hub process index (blocksFor bytes - index) := by
  fun_induction deliverFrom hub process id number address remaining rest failure
    generalizing index with
  | case1 hub process number address rest result after later checked =>
      obtain ⟨rfl, -⟩ := reached.all_sent
      rw [Nat.sub_self, Process.conclude, Process.sendAll]
      dsimp only
      rw [checked]
  | case2 hub process number address remaining rest more size short =>
      exact absurd short (reached.supplied more enough)
  | case3 hub process number address remaining rest more size long block left halt after later =>
      rename_i sent
      obtain ⟨same, -⟩ := reached.block more long
      have further : blocksFor bytes - index = blocksFor bytes - (index + 1) + 1 := by
        have within := reached.lt_blocksFor more
        omega
      rw [further, Process.conclude_succ, ← same, sent]
  | case4 hub process number address remaining rest more size long block left after later =>
      rename_i sent ih
      obtain ⟨same, -⟩ := reached.block more long
      have further : blocksFor bytes - index = blocksFor bytes - (index + 1) + 1 := by
        have within := reached.lt_blocksFor more
        omega
      rw [further, Process.conclude_succ, ← same, sent]
      exact ih (reached.next more long)

/-- From its beginning, a delivery is the batch of all blocks. -/
theorem deliverFrom_eq_batch {source : List UInt8} {bytes : Nat} (hub : Hub ρ) (config : Config)
    (id : UInt8) (base : UInt32) (failure : IoFailure) (enough : bytes ≤ source.length)
    : let delivered := deliverFrom hub { config } id 0 base bytes source failure
      (delivered.result, delivered.hub)
        = hub.batch config (blocksFor bytes) fun index =>
            deliver id (blockAt base (source.take bytes) index) := by
  rw [Hub.batch_eq_conclude]
  exact deliverFrom_eq_conclude hub { config } id failure (.start base source bytes) enough

-----------------------------------------------------------------------------------------
-- Floods
-----------------------------------------------------------------------------------------

/-- A flood from a source that has all bytes is the flood of those bytes. -/
theorem writeFrom_supplied {source : List UInt8} {bytes : UInt64} (hub : Hub ρ) (ids : Ids)
    (config : Config) (base : UInt32) (failure : IoFailure)
    (enough : bytes.toNat ≤ source.length)
    : let written := writeFrom hub ids config base source bytes failure
      (written.1.result, written.1.hub, written.2)
        = write hub ids config base (source.take bytes.toNat) := by
  have length : (source.take bytes.toNat).length = bytes.toNat := by
    rw [List.length_take, Nat.min_eq_left enough]
  have count : pieces (source.take bytes.toNat) = blocksFor bytes.toNat := by
    rw [pieces, length, blocksFor]
  cases checked : checkSize base bytes with
  | error halt => simp only [writeFrom, write, length, UInt64.ofNat_toNat, checked]
  | ok blocks =>
      have announced : blocks = UInt8.ofNat (blocksFor bytes.toNat) := (fits_of_checkSize checked).2
      simp only [writeFrom, write, length, UInt64.ofNat_toNat, checked, announced, count]
      generalize start hub config ids.draw.1 (UInt8.ofNat (blocksFor bytes.toNat)) = outcome
      obtain ⟨result, started⟩ := outcome
      cases result with
      | error halt => rfl
      | ok =>
          have same := deliverFrom_eq_batch started config ids.draw.1 base failure enough
          dsimp only at same ⊢
          rw [← same]
          generalize deliverFrom started { config } ids.draw.1 0 base bytes.toNat source failure
            = delivered
          obtain ⟨result, unread, after⟩ := delivered
          cases result with
          | error halt => rfl
          | ok => rfl

/-- A flood from a source that gives exactly the data, and perhaps more behind them, is the flood
of the data: it has the same result, and leaves the same connections, dispatchers, peers, journal
and numbers, for every size that 64 bits can hold and every way in which the source might have
failed later. Witness: both deliveries are the batch of the same blocks, and both starts announce
the same number of them.
-/
theorem writeFrom_eq_write {data : List UInt8} (hub : Hub ρ) (ids : Ids) (config : Config)
    (base : UInt32) (beyond : List UInt8) (failure : IoFailure)
    (counted : data.length < 2 ^ 64)
    : let written :=
        writeFrom hub ids config base (data ++ beyond) (UInt64.ofNat data.length) failure
      (written.1.result, written.1.hub, written.2) = write hub ids config base data := by
  have length : (UInt64.ofNat data.length).toNat = data.length :=
    UInt64.toNat_ofNat_of_lt' counted
  have enough : (UInt64.ofNat data.length).toNat ≤ (data ++ beyond).length := by
    rw [length, List.length_append]
    omega
  have supplied := writeFrom_supplied hub ids config base failure enough
  rwa [length, List.take_left] at supplied

set_option maxRecDepth 4000 in
/-- Three blocks, the last of which is no whole number of words and ends where the address space
ends.
-/
theorem writeFrom_eq_write_lastWord
    : let data : List UInt8 := (List.range 515).map UInt8.ofNat
      let written :=
        writeFrom (acceptingHub 5) {} {} 0xfffffdfc (data ++ [6]) (UInt64.ofNat data.length)
          .endOfData
      data.length < 2 ^ 64
      ∧ (written.1.result, written.1.hub, written.2)
        = write (acceptingHub 5) {} {} 0xfffffdfc data
      ∧ written.1.result.isOk = true
      ∧ (transmissions written.1.hub.journal.toList).length = 5 := by
  intro data
  have counted : data.length < 2 ^ 64 := by simp [data]
  refine ⟨counted, writeFrom_eq_write (acceptingHub 5) {} {} 0xfffffdfc [6] .endOfData counted,
    ?_⟩
  cbv

end Flood

end MeshControl
