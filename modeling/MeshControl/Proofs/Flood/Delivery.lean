import MeshControl.Proofs.Flood.Blocks
import MeshControl.Proofs.Link.Batch

/-! The delivery of a flood from a source, block after block. As far as it has come it has sent
the blocks of the data in order; a source that ends early ends the delivery with an error.
-/

namespace MeshControl.Flood

open Scp Operation Link

/-- The row of requests that deliver some data. -/
def row (id : UInt8) (base : UInt32) (data : List UInt8) (index : Nat) : Request :=
  dataRequest id (blockAt base data index)

/-- How many blocks so many bytes make. -/
def blocksFor (bytes : Nat) : Nat :=
  (bytes + (maxData - 1)) / maxData

/-- Where a delivery of so many bytes stands: before a block, or behind all of them. -/
inductive Reached (base : UInt32) (source : List UInt8) (bytes : Nat)
    : Nat → UInt8 → UInt32 → Nat → List UInt8 → Prop
  | before {index : Nat} (more : index * maxData < bytes)
    (read : index * maxData ≤ source.length)
    : Reached base source bytes index (UInt8.ofNat index)
        (base + UInt32.ofNat (index * maxData)) (bytes - index * maxData)
        (source.drop (index * maxData))
  | behind {number : UInt8} {address : UInt32} {rest : List UInt8}
    (enough : bytes ≤ source.length)
    : Reached base source bytes (blocksFor bytes) number address 0 rest

namespace Reached

variable {base address : UInt32} {source rest : List UInt8} {bytes index remaining : Nat}
  {number : UInt8}

theorem start (base : UInt32) (source : List UInt8) (bytes : Nat)
    : Reached base source bytes 0 0 base bytes source := by
  cases bytes with
  | zero => exact .behind (Nat.zero_le _)
  | succ bytes =>
      have first : Reached base source (bytes + 1) 0 _ _ _ _ :=
        .before (by simp) (by simp)
      simpa using first

/-- The next block is one of the data's, and not an empty one. -/
theorem block (reached : Reached base source bytes index number address remaining rest)
    (more : remaining ≠ 0) (enough : ¬ rest.length < min remaining maxData)
    : (⟨number, address, padToWord (rest.take (min remaining maxData))⟩ : Block)
        = blockAt base (source.take bytes) index
      ∧ index * maxData < (source.take bytes).length := by
  cases reached with
  | before within read =>
      simp only [List.length_drop] at enough
      refine ⟨?_, ?_⟩
      · simp only [blockAt, Wire.field, List.drop_take, List.take_take, Nat.min_comm]
      · rw [List.length_take]
        simp only [maxData] at *
        omega
  | behind => exact absurd rfl more

/-- Behind a block is the next one, or the end. -/
theorem next (reached : Reached base source bytes index number address remaining rest)
    (more : remaining ≠ 0) (enough : ¬ rest.length < min remaining maxData)
    : Reached base source bytes (index + 1) (number + 1)
        (address + UInt32.ofNat (min remaining maxData)) (remaining - min remaining maxData)
        (rest.drop (min remaining maxData)) := by
  cases reached with
  | before within read =>
      simp only [List.length_drop] at enough
      by_cases further : (index + 1) * maxData < bytes
      · have whole : min (bytes - index * maxData) maxData = maxData := by
          simp only [maxData] at *
          omega
        rw [whole] at enough ⊢
        have read_next : (index + 1) * maxData ≤ source.length := by
          rw [Nat.succ_mul]
          omega
        have place : base + UInt32.ofNat (index * maxData) + UInt32.ofNat maxData
            = base + UInt32.ofNat ((index + 1) * maxData) := by
          rw [UInt32.add_assoc, ← UInt32.ofNat_add, Nat.succ_mul]
        have number : UInt8.ofNat index + 1 = UInt8.ofNat (index + 1) :=
          (UInt8.ofNat_add index 1).symm
        have after : Reached base source bytes (index + 1) _ _ _ _ :=
          .before further read_next
        rw [List.drop_drop, place, number, Nat.sub_sub, ← Nat.succ_mul]
        exact after
      · have count : blocksFor bytes = index + 1 := by
          simp only [blocksFor, maxData] at *
          omega
        have none_left : bytes - index * maxData - min (bytes - index * maxData) maxData = 0 := by
          simp only [maxData] at *
          omega
        rw [← count, none_left]
        exact .behind (by simp only [maxData] at *; omega)
  | behind => exact absurd rfl more

/-- So far not all blocks were sent. -/
theorem lt_blocksFor (reached : Reached base source bytes index number address remaining rest)
    (more : remaining ≠ 0)
    : index < blocksFor bytes := by
  cases reached with
  | before within =>
      simp only [blocksFor, maxData] at *
      omega
  | behind => exact absurd rfl more

theorem all_sent (reached : Reached base source bytes index number address 0 rest)
    : index = blocksFor bytes ∧ bytes ≤ source.length := by
  generalize none_left : 0 = remaining at reached
  cases reached with
  | before within => omega
  | behind enough => exact ⟨rfl, enough⟩

end Reached

-----------------------------------------------------------------------------------------
-- The delivery
-----------------------------------------------------------------------------------------

variable {ρ : Type} [Responder ρ]

/-- A single order is sent as its request. -/
theorem sendAll_one {orders : Nat → Order} {request : Request} (hub : Hub ρ)
    (process : Process) (order : orders 0 = { request := .ok request })
    : Process.sendAll orders hub process 0 1 = Process.send hub process request {} := by
  rw [Process.sendAll, order]
  dsimp only
  generalize Process.send hub process request {} = outcome
  obtain ⟨result, after, later⟩ := outcome
  cases result with
  | error halt => rfl
  | ok => rfl

/-- The next block of a delivery goes out, or the delivery breaks off. -/
theorem sendAll_block {origin : List Event} {tag id number : UInt8} {base address : UInt32}
    {source rest : List UInt8} {bytes remaining : Nat} {hub after : Hub ρ}
    {process later : Process} {passage : Passage} {result : Except Halt Unit}
    (underway
      : Process.Underway origin tag (row id base (source.take bytes)) passage hub process)
    (reached
      : Reached base source bytes passage.numbers.length number address remaining rest)
    (more : remaining ≠ 0) (enough : ¬ rest.length < min remaining maxData)
    (done
      : Process.sendAll
          (fun _ =>
            deliver id ⟨number, address, padToWord (rest.take (min remaining maxData))⟩)
          hub process 0 1
        = (result, after, later))
    : Process.Advance origin tag (row id base (source.take bytes)) (passage.numbers.length + 1)
        result after later := by
  obtain ⟨block, some_data⟩ := reached.block more enough
  rw [block, sendAll_one hub process (deliver_blockAt id base some_data)] at done
  exact underway.send done

/-- From wherever it stands, a delivery reports whether every block was accepted, and a source
that is too short makes it fail; by induction on the blocks to come.
-/
theorem deliverFrom_reported {origin : List Event} {tag id number : UInt8}
    {base address : UInt32} {source rest : List UInt8} {bytes remaining : Nat} {hub : Hub ρ}
    {process : Process} {passage : Passage} {failure : IoFailure}
    (underway
      : Process.Underway origin tag (row id base (source.take bytes)) passage hub process)
    (reached
      : Reached base source bytes passage.numbers.length number address remaining rest)
    : let delivered := deliverFrom hub process id number address remaining rest failure
      (∃ whole : Passage,
        whole.Reported origin delivered.hub.journal.toList tag
          (row id base (source.take bytes)) (blocksFor bytes) delivered.result)
      ∧ (source.length < bytes → ∃ halt, delivered.result = .error halt) := by
  fun_induction deliverFrom hub process id number address remaining rest failure
    generalizing passage with
  | case1 hub process number address rest result after later checked =>
      obtain ⟨seated, whole, reported⟩ := underway.finishAndCheck checked
      obtain ⟨count, enough⟩ := reached.all_sent
      refine ⟨⟨whole, ?_⟩, fun short => absurd enough (Nat.not_le.mpr short)⟩
      rw [(Process.drop_yields seated).2, ← count]
      exact reported
  | case2 hub process number address remaining rest more size short result after later =>
      rename_i waited
      obtain ⟨_, seated, events, settled, progress, _⟩ := underway.finish waited
      refine ⟨⟨passage.extend events, ?_⟩, fun _ => ⟨_, rfl⟩⟩
      rw [(Process.drop_yields seated).2]
      exact (progress.stopped.later (reached.lt_blocksFor more)).reported _
  | case3 hub process number address remaining rest more size enough block left halt after
      later =>
      rename_i sent
      have advance := sendAll_block underway reached more enough sent
      generalize stopped : passage.numbers.length + 1 = length at advance
      cases advance with
      | @halted sent _ _ _ _ seated broken =>
          refine ⟨⟨sent, ?_⟩, fun _ => ⟨_, rfl⟩⟩
          rw [(Process.drop_yields seated).2]
          exact (broken.later (stopped ▸ reached.lt_blocksFor more)).reported _
  | case4 hub process number address remaining rest more size enough block left after later =>
      rename_i sent ih
      have advance := sendAll_block underway reached more enough sent
      generalize length : passage.numbers.length + 1 = length at advance
      cases advance with
      | onward onward => exact ih onward (length ▸ reached.next more enough)

end MeshControl.Flood
