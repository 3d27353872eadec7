import MeshControl.Operation.Application
import MeshControl.Proofs.Board.Cores
import Mathlib.Data.Nat.Bitwise

/-! The words of a start and of a count. The board reads from them what was put into them: the
application, the processors and whether they wait; the application and the state that is counted.
-/

namespace MeshControl.Board

open Operation

-----------------------------------------------------------------------------------------
-- Bits of processors
-----------------------------------------------------------------------------------------

/-- The word with the bit of a processor alone. -/
theorem toNat_bit {number : UInt8} (few : number.toNat < 32)
    : ((1 : UInt32) <<< number.toUInt32).toNat = 2 ^ number.toNat := by
  rw [UInt32.toNat_shiftLeft, UInt8.toNat_toUInt32, Nat.mod_eq_of_lt few]
  simp only [UInt32.reduceToNat, Nat.one_shiftLeft]
  exact Nat.mod_eq_of_lt (Nat.pow_lt_pow_right (by decide) few)

/-- A word names the processors whose bits are set. -/
theorem and_bit_ne_zero_iff (word : UInt32) {number : UInt8} (few : number.toNat < 32)
    : word &&& ((1 : UInt32) <<< number.toUInt32) ≠ 0
      ↔ word.toNat.testBit number.toNat = true := by
  rw [Ne, ← UInt32.toNat_inj, UInt32.toNat_and, toNat_bit few, Nat.and_two_pow]
  cases word.toNat.testBit number.toNat <;> simp

/-- The bits that are set one after the other; by induction on the processors. -/
theorem testBit_foldl_or {numbers : List UInt8} (few : ∀ number ∈ numbers, number.toNat < 32)
    (word : UInt32) (index : Nat)
    : (numbers.foldl (fun mask number => mask ||| ((1 : UInt32) <<< number.toUInt32))
          word).toNat.testBit index
      = (word.toNat.testBit index || numbers.any fun number => number.toNat == index) := by
  induction numbers generalizing word with
  | nil => simp
  | cons number rest ih =>
      have later := fun other member => few other (List.mem_cons_of_mem number member)
      rw [List.foldl_cons, ih later, UInt32.toNat_or, Nat.testBit_or,
        toNat_bit (few number List.mem_cons_self), Nat.testBit_two_pow, List.any_cons,
        Bool.or_assoc]
      rfl

/-- The mask of some processors has their bits, and no others. -/
theorem testBit_mask (processors : Core.Processors) (index : Nat)
    : processors.mask.toNat.testBit index = true
      ↔ index < 32 ∧ ∃ number ∈ processors.list, number.toNat = index := by
  have few : ∀ number ∈ processors.list.filter (· < 32), number.toNat < 32 := by
    intro number member
    simpa [UInt8.lt_iff_toNat_lt] using (List.mem_filter.mp member).2
  rw [Core.Processors.mask, testBit_foldl_or few]
  simp only [UInt32.reduceToNat, Nat.zero_testBit, Bool.false_or, List.any_eq_true,
    List.mem_filter, beq_iff_eq, decide_eq_true_eq, UInt8.lt_iff_toNat_lt, UInt8.reduceToNat]
  constructor
  · rintro ⟨number, ⟨member, small⟩, rfl⟩
    exact ⟨small, number, member, rfl⟩
  · rintro ⟨small, number, member, rfl⟩
    exact ⟨number, ⟨member, small⟩, rfl⟩

/-- Programs run on the processors 1 to 17. -/
theorem mem_applicationCores_iff {number : UInt8}
    : number ∈ State.applicationCores ↔ 0 < number.toNat ∧ number.toNat ≤ 17 := by
  simp only [State.applicationCores, List.mem_map, List.mem_range]
  constructor
  · rintro ⟨index, within, rfl⟩
    simp only [UInt8.toNat_ofNat']
    omega
  · rintro ⟨positive, small⟩
    refine ⟨number.toNat - 1, by omega, ?_⟩
    rw [Nat.sub_add_cancel positive, UInt8.ofNat_toNat]

-----------------------------------------------------------------------------------------
-- The word of a start
-----------------------------------------------------------------------------------------

/-- Programs run on all of these processors. -/
def Runnable (processors : Core.Processors) : Prop :=
  ∀ number ∈ processors.list, 0 < number.toNat ∧ number.toNat ≤ 17

/-- A word has no bits but those of processors that programs run on. -/
def RunnableMask (mask : UInt32) : Prop :=
  ∀ index, mask.toNat.testBit index = true → 0 < index ∧ index ≤ 17

theorem Runnable.mask {processors : Core.Processors} (runs : Runnable processors)
    : RunnableMask processors.mask := by
  intro index bit
  obtain ⟨_, number, member, rfl⟩ := (testBit_mask processors index).mp bit
  exact runs number member

section Start

variable {application : UInt8} {processors : Core.Processors} {wait : Bool}

/-- The bits of a start: the application from bit 24 on, the processors, and whether they wait. -/
theorem testBit_launchWord (application : UInt8) (processors : UInt32) (wait : Bool) (index : Nat)
    : (launchWord application processors wait).toNat.testBit index
      = (decide (24 ≤ index) && application.toNat.testBit (index - 24)
        || processors.toNat.testBit index || wait && decide (index = 18)) := by
  have bound := application.toNat_lt
  have high : (application.toUInt32 <<< 24).toNat = application.toNat <<< 24 := by
    rw [UInt32.toNat_shiftLeft, UInt8.toNat_toUInt32]
    simp only [UInt32.reduceToNat, Nat.reduceMod, Nat.shiftLeft_eq]
    omega
  have waiting : (if wait then waitBit else 0).toNat.testBit index
      = (wait && decide (index = 18)) := by
    have bit : waitBit.toNat = 2 ^ 18 := rfl
    cases wait
    · simp
    · simp only [if_true, bit, Nat.testBit_two_pow, Bool.true_and, eq_comm]
  rw [launchWord, UInt32.toNat_or, UInt32.toNat_or, Nat.testBit_or, Nat.testBit_or, high,
    Nat.testBit_shiftLeft, waiting]

/-- The processors that programs run on have bits below that of a wait. -/
theorem RunnableMask.testBit_high {mask : UInt32} (runs : RunnableMask mask) {index : Nat}
    (high : 18 ≤ index)
    : mask.toNat.testBit index = false := by
  rw [Bool.eq_false_iff]
  intro bit
  have low := (runs index bit).2
  omega

/-- A start names the processors whose bits it was made with. -/
theorem mem_named_iff_testBit {mask : UInt32} (runs : RunnableMask mask) (number : UInt8)
    : number ∈ named (launchWord application mask wait)
      ↔ mask.toNat.testBit number.toNat = true := by
  have own (few : number.toNat ≤ 17)
      : (launchWord application mask wait).toNat.testBit number.toNat
        = mask.toNat.testBit number.toNat := by
    have low : ¬ 24 ≤ number.toNat := by omega
    have apart : number.toNat ≠ 18 := by omega
    simp only [testBit_launchWord, low, apart, decide_false, Bool.false_and, Bool.false_or,
      Bool.and_false, Bool.or_false]
  simp only [named, List.mem_filter, mem_applicationCores_iff, bne_iff_ne]
  constructor
  · rintro ⟨⟨_, few⟩, bit⟩
    rw [and_bit_ne_zero_iff _ (by omega)] at bit
    rwa [own few] at bit
  · intro bit
    obtain ⟨positive, few⟩ := runs number.toNat bit
    refine ⟨⟨positive, few⟩, ?_⟩
    rw [and_bit_ne_zero_iff _ (by omega)]
    rwa [own few]

/-- A start names the processors that it was made for. -/
theorem mem_named_launchWord (runs : Runnable processors) (number : UInt8)
    : number ∈ named (launchWord application processors.mask wait)
      ↔ number ∈ processors.list := by
  rw [mem_named_iff_testBit runs.mask, testBit_mask]
  simp only [UInt8.toNat_inj, exists_eq_right]
  refine and_iff_right_of_imp fun member => ?_
  have few := (runs number member).2
  omega

/-- The highest byte of a start is its application. -/
theorem launchWord_shiftRight {mask : UInt32} (runs : RunnableMask mask)
    : launchWord application mask wait >>> 24 = application.toUInt32 := by
  rw [← UInt32.toNat_inj, UInt32.toNat_shiftRight, UInt8.toNat_toUInt32]
  refine Nat.eq_of_testBit_eq fun index => ?_
  simp only [UInt32.reduceToNat, Nat.reduceMod]
  rw [Nat.testBit_shiftRight, testBit_launchWord, runs.testBit_high (by omega)]
  have above : 24 ≤ 24 + index := by omega
  have apart : 24 + index ≠ 18 := by omega
  simp only [above, apart, decide_true, decide_false, Bool.true_and, Bool.and_false,
    Bool.or_false, Nat.add_sub_cancel_left]

/-- So a start is one unless it is for application 0. -/
theorem launchWord_starts_iff {mask : UInt32} (runs : RunnableMask mask)
    : launchWord application mask wait >>> 24 ≠ 0 ↔ application ≠ 0 := by
  have none : (0 : UInt32) = (0 : UInt8).toUInt32 := rfl
  rw [launchWord_shiftRight runs, none, Ne, UInt8.toUInt32_inj]

/-- It starts its application there, which waits or runs at once. -/
theorem started_of_runs {mask : UInt32} (runs : RunnableMask mask)
    : started (launchWord application mask wait)
      = ⟨application, if wait then .sync0 else .running⟩ := by
  have application_is : (launchWord application mask wait >>> 24).toUInt8 = application := by
    rw [launchWord_shiftRight runs, UInt8.toUInt8_toUInt32]
  have waits : launchWord application mask wait &&& waitBit ≠ 0 ↔ wait = true := by
    have bit : waitBit = (1 : UInt32) <<< (18 : UInt8).toUInt32 := rfl
    rw [bit, and_bit_ne_zero_iff _ (by decide), testBit_launchWord,
      runs.testBit_high (by decide)]
    simp
  simp only [started, application_is, waits]

end Start

-----------------------------------------------------------------------------------------
-- The word of a count
-----------------------------------------------------------------------------------------

/-- A count has the application in its lowest byte, and the number of the state from bit 16 on. -/
theorem toNat_countWord (application : UInt8) (core : Core.State)
    : (countWord application core).toNat
      = 0x60ff00 + application.toNat + core.code.toNat * 2 ^ 16 := by
  have bound := application.toNat_lt
  have code : core.code.toNat < 16 := by cases core <;> decide
  have scope : (0xff00 ||| application.toUInt32).toNat = 0xff00 + application.toNat := by
    rw [UInt32.toNat_or, UInt8.toNat_toUInt32]
    exact (Nat.shiftLeft_add_eq_or_of_lt bound 0xff).symm
  have shifted : (core.code.toUInt32 <<< 16).toNat = core.code.toNat * 2 ^ 16 := by
    rw [UInt32.toNat_shiftLeft, UInt8.toNat_toUInt32]
    simp only [UInt32.reduceToNat, Nat.reduceMod, Nat.shiftLeft_eq]
    omega
  simp only [countWord, UInt32.toNat_add, scope, shifted, UInt32.reduceToNat]
  omega

/-- The board counts what it was asked to count. -/
theorem read_countWord (application : UInt8) (core : Core.State)
    : (countWord application core).toUInt8 = application
      ∧ ((countWord application core >>> 16) &&& 0xf).toUInt8 = core.code := by
  have bound := application.toNat_lt
  have code : core.code.toNat < 16 := by cases core <;> decide
  have mask : (15 : Nat) = 2 ^ 4 - 1 := rfl
  constructor
  · rw [← UInt8.toNat_inj, UInt32.toNat_toUInt8, toNat_countWord]
    omega
  · rw [← UInt8.toNat_inj, UInt32.toNat_toUInt8, UInt32.toNat_and, UInt32.toNat_shiftRight,
      toNat_countWord]
    simp only [UInt32.reduceToNat, Nat.reduceMod, Nat.shiftRight_eq_div_pow]
    rw [mask, Nat.and_two_pow_sub_one_eq_mod]
    omega

end MeshControl.Board
