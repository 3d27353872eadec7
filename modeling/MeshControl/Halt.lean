import MeshControl.Error

/-!
Calls that give no result, and sums that have to fit into their words.
-/

namespace MeshControl

/-- Why a call gives no result. -/
inductive Halt
  /-- It ends with an error. -/
  | failed (error : Error)
  /-- A sum does not fit into its word: the program stops there. -/
  | overflow
  /-- It goes on for ever. What stands beside it is what is left if somebody breaks it off. -/
  | endless
deriving DecidableEq, Repr, Inhabited

instance : Coe Error Halt := ⟨.failed⟩

/-- The call returns, with a value or with an error. -/
def Returns {α : Type} (result : Except Halt α) : Prop :=
  (∃ value, result = .ok value) ∨ ∃ error, result = .error (.failed error)

/-- Whether a call ends well does not depend on how its errors are told. -/
@[simp]
theorem mapError_eq_ok_iff {ε ε' α : Type} {tell : ε → ε'} {result : Except ε α} {value : α}
    : result.mapError tell = .ok value ↔ result = .ok value := by
  cases result with
  | ok other =>
      constructor
      all_goals
        intro same
        cases same
        rfl
  | error error => exact iff_of_false nofun nofun

/-- A call that returns without a value has ended with an error. -/
theorem Returns.failed {α : Type} {halt : Halt} (returns : Returns (.error halt : Except Halt α))
    : ∃ error, halt = .failed error := by
  rcases returns with ⟨_, same⟩ | ⟨error, same⟩
  · cases same
  · exact ⟨error, Except.error.inj same⟩

/-- What ends with an error at worst returns. -/
theorem returns_mapError {α : Type} (result : Except Error α)
    : Returns (result.mapError .failed) := by
  cases result with
  | ok value => exact .inl ⟨value, rfl⟩
  | error error => exact .inr ⟨error, rfl⟩

/-- The sum of two words; it has to fit into a word. -/
def wordSum (a b : UInt32) : Except Halt UInt32 :=
  if a.toNat + b.toNat < UInt32.size then .ok (a + b) else .error .overflow

/-- The sum of two long words; it has to fit into a long word. -/
def longSum (a b : UInt64) : Except Halt UInt64 :=
  if a.toNat + b.toNat < UInt64.size then .ok (a + b) else .error .overflow

/-- A sum that fits is the exact one. -/
theorem wordSum_of_fits {a b : UInt32} (fits : a.toNat + b.toNat < UInt32.size)
    : ∃ sum, wordSum a b = .ok sum ∧ sum.toNat = a.toNat + b.toNat := by
  refine ⟨a + b, if_pos fits, ?_⟩
  rw [UInt32.toNat_add]
  exact Nat.mod_eq_of_lt fits

theorem wordSum_of_beyond {a b : UInt32} (beyond : UInt32.size ≤ a.toNat + b.toNat)
    : wordSum a b = .error .overflow :=
  if_neg (Nat.not_lt.mpr beyond)

theorem longSum_of_fits {a b : UInt64} (fits : a.toNat + b.toNat < UInt64.size)
    : ∃ sum, longSum a b = .ok sum ∧ sum.toNat = a.toNat + b.toNat := by
  refine ⟨a + b, if_pos fits, ?_⟩
  rw [UInt64.toNat_add]
  exact Nat.mod_eq_of_lt fits

theorem longSum_of_beyond {a b : UInt64} (beyond : UInt64.size ≤ a.toNat + b.toNat)
    : longSum a b = .error .overflow :=
  if_neg (Nat.not_lt.mpr beyond)

end MeshControl
