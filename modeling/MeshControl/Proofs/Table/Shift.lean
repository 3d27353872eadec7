import MeshControl.Proofs.Table.Contents

/-! One entry of a table changes at a time. Where the values tell who has a lock, a change of the
one entry that takes or leaves it keeps the record of its owner true.
-/

namespace MeshControl.Table

variable {κ ν : Type} [DecidableEq κ] {before after : Table κ ν} {key : κ} {old new : Option ν}

-----------------------------------------------------------------------------------------
-- One entry changes
-----------------------------------------------------------------------------------------

/-- One key has another value, or comes or goes, and every other one is as it was. -/
structure Shift (before after : Table κ ν) (key : κ) (old new : Option ν) : Prop where
  here : before.get? key = old
  there : after.get? key = new
  others : ∀ other, other ≠ key → after.get? other = before.get? other

theorem Shift.of_insert {value : ν} (found : before.get? key = old)
    (inserted : after = before.insert key value)
    : Shift before after key old (some value) where
  here := found
  there := by simp [inserted]
  others other apart := by simp [inserted, apart]

theorem Shift.of_erase (found : before.get? key = old) (erased : after = before.erase key)
    : Shift before after key old none where
  here := found
  there := by simp [erased]
  others other apart := by simp [erased, apart]

/-- A value that is there afterwards came with the change, or was there before. -/
theorem Shift.cases_of_get? (shift : Shift before after key old new) {other : κ} {value : ν}
    (found : after.get? other = some value)
    : (other = key ∧ new = some value) ∨ before.get? other = some value := by
  by_cases same : other = key
  · rw [same, shift.there] at found
    exact .inl ⟨same, found⟩
  · rw [shift.others other same] at found
    exact .inr found

-----------------------------------------------------------------------------------------
-- Who has a lock
-----------------------------------------------------------------------------------------

/-- The record of a lock's owner agrees with the values, which tell who has it. -/
def Owned (table : Table κ ν) (has : ν → Bool) (owner : Option κ) : Prop :=
  ∀ key, owner = some key ↔ (table.get? key).any has = true

namespace Owned

variable {has : ν → Bool} {owner : Option κ}

/-- A value that has the lock is the owner's. -/
theorem eq_some (owned : before.Owned has owner) {value : ν}
    (found : before.get? key = some value) (holds : has value = true)
    : owner = some key :=
  (owned key).mpr (by rw [found]; exact holds)

/-- The lock has one owner. -/
theorem unique (owned : before.Owned has owner) {first second : κ} {one other : ν}
    (found : before.get? first = some one) (also : before.get? second = some other)
    (holds : has one = true) (holds_too : has other = true)
    : first = second :=
  Option.some.inj ((owned.eq_some found holds).symm.trans (owned.eq_some also holds_too))

/-- A change of a value that has the lock as before changes no owner. -/
theorem kept (owned : before.Owned has owner) (shift : Shift before after key old new)
    (same : new.any has = old.any has)
    : after.Owned has owner := by
  intro other
  rw [owned other]
  by_cases mover : other = key
  · rw [mover, shift.here, shift.there, same]
  · rw [shift.others other mover]

/-- Whoever takes a lock that nobody has is its owner. -/
theorem taken (owned : before.Owned has none) (shift : Shift before after key old new)
    (takes : new.any has = true)
    : after.Owned has (some key) := by
  intro other
  by_cases mover : other = key
  · simp [mover, shift.there, takes]
  · rw [shift.others other mover, ← owned other]
    simp [Ne.symm mover]

/-- Nobody has a lock once its owner has left it. -/
theorem left (owned : before.Owned has owner) (shift : Shift before after key old new)
    (had : old.any has = true) (leaves : new.any has = false)
    : after.Owned has none := by
  have owner_eq : owner = some key := (owned key).mpr (by rw [shift.here]; exact had)
  intro other
  by_cases mover : other = key
  · simp [mover, shift.there, leaves]
  · rw [shift.others other mover, ← owned other, owner_eq]
    simp [Ne.symm mover]

/-- A change of all values that leaves the lock where it is changes no owner. -/
theorem mapValues (owned : before.Owned has owner) {change : ν → ν}
    (same : ∀ value, has (change value) = has value)
    : (before.mapValues change).Owned has owner := by
  intro other
  rw [owned other, get?_mapValues]
  cases before.get? other <;> simp [same]

end Owned

end MeshControl.Table
