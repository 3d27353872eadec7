import MeshControl.Text.Numeral

/-! Numbers that were written in decimal are read as the same numbers, and text is cut at the
first mark and nowhere else.
-/

namespace MeshControl.Text

-----------------------------------------------------------------------------------------
-- Digits
-----------------------------------------------------------------------------------------

theorem digitValue?_of_isDigit {c : Char} (digit : c.isDigit = true)
    : digitValue? 10 c = some (c.toNat - '0'.toNat) := by
  obtain ⟨least, greatest⟩ := Char.isDigit_iff_toNat.mp digit
  have range : '0' ≤ c ∧ c ≤ '9' := ⟨least, greatest⟩
  have small : c.toNat - '0'.toNat < 10 := by
    simp only [Char.reduceToNat] at greatest ⊢
    omega
  simp only [digitValue?, range, and_self, if_true, Option.filter_some, small, decide_true]

theorem digitsValue?_of_isDigit {digits : List Char} (all : ∀ c ∈ digits, c.isDigit = true)
    (number : Nat)
    : digitsValue? 10 number digits = some (Nat.ofDigitChars 10 digits number) := by
  induction digits generalizing number with
  | nil => rfl
  | cons c rest ih =>
      rw [digitsValue?, digitValue?_of_isDigit (all c List.mem_cons_self), Nat.ofDigitChars_cons,
        Nat.mul_comm 10]
      exact ih (fun c member => all c (List.mem_cons_of_mem _ member)) _

theorem isDigit_toDigits {number : Nat} {c : Char} (member : c ∈ Nat.toDigits 10 number)
    : c.isDigit = true :=
  Nat.isDigit_of_mem_toDigits (by decide) (by decide) member

/-- The digits of a number are read as the number, where it is in bounds. -/
theorem natural?_toDigits {bound number : Nat} (small : number < bound)
    : natural? 10 bound (Nat.toDigits 10 number) = some number := by
  have read : digitsValue? 10 0 (Nat.toDigits 10 number) = some number := by
    rw [digitsValue?_of_isDigit fun _ => isDigit_toDigits, Nat.ofDigitChars_ten_toDigits]
  unfold natural?
  split
  · next rest plus =>
      have digit : '+'.isDigit = true := isDigit_toDigits (plus ▸ List.mem_cons_self)
      exact absurd digit (by decide)
  · simp [read, Nat.toDigits_ne_nil, small]

-----------------------------------------------------------------------------------------
-- Marks
-----------------------------------------------------------------------------------------

theorem cut?_append {mark : Char} {before : List Char} (after : List Char) (apart : mark ∉ before)
    : cut? mark (before ++ mark :: after) = some (before, after) := by
  induction before with
  | nil => simp [cut?]
  | cons c rest ih =>
      obtain ⟨other, later⟩ := not_or.mp (mt List.mem_cons.mpr apart)
      rw [List.cons_append, cut?, if_neg (Ne.symm other), ih later]
      rfl

theorem cut?_eq_some_iff {mark : Char} {text before after : List Char}
    : cut? mark text = some (before, after)
      ↔ text = before ++ mark :: after ∧ mark ∉ before := by
  constructor
  · exact fun cut => ⟨eq_append_of_cut? cut, not_mem_of_cut? cut⟩
  · rintro ⟨rfl, apart⟩
    exact cut?_append after apart

/-- Where no mark is there is none at the end. -/
theorem trimEnd_of_not_mem {mark : Char} {text : List Char} (apart : mark ∉ text)
    : trimEnd mark text = text := by
  have kept : text.reverse.dropWhile (· == mark) = text.reverse := by
    cases last : text.reverse with
    | nil => rfl
    | cons c rest =>
        have other : c ≠ mark := by
          rintro rfl
          exact apart (List.mem_reverse.mp (last ▸ List.mem_cons_self))
        simp [other]
  rw [trimEnd, kept, List.reverse_reverse]

end MeshControl.Text
