/-!
Reading numbers, and cutting text at a mark.
-/

namespace MeshControl.Text

/-- The value of a digit, in upper or lower case. -/
def digitValue? (base : Nat) (c : Char) : Option Nat :=
  let value? :=
    if '0' ≤ c ∧ c ≤ '9' then some (c.toNat - '0'.toNat)
    else if 'a' ≤ c ∧ c ≤ 'z' then some (c.toNat - 'a'.toNat + 10)
    else if 'A' ≤ c ∧ c ≤ 'Z' then some (c.toNat - 'A'.toNat + 10)
    else none
  value?.filter (· < base)

/-- The number that digits stand for, continuing one that was begun. -/
def digitsValue? (base : Nat) : Nat → List Char → Option Nat
  | number, [] => some number
  | number, c :: rest => do
      let digit ← digitValue? base c
      digitsValue? base (number * base + digit) rest

/-- A number below a bound, written with at least one digit and perhaps a plus sign in front. -/
def natural? (base bound : Nat) (text : List Char) : Option Nat :=
  let digits := match text with
    | '+' :: rest => rest
    | _ => text
  if digits.isEmpty then none
  else (digitsValue? base 0 digits).filter (· < bound)

/-- A decimal number of at most eight bits. -/
def byte? (text : String) : Option UInt8 :=
  (natural? 10 UInt8.size text.toList).map UInt8.ofNat

/-- A decimal number of at most sixteen bits. -/
def half? (text : String) : Option UInt16 :=
  (natural? 10 UInt16.size text.toList).map UInt16.ofNat

/-- A decimal number of at most 32 bits. -/
def word? (text : String) : Option UInt32 :=
  (natural? 10 UInt32.size text.toList).map UInt32.ofNat

/-- A decimal number of at most 64 bits. -/
def long? (text : String) : Option UInt64 :=
  (natural? 10 UInt64.size text.toList).map UInt64.ofNat

/-- The text before the first mark and the text after it. -/
def cut? (mark : Char) : List Char → Option (List Char × List Char)
  | [] => none
  | c :: rest =>
      if c = mark then some ([], rest)
      else (cut? mark rest).map fun parts => (c :: parts.1, parts.2)

/-- A text without the marks at its end. -/
def trimEnd (mark : Char) (text : List Char) : List Char :=
  (text.reverse.dropWhile (· == mark)).reverse

/-- Cut parts with the mark between them are the text. -/
theorem eq_append_of_cut? {mark : Char} {text before after : List Char}
    (h : cut? mark text = some (before, after))
    : text = before ++ mark :: after := by
  induction text generalizing before with
  | nil => simp [cut?] at h
  | cons c rest ih =>
      by_cases same : c = mark
      · simp only [cut?, same, if_true, Option.some.injEq, Prod.mk.injEq] at h
        obtain ⟨rfl, rfl⟩ := h
        simp [same]
      · simp only [cut?, same, if_false, Option.map_eq_some_iff] at h
        obtain ⟨⟨first, second⟩, found, equal⟩ := h
        simp only [Prod.mk.injEq] at equal
        obtain ⟨rfl, rfl⟩ := equal
        simp [ih found]

/-- The first part holds no mark. -/
theorem not_mem_of_cut? {mark : Char} {text before after : List Char}
    (h : cut? mark text = some (before, after))
    : mark ∉ before := by
  induction text generalizing before after with
  | nil => simp [cut?] at h
  | cons c rest ih =>
      by_cases same : c = mark
      · simp only [cut?, same, if_true, Option.some.injEq, Prod.mk.injEq] at h
        simp [← h.1]
      · simp only [cut?, same, if_false, Option.map_eq_some_iff] at h
        obtain ⟨⟨first, second⟩, found, equal⟩ := h
        simp only [Prod.mk.injEq] at equal
        rw [← equal.1, List.mem_cons]
        rintro (equal | member)
        · exact same equal.symm
        · exact ih found member

end MeshControl.Text
