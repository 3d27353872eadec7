/-!
Words on the wire: a number as a fixed count of bytes, least significant byte first or last.
`combine_split` and `split_combine` say that the two directions undo each other.
-/

namespace MeshControl

/-- The bytes of one datagram. -/
abbrev Datagram := List UInt8

namespace Wire

/-- The lowest bytes of a number, least significant first. -/
def split : Nat → Nat → List UInt8
  | 0, _ => []
  | width + 1, value => UInt8.ofNat value :: split width (value / 256)

/-- The number that bytes stand for, least significant first. -/
def combine : List UInt8 → Nat
  | [] => 0
  | byte :: rest => byte.toNat + 256 * combine rest

/-- How many numbers so many bytes can stand for. -/
def capacity : Nat → Nat
  | 0 => 1
  | width + 1 => 256 * capacity width

/-- A half word, least significant byte first. -/
def half (value : UInt16) : List UInt8 :=
  split 2 value.toNat

/-- A word, least significant byte first. -/
def word (value : UInt32) : List UInt8 :=
  split 4 value.toNat

/-- A half word, most significant byte first. -/
def halfBig (value : UInt16) : List UInt8 :=
  (half value).reverse

/-- A word, most significant byte first. -/
def wordBig (value : UInt32) : List UInt8 :=
  (word value).reverse

/-- The bytes of a field, by its offset and width; fewer where the datagram ends. -/
def field (bytes : List UInt8) (offset width : Nat) : List UInt8 :=
  (bytes.drop offset).take width

/-- The half word at an offset, least significant byte first. -/
def halfAt (bytes : List UInt8) (offset : Nat) : UInt16 :=
  UInt16.ofNat (combine (field bytes offset 2))

/-- The word at an offset, least significant byte first. -/
def wordAt (bytes : List UInt8) (offset : Nat) : UInt32 :=
  UInt32.ofNat (combine (field bytes offset 4))

/-- The word at an offset, most significant byte first. -/
def wordBigAt (bytes : List UInt8) (offset : Nat) : UInt32 :=
  UInt32.ofNat (combine (field bytes offset 4).reverse)

@[simp] theorem length_split (width value : Nat) : (split width value).length = width := by
  induction width generalizing value with
  | zero => rfl
  | succ width ih => simp [split, ih]

@[simp] theorem length_half (value : UInt16) : (half value).length = 2 :=
  length_split 2 _

@[simp] theorem length_word (value : UInt32) : (word value).length = 4 :=
  length_split 4 _

/-- Bytes stand for a number below the power of 256 that their count allows. -/
theorem combine_lt (bytes : List UInt8) : combine bytes < capacity bytes.length := by
  induction bytes with
  | nil => simp [combine, capacity]
  | cons byte rest ih =>
      have := byte.toNat_lt
      simp only [combine, List.length_cons, capacity]
      omega

/-- A split number reads back as its lowest bytes. -/
theorem combine_split (width value : Nat)
    : combine (split width value) = value % capacity width := by
  induction width generalizing value with
  | zero => simp [split, combine, capacity, Nat.mod_one]
  | succ width ih =>
      have low : (UInt8.ofNat value).toNat = value % 256 := UInt8.toNat_ofNat'
      rw [split, combine, ih, capacity, Nat.mod_mul, low]

/-- Bytes that are combined split into the same bytes again. -/
theorem split_combine (bytes : List UInt8) : split bytes.length (combine bytes) = bytes := by
  induction bytes with
  | nil => rfl
  | cons byte rest ih =>
      have bound := byte.toNat_lt
      have low : UInt8.ofNat (byte.toNat + 256 * combine rest) = byte := by
        apply UInt8.toNat_inj.1
        rw [UInt8.toNat_ofNat']
        omega
      have high : (byte.toNat + 256 * combine rest) / 256 = combine rest := by omega
      simp only [List.length_cons, split, combine, low, high, ih]

end Wire

end MeshControl
