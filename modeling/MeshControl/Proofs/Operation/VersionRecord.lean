import Mathlib.Data.List.TakeWhile
import MeshControl.Operation.Version
import MeshControl.Proofs.Scp.Codec
import MeshControl.Proofs.Text.Digits
import MeshControl.Proofs.Text.Utf8

/-! The record of a version as bytes. It has marks between its parts, so it is read as it was
written exactly where no part has the mark that ends it.
-/

namespace MeshControl.Operation.Version

open Text Wire

-----------------------------------------------------------------------------------------
-- Version numbers
-----------------------------------------------------------------------------------------

/-- Three numbers with points between them. -/
def numbersText (version : Version) : List Char :=
  Nat.toDigits 10 version.major.toNat ++ '.' :: (Nat.toDigits 10 version.minor.toNat
    ++ '.' :: Nat.toDigits 10 version.patch.toNat)

theorem part?_toDigits (number : UInt32)
    : part? (Nat.toDigits 10 number.toNat) = some number := by
  have digits : (Nat.toDigits 10 number.toNat).takeWhile Char.isDigit
      = Nat.toDigits 10 number.toNat :=
    List.takeWhile_eq_self_iff.mpr fun _ => isDigit_toDigits
  rw [part?, digits, natural?_toDigits number.toNat_lt, Option.map_some, UInt32.ofNat_toNat]

theorem not_mem_toDigits {mark : Char} (other : mark.isDigit = false) (number : Nat)
    : mark ∉ Nat.toDigits 10 number := by
  intro member
  rw [isDigit_toDigits member] at other
  cases other

theorem numbers?_numbersText (version : Version)
    : numbers? version.numbersText = some (version.major, version.minor, version.patch) := by
  have point (number : Nat) : '.' ∉ Nat.toDigits 10 number := not_mem_toDigits (by decide) number
  simp only [numbers?, numbersText, cut?_append _ (point _), part?_toDigits, Option.bind_eq_bind,
    Option.bind_some, Option.pure_def]

theorem nul_not_mem_numbersText (version : Version) : '\x00' ∉ version.numbersText := by
  have nul (number : Nat) : '\x00' ∉ Nat.toDigits 10 number := not_mem_toDigits (by decide) number
  simp [numbersText, nul]

-----------------------------------------------------------------------------------------
-- What is read
-----------------------------------------------------------------------------------------

/-- The text of a record. -/
def textOf (bytes : List UInt8) : List Char :=
  Utf8.decodeLossy (bytes.drop 12).dropLast

/-- A record with its text cut into parts. -/
def ofParts (bytes : List UInt8) (name hardware : List Char)
    (numbers : UInt32 × UInt32 × UInt32) : Version where
  chip := ⟨bytes.getD 3 0, bytes.getD 2 0⟩
  cpu := bytes.getD 0 0
  physicalCpu := bytes.getD 1 0
  name := String.ofList name
  hardware := String.ofList hardware
  major := numbers.1
  minor := numbers.2.1
  patch := numbers.2.2
  buildDate := wordAt bytes 8

/-- A record with the version as text is read exactly where its text can be cut into names and
numbers, and the names into two.
-/
theorem decode_eq_ok_iff {bytes : List UInt8} {version : Version} (long : 13 ≤ bytes.length)
    (number : halfAt bytes 6 = inText)
    : decode bytes = .ok version
      ↔ ∃ names rest numbers name hardware,
          cut? '\x00' (textOf bytes) = some (names, rest)
          ∧ numbers? (trimEnd '\x00' rest) = some numbers
          ∧ cut? '/' (trimEnd '\x00' names) = some (name, hardware)
          ∧ version = ofParts bytes name hardware numbers := by
  have enough : ¬ bytes.length < 13 := Nat.not_lt.mpr long
  have text : ¬ inText < inText := UInt16.lt_irrefl _
  unfold decode
  simp only [enough, if_false, number, text]
  rw [← textOf]
  cases first : cut? '\x00' (textOf bytes) with
  | none => simp [throw, throwThe, MonadExceptOf.throw, bind, Except.bind]
  | some cut =>
      obtain ⟨names, rest⟩ := cut
      cases second : numbers? (trimEnd '\x00' rest) with
      | none => simp [second, throw, throwThe, MonadExceptOf.throw, bind, Except.bind]
      | some numbers =>
          cases third : cut? '/' (trimEnd '\x00' names) with
          | none =>
              simp [second, third, throw, throwThe, MonadExceptOf.throw, pure, Except.pure, bind,
                Except.bind]
          | some pair =>
              obtain ⟨name, hardware⟩ := pair
              obtain ⟨major, minor, patch⟩ := numbers
              simp [second, third, pure, Except.pure, bind, Except.bind, ofParts, eq_comm]

-----------------------------------------------------------------------------------------
-- What is written
-----------------------------------------------------------------------------------------

/-- A name and the hardware with a stroke between them. -/
def namesText (version : Version) : List Char :=
  version.name.toList ++ '/' :: version.hardware.toList

theorem toList_toString (number : UInt32)
    : (toString number).toList = Nat.toDigits 10 number.toNat :=
  Nat.toList_repr

theorem toList_names (version : Version)
    : s!"{version.name}/{version.hardware}".toList = version.namesText := by
  have stroke : (toString "/").toList = ['/'] := rfl
  simp only [String.toList_append, stroke, namesText, List.append_assoc, List.singleton_append]
  rfl

theorem toList_numbers (version : Version)
    : s!"{version.major}.{version.minor}.{version.patch}".toList = version.numbersText := by
  have point : (toString ".").toList = ['.'] := rfl
  simp only [String.toList_append, point, numbersText, toList_toString, List.append_assoc,
    List.cons_append, List.nil_append]

/-- The numbers of a record, and its text between them and the last byte. -/
theorem encode_eq (version : Version)
    : version.encode
      = [version.cpu, version.physicalCpu, version.chip.y, version.chip.x, 0, 0]
        ++ (half inText ++ (word version.buildDate
        ++ (Utf8.encode (version.namesText ++ '\x00' :: version.numbersText) ++ [0]))) := by
  have nul : String.utf8EncodeChar '\x00' = [0] := rfl
  rw [encode, toList_names, toList_numbers]
  simp only [Utf8.encode, List.flatMap_append, List.flatMap_cons, nul, List.append_assoc]

theorem drop_encode (version : Version)
    : version.encode.drop 6
      = half inText ++ (word version.buildDate
        ++ (Utf8.encode (version.namesText ++ '\x00' :: version.numbersText) ++ [0])) := by
  rw [encode_eq]
  rfl

theorem halfAt_encode (version : Version) : halfAt version.encode 6 = inText :=
  halfAt_of_drop (drop_encode version)

theorem wordAt_encode (version : Version) : wordAt version.encode 8 = version.buildDate :=
  wordAt_of_drop (drop_add (drop_encode version) (length_half _))

/-- The last byte ends the text and does not belong to it. -/
theorem textOf_encode (version : Version)
    : textOf version.encode = version.namesText ++ '\x00' :: version.numbersText := by
  have at_text := drop_add (drop_add (drop_encode version) (length_half _)) (length_word _)
  rw [textOf, at_text, List.dropLast_concat, Utf8.decodeLossy_encode]

theorem length_encode (version : Version) : 13 ≤ version.encode.length := by
  rw [encode_eq]
  simp only [List.length_append, List.length_cons, List.length_nil, length_half, length_word]
  omega

theorem ofParts_encode (version : Version)
    : ofParts version.encode version.name.toList version.hardware.toList
        (version.major, version.minor, version.patch)
      = version := by
  rw [ofParts, wordAt_encode, encode_eq]
  simp

-----------------------------------------------------------------------------------------
-- What is written and read
-----------------------------------------------------------------------------------------

/-- A record of any version, with any names that are text, is read as it was written exactly where
the name has neither a stroke nor a NUL and the hardware has no NUL; the hardware may have strokes,
points and digits.
-/
theorem decode_encode_iff (version : Version)
    : decode version.encode = .ok version
      ↔ ('/' ∉ version.name.toList ∧ '\x00' ∉ version.name.toList)
        ∧ '\x00' ∉ version.hardware.toList := by
  rw [decode_eq_ok_iff (length_encode version) (halfAt_encode version), textOf_encode]
  constructor
  · rintro ⟨names, rest, numbers, name, hardware, first, _, second, parts⟩
    have no_nul := (cut?_eq_some_iff.mp first).2
    rw [trimEnd_of_not_mem no_nul] at second
    obtain ⟨rfl, no_stroke⟩ := cut?_eq_some_iff.mp second
    have same_name : version.name.toList = name := by rw [parts, ofParts, String.toList_ofList]
    have same_hardware : version.hardware.toList = hardware := by
      rw [parts, ofParts, String.toList_ofList]
    rw [same_name, same_hardware]
    simp only [List.mem_append, List.mem_cons, not_or] at no_nul
    exact ⟨⟨no_stroke, no_nul.1⟩, no_nul.2.2⟩
  · rintro ⟨⟨no_stroke, no_nul⟩, bare⟩
    have names : '\x00' ∉ version.namesText := by simp [namesText, no_nul, bare]
    refine ⟨_, _, _, _, _, cut?_append _ names, ?_, ?_, (ofParts_encode version).symm⟩
    · rw [trimEnd_of_not_mem (nul_not_mem_numbersText version), numbers?_numbersText]
    · rw [trimEnd_of_not_mem names]
      exact cut?_append _ no_stroke

end MeshControl.Operation.Version
