/-!
Numbers in hexadecimal, with lower-case digits.
-/

namespace MeshControl.Text

/-- The hexadecimal digits of a number, filled up with zeros on the left to a least width. -/
def hexadecimal (width number : Nat) : String :=
  let digits := Nat.toDigits 16 number
  String.ofList (List.replicate (width - digits.length) '0' ++ digits)

/-- A number after the mark `0x`. -/
def marked (width number : Nat) : String :=
  "0x" ++ hexadecimal width number

end MeshControl.Text
