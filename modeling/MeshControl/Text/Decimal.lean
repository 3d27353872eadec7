import MeshControl.Text.Numeral

/-!
Numbers with a fraction: reading them, and writing them with one decimal. What is written is the
exact value of the binary number, rounded; a value halfway between two goes to the even one.
-/

namespace MeshControl.Text

/-- A quotient rounded to the nearest whole number, a half to the even one. -/
def roundHalfEven (numerator denominator : Nat) : Nat :=
  let quotient := numerator / denominator
  let rest := numerator % denominator
  if 2 * rest < denominator then quotient
  else if 2 * rest > denominator then quotient + 1
  else if quotient % 2 = 0 then quotient
  else quotient + 1

/-- How many fractions there are for each exponent of a binary number. -/
def fractions : Nat := 1 <<< 52

/-- The bit that makes a binary number negative. -/
def signBit : Nat := 1 <<< 63

/-- The exact value of a finite number's magnitude, as a quotient. -/
def magnitude (x : Float) : Nat × Nat :=
  let bits := x.toBits.toNat % signBit
  let exponent := bits / fractions
  let fraction := bits % fractions
  let (significand, power) :=
    if exponent = 0 then (fraction, 1) else (fraction + fractions, exponent)
  if power ≥ 1075 then (significand <<< (power - 1075), 1)
  else (significand, 1 <<< (1075 - power))

/-- A number with one decimal. -/
def oneDecimal (x : Float) : String :=
  if x.isNaN then "NaN"
  else
    let sign := if x.toBits.toNat ≥ signBit then "-" else ""
    if x.isInf then sign ++ "inf"
    else
      let (numerator, denominator) := magnitude x
      let tenths := roundHalfEven (numerator * 10) denominator
      sign ++ toString (tenths / 10) ++ "." ++ toString (tenths % 10)

/-- The sign in front of a number, and what follows it. -/
def splitSign : List Char → Bool × List Char
  | '-' :: rest => (true, rest)
  | '+' :: rest => (false, rest)
  | text => (false, text)

/-- The power of ten behind a mark, zero where there is none. -/
def exponent? : List Char → Option Int
  | [] => some 0
  | mark :: rest =>
      if mark.toLower ≠ 'e' then none
      else
        let (negative, digits) := splitSign rest
        if digits.isEmpty then none
        else
          (digitsValue? 10 0 digits).map fun value => if negative then -(value : Int) else value

/-- The binary number closest to a whole number times a power of ten. -/
def scale (digits : Nat) (power : Int) : Float :=
  if digits = 0 then 0
  else if power > 400 then 1 / 0
  else if power + (Nat.toDigits 10 digits).length < -400 then 0
  else Float.ofScientific digits (power < 0) power.natAbs

/-- The number without a sign that a text stands for. -/
def unsignedReal? (text : List Char) : Option Float :=
  let word := String.ofList (text.map Char.toLower)
  if word = "inf" ∨ word = "infinity" then some (1 / 0)
  else if word = "nan" then some (0 / 0)
  else
    let whole := text.takeWhile Char.isDigit
    let rest := text.dropWhile Char.isDigit
    let (fraction, rest) := match rest with
      | '.' :: rest => (rest.takeWhile Char.isDigit, rest.dropWhile Char.isDigit)
      | _ => ([], rest)
    if whole.isEmpty && fraction.isEmpty then none
    else do
      let digits ← digitsValue? 10 0 (whole ++ fraction)
      let power ← exponent? rest
      return scale digits (power - fraction.length)

/-- The number that a text stands for. -/
def real? (text : String) : Option Float :=
  let (negative, rest) := splitSign text.toList
  (unsignedReal? rest).map fun value => if negative then -value else value

/-- A number between two bounds; one beyond a bound becomes the bound. -/
def clamp (least greatest x : Float) : Float :=
  if x < least then least else if x > greatest then greatest else x

end MeshControl.Text
