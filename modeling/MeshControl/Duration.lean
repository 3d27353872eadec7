/-!
Spans of time in whole nanoseconds, and how they are written: in the largest unit that gives a
whole part, with as many decimals as are needed.
-/

namespace MeshControl

/-- A span of time. -/
structure Duration where
  nanoseconds : Nat
deriving DecidableEq, Repr, Inhabited

namespace Duration

def zero : Duration := ⟨0⟩

def ofMicroseconds (count : Nat) : Duration := ⟨count * 1000⟩

def ofMilliseconds (count : Nat) : Duration := ⟨count * 1000000⟩

def ofSeconds (count : Nat) : Duration := ⟨count * 1000000000⟩

/-- The whole microseconds in the span. -/
def microseconds (span : Duration) : Nat :=
  span.nanoseconds / 1000

/-- The decimals of a fraction of a unit, without zeros at the end. -/
def decimals (unit fraction : Nat) : List Char :=
  let width := (Nat.toDigits 10 unit).length - 1
  let digits := Nat.toDigits 10 fraction
  let all := List.replicate (width - digits.length) '0' ++ digits
  (all.reverse.dropWhile (· == '0')).reverse

/-- A span in a given unit, with a point only where there are decimals. -/
def inUnit (span : Duration) (unit : Nat) (name : String) : String :=
  let fraction := span.nanoseconds % unit
  let point := if fraction = 0 then [] else '.' :: decimals unit fraction
  toString (span.nanoseconds / unit) ++ String.ofList point ++ name

/-- The span in seconds, milliseconds, microseconds or nanoseconds. -/
def text (span : Duration) : String :=
  if span.nanoseconds ≥ 1000000000 then span.inUnit 1000000000 "s"
  else if span.nanoseconds ≥ 1000000 then span.inUnit 1000000 "ms"
  else if span.nanoseconds ≥ 1000 then span.inUnit 1000 "µs"
  else span.inUnit 1 "ns"

end Duration

end MeshControl
