import MeshControl.Text.Hexadecimal
import MeshControl.Text.Numeral

/-!
Addresses of sockets: a host of four bytes or of eight half words, and a port. A text is an
address only if all of it is; hosts of half words are written with the longest row of zeros left
out.
-/

namespace MeshControl.Net

open Text

/-- A host on the network. -/
inductive Host
  | bytes (a b c d : UInt8)
  | halves (groups : Vector UInt16 8) (scope : UInt32)
deriving DecidableEq

/-- A host and a port. -/
structure Address where
  host : Host
  port : UInt16
deriving DecidableEq

instance : Inhabited Address := ⟨⟨.bytes 0 0 0 0, 0⟩⟩

/-- The host that is this one. -/
def loopback : Host := .bytes 127 0 0 1

/-! ### Writing -/

/-- Four bytes with points between them. -/
def bytesText (a b c d : UInt8) : String :=
  s!"{a}.{b}.{c}.{d}"

/-- Half words with colons between them. -/
def groupsText (groups : List UInt16) : String :=
  ":".intercalate (groups.map fun group => hexadecimal 1 group.toNat)

/-- The number of zeros at the front. -/
def leadingZeros (groups : List UInt16) : Nat :=
  (groups.takeWhile (· == 0)).length

/-- Where the longest row of zeros starts, and its length; the first of several as long. -/
def longestZeros (groups : List UInt16) : Nat × Nat :=
  (List.range groups.length).foldl
    (fun best start =>
      let length := leadingZeros (groups.drop start)
      if length > best.2 then (start, length) else best)
    (0, 0)

/-- Eight half words as they are written. -/
def halvesText (groups : List UInt16) : String :=
  match groups with
  | [0, 0, 0, 0, 0, 0xffff, high, low] =>
      "::ffff:" ++ bytesText (high >>> 8).toUInt8 high.toUInt8 (low >>> 8).toUInt8 low.toUInt8
  | _ =>
      let (start, length) := longestZeros groups
      if length > 1 then
        groupsText (groups.take start) ++ "::" ++ groupsText (groups.drop (start + length))
      else groupsText groups

/-- An address as it is written. -/
def Address.text (address : Address) : String :=
  match address.host with
  | .bytes a b c d => bytesText a b c d ++ s!":{address.port}"
  | .halves groups scope =>
      let mark := if scope = 0 then "" else s!"%{scope}"
      "[" ++ halvesText groups.toList ++ mark ++ s!"]:{address.port}"

/-! ### Reading -/

/-- A number below a bound at the front of a text, in at most so many digits. -/
def number (base bound : Nat) (most : Option Nat) (zeros : Bool) (text : List Char)
    : Option (Nat × List Char) :=
  let digits := text.takeWhile fun c => (digitValue? base c).isSome
  let rest := text.dropWhile fun c => (digitValue? base c).isSome
  let tooLong := most.any (digits.length > ·)
  let zeroFirst := digits.head? == some '0' && digits.length > 1
  if digits.isEmpty || tooLong || (zeroFirst && !zeros) then none
  else
    ((digitsValue? base 0 digits).filter (· < bound)).map fun value => (value, rest)

/-- The rest of a text after a character. -/
def after (c : Char) : List Char → Option (List Char)
  | first :: rest => if first = c then some rest else none
  | [] => none

/-- A byte in decimal, without zeros in front. -/
def octet (text : List Char) : Option (UInt8 × List Char) :=
  (number 10 256 (some 3) false text).map fun found => (UInt8.ofNat found.1, found.2)

/-- Four bytes with points between them. -/
def fourBytes (text : List Char) : Option ((UInt8 × UInt8 × UInt8 × UInt8) × List Char) := do
  let (a, text) ← octet text
  let (b, text) ← octet (← after '.' text)
  let (c, text) ← octet (← after '.' text)
  let (d, text) ← octet (← after '.' text)
  return ((a, b, c, d), text)

/-- The rest of a text after the colon in front of each group but the first. -/
def afterColon (first : Bool) (text : List Char) : Option (List Char) :=
  if first then some text else after ':' text

/-- A half word from two bytes. -/
def joined (high low : UInt8) : UInt16 :=
  (high.toUInt16 <<< 8) ||| low.toUInt16

/-- Groups at the front of a text; the last two may be four bytes with points between them. -/
structure Groups where
  groups : List UInt16
  /-- The last two groups were written as bytes. -/
  endsInBytes : Bool
  rest : List Char

/-- At most so many groups at the front of a text. -/
def groupsFrom (first : Bool) : Nat → List Char → Groups
  | 0, text => ⟨[], false, text⟩
  | room + 1, text =>
      let bytes? := if room = 0 then none else (afterColon first text).bind fourBytes
      match bytes? with
      | some ((a, b, c, d), rest) => ⟨[joined a b, joined c d], true, rest⟩
      | none =>
          match (afterColon first text).bind (number 16 65536 (some 4) true) with
          | none => ⟨[], false, text⟩
          | some (group, rest) =>
              let later := groupsFrom false room rest
              { later with groups := UInt16.ofNat group :: later.groups }

/-- Eight groups, of which a row of zeros may be left out. -/
def eightGroups (text : List Char) : Option ((List UInt16) × List Char) :=
  let head := groupsFrom true 8 text
  if head.groups.length = 8 then some (head.groups, head.rest)
  else if head.endsInBytes then none
  else do
    let rest ← after ':' (← after ':' head.rest)
    let tail := groupsFrom true (8 - (head.groups.length + 1)) rest
    let zeros := List.replicate (8 - head.groups.length - tail.groups.length) 0
    return (head.groups ++ zeros ++ tail.groups, tail.rest)

/-- A port at the end of a text, after a colon. -/
def portAtEnd (text : List Char) : Option UInt16 := do
  let (port, rest) ← number 10 65536 none true (← after ':' text)
  if rest.isEmpty then some (UInt16.ofNat port) else none

/-- An address whose host is four bytes. -/
def bytesAddress? (text : List Char) : Option Address := do
  let ((a, b, c, d), text) ← fourBytes text
  return ⟨.bytes a b c d, ← portAtEnd text⟩

/-- An address whose host is eight half words, in square brackets. -/
def halvesAddress? (text : List Char) : Option Address := do
  let (groups, text) ← eightGroups (← after '[' text)
  let (scope, text) := match after '%' text with
    | none => (some 0, text)
    | some text =>
        match number 10 UInt32.size none true text with
        | none => (none, text)
        | some (scope, text) => (some scope, text)
  let scope ← scope
  let port ← portAtEnd (← after ']' text)
  if size : groups.toArray.size = 8 then
    return ⟨.halves ⟨groups.toArray, size⟩ (UInt32.ofNat scope), port⟩
  else none

/-- The address that a text stands for. -/
def Address.ofText? (text : String) : Option Address :=
  bytesAddress? text.toList <|> halvesAddress? text.toList

end MeshControl.Net
