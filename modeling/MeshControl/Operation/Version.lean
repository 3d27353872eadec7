import MeshControl.Scp.Request
import MeshControl.Text.Numeral
import MeshControl.Text.Utf8

/-!
The version of the software on a processor: the request for it, and the record in the answer.
-/

namespace MeshControl.Operation

open Scp Sdp Text

/-- Asks a processor for its version. -/
def getVersion (chip : Chip) (cpu : UInt8) : Request where
  header := .toCore chip cpu .replyExpected
  command := .ver
  operation := "get version"

/-- The version of the software on a processor. -/
structure Version where
  chip : Chip
  cpu : UInt8
  physicalCpu : UInt8
  name : String
  hardware : String
  major : UInt32
  minor : UInt32
  patch : UInt32
  buildDate : UInt32
deriving DecidableEq, Repr, Inhabited

namespace Version

/-- A version number in the place of which the text gives the version. -/
def inText : UInt16 := 0xffff

/-- The number at the front of a part of a version. -/
def part? (text : List Char) : Option UInt32 :=
  (natural? 10 UInt32.size (text.takeWhile Char.isDigit)).map UInt32.ofNat

/-- Three numbers with points between them; what follows the digits of each is passed over. -/
def numbers? (text : List Char) : Option (UInt32 × UInt32 × UInt32) := do
  let (first, rest) ← cut? '.' text
  let (second, third) ← cut? '.' rest
  return (← part? first, ← part? second, ← part? third)

/-- The record in the answer of a processor: numbers first, then names and version as text. -/
def decode (bytes : List UInt8) : Except Error Version := do
  if bytes.length < 13 then
    throw (.invalidPacket "version" s!"길이 {bytes.length} < 13")
  let text := Utf8.decodeLossy (bytes.drop 12).dropLast
  let bad := fun problem => Error.invalidParameter "version_data" (String.ofList text) problem
  let number := Wire.halfAt bytes 6
  let (names, major, minor, patch) ←
    if number < inText then
      let number := number.toUInt32
      pure (text, number / 100, number % 100, 0)
    else
      match cut? '\x00' text with
      | none => throw (bad "NUL 구분자 없음")
      | some (names, version) =>
          match numbers? (trimEnd '\x00' version) with
          | none => throw (bad "버전 형식 오류")
          | some numbers => pure (trimEnd '\x00' names, numbers)
  match cut? '/' names with
  | none => throw (bad "이름/하드웨어 형식 오류")
  | some (name, hardware) =>
      return {
        chip := ⟨bytes.getD 3 0, bytes.getD 2 0⟩
        cpu := bytes.getD 0 0
        physicalCpu := bytes.getD 1 0
        name := String.ofList name
        hardware := String.ofList hardware
        major
        minor
        patch
        buildDate := Wire.wordAt bytes 8 }

/-- The record as a processor answers it, with the version as text. -/
def encode (version : Version) : List UInt8 :=
  [version.cpu, version.physicalCpu, version.chip.y, version.chip.x, 0, 0]
    ++ Wire.half inText ++ Wire.word version.buildDate
    ++ Utf8.encode s!"{version.name}/{version.hardware}".toList ++ [0]
    ++ Utf8.encode s!"{version.major}.{version.minor}.{version.patch}".toList ++ [0]

end Version

end MeshControl.Operation
