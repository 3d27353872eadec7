/-!
Text as bytes. `encode` writes characters in one to four bytes; `decodeLossy` reads any bytes,
with one replacement character for each longest piece that begins no character.
-/

namespace MeshControl.Text.Utf8

/-- The bytes of some characters. -/
def encode (text : List Char) : List UInt8 :=
  text.flatMap String.utf8EncodeChar

/-- The character that stands where bytes could not be read. -/
def replacement : Char := '\ufffd'

/-- A character of which some bytes were read. -/
structure Pending where
  /-- How many bytes are still to come. -/
  missing : Nat
  /-- The least byte that may come next. -/
  least : UInt8
  /-- The greatest byte that may come next. -/
  greatest : UInt8
  /-- The bits read so far. -/
  bits : Nat
deriving DecidableEq, Repr

/-- What the first byte of a character of several bytes leaves to be read. -/
def Pending.ofLead? (byte : UInt8) : Option Pending :=
  if byte < 0xc2 then none
  else if byte < 0xe0 then some ⟨1, 0x80, 0xbf, byte.toNat - 0xc0⟩
  else if byte < 0xf0 then
    some ⟨2, if byte = 0xe0 then 0xa0 else 0x80, if byte = 0xed then 0x9f else 0xbf,
      byte.toNat - 0xe0⟩
  else if byte < 0xf5 then
    some ⟨3, if byte = 0xf0 then 0x90 else 0x80, if byte = 0xf4 then 0x8f else 0xbf,
      byte.toNat - 0xf0⟩
  else none

/-- A byte where a character begins: what it gives at once, and what it leaves to be read. -/
def start (byte : UInt8) : List Char × Option Pending :=
  if byte < 0x80 then ([Char.ofNat byte.toNat], none)
  else
    match Pending.ofLead? byte with
    | some pending => ([], some pending)
    | none => ([replacement], none)

/-- One byte more: the characters that it gives, and what it leaves to be read. -/
def step (state : Option Pending) (byte : UInt8) : List Char × Option Pending :=
  match state with
  | none => start byte
  | some pending =>
      if pending.least ≤ byte ∧ byte ≤ pending.greatest then
        let bits := pending.bits * 64 + (byte.toNat - 0x80)
        if pending.missing ≤ 1 then ([Char.ofNat bits], none)
        else ([], some ⟨pending.missing - 1, 0x80, 0xbf, bits⟩)
      else
        let (text, state) := start byte
        (replacement :: text, state)

/-- The characters of some bytes, from within a character on. -/
def decodeFrom : Option Pending → List UInt8 → List Char
  | none, [] => []
  | some _, [] => [replacement]
  | state, byte :: rest =>
      let (text, state) := step state byte
      text ++ decodeFrom state rest

/-- The characters of some bytes. -/
def decodeLossy (bytes : List UInt8) : List Char :=
  decodeFrom none bytes

end MeshControl.Text.Utf8
