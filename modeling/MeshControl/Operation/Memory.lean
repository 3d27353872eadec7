import MeshControl.Halt
import MeshControl.Scp.Request

/-!
Requests that read and write the memory of a chip.
-/

namespace MeshControl.Operation

open Scp Sdp Text

/-- The unit in which a chip moves data: bytes, half words or words. -/
inductive AccessUnit
  | byte
  | half
  | word
deriving DecidableEq, Repr, Inhabited

namespace AccessUnit

/-- The number on the wire. -/
def code : AccessUnit → UInt32
  | byte => 0
  | half => 1
  | word => 2

def name : AccessUnit → String
  | byte => "Byte"
  | half => "HalfWord"
  | word => "Word"

/-- The largest unit that divides both address and size. -/
def forAccess (address : UInt32) (size : Nat) : AccessUnit :=
  match address.toNat % 4, size % 4 with
  | 0, 0 => word
  | 0, 2 | 2, 0 | 2, 2 => half
  | _, _ => byte

end AccessUnit

/-- A request moves at least one byte and at most what a datagram holds. -/
def checkLength (parameter : String) (size : Nat) : Except Error Unit :=
  if size = 0 ∨ size > maxData then
    .error (.invalidParameter parameter (toString size) s!"1..={maxData} 바이트여야 함")
  else .ok ()

/-- A range may not go beyond the end of the address space; the end itself is a long word. -/
def checkAddressRange (base : UInt32) (count : UInt64) : Except Halt Unit := do
  let last ← longSum base.toUInt64 count
  if last > 0x100000000 then
    throw (.failed (.invalidParameter "base_address" (marked 8 base.toNat)
      s!"{count} 바이트가 주소 공간 끝을 넘음"))

/-- Asks for the bytes of a range. -/
def readMemory (chip : Chip) (cpu : UInt8) (address : UInt32) (size : Nat)
    : Except Halt Request := do
  (checkLength "size" size).mapError .failed
  checkAddressRange address (UInt64.ofNat size)
  return {
    header := .toCore chip cpu .replyExpected
    command := .read
    arg1 := address
    arg2 := UInt32.ofNat size
    arg3 := (AccessUnit.forAccess address size).code
    operation := "read memory" }

/-- Puts bytes into a range. -/
def writeMemory (chip : Chip) (cpu : UInt8) (address : UInt32) (data : List UInt8)
    : Except Halt Request := do
  (checkLength "data" data.length).mapError .failed
  checkAddressRange address (UInt64.ofNat data.length)
  return {
    header := .toCore chip cpu .replyExpected
    command := .write
    arg1 := address
    arg2 := UInt32.ofNat data.length
    arg3 := (AccessUnit.forAccess address data.length).code
    data
    operation := "write memory" }

end MeshControl.Operation
