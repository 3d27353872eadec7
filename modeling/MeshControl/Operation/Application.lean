import MeshControl.Core.State
import MeshControl.Core.Subset
import MeshControl.Scp.Response

/-!
Requests that start applications and count the processors they run on.
-/

namespace MeshControl.Operation

open Scp Sdp

/-- The number 0 belongs to the system. -/
def checkApplication (application : UInt8) : Except Error Unit :=
  if application = 0 then
    .error (.invalidParameter "app_id" (toString application) "0 은 시스템 예약")
  else .ok ()

/-- The bit that holds started processors at their first barrier. -/
def waitBit : UInt32 := 0x40000

/-- An application's number above the processors it concerns. -/
def launchWord (application : UInt8) (processors : UInt32) (wait : Bool) : UInt32 :=
  (application.toUInt32 <<< 24) ||| processors ||| (if wait then waitBit else 0)

/-- Starts the loaded program on some processors of a chip. -/
def applicationRun (application : UInt8) (subset : Core.Subset) (wait : Bool)
    : Except Error Request := do
  checkApplication application
  if subset.processors.list.any fun number => number = 0 ∨ number > 17 then
    throw (.invalidParameter "processors" subset.text "프로세서는 1..=17 이어야 함")
  return {
    header := .toMonitor subset.chip .replyExpected
    command := .applicationRun
    arg1 := launchWord application subset.processors.mask wait
    operation := "application run" }

/-- What is counted: one application's processors, summed, in one state. -/
def countWord (application : UInt8) (state : Core.State) : UInt32 :=
  let scope : UInt32 := 0xff00 ||| application.toUInt32
  let stateBits : UInt32 := state.code.toUInt32 <<< 16
  scope + 0x400000 + 0x200000 + stateBits

/-- Asks how many processors of an application are in a state. -/
def countState (application : UInt8) (state : Core.State) : Except Error Request := do
  checkApplication application
  return {
    header := .toMonitor .origin .replyExpected
    command := .signal
    arg1 := 1
    arg2 := countWord application state
    arg3 := 0xffff
    operation := "count state"
    accepted := [.ok, .p2pNoReply] }

/-- The count in an answer. -/
def parseCount (response : Response) : Except Error UInt32 :=
  response.firstWord

end MeshControl.Operation
