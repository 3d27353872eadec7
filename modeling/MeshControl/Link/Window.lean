import MeshControl.Config
import MeshControl.Link.Dispatcher
import MeshControl.Statistics

/-!
The requests of one sender that wait for answers on a connection. The window bounds their number;
each may be sent a bounded number of times and ends once, well or with an error.
-/

namespace MeshControl.Link

open Scp Text

/-- Why a request had to be sent again. -/
inductive Reason
  | silence
  | result (code : ResultCode)
deriving DecidableEq, Repr, Inhabited

/-- The reason in messages. -/
def Reason.name : Reason → String
  | silence => "timeout"
  | result code => code.name

/-- A reason is named a timeout exactly if it is silence: no result has this name. -/
theorem Reason.name_eq_timeout_iff (reason : Reason)
    : reason.name = "timeout" ↔ reason = .silence := by
  cases reason with
  | silence => simp [name]
  | result code => cases code <;> simp [name, ResultCode.name]

/--
Who is told how a request ended: nobody, the one who watches, the caller who waits for this request
alone, or a numbered slot.
-/
inductive Audience
  | nobody
  | watcher
  | caller
  | slot (number : Nat)
deriving DecidableEq, Repr, Inhabited

/-- What the sender of a request wants of its answer. -/
structure Handler where
  audience : Audience := .nobody
  /-- The sender's own test of an accepted answer. -/
  check : Response → Except Error Unit := fun _ => .ok ()

/-- A request that waits for its answer. -/
structure Outstanding where
  /-- The request with its sequence number. -/
  request : Request
  /-- The bytes that were sent, and are sent again. -/
  datagram : Datagram
  /-- How often it may still be sent. -/
  remaining : Nat
  /-- Why it was sent again, oldest first. -/
  reasons : List Reason := []
  handler : Handler := {}

/-- A request that ended with an error. -/
structure Failure where
  request : Request
  error : Error
deriving DecidableEq, Repr

/-- What happens on a connection, in the order in which it happens. -/
inductive Event
  /-- A datagram went to the connection with this number, which may have refused it. -/
  | transmitted (connection : Nat) (datagram : Datagram) (refusal : Option Error)
  /-- A request got an answer that it accepts. -/
  | accepted (request : Request) (response : Response) (audience : Audience)
  /-- A request ended with an error. -/
  | failed (request : Request) (error : Error) (audience : Audience)
deriving DecidableEq, Repr

/-- The requests of one sender on one connection. -/
structure Window where
  config : Config
  /-- The number of the inbox for the answers. -/
  inbox : Nat
  outstanding : Table UInt16 Outstanding := .empty
  /-- Failures that were not collected yet, oldest first. -/
  failures : List Failure := []
  counters : Counters := {}

namespace Window

/-- How many requests wait for answers. -/
def inProgress (window : Window) : Nat :=
  window.outstanding.size

/-- The request with this number waits for its answer. -/
def isOutstanding (window : Window) (sequence : UInt16) : Bool :=
  window.outstanding.contains sequence

/-- How often the waiting requests may still be sent or ended, taken together. -/
def budget (window : Window) : Nat :=
  window.outstanding.weight fun entry => entry.remaining + 1

/-- The failures so far, and the window without them. -/
def takeFailures (window : Window) : List Failure × Window :=
  (window.failures, { window with failures := [] })

end Window

/-- An answer that a request does not take. -/
def unexpected (request : Request) (code : UInt16) (result : Option ResultCode) : Error :=
  .unexpectedResponseCode request.operation request.command.name code result

/-- Why a request that may not be sent again has failed. -/
def exhausted (config : Config) (entry : Outstanding) : Error :=
  if entry.reasons.all (· == .silence) then .timeout entry.request.operation config.timeout
  else
    let header := entry.request.header
    .ioProblem
      (s!"{entry.request.operation} 요청을 {header.destination.x},{header.destination.y},"
        ++ s!"{header.destinationCpu} 로 {config.sends}회 보냈으나 실패: "
        ++ bracketed (entry.reasons.map fun reason => quoted reason.name))

/-- Whether all was silence can as well be read off the names of the reasons. -/
theorem all_silence_eq_names (reasons : List Reason)
    : reasons.all (· == .silence) = (reasons.map Reason.name).all (· == "timeout") := by
  have same : ∀ reason : Reason, (reason == .silence) = (reason.name == "timeout") := by
    intro reason
    rw [Bool.eq_iff_iff, beq_iff_eq, beq_iff_eq, reason.name_eq_timeout_iff]
  simp only [List.all_map, Function.comp_def, same]

end MeshControl.Link
