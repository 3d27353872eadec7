import MeshControl.Link.Station

/-!
Many windows on one connection. Each has an inbox of its own at the one dispatcher.
-/

namespace MeshControl.Link

open Scp

/-- A connection with the windows that share it, by number. -/
structure Junction (ρ : Type) where
  line : Line ρ
  windows : Table Nat Window := .empty
  journal : Array Event := #[]

namespace Junction

variable {ρ : Type}

/-- A new window; its number is that of its inbox. -/
def openWindow (junction : Junction ρ) (config : Config) : Nat × Junction ρ :=
  let (inbox, dispatcher) := junction.line.dispatcher.openInbox
  (inbox,
    { junction with
      line := { junction.line with dispatcher }
      windows := junction.windows.insert inbox { config, inbox } })

/-- The windows of a list of settings, on one new connection. -/
def ofConfigs (line : Line ρ) (configs : List Config) : Junction ρ :=
  configs.foldl (fun junction config => (junction.openWindow config).2) { line }

/-- One of the windows at work. -/
def station (junction : Junction ρ) (window : Window) : Station ρ :=
  { line := junction.line, window, journal := junction.journal }

/-- What a window did takes effect. -/
def update (junction : Junction ρ) (number : Nat) (station : Station ρ) : Junction ρ :=
  { line := station.line
    windows := junction.windows.insert number station.window
    journal := station.journal }

/-- Sends a request in a window; a window that is gone is closed. -/
def send [Responder ρ] (junction : Junction ρ) (number : Nat) (request : Request)
    (sequence : UInt16) (handler : Handler) : Except Error Unit × Junction ρ :=
  match junction.windows.get? number with
  | none => (.error .closed, junction)
  | some window =>
      let (result, station) := (junction.station window).send request sequence handler
      (result, junction.update number station)

/-- Waits until every request of a window has ended. -/
def finish [Responder ρ] (junction : Junction ρ) (number : Nat) : Junction ρ :=
  match junction.windows.get? number with
  | none => junction
  | some window => junction.update number (junction.station window).finish

/-- Takes the failures of a window out of it. -/
def takeFailures (junction : Junction ρ) (number : Nat) : List Failure × Junction ρ :=
  match junction.windows.get? number with
  | none => ([], junction)
  | some window =>
      let (failures, window) := window.takeFailures
      (failures, { junction with windows := junction.windows.insert number window })

/-- A window goes away; the numbers of its waiting requests are free again. -/
def drop (junction : Junction ρ) (number : Nat) : Junction ρ :=
  match junction.windows.get? number with
  | none => junction
  | some window =>
      let dispatcher :=
        window.outstanding.keys.foldl Dispatcher.unregister junction.line.dispatcher
      { junction with
        line := { junction.line with dispatcher := dispatcher.discard window.inbox }
        windows := junction.windows.erase number }

/-- Something arrives that no transmission brought about. -/
def inject (junction : Junction ρ) (reaction : Reaction) : Junction ρ :=
  { junction with
    line := { junction.line with connection := junction.line.connection.absorb reaction } }

end Junction

end MeshControl.Link
