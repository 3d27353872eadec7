import MeshControl.Halt
import MeshControl.Link.Hub

/-!
A batch of requests over all connections. Each request takes the connection that is chosen for it;
one that fails does not stop the others, and the failure that came first is the one reported.
`exchange` runs a whole batch: it sends, waits, checks, and leaves no request behind.
-/

namespace MeshControl.Link

open Scp

/-- A batch of requests: one window for each connection in use, and the failures so far. -/
structure Process where
  config : Config
  /-- The windows, by the number of their connection, in the order in which they were opened. -/
  windows : Table Nat Window := .empty
  /-- Failures of all connections, oldest first. -/
  failures : List Failure := []
  /-- Nothing more may be sent. -/
  finished : Bool := false

namespace Process

variable {ρ : Type}

/-- The number is in use in one of the process's windows. -/
def isOutstanding (process : Process) (sequence : UInt16) : Bool :=
  process.windows.values.any fun window => window.isOutstanding sequence

/-- The number is in use in the process, or by anyone on the connection. -/
def isTaken (process : Process) (line : Line ρ) (sequence : UInt16) : Bool :=
  process.isOutstanding sequence || line.dispatcher.isRegistered sequence

/-- The window on a connection, opened if there was none. -/
def engage (process : Process) (number : Nat) (line : Line ρ) : Window × Line ρ × Process :=
  match process.windows.get? number with
  | some window => (window, line, process)
  | none =>
      let (inbox, dispatcher) := line.dispatcher.openInbox
      let window : Window := { config := process.config, inbox }
      (window, { line with dispatcher },
        { process with windows := process.windows.insert number window })

/--
The sequence number of a request: its own, or the next that is free. After as many draws as there
are numbers all of them are known to be in use, and no further draw would find one.
-/
def assign (process : Process) (line : Line ρ) (wanted : Option UInt16)
    (sequences : SequenceGenerator) : Except Halt (UInt16 × SequenceGenerator) :=
  match wanted with
  | some sequence =>
      if process.isTaken line sequence then
        .error (.failed (.invalidParameter "sequence" (toString sequence)
          "아직 응답을 기다리는 시퀀스"))
      else .ok (sequence, sequences)
  | none =>
      (nextFree (process.isTaken line) sequenceCount sequences).elim (.error .endless) .ok

/-- What a window did takes effect, and its failures are collected. -/
def collect (process : Process) (number : Nat) (window : Window) : Process :=
  let (failures, window) := window.takeFailures
  { process with
    windows := process.windows.insert number window
    failures := process.failures ++ failures }

/-- Sends a request on the connection that is chosen for it. -/
def send [Responder ρ] (hub : Hub ρ) (process : Process) (request : Request)
    (handler : Handler) : Except Halt Unit × Hub ρ × Process :=
  if process.finished then (.error (.failed .closed), hub, process)
  else
    match request.validate with
    | .error error => (.error (.failed error), hub, process)
    | .ok () =>
        let (candidate, selector) := hub.selector.select request.header.destination
        -- The selector has moved on, even if the connection turns out to refuse the request.
        let hub := { hub with selector }
        match hub.line? candidate.number with
        | none => (.error (.failed .noConnections), hub, process)
        | some line =>
            let (window, line, process) := process.engage candidate.number line
            let hub := hub.setLine candidate.number line
            match process.assign line request.sequence hub.sequences with
            | .error halt => (.error halt, hub, process)
            | .ok (sequence, sequences) =>
                let station : Station ρ := { line, window, journal := hub.journal }
                let (result, station) := station.send request sequence handler
                (result.mapError .failed,
                  { hub.update candidate.number station with sequences },
                  process.collect candidate.number station.window)

/-- Waits for the requests of one window. -/
def finishWindow [Responder ρ] (hub : Hub ρ) (process : Process) (number : Nat)
    : Hub ρ × Process :=
  match hub.line? number, process.windows.get? number with
  | some line, some window =>
      let station := Station.finish { line, window, journal := hub.journal }
      (hub.update number station, process.collect number station.window)
  | _, _ => (hub, process)

/-- Waits until every request has ended, window by window; this may be done once. -/
def finish [Responder ρ] (hub : Hub ρ) (process : Process)
    : Except Error Unit × Hub ρ × Process :=
  if process.finished then (.error .closed, hub, process)
  else
    let process := { process with finished := true }
    let (hub, process) := process.windows.keys.foldl
      (fun state number => finishWindow state.1 state.2 number) (hub, process)
    (.ok (), hub, process)

/-- The error of the request that failed first. -/
def check (process : Process) : Except Error Unit :=
  match process.failures with
  | [] => .ok ()
  | first :: _ => .error first.error

/-- Waits until every request has ended, and reports the first failure. -/
def finishAndCheck [Responder ρ] (hub : Hub ρ) (process : Process)
    : Except Error Unit × Hub ρ × Process :=
  match finish hub process with
  | (.error error, hub, process) => (.error error, hub, process)
  | (.ok (), hub, process) => (process.check, hub, process)

/-- The windows go away; the numbers of waiting requests are free again. -/
def drop (hub : Hub ρ) (process : Process) : Hub ρ :=
  process.windows.entries.foldl
    (fun hub entry =>
      hub.modifyLine entry.1 fun line =>
        let dispatcher := entry.2.outstanding.keys.foldl Dispatcher.unregister line.dispatcher
        { line with dispatcher := dispatcher.discard entry.2.inbox })
    hub

/-- The counters of all windows, in the order in which they were opened. -/
def statistics (process : Process) : Statistics :=
  { windows := process.windows.values.map Window.counters
    errors := process.failures.length }

end Process

/-- A request still to be made, and what its sender wants of the answer. -/
structure Order where
  request : Except Halt Request
  handler : Handler := {}

variable {ρ : Type}

/-- Sends so many of some orders, from an index on, until one cannot be made or sent. -/
def Process.sendAll [Responder ρ] (orders : Nat → Order) (hub : Hub ρ) (process : Process)
    (index : Nat) : Nat → Except Halt Unit × Hub ρ × Process
  | 0 => (.ok (), hub, process)
  | count + 1 =>
      match (orders index).request with
      | .error halt => (.error halt, hub, process)
      | .ok request =>
          match Process.send hub process request (orders index).handler with
          | (.error halt, hub, process) => (.error halt, hub, process)
          | (.ok (), hub, process) => sendAll orders hub process (index + 1) count

/-- Runs something with a journal of its own, which is added to the hub's at the end. -/
def Hub.apart {α : Type} (hub : Hub ρ) (run : Hub ρ → α × Hub ρ) : α × Array Event × Hub ρ :=
  let (result, after) := run { hub with journal := #[] }
  (result, after.journal, { after with journal := hub.journal ++ after.journal })

/-- Sends the first of some orders, waits for all answers, and leaves no request behind. -/
def Hub.batch [Responder ρ] (hub : Hub ρ) (config : Config) (count : Nat)
    (orders : Nat → Order) : Except Halt Unit × Hub ρ :=
  match Process.sendAll orders hub { config } 0 count with
  | (.error halt, hub, process) => (.error halt, process.drop hub)
  | (.ok (), hub, process) =>
      let (result, hub, process) := Process.finishAndCheck hub process
      (result.mapError .failed, process.drop hub)

/-- Runs a batch, and gives its events if every request succeeded. -/
def Hub.exchange [Responder ρ] (hub : Hub ρ) (config : Config) (count : Nat)
    (orders : Nat → Order) : Except Halt (Array Event) × Hub ρ :=
  let (result, events, hub) := hub.apart fun hub => hub.batch config count orders
  (result.map fun () => events, hub)

/-- The answer to the request that a caller waits for; without one, the caller finds it closed. -/
def callersAnswer (events : Array Event) : Except Error Response :=
  let answer? := events.findSome? fun event =>
    match event with
    | .accepted _ response .caller => some response
    | _ => none
  answer?.elim (.error .closed) .ok

/-- Sends one request and gives its answer. -/
def Hub.execute [Responder ρ] (hub : Hub ρ) (config : Config) (request : Request)
    : Except Halt Response × Hub ρ :=
  let order : Order := { request := .ok request, handler := { audience := .caller } }
  let (result, hub) := hub.exchange config 1 fun _ => order
  (result.bind fun events => (callersAnswer events).mapError .failed, hub)

end MeshControl.Link
