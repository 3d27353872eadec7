import MeshControl.Flood.Transfer
import MeshControl.Locks
import MeshControl.Operation.Application

/-!
A session with a machine: the connections to its boards, and everything that is done over them.
Every operation runs batches of requests and leaves none behind. Once a session is closed, every
operation fails.
-/

namespace MeshControl

open Scp Link Operation

/-- Where programs are loaded. -/
def programAddress : UInt32 := 0x67800000

/-- A session with a machine. -/
structure Session (ρ : Type) where
  /-- The connections to chips, then those to management processors. -/
  hub : Hub ρ
  /-- How many of the connections are to chips. -/
  chipLines : Nat
  /-- For each boot connection, whether it is closed. -/
  boots : List Bool
  config : Config
  ids : Flood.Ids := {}
  locks : Locks Unit := {}
  closed : Bool := false

namespace Session

variable {ρ : Type}

/-- A session over connections to chips and to management processors; it needs one to a chip. -/
def open? (chips management : List (Connection ρ)) (boots : Nat) (topology : Option Topology)
    (config : Config) : Except Error (Session ρ) := do
  let lines := (chips ++ management).mapIdx fun number connection =>
    { connection := { connection with number } : Line ρ }
  let selector ← Selector.mostDirect? topology (Hub.candidates (lines.take chips.length))
  return {
    hub := { lines, selector }
    chipLines := chips.length
    boots := List.replicate boots false
    config }

/-- The size of the machine, if it is known. -/
def topology? (session : Session ρ) : Option Topology :=
  session.hub.selector.topology?

/-- Tells the size of the machine. -/
def setTopology (session : Session ρ) (machine : Topology) : Session ρ :=
  { session with
    hub := { session.hub with selector := session.hub.selector.setTopology machine } }

/-- Answers that nobody waited for. -/
def stale (session : Session ρ) : Nat :=
  session.hub.stale

/-- How many callers work on chips. -/
def active (session : Session ρ) : Nat :=
  session.locks.active

/-- What happened since the journal was last taken, and the session with an empty journal. -/
def takeJournal (session : Session ρ) : Array Event × Session ρ :=
  (session.hub.journal, { session with hub := { session.hub with journal := #[] } })

/-- Something arrives at a connection that no transmission brought about. -/
def inject (session : Session ρ) (number : Nat) (reaction : Reaction) : Session ρ :=
  { session with hub := session.hub.inject number reaction }

/-- Closes every connection, once. -/
def close (session : Session ρ) : Session ρ :=
  if session.closed then session
  else
    { session with
      closed := true
      hub :=
        { session.hub with
          lines := session.hub.lines.map fun line =>
            { line with connection := line.connection.close } }
      boots := session.boots.map fun _ => true }

/-- Does something with the connections of an open session. -/
def whenOpen {α : Type} (session : Session ρ) (run : Hub ρ → Except Halt α × Hub ρ)
    : Except Halt α × Session ρ :=
  if session.closed then (.error (.failed .closed), session)
  else
    let (result, hub) := run session.hub
    (result, { session with hub })

/-- Does something between asking for a lock and giving it back. -/
def guarded {α : Type} (session : Session ρ) (ask : Locks Unit → Locks Unit)
    (run : Session ρ → α × Session ρ) : α × Session ρ :=
  let (_, locks) := (ask session.locks).settle
  let (result, session) := run { session with locks }
  let (locks, _) := session.locks.release ()
  (result, { session with locks := locks.settle.2 })

variable [Responder ρ]

/-- Sends one request and gives its answer. -/
def send (session : Session ρ) (request : Request) : Except Halt Response × Session ρ :=
  session.whenOpen fun hub => hub.execute session.config request

/-- Sends one request to the first management processor. -/
def sendManagement (session : Session ρ) (request : Request)
    : Except Halt Response × Session ρ :=
  session.whenOpen fun hub =>
    match hub.lines.drop session.chipLines with
    | [] => (.error (.failed .noConnections), hub)
    | line :: _ =>
        let target : Candidate := ⟨line.connection.number, line.connection.chip⟩
        let (result, after) :=
          { hub with selector := .fixed target }.execute Config.management request
        (result, { after with selector := hub.selector })

/-- The piece of a range that one request reads: where it starts in the range, and its size. -/
def piece (length index : Nat) : Nat × Nat :=
  (index * maxData, min maxData (length - index * maxData))

/-- An answer to a request for so many bytes must bring them. -/
def checkPiece (size : Nat) (response : Response) : Except Error Unit :=
  if response.payload.length < size then
    .error (.invalidPacket "read memory response"
      s!"{size} 바이트 요청, {response.payload.length} 바이트 수신")
  else .ok ()

/-- The request for one piece of a range. -/
def readOrder (chip : Chip) (base : UInt32) (length index : Nat) : Order :=
  let (offset, size) := piece length index
  { request := readMemory chip 0 (base + UInt32.ofNat offset) size
    handler := { audience := .slot index, check := checkPiece size } }

/-- The bytes of a range, from the answers for its pieces; what no answer gave is zero. -/
def assemble (length count : Nat) (events : Array Event) : List UInt8 :=
  let empty := (Array.range count).map fun index => List.replicate (piece length index).2 0
  let filled := events.foldl
    (fun pieces event =>
      match event with
      | .accepted _ response (.slot index) =>
          pieces.setIfInBounds index (response.payload.take (piece length index).2)
      | _ => pieces)
    empty
  filled.toList.flatten

/-- Reads a range of a chip's memory, piece by piece. -/
def read (session : Session ρ) (chip : Chip) (base : UInt32) (length : UInt64)
    : Except Halt (List UInt8) × Session ρ :=
  session.whenOpen fun hub =>
    if length = 0 then (.ok [], hub)
    else
      match checkAddressRange base length with
      | .error halt => (.error halt, hub)
      | .ok () =>
          let size := length.toNat
          let count := (size + (maxData - 1)) / maxData
          let (result, hub) := hub.exchange session.config count (readOrder chip base size)
          (result.map (assemble size count), hub)

/-- The request that writes one piece of some data. -/
def writeOrder (chip : Chip) (base : UInt32) (data : List UInt8) (index : Nat) : Order where
  request :=
    writeMemory chip 0 (base + UInt32.ofNat (index * maxData))
      (Wire.field data (index * maxData) maxData)

/-- Writes data into a chip's memory, piece by piece. -/
def write (session : Session ρ) (chip : Chip) (base : UInt32) (data : List UInt8)
    : Except Halt Unit × Session ρ :=
  session.whenOpen fun hub =>
    match checkAddressRange base (UInt64.ofNat data.length) with
    | .error halt => (.error halt, hub)
    | .ok () => hub.batch session.config (Flood.pieces data) (writeOrder chip base data)

/-- Floods data under the lock that keeps others off the machine. -/
def flood (session : Session ρ) (base : UInt32) (data : List UInt8)
    : Except Halt Unit × Session ρ :=
  let (result, hub, ids) := Flood.write session.hub session.ids session.config base data
  (result, { session with hub, ids })

/-- Writes data into the memory of every chip. -/
def floodWrite (session : Session ρ) (base : UInt32) (data : List UInt8)
    : Except Halt Unit × Session ρ :=
  if session.closed then (.error (.failed .closed), session)
  else session.guarded (·.askFlood ()) fun session => session.flood base data

/--
Writes so many bytes of a source into the memory of every chip; what is left comes back. The source
may also fail in another way than by its end.
-/
def floodWriteFrom (session : Session ρ) (base : UInt32) (source : List UInt8) (bytes : UInt64)
    (failure : IoFailure := .endOfData) : Except Halt Unit × List UInt8 × Session ρ :=
  if session.closed then (.error (.failed .closed), source, session)
  else
    let ((result, unread), session) := session.guarded (·.askFlood ()) fun session =>
      let (delivered, ids) :=
        Flood.writeFrom session.hub session.ids session.config base source bytes failure
      ((delivered.result, delivered.unread), { session with hub := delivered.hub, ids })
    (result, unread, session)

/-- Loads a program into one chip and starts it there. -/
def execute (session : Session ρ) (subset : Core.Subset) (program : List UInt8)
    (application : UInt8) (wait : Bool) : Except Halt Unit × Session ρ :=
  if session.closed then (.error (.failed .closed), session)
  else
    match applicationRun application subset wait with
    | .error error => (.error (.failed error), session)
    | .ok run =>
        session.guarded (·.askChip () subset.chip) fun session =>
          match session.write subset.chip programAddress program with
          | (.error halt, session) => (.error halt, session)
          | (.ok (), session) =>
              let (result, session) := session.send run
              (result.map fun _ => (), session)

/-- Loads a program into every chip and starts it on some processors. -/
def executeFlood (session : Session ρ) (subsets : Core.Subsets) (program : List UInt8)
    (application : UInt8) (wait : Bool) : Except Halt Unit × Session ρ :=
  if session.closed then (.error (.failed .closed), session)
  else
    match subsets.toList.mapM fun subset => applicationRun application subset wait with
    | .error error => (.error (.failed error), session)
    | .ok runs =>
        session.guarded (·.askFlood ()) fun session =>
          match session.flood programAddress program with
          | (.error halt, session) => (.error halt, session)
          | (.ok (), session) =>
              let order := fun index =>
                { request := (runs[index]?).elim (.error (.failed .closed)) .ok : Order }
              session.whenOpen fun hub => hub.batch session.config runs.length order

/-- The chips that are asked for counts: those with a socket, or the one in the corner. -/
def countChips (session : Session ρ) : List Chip :=
  match session.topology? with
  | some machine => if machine.isSingleBoard then [.origin] else machine.ethernetChips
  | none => [.origin]

/-- A sum with the count that an event brings, if it brings one. -/
def addCount (sum : UInt32) : Event → Except Halt UInt32
  | .accepted _ response _ => wordSum sum ((parseCount response).toOption.getD 0)
  | _ => .ok sum

/-- The sum of the counts that were accepted, each added when its answer came. -/
def total (events : Array Event) : Except Halt UInt32 :=
  events.toList.foldlM addCount 0

/--
How many processors of an application are in a state. A sum that does not fit stops the program in
the middle of the batch, whatever the batch would still have come to.
-/
def count (session : Session ρ) (application : UInt8) (state : Core.State)
    : Except Halt UInt32 × Session ρ :=
  session.whenOpen fun hub =>
    match countState application state with
    | .error error => (.error (.failed error), hub)
    | .ok template =>
        let chips := session.countChips
        let order := fun index =>
          { request :=
              .ok { template with
                header :=
                  { template.header with destination := chips.getD index .origin } }
            handler := { check := fun response => (parseCount response).map fun _ => () } : Order }
        let (result, events, hub) :=
          hub.apart fun hub => hub.batch .countState chips.length order
        ((total events).bind fun sum => result.map fun () => sum, hub)

end Session

end MeshControl
