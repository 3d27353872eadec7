import MeshControl.Operation.Version
import MeshControl.Probe.Options
import MeshControl.Session

/-!
The probe: one query over a session, and what is shown for its answer.
-/

namespace MeshControl.Probe

open Scp Link Operation Text

/-- What a program leaves behind. -/
structure Output where
  code : Nat := 0
  shown : String := ""
  complaint : String := ""
deriving DecidableEq, Repr, Inhabited

/-- The line for a version. -/
def versionLine (version : Version) : String :=
  s!"({version.chip.x}, {version.chip.y}, {version.cpu}) phys={version.physicalCpu} "
    ++ s!"{version.name}/{version.hardware} "
    ++ s!"{version.major}.{version.minor}.{version.patch} build={version.buildDate}\n"

/-- The line for the bytes from an address on. -/
def dumpLine (address : Nat) (bytes : List UInt8) : String :=
  hexadecimal 8 address ++ "  "
    ++ " ".intercalate (bytes.map fun byte => hexadecimal 2 byte.toNat) ++ "\n"

/-- Bytes, sixteen to a line. -/
def dump (base : UInt32) (bytes : List UInt8) : String :=
  let lines := (List.range ((bytes.length + 15) / 16)).map fun index =>
    dumpLine (base.toNat + index * 16) (Wire.field bytes (index * 16) 16)
  "".intercalate lines

variable {ρ : Type} [Responder ρ]

/-- A session over one connection, to the chip in the corner. -/
def connect (peer : ρ) (options : Options) : Except Error (Session ρ) :=
  let connection : Connection ρ := { number := 0, name := "board", chip := .origin, peer }
  Session.open? [connection] [] 0 options.topology options.config

/-- Puts a query, and gives what is shown for its answer. -/
def ask (session : Session ρ) (query : Query) : Except Halt String × Session ρ :=
  match query with
  | .version chip cpu =>
      let (result, session) := session.send (getVersion chip cpu)
      let shown := result.bind fun response =>
        ((Version.decode response.payload).map versionLine).mapError .failed
      (shown, session)
  | .count application state =>
      let (result, session) := session.count application state
      (result.map fun count => s!"app {application} {state.name}: {count}\n", session)
  | .read chip address length =>
      let (result, session) := session.read chip address length
      (result.map (dump address), session)

/-- What a program leaves behind that ends with an error. -/
def outputOfError (error : Error) : Output where
  code := 1
  complaint := "Error: " ++ error.detail ++ "\n"

/-- What the probe leaves behind for a result; a call that never ends leaves nothing. -/
def outputOf : Except Halt String → Output
  | .ok shown => { shown }
  | .error (.failed error) => outputOfError error
  | .error .overflow => { code := 101, complaint := "attempt to add with overflow\n" }
  | .error .endless => {}

/-- What a program leaves behind that could not read its command line. -/
def outputOfRefusal (help : String) : Refusal → Output
  | .help => { shown := help }
  | .malformed message => { code := 2, complaint := message ++ "\n--help 로 사용법 확인\n" }

/-- What a command line comes to: a text to leave behind at once, or a query to put. -/
inductive Job
  | done (output : Output)
  | ask (options : Options) (query : Query)

/-- What a command line comes to. -/
def job (words : List String) : Job :=
  match Options.parse words with
  | .error refusal => .done (outputOfRefusal help refusal)
  | .ok options =>
      match options.query with
      | none => .done { code := 2, shown := help }
      | some query => .ask options query

/-- Puts a query to a peer. -/
def perform (peer : ρ) (options : Options) (query : Query) : Output × ρ :=
  match connect peer options with
  | .error error => (outputOfError error, peer)
  | .ok session =>
      let (result, session) := ask session query
      let after := (session.hub.line? 0).map fun line => line.connection.peer
      (outputOf result, after.getD peer)

end MeshControl.Probe
