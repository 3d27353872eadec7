import MeshControl.Duration
import MeshControl.Scp.Code
import MeshControl.Text.Quoted

/-!
What can go wrong, and how it is told. `Error.message` is the sentence for a reader,
`Error.detail` the cause with its fields by name.
-/

namespace MeshControl

open Text

/-- A failure of the network or of a data source. -/
inductive IoFailure
  | system (code : Nat) (kind text : String)
  | endOfData
  | other (text : String)
deriving DecidableEq, Repr, Inhabited

namespace IoFailure

/-- A data source that ended before it gave what was asked of it. -/
def endOfDataText : String := "failed to fill whole buffer"

def message : IoFailure → String
  | system code _ text => s!"{text} (os error {code})"
  | endOfData => endOfDataText
  | other text => text

def detail : IoFailure → String
  | system code kind text =>
      s!"Os \x7b code: {code}, kind: {kind}, message: " ++ quoted text ++ " \x7d"
  | endOfData => "Error \x7b kind: UnexpectedEof, message: " ++ quoted endOfDataText ++ " \x7d"
  | other text => "Custom \x7b kind: Other, error: " ++ quoted text ++ " \x7d"

/-- There is no route from this host to the peer. -/
def noRoute : IoFailure :=
  system 101 "NetworkUnreachable" "Network is unreachable"

end IoFailure

/-- Why an operation failed. -/
inductive Error
  | io (failure : IoFailure)
  | ioProblem (text : String)
  | timeout (operation : String) (limit : Duration)
  | invalidParameter (parameter value problem : String)
  | unexpectedResponseCode (operation command : String) (code : UInt16)
      (result : Option Scp.ResultCode)
  | invalidPacket (kind problem : String)
  | notSendable
  | allocationFailure (text : String)
  | noConnections
  | closed
deriving DecidableEq, Repr, Inhabited

namespace Error

/-- A result that may be unknown, as it stands in messages. -/
def resultText : Option Scp.ResultCode → String
  | some result => "Some(" ++ result.name ++ ")"
  | none => "None"

/-- The sentence that tells the error. -/
def message : Error → String
  | io failure => "IO 에러: " ++ failure.message
  | ioProblem text => "IO 에러: " ++ text
  | timeout operation limit => s!"타임아웃: {operation} (" ++ limit.text ++ " 이내 응답 없음)"
  | invalidParameter parameter value problem =>
      s!"유효하지 않은 파라미터 {parameter}={value}: {problem}"
  | unexpectedResponseCode operation command code result =>
      "예상하지 못한 응답 " ++ marked 2 code.toNat ++ " (" ++ resultText result
        ++ s!"): operation={operation}, command={command}"
  | invalidPacket kind problem => s!"유효하지 않은 패킷 ({kind}): {problem}"
  | notSendable => "원격 주소가 없는 연결로는 송신 불가"
  | allocationFailure text => "보드 버퍼 할당 실패: " ++ text
  | noConnections => "연결 없음"
  | closed => "이미 닫힌 연결 또는 프로세스"

/-- The name of the kind of error. -/
def kind : Error → String
  | io _ => "Io"
  | ioProblem _ => "IoProblem"
  | timeout .. => "Timeout"
  | invalidParameter .. => "InvalidParameter"
  | unexpectedResponseCode .. => "UnexpectedResponseCode"
  | invalidPacket .. => "InvalidPacket"
  | notSendable => "NotSendable"
  | allocationFailure _ => "AllocationFailure"
  | noConnections => "NoConnections"
  | closed => "Closed"

/-- Named fields between braces. -/
def fields (items : List (String × String)) : String :=
  " \x7b " ++ ", ".intercalate (items.map fun item => item.1 ++ ": " ++ item.2) ++ " \x7d"

/-- The kind of error with its fields. -/
def detail (error : Error) : String :=
  error.kind ++ match error with
    | io failure => "(" ++ failure.detail ++ ")"
    | ioProblem text => "(" ++ quoted text ++ ")"
    | timeout operation limit =>
        fields [("operation", quoted operation), ("timeout", limit.text)]
    | invalidParameter parameter value problem =>
        fields [("parameter", quoted parameter), ("value", quoted value),
          ("problem", quoted problem)]
    | unexpectedResponseCode operation command code result =>
        fields [("operation", quoted operation), ("command", quoted command),
          ("code", toString code), ("result", resultText result)]
    | invalidPacket kind problem =>
        fields [("packet_type", quoted kind), ("problem", quoted problem)]
    | allocationFailure text => "(" ++ quoted text ++ ")"
    | notSendable | noConnections | closed => ""

/-- Nothing came in time. -/
def isTimeout : Error → Bool
  | timeout .. => true
  | _ => false

end Error

end MeshControl
