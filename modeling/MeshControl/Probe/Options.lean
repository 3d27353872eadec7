import MeshControl.Config
import MeshControl.Core.State
import MeshControl.Machine.Topology
import MeshControl.Net.Address

/-!
The command line of the probe: options in any order, and the query. The words are read in groups,
an option with its value or a query with its arguments; the first group that cannot be read is
reported.
-/

namespace MeshControl.Probe

open Text

/-- What the probe asks of a machine. -/
inductive Query
  | version (chip : Chip) (cpu : UInt8)
  | count (application : UInt8) (state : Core.State)
  | read (chip : Chip) (address : UInt32) (length : UInt64)
deriving DecidableEq, Repr

/-- What the command line says. -/
structure Options where
  target : Net.Address := ⟨Net.loopback, monitorPort⟩
  topology : Option Topology := none
  verbose : Bool := false
  query : Option Query := none
  config : Config := {}

/-- Why a command line gives no options. -/
inductive Refusal
  /-- Help was asked for. -/
  | help
  /-- Words cannot be read. -/
  | malformed (message : String)
deriving DecidableEq, Repr

/-- The word at a place, which is missed under a name. -/
def word (words : List String) (place : Nat) (what : String) : Except Refusal String :=
  match words[place]? with
  | some value => .ok value
  | none => .error (.malformed (what ++ " 값이 필요함"))

/-- The value of the word at a place. -/
def value {α : Type} (words : List String) (place : Nat) (what : String)
    (read : String → Option α) : Except Refusal α := do
  let text ← word words place what
  match read text with
  | some value => return value
  | none => throw (.malformed (s!"유효한 {what} 필요: " ++ text))

/-- A memory address, in decimal, or in hexadecimal after a mark. -/
def address? (text : String) : Option UInt32 :=
  let number? := match text.toList with
    | '0' :: 'x' :: digits => natural? 16 UInt32.size digits
    | '0' :: 'X' :: digits => natural? 16 UInt32.size digits
    | digits => natural? 10 UInt32.size digits
  number?.map UInt32.ofNat

/-- A memory address, or why it is none. -/
def address (text : String) : Except Refusal UInt32 :=
  match address? text with
  | some address => .ok address
  | none => .error (.malformed ("유효한 주소 필요: " ++ text))

/-- The size of a machine: width and height with an `x` between them. -/
def machine (text : String) : Except Refusal Topology :=
  match cut? 'x' text.toList with
  | none => .error (.malformed ("WxH 형식 필요: " ++ text))
  | some (width, height) =>
      match byte? (String.ofList width), byte? (String.ofList height) with
      | none, _ => .error (.malformed ("유효한 너비 필요: " ++ text))
      | _, none => .error (.malformed ("유효한 높이 필요: " ++ text))
      | some width, some height => .ok ⟨width, height⟩

/-- Reads a query for a version. -/
def versionQuery (words : List String) : Except Refusal Query := do
  let x ← value words 0 "X" byte?
  let y ← value words 1 "Y" byte?
  let cpu ← value words 2 "P" byte?
  return .version ⟨x, y⟩ cpu

/-- Reads a query for a count; the state must be there before the application is looked at. -/
def countQuery (words : List String) : Except Refusal Query := do
  let name ← word words 1 "상태"
  let application ← value words 0 "APP_ID" byte?
  match Core.State.ofWord? name with
  | some state => return .count application state
  | none => throw (.malformed ("알 수 없는 상태: " ++ name))

/-- Reads a query for memory; the address must be there before the chip is looked at. -/
def readQuery (words : List String) : Except Refusal Query := do
  let text ← word words 2 "주소"
  let x ← value words 0 "X" byte?
  let y ← value words 1 "Y" byte?
  let start ← address text
  let length ← value words 3 "길이" long?
  return .read ⟨x, y⟩ start length

/-- Reads one group, by its first word; gives how many of the words after it belong to it. -/
def group (options : Options) (first : String) (words : List String)
    : Except Refusal (Options × Nat) := do
  match first with
  | "--target" | "-t" =>
      return ({ options with target := ← value words 0 "주소" Net.Address.ofText? }, 1)
  | "--machine" | "-m" =>
      let text ← word words 0 "머신 크기"
      return ({ options with topology := some (← machine text) }, 1)
  | "--timeout" =>
      let limit ← value words 0 "숫자" long?
      let timeout := Duration.ofMilliseconds limit.toNat
      return ({ options with config := { options.config with timeout } }, 1)
  | "--retries" =>
      let sends ← value words 0 "숫자" word?
      return ({ options with config := { options.config with sends := sends.toNat } }, 1)
  | "--patient" => return ({ options with config := .patient }, 0)
  | "--verbose" | "-v" => return ({ options with verbose := true }, 0)
  | "--help" | "-h" => throw .help
  | "version" => return ({ options with query := some (← versionQuery words) }, 3)
  | "count" => return ({ options with query := some (← countQuery words) }, 2)
  | "read" => return ({ options with query := some (← readQuery words) }, 4)
  | other => throw (.malformed ("알 수 없는 인자: " ++ other))

/-- Reads the groups of a command line from the left. -/
def Options.parseFrom (options : Options) : List String → Except Refusal Options
  | [] => .ok options
  | first :: words => do
      let (options, used) ← group options first words
      parseFrom options (words.drop used)
termination_by words => words.length
decreasing_by
  simp only [List.length_drop, List.length_cons]
  omega

/-- Reads a command line. -/
def Options.parse (words : List String) : Except Refusal Options :=
  Options.parseFrom {} words

/-- How the probe is used. -/
def help : String :=
  "\n".intercalate
    ["SCP Probe - SCAMP 보드 질의 도구",
      "",
      "사용법:",
      "  cargo run --release --bin scp-probe -- [OPTIONS] <COMMAND> [ARGS]",
      "",
      "명령:",
      "  version <X> <Y> <P>              코어의 소프트웨어 버전",
      "  count <APP_ID> <STATE>           app 의 STATE 코어 수 (running, ready, sync0, ...)",
      "  read <X> <Y> <ADDR> <LEN>        칩 메모리 읽기 (ADDR 는 0x 접두 16진수 가능)",
      "",
      "옵션:",
      "  -t, --target <ADDR>     칩 (0,0) 이더넷 주소 (기본: 127.0.0.1:17893)",
      "  -m, --machine <WxH>     머신 크기 (예: 12x12); 지정 시 이더넷 칩별로 카운트",
      "  --timeout <MS>          요청 타임아웃 밀리초 (기본: 1000)",
      "  --retries <N>           요청당 총 송신 횟수 (기본: 3)",
      "  --patient               손실 링크용 설정",
      "  -v, --verbose           디버그 로그",
      "  -h, --help              이 도움말 출력",
      "",
      "예시:",
      "  # 가상 보드에 버전 질의",
      "  cargo run --release --bin scp-probe -- -t 127.0.0.1:17893 version 0 0 0",
      "", ""]

end MeshControl.Probe
