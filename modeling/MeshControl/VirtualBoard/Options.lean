import MeshControl.Board.State
import MeshControl.Config
import MeshControl.Net.Address
import MeshControl.Probe.Options
import MeshControl.Text.Decimal

/-!
The command line of the virtual board, and what the board writes down while it runs.
-/

namespace MeshControl.VirtualBoard

open Text Probe

/-- What the command line says. -/
structure Options where
  bind : Net.Address := ⟨Net.loopback, monitorPort⟩
  verbose : Bool := false
  /-- The seconds from one report to the next. -/
  interval : Nat := 10
  machine : Topology := ⟨8, 8⟩
  /-- The share of requests that is lost. -/
  loss : Float := 0

/-- The value of an option, whose text is faulted in the option's own words. -/
def valueOf {α : Type} (words : List String) (what fault : String) (read : String → Option α)
    : Except Refusal α := do
  let text ← word words 0 what
  match read text with
  | some value => return value
  | none => throw (.malformed (fault ++ text))

/-- The size of a machine: width and height with an `x` between them. -/
def machine? (text : String) : Option Topology := do
  let (width, height) ← cut? 'x' text.toList
  return ⟨← byte? (String.ofList width), ← byte? (String.ofList height)⟩

/-- Reads one group, by its first word; gives how many of the words after it belong to it. -/
def group (options : Options) (first : String) (words : List String)
    : Except Refusal (Options × Nat) := do
  match first with
  | "--bind" | "-b" =>
      let bind ← valueOf words "주소" "유효한 주소 필요: " Net.Address.ofText?
      return ({ options with bind }, 1)
  | "--machine" | "-m" =>
      let machine ← valueOf words "머신 크기" "WxH 형식 필요: " machine?
      return ({ options with machine }, 1)
  | "--loss" =>
      let loss ← valueOf words "손실 비율" "유효한 숫자 필요: " real?
      return ({ options with loss := clamp 0 1 loss }, 1)
  | "--stats" =>
      let seconds ← valueOf words "초" "유효한 숫자 필요: " long?
      return ({ options with interval := max seconds.toNat 1 }, 1)
  | "--verbose" | "-v" => return ({ options with verbose := true }, 0)
  | "--help" | "-h" => throw .help
  | other => throw (.malformed ("알 수 없는 인자: " ++ other))

/-- Reads the groups of a command line from the left. -/
def Options.parseFrom (options : Options) : List String → Except Refusal Options
  | [] => .ok options
  | first :: words => do
      let (options, used) ← group options first words
      parseFrom options (words.drop used)
termination_by words => words.length
decreasing_by
  simp only [List.length_drop, List.length_cons]
  omega

/-- Reads a command line. -/
def Options.parse (words : List String) : Except Refusal Options :=
  Options.parseFrom {} words

/-- The board that the command line asks for. -/
def Options.settings (options : Options) : Board.Settings :=
  { machine := options.machine, losesAll := Board.losesAll options.loss }

/-- How the virtual board is used. -/
def help : String :=
  "\n".intercalate
    ["Virtual Board - 흉내 SCAMP 응답기",
      "",
      "VER / READ / WRITE / AR / SIG(count) / NNP / FFD 에 응답",
      "- flood fill 블록을 모아 END 에서 모든 대상 칩에 반영",
      "- 요청 손실 흉내",
      "",
      "사용법:",
      "  cargo run --release --bin virtual-board -- [OPTIONS]",
      "",
      "옵션:",
      "  -b, --bind <ADDR>       바인드 주소 (기본: 127.0.0.1:17893)",
      "  -m, --machine <WxH>     머신 크기 (기본: 8x8)",
      "  --loss <RATIO>          요청 손실 비율 0.0~1.0 (기본: 0)",
      "  --stats <SECS>          통계 출력 주기 (기본: 10)",
      "  -v, --verbose           디버그 로그",
      "  -h, --help              이 도움말 출력",
      "", ""]

/-- What the board writes down when it starts. -/
def opening (options : Options) (address : String) : List String :=
  ["virtual_board: Virtual board starting...",
    s!"virtual_board: Machine: {options.machine.width}x{options.machine.height}",
    "virtual_board: Loss: " ++ oneDecimal (options.loss * 100) ++ "%",
    "scamp_link::emulator: 가상 보드 시작: " ++ address,
    "virtual_board: Listening on " ++ address]

/-- What the board writes down now and then. -/
def report (tally : Board.Tally) : String :=
  s!"virtual_board: received={tally.received} replied={tally.replied} dropped={tally.dropped}"

/-- What the board writes down when it is stopped. -/
def closing (address : String) : List String :=
  ["virtual_board: Shutting down...", "scamp_link::emulator: 가상 보드 정지: " ++ address]

end MeshControl.VirtualBoard
