/-!
What a processor is doing, as the monitor reports it.
-/

namespace MeshControl.Core

/-- The state of a processor. -/
inductive State
  | dead
  | poweredDown
  | runTimeException
  | watchdog
  | initialising
  | ready
  | cMain
  | running
  | sync0
  | sync1
  | paused
  | finished
  | reserved12
  | reserved13
  | reserved14
  | idle
deriving DecidableEq, Repr, Inhabited

namespace State

/-- The number on the wire. -/
def code : State → UInt8
  | dead => 0
  | poweredDown => 1
  | runTimeException => 2
  | watchdog => 3
  | initialising => 4
  | ready => 5
  | cMain => 6
  | running => 7
  | sync0 => 8
  | sync1 => 9
  | paused => 10
  | finished => 11
  | reserved12 => 12
  | reserved13 => 13
  | reserved14 => 14
  | idle => 15

/-- The name in reports. -/
def name : State → String
  | dead => "Dead"
  | poweredDown => "PoweredDown"
  | runTimeException => "RunTimeException"
  | watchdog => "Watchdog"
  | initialising => "Initialising"
  | ready => "Ready"
  | cMain => "CMain"
  | running => "Running"
  | sync0 => "Sync0"
  | sync1 => "Sync1"
  | paused => "Paused"
  | finished => "Finished"
  | reserved12 => "CpuState12"
  | reserved13 => "CpuState13"
  | reserved14 => "CpuState14"
  | idle => "Idle"

/-- Every state, by ascending number. -/
def all : List State :=
  [dead, poweredDown, runTimeException, watchdog, initialising, ready, cMain, running, sync0,
    sync1, paused, finished, reserved12, reserved13, reserved14, idle]

/-- The state with a given number. -/
def ofCode? (code : UInt8) : Option State :=
  all.find? fun state => state.code == code

/-- The words by which a command line names a state; reserved states have none. -/
def words : List (String × State) :=
  [("dead", dead), ("powered_down", poweredDown), ("run_time_exception", runTimeException),
    ("rte", runTimeException), ("watchdog", watchdog), ("initialising", initialising),
    ("ready", ready), ("c_main", cMain), ("running", running), ("sync0", sync0),
    ("sync1", sync1), ("paused", paused), ("finished", finished), ("idle", idle)]

/-- The state that a word names, in upper or lower case. -/
def ofWord? (word : String) : Option State :=
  words.lookup (word.map Char.toLower)

/-- A state's number reads back as the state. -/
theorem ofCode?_code (state : State) : ofCode? state.code = some state := by
  cases state <;> rfl

/-- Only its own number stands for a state. -/
theorem code_of_ofCode? {code : UInt8} {state : State} (h : ofCode? code = some state)
    : state.code = code := by
  simpa using List.find?_some h

end State

end MeshControl.Core
