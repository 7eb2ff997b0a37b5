import PmTiny.Core.ProgramLog
import PmTiny.Daemon.Payloads
import PmTiny.Protocol.FrameReader

namespace PmTiny
set_option autoImplicit true

/-- `program_log_response` as the client reads it. -/
structure ProgramLogMetadata where
  mode : LogRequestMode
  generation : Nat
  lastPid : Int
  lastExitTimeUnixMs : Int
  exitReason : List UInt8
  exitCode : Int
  deriving DecidableEq, Repr

def checkedLogRequestMode (value : Int) : Except String LogRequestMode :=
  if value = 0 then .ok .live
  else if value = 1 then .ok .history
  else .error "invalid program-log mode"

/-- The checks that `read_program_log_response` ends with. -/
def checkedMetadata (data : ProgramLogMetadata) : Except String ProgramLogMetadata :=
  if data.generation = 0 then .error "invalid program-log generation"
  else if data.mode = .history ∧
      (data.lastPid ≤ 0 ∨ data.lastExitTimeUnixMs ≤ 0 ∨ data.exitReason = []) then
    .error "incomplete program-log history metadata"
  else .ok data

def readProgramLogResponse (stream : List UInt8) : Except String ProgramLogMetadata := do
  let (schema, stream) ← fgetInt 4 stream
  let (mode, stream) ← fgetInt 4 stream
  if schema ≠ programLogResponseSchemaVersion then
    throw "unsupported program-log response schema"
  let mode ← checkedLogRequestMode mode
  let (generation, stream) ← fgetNat 8 stream
  let (lastPid, stream) ← fgetInt 8 stream
  let (lastExitTimeUnixMs, stream) ← fgetInt 8 stream
  let (exitReason, stream) ← fgetString stream
  let (exitCode, _) ← fgetInt 4 stream
  checkedMetadata { mode, generation, lastPid, lastExitTimeUnixMs, exitReason, exitCode }

/-- A process id, as `fork` gives it to the parent. -/
structure Pid where
  value : Nat
  pos : 0 < value
  lt : value < 2 ^ 31

/-- What is noted of an exit: the wait status and the time of day. -/
structure ChildExit where
  wstatus : Nat
  unixMs : Int
  wstatus_lt : wstatus < 2 ^ 31
  unixMs_ge : -2 ^ 63 ≤ unixMs
  unixMs_lt : unixMs < 2 ^ 63

/-- A generation that was executed: what it printed, and how it ended. -/
structure Run where
  generation : UInt64
  pid : Pid
  output : List UInt8 := []
  exit : Option ChildExit := none

/-- What the log requests read of a program, and the last generation of it that was executed. -/
structure LoggedProg where
  name : String
  generation : UInt64 := 0
  pid : Option Pid := none
  lastPid : Option Pid := none
  hasLastExit : Bool := false
  lastWstatus : Nat := 0
  lastExitTimeUnixMs : Int := 0
  logTail : BoundedLogTail := {}
  pipesOpen : Bool := false
  lastRun : Option Run := none

inductive LogEvent where
  | refused
  | aborted (pid : Pid)
  | started (pid : Pid)
  | output (text : List UInt8)
  | pipesClosed
  | reaped (exit : ChildExit) (text : List UInt8)
  | waited (exit : ChildExit)

namespace LoggedProg

/-- `managed_process_instance::begin`. -/
def start (p : LoggedProg) (pid : Pid) : LoggedProg :=
  { p with generation := p.generation + 1, pid := some pid, lastPid := some pid }

def resetFailedStart (p : LoggedProg) : LoggedProg := { p with pid := none, lastPid := none }

def initProgLog (p : LoggedProg) : LoggedProg := { p with logTail := p.logTail.clear }

/-- `write_msg_to_sessions`, as far as the tail is concerned. -/
def writeMsg (p : LoggedProg) (text : List UInt8) : LoggedProg :=
  { p with
    logTail := p.logTail.append text
    lastRun := p.lastRun.map fun run => { run with output := run.output ++ text } }

def noteExit (p : LoggedProg) (exit : ChildExit) : LoggedProg :=
  { p with
    lastWstatus := exit.wstatus
    hasLastExit := true
    lastExitTimeUnixMs := exit.unixMs
    lastRun := p.lastRun.map fun run => { run with exit := some exit } }

/-- A spawn is tried only without a process. It is refused before the fork, or fails after it, or
leads to a generation whose log starts empty. A reaped process leaves its last output in its pipes,
which `close_fds` reads before it closes them; `kill_all_prog` only waits for it. -/
def step (p : LoggedProg) : LogEvent → LoggedProg
  | .refused => p
  | .aborted pid => if p.pid.isSome then p else (p.start pid).resetFailedStart
  | .started pid =>
    if p.pid.isSome then p
    else
      let p := (p.start pid).initProgLog
      { p with pipesOpen := true, lastRun := some { generation := p.generation, pid := pid } }
  | .output text => if p.pipesOpen then p.writeMsg text else p
  | .pipesClosed => { p with pipesOpen := false }
  | .reaped exit text =>
    if p.pid.isNone then p
    else
      let p := p.noteExit exit
      let p := if p.pipesOpen then p.writeMsg text else p
      { p with pid := none, pipesOpen := false }
  | .waited exit => if p.pid.isNone then p else { p.noteExit exit with pid := none }

/-- The answer to a history log request. -/
def handleLogHistory (p : LoggedProg) : Reply :=
  if p.pid.isSome then
    { status := 2, message := String.join ["`", p.name, "` is running; use `pm log ", p.name, "`"] }
  else if p.generation = 0 ∨ !p.hasLastExit ∨ p.lastExitTimeUnixMs ≤ 0 then
    { status := 2
      message := String.join ["no completed log generation available for `", p.name, "`"] }
  else
    let response : ProgramLogResponse :=
      { mode := .history
        generation := p.generation.toNat
        lastPid := p.lastPid.map Pid.value
        lastExitTimeUnixMs := p.lastExitTimeUnixMs
        lastWstatus := if p.hasLastExit then some p.lastWstatus else none }
    { status := 0, message := "success", body := .log response }

/-- The states of a program after any sequence of events. -/
inductive Reachable : LoggedProg → Prop
  | registered (name : String) : Reachable { name := name }
  | step (h : Reachable p) (event : LogEvent) : Reachable (p.step event)

end LoggedProg

end PmTiny
