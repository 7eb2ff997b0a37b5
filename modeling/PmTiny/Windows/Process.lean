import PmTiny.Core.ProgramLog
import PmTiny.Core.RestartPolicy
import PmTiny.Core.RuntimeOperations
import PmTiny.Core.TerminationJob
import PmTiny.Lib.Keyed
import PmTiny.Persist.LoadProgCfg

namespace PmTiny.Windows
set_option autoImplicit true

abbrev ProgramConfig := Persist.ProgCfg

def restartPolicyConfig (cfg : ProgramConfig) : RestartPolicyConfig where
  delayMs := cfg.restartDelayMs.toInt
  maxDelayMs := cfg.restartMaxDelayMs.toInt
  windowMs := cfg.restartWindowMs.toInt
  maxAttempts := cfg.restartMaxAttempts.toInt
  resetAfterMs := cfg.restartResetAfterMs.toInt

inductive CompletionAction where
  | automatic | remove | restart | failureRestart | deleteConfig
  deriving DecidableEq, Repr

inductive ConfigSource where
  | file | runtime
  deriving DecidableEq, Repr

def stillActive : Nat := 259

/-- A program slot with at most one process tree. The handles of the tree are one flag, since they
are opened and closed together; the pipes of the two output streams are told apart by their
index. -/
structure ProcessHandle where
  config : ProgramConfig
  hasProcess : Bool := false
  processId : Nat := 0
  pipeRead : Nat → Bool := fun _ => false
  logTail : BoundedLogTail := {}
  logPipeEof : Nat → Bool := fun _ => false
  watchedLogGeneration : Nat → Nat := fun _ => 0
  disableRestart : Bool := false
  ready : Bool := false
  launchTimeMs : Int := 0
  lastTickMs : Int := 0
  heartbeatActionDueMs : Int := 0
  generation : Nat := 0
  watchedGeneration : Nat := 0
  rootExitObserved : Bool := false
  rootExitCode : Nat := stillActive
  hasLastExit : Bool := false
  lastExitCode : Nat := 0
  lastExitTimeUnixMs : Int := 0
  lastPid : Nat := 0
  termination : TerminationJob := {}
  completionAction : CompletionAction := .automatic
  terminationExitCode : Nat := 0
  restartPending : Bool := false
  restartDueMs : Int := 0
  restartState : RestartPolicyState := {}
  configSource : ConfigSource := .file

namespace ProcessHandle

def name (p : ProcessHandle) : String := p.config.name

def streamCount (p : ProcessHandle) : Nat := if p.config.logMode = .split then 2 else 1

/-- `ProcessHandle::reset` once the pipes have been read. -/
def reset (p : ProcessHandle) : ProcessHandle :=
  { p with
    pipeRead := fun _ => false
    hasProcess := false
    processId := 0
    ready := false
    launchTimeMs := 0
    lastTickMs := 0
    heartbeatActionDueMs := 0
    termination := {}
    completionAction := .automatic
    terminationExitCode := 0
    logPipeEof := fun _ => false
    watchedLogGeneration := fun _ => 0
    watchedGeneration := 0
    rootExitObserved := false
    rootExitCode := stillActive }

/-- What `launch_program` writes once the process runs. -/
def launched (p : ProcessHandle) (pid generation : Nat) (nowMs : Int) : ProcessHandle :=
  { p with
    processId := pid
    hasProcess := true
    ready := false
    generation := generation
    lastPid := pid
    launchTimeMs := nowMs
    lastTickMs := nowMs
    heartbeatActionDueMs := 0
    pipeRead := fun i => decide (i < p.streamCount)
    disableRestart := false
    termination := {}
    completionAction := .automatic
    terminationExitCode := 0
    restartPending := false
    restartDueMs := 0
    logTail := p.logTail.clear
    logPipeEof := fun _ => false
    watchedLogGeneration := fun _ => 0 }

/-- A stream is read until it is empty or at its end; the chunks are what the reads returned. -/
def pollStream (p : ProcessHandle) (i : Nat) (read : List (List UInt8) × Bool) : ProcessHandle :=
  if p.pipeRead i && !p.logPipeEof i then
    { p with
      logTail := read.1.foldl BoundedLogTail.append p.logTail
      logPipeEof := Function.update p.logPipeEof i read.2 }
  else p

/-- What `poll_program_log` appends to the log. -/
def polledChunks (p : ProcessHandle) (i : Nat) (read : List (List UInt8) × Bool) :
    List (List UInt8) :=
  if p.pipeRead i && !p.logPipeEof i then read.1 else []

def clearRestart (p : ProcessHandle) : ProcessHandle :=
  { p with restartPending := false, restartDueMs := 0, restartState := {} }

/-- `log_pipe_eof` of every pipe that the program's log mode waits for. -/
def logsEof (p : ProcessHandle) : Bool :=
  p.logPipeEof 0 && (p.config.logMode ≠ .split || p.logPipeEof 1)

def up (p : ProcessHandle) : Bool :=
  p.hasProcess && (p.ready || p.config.startTimeout = 0)

def observation (p : ProcessHandle) (index : Nat) : LifecycleProcessObservation where
  processIndex := index
  generation := p.generation
  hasProcess := p.hasProcess
  starting := p.hasProcess && !p.ready
  online := p.hasProcess && p.ready
  terminating := p.termination.phase ≠ .none
  treeDraining := p.termination.phase = .treeDraining || p.termination.phase = .forceKillRequested
  terminationDueMs :=
    if p.termination.phase = .termRequested ∨ p.termination.phase = .treeDraining then
      p.termination.deadlineMs
    else 0
  restartPending := p.restartPending
  restartDueMs := p.restartDueMs
  launchTimeMs := p.launchTimeMs
  lastTickMs := p.lastTickMs
  heartbeatActionDueMs := p.heartbeatActionDueMs
  startTimeoutS := p.config.startTimeout.toInt
  heartbeatTimeoutS := p.config.heartbeatTimeout.toInt
  failureAction := p.config.failureAction

end ProcessHandle

/-- What the operating system answers; the first argument counts the calls made so far. -/
structure System where
  clock : Nat → Int
  unixTime : Nat → Int
  /-- The process id of the resumed process, or the error of `launch_program`. -/
  launch : Nat → ProgramConfig → Except String Nat
  /-- `GenerateConsoleCtrlEvent`, with its error code. -/
  ctrlBreak : Nat → Nat → Except Nat Unit
  /-- `QueryInformationJobObject`: the active processes of a generation's job. -/
  activeProcesses : Nat → String → Nat → Except Nat Nat
  terminateJob : Nat → String → Nat → Except Nat Unit
  /-- What is in a pipe: the chunks read before it is empty, and whether its end was seen. -/
  readPipe : Nat → String → Nat → List (List UInt8) × Bool
  watchProcess : Nat → Bool
  watchProcessLog : Nat → Bool
  /-- Whether the message does not fit into the session's send queue. -/
  queueFull : Nat → Nat → Bool
  /-- The definitions in the configuration file, once recovered, read and parsed. -/
  readProgramFile : Nat → Except String (List ProgramConfig)
  /-- The environment saved for a program, or the daemon's own. -/
  loadEnvironmentSidecar : Nat → String → Except String (List String)
  processId : Nat

end PmTiny.Windows
