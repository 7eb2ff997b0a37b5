import PmTiny.Core.ProgramLog
import PmTiny.Core.RotatingLogWriter
import PmTiny.Persist.ProgCfg

namespace PmTiny
set_option autoImplicit true

structure LogSinkHealth where
  degraded : Bool := false
  droppedBytes : Nat := 0
  lastError : String := ""
  retryDueMs : Int := 0
  retryDelayMs : Int := 1000
  deriving DecidableEq, Repr

namespace LogSinkHealth

def retryReady (health : LogSinkHealth) (nowMs : Int) : Bool :=
  health.degraded && nowMs ≥ health.retryDueMs

def recordFailure (health : LogSinkHealth) (nowMs : Int) (dropped : Nat) (error : String) :
    LogSinkHealth where
  degraded := true
  droppedBytes := health.droppedBytes + dropped
  lastError := error
  retryDueMs := nowMs + health.retryDelayMs
  retryDelayMs := min (health.retryDelayMs * 2) 60000

def recordRecovery (health : LogSinkHealth) : LogSinkHealth :=
  { health with degraded := false, retryDueMs := 0, retryDelayMs := 1000 }

end LogSinkHealth

/-- One of the `log_writers`, with the files at its path; without a writer it is not present. -/
structure LogSink where
  present : Bool := false
  writer : RotatingLogWriter

instance twoStreams : NeZero 2 := ⟨Nat.succ_ne_zero 1⟩

/-- The log of a program's generation. -/
structure LogSinks where
  platform : Platform
  name : String
  logMode : Persist.LogMode := .split
  sinks : Fin 2 → LogSink
  health : LogSinkHealth := {}
  logTail : BoundedLogTail := {}
  messages : List String := []

namespace LogSinks

def degradedMessage (log : LogSinks) (error : String) : String :=
  match log.platform with
  | .linux => "program " ++ log.name ++ " log degraded: " ++ error
  | .windows => String.join ["Program `", log.name, "` log degraded: ", error]

def recoveredMessage (log : LogSinks) : String :=
  match log.platform with
  | .linux => "program " ++ log.name ++ " log recovered"
  | .windows => String.join ["Program `", log.name, "` log recovered."]

def message (text : String) (log : LogSinks) : LogSinks :=
  { log with messages := log.messages ++ [text] }

def recordFailure (now : Int) (dropped : Nat) (error : String) (log : LogSinks) : LogSinks :=
  { log with health := log.health.recordFailure now dropped error }

def setSink (index : Fin 2) (sink : LogSink) (log : LogSinks) : LogSinks :=
  { log with sinks := Function.update log.sinks index sink }

def writerIndices (log : LogSinks) : List (Fin 2) :=
  match log.logMode with
  | .combined => [0]
  | .split => [0, 1]

def writerIndex (log : LogSinks) (stream : Fin 2) : Fin 2 :=
  match log.logMode with
  | .combined => 0
  | .split => stream

def openWriter (index : Fin 2) (log : LogSinks) : Option String × LogSinks :=
  match (log.sinks index).writer.close.openFile with
  | (none, writer) => (none, log.setSink index ⟨true, writer⟩)
  | (some error, writer) => (some error, log.setSink index ⟨false, writer.close⟩)

/-- `init_prog_log` on Linux, and the same at a launch on Windows. Only Linux passes over an empty
path and only the other failures are logged. -/
def initWriter (now : Int) (log : LogSinks) (index : Fin 2) : LogSinks :=
  if log.platform = .linux ∧ (log.sinks index).writer.path = "" then log
  else
    match log.openWriter index with
    | (none, log) => log
    | (some error, log) => (log.recordFailure now 0 error).message (log.degradedMessage error)

def initProgLog (now : Int) (log : LogSinks) : LogSinks :=
  let log := { log with logTail := log.logTail.clear, health := {} }
  log.writerIndices.foldl (initWriter now) log

def openSibling (now : Int) (log : LogSinks) (index : Fin 2) : LogSinks :=
  if (log.sinks index).present then log
  else
    match log.openWriter index with
    | (none, log) => log
    | (some error, log) => log.recordFailure now 0 error

def recover (log : LogSinks) : LogSinks :=
  if log.health.degraded && log.writerIndices.all fun index => (log.sinks index).present then
    { log with health := log.health.recordRecovery }.message log.recoveredMessage
  else log

/-- The end of the function: the text goes to the writer, if there is one. Nothing is returned for
an append that has not come to an end. -/
def appendText (fuel : Nat) (now : Int) (index : Fin 2) (text : List UInt8) (log : LogSinks) :
    Option LogSinks :=
  if (log.sinks index).present then
    match (log.sinks index).writer.append fuel text with
    | (.running, _) => none
    | (.done, writer) => some (log.setSink index ⟨true, writer⟩)
    | (.failed error, writer) =>
      let changed := !log.health.degraded || log.health.lastError ≠ error
      let log := (log.setSink index ⟨false, writer.close⟩).recordFailure now text.length error
      some (if changed then log.message (log.degradedMessage error) else log)
  else some { log with
    health := { log.health with droppedBytes := log.health.droppedBytes + text.length } }

def writeLog (fuel : Nat) (now : Int) (stream : Fin 2) (text : List UInt8) (log : LogSinks) :
    Option LogSinks :=
  let index := log.writerIndex stream
  if !(log.sinks index).present && (!log.health.degraded || log.health.retryReady now) then
    match log.openWriter index with
    | (some error, log) => some (log.recordFailure now text.length error)
    | (none, log) =>
      (log.writerIndices.foldl (openSibling now) log).recover.appendText fuel now index text
  else log.appendText fuel now index text

def redirectOutputLog (fuel : Nat) (now : Int) (i : Fin 2) (text : List UInt8) (log : LogSinks) :
    Option LogSinks := log.writeLog fuel now i text

def appendProgramLog (fuel : Nat) (now : Int) (streamIndex : Fin 2) (data : List UInt8)
    (log : LogSinks) : Option LogSinks :=
  if data = [] then some log
  else { log with logTail := log.logTail.append data }.writeLog fuel now streamIndex data

end LogSinks

end PmTiny
