import PmTiny.Daemon.Handlers
import PmTiny.Persist.ProgCfg
import PmTiny.Protocol.FrameStream

namespace PmTiny
set_option autoImplicit true

/-- The bytes of a string in a frame, and of a counted list of strings. -/
def textSize (text : String) : Nat := 4 + text.utf8ByteSize

def textsSize (texts : List String) : Nat := 4 + (texts.map textSize).sum

def int32Max : Nat := 2147483647

def appendStrings (failure : Failure) (values : List String) : List Field :=
  .check (values.length ≤ int32Max) failure :: .int 4 values.length :: values.map .str

theorem frameSize_strings (values : List String) :
    frameSize (values.map .str) = (values.map textSize).sum := by
  rw [frameSize, List.map_map]
  rfl

@[simp] theorem frameSize_appendStrings (failure : Failure) (values : List String) :
    frameSize (appendStrings failure values) = textsSize values := by
  rw [appendStrings, frameSize_cons, frameSize_cons, frameSize_strings, textsSize]
  exact Nat.zero_add _

theorem length_le_textsSize (values : List String) : 4 * values.length ≤ textsSize values := by
  induction values with
  | nil => exact Nat.zero_le _
  | cons value values ih =>
    rw [textsSize, List.map_cons, List.sum_cons, List.length_cons]
    rw [textsSize] at ih
    have : 4 ≤ textSize value := Nat.le_add_right 4 _
    omega

@[simp] theorem checksPass_appendStrings (failure : Failure) (values : List String) :
    ChecksPass (appendStrings failure values) ↔ values.length ≤ int32Max := by
  simp [appendStrings]

theorem checksPass_of_small (failure : Failure) (values : List String)
    (h : textsSize values ≤ protocolV3MaxPayload) : ChecksPass (appendStrings failure values) := by
  have hlength := length_le_textsSize values
  have hmax : protocolV3MaxPayload ≤ int32Max := by decide
  rw [checksPass_appendStrings]
  omega

/-- What a program's snapshots show beyond the attributes that the daemon acts on. -/
structure ProgDetails where
  args : List String := []
  envVars : List String := []
  oomScoreAdj : Int := 0
  usePty : Bool := false
  logMode : Persist.LogMode := .split
  logDir : String := ""
  logFileName : String := ""
  logMaxSizeKb : Int := 4096
  logArchiveCount : Int := 3
  rssKib : Int := -1
  processTreeBackend : String := ""
  processTreeDegraded : Bool := false
  processTreeDegradationReason : String := ""
  logDegraded : Bool := false
  logDroppedBytes : Nat := 0
  logLastError : String := ""
  logRetryDueMs : Int := 0
  logfile : List String := []

/-- The definition that `snapshot_config` reads back from a program. -/
structure ConfigSnapshot where
  name : String
  cwd : String
  executable : String
  args : List String
  killTimeoutS : Int
  runAs : String
  envVars : List String
  dependsOn : List String
  startTimeout : Int
  failureAction : FailureAction
  daemon : Bool
  heartbeatTimeout : Int
  oomScoreAdj : Int
  pty : Bool
  logMode : Persist.LogMode
  logDir : String
  logFileName : String
  logMaxSizeKb : Int
  logArchiveCount : Int
  restart : RestartPolicyConfig

def snapshotConfig (prog : ProgInfo) (details : ProgDetails) : ConfigSnapshot where
  name := prog.name
  cwd := prog.workDir
  executable := prog.executable
  args := details.args
  killTimeoutS := prog.killTimeoutSec
  runAs := prog.runAs
  envVars := details.envVars
  dependsOn := prog.dependsOn
  startTimeout := prog.startTimeout
  failureAction := prog.failureAction
  daemon := prog.daemon
  heartbeatTimeout := prog.heartbeatTimeout
  oomScoreAdj := details.oomScoreAdj
  pty := details.usePty
  logMode := details.logMode
  logDir := details.logDir
  logFileName := details.logFileName
  logMaxSizeKb := details.logMaxSizeKb
  logArchiveCount := details.logArchiveCount
  restart := prog.restartConfig

inductive ExitReason where
  | none | exited | signaled | unknown
  deriving DecidableEq, Repr

def ExitReason.name : ExitReason → String
  | .none => "none"
  | .exited => "exited"
  | .signaled => "signaled"
  | .unknown => "unknown"

def ExitReason.value : ExitReason → Int
  | .none => 0
  | .exited => 1
  | .signaled => 2
  | .unknown => 3

def exitOf (wstatus : Nat) : ExitReason × Int :=
  if wstatus % 128 = 0 then (.exited, (wstatus / 256 % 256 : Nat))
  else if wstatus % 128 ≠ 127 then (.signaled, (wstatus % 128 : Nat))
  else (.unknown, wstatus)

def ProgState.value : ProgState → Int
  | .noRun => 0
  | .runing => 1
  | .startupFail => 2
  | .requestStop => 3
  | .stoped => 4
  | .exit => 5
  | .starting => 6
  | .waitingStart => 7
  | .requestDelete => 8
  | .blocked => 9

def failureActionValue : FailureAction → Int
  | .skip => 0
  | .restart => 1
  | .reboot => 2

def logModeValue : Persist.LogMode → Int
  | .split => 0
  | .combined => 1

def pidValue (pid : Option Nat) : Int := pid.elim (-1) fun pid => pid

structure RuntimeSnapshot where
  pid : Int := -1
  generation : Nat := 0
  state : Int := 0
  restartCount : Int := 0
  ready : Bool := false
  heartbeatEnabled : Bool := false
  hasLastTickAge : Bool := false
  lastTickAgeMs : Int := 0
  hasUptime : Bool := false
  uptimeMs : Int := 0
  hasRss : Bool := false
  rssKib : Int := 0
  pty : Int := -1
  restartPending : Bool := false
  restartDelayRemainingMs : Int := 0
  restartAttemptsInWindow : Int := 0
  restartSuppressed : Bool := false
  restartSuppressionReason : String := ""
  hasLastExit : Bool := false
  lastExitReason : ExitReason := .none
  lastExitCode : Int := 0
  processTreeBackend : String := ""
  processTreeDegraded : Bool := false
  processTreeDegradationReason : String := ""
  configSource : String := ""
  logDegraded : Bool := false
  logDroppedBytes : Nat := 0
  logLastError : String := ""
  logRetryRemainingMs : Int := 0
  logPaths : List String := []

def snapshotRuntime (prog : ProgInfo) (details : ProgDetails) (nowMs : Int) : RuntimeSnapshot :=
  let heartbeatEnabled := decide (prog.heartbeatTimeout > 0)
  let hasLastTickAge := heartbeatEnabled && decide (prog.lastTickTimepoint > 0)
  let hasUptime := prog.live && decide (prog.lastStartupMs > 0)
  let lastExit := if prog.hasLastExit then exitOf prog.lastWstatus else (.none, 0)
  { pid := pidValue prog.inst.pid
    generation := prog.inst.generation
    state := prog.state.value
    restartCount := prog.deadCount
    ready := prog.state = .runing
    heartbeatEnabled := heartbeatEnabled
    hasLastTickAge := hasLastTickAge
    lastTickAgeMs := if hasLastTickAge then max 0 (nowMs - prog.lastTickTimepoint) else 0
    hasUptime := hasUptime
    uptimeMs := if hasUptime then max 0 (nowMs - prog.lastStartupMs) else 0
    hasRss := prog.live && decide (details.rssKib ≥ 0)
    rssKib := if prog.live then details.rssKib else 0
    pty := if details.usePty then 1 else 0
    restartPending := prog.restartPending
    restartDelayRemainingMs := if prog.restartPending then max 0 (prog.restartDueMs - nowMs) else 0
    restartAttemptsInWindow := prog.restartState.attemptsMs.length
    restartSuppressed := prog.restartState.suppressed
    restartSuppressionReason :=
      if prog.restartState.suppressed then restartAttemptLimitReason else ""
    hasLastExit := prog.hasLastExit
    lastExitReason := lastExit.1
    lastExitCode := lastExit.2
    processTreeBackend := details.processTreeBackend
    processTreeDegraded := details.processTreeDegraded
    processTreeDegradationReason := details.processTreeDegradationReason
    configSource := prog.configSource
    logDegraded := details.logDegraded
    logDroppedBytes := details.logDroppedBytes
    logLastError := details.logLastError
    logRetryRemainingMs := if details.logDegraded then max 0 (details.logRetryDueMs - nowMs) else 0
    logPaths := details.logfile.filter (· ≠ "") }

structure ProcessListEntry where
  config : ConfigSnapshot
  runtime : RuntimeSnapshot

def processListSchemaVersion : Int := 5

def inspectSchemaVersion : Int := 2

def progCfgSchemaVersion : Int := 2

/-- The part of `append_process_list` for one entry. -/
def ProcessListEntry.fields (entry : ProcessListEntry) : List Field :=
  let config := entry.config
  let runtime := entry.runtime
  List.flatten [
  [.int 8 runtime.pid, .str config.name, .str config.cwd, .str config.executable],
  appendStrings (.lengthError "argument list is too large") config.args,
  [.int 4 runtime.restartCount, .int 4 runtime.state, .bool runtime.hasUptime,
    .int 8 runtime.uptimeMs, .bool runtime.hasRss, .int 8 runtime.rssKib, .bool config.daemon,
    .int 4 runtime.pty],
  appendStrings (.lengthError "dependency list is too large") config.dependsOn,
  [.bool runtime.restartPending, .int 8 runtime.restartDelayRemainingMs,
    .int 4 runtime.restartAttemptsInWindow, .bool runtime.restartSuppressed,
    .str runtime.restartSuppressionReason, .int 8 runtime.generation, .bool runtime.ready,
    .bool runtime.heartbeatEnabled, .bool runtime.hasLastExit, .str runtime.lastExitReason.name,
    .int 4 runtime.lastExitCode, .str runtime.processTreeBackend, .bool runtime.processTreeDegraded,
    .str runtime.processTreeDegradationReason, .str runtime.configSource, .bool runtime.logDegraded,
    .int 8 runtime.logDroppedBytes, .str runtime.logLastError, .int 8 runtime.logRetryRemainingMs,
    .int 4 runtime.logPaths.length],
  runtime.logPaths.map .str]

def appendProcessList (entries : List ProcessListEntry) : List Field :=
  [.check (entries.length ≤ int32Max) (.lengthError "process list is too large"),
    .int 4 processListSchemaVersion, .int 4 entries.length] ++
  entries.flatMap ProcessListEntry.fields

def startListTooLarge : Failure := .protocolError "start list is too large"

def appendProgCfg (config : ConfigSnapshot) : List Field :=
  List.flatten [
  [.int 4 progCfgSchemaVersion, .str config.name, .str config.cwd, .str config.executable],
  appendStrings startListTooLarge config.args,
  [.int 4 config.killTimeoutS, .str config.runAs],
  appendStrings startListTooLarge config.envVars,
  appendStrings startListTooLarge config.dependsOn,
  [.int 4 config.startTimeout, .int 4 (failureActionValue config.failureAction),
    .bool config.daemon, .int 4 config.heartbeatTimeout, .int 4 config.oomScoreAdj,
    .bool config.pty, .int 4 (logModeValue config.logMode), .str config.logDir,
    .str config.logFileName, .int 4 config.logMaxSizeKb, .int 4 config.logArchiveCount,
    .int 4 config.restart.delayMs, .int 4 config.restart.maxDelayMs, .int 4 config.restart.windowMs,
    .int 4 config.restart.maxAttempts, .int 4 config.restart.resetAfterMs]]

def appendRuntimeSnapshot (runtime : RuntimeSnapshot) : List Field :=
  List.flatten [
  [.int 8 runtime.pid, .int 8 runtime.generation, .int 4 runtime.state, .int 4 runtime.restartCount,
    .bool runtime.ready, .bool runtime.heartbeatEnabled, .bool runtime.hasLastTickAge,
    .int 8 runtime.lastTickAgeMs, .bool runtime.hasUptime, .int 8 runtime.uptimeMs,
    .bool runtime.hasRss, .int 8 runtime.rssKib, .int 4 runtime.pty, .bool runtime.restartPending,
    .int 8 runtime.restartDelayRemainingMs, .int 4 runtime.restartAttemptsInWindow,
    .bool runtime.restartSuppressed, .str runtime.restartSuppressionReason,
    .bool runtime.hasLastExit, .int 4 runtime.lastExitReason.value, .int 4 runtime.lastExitCode,
    .str runtime.processTreeBackend, .bool runtime.processTreeDegraded,
    .str runtime.processTreeDegradationReason, .str runtime.configSource,
    .bool runtime.logDegraded, .int 8 runtime.logDroppedBytes, .str runtime.logLastError,
    .int 8 runtime.logRetryRemainingMs, .int 4 runtime.logPaths.length],
  runtime.logPaths.map .str]

def appendInspectSnapshot (config : ConfigSnapshot) (runtime : RuntimeSnapshot) : List Field :=
  .int 4 inspectSchemaVersion :: (appendProgCfg config ++ appendRuntimeSnapshot runtime)

/-- The bytes of one entry: the fixed fields and the texts. -/
def ProcessListEntry.size (entry : ProcessListEntry) : Nat :=
  116 + textSize entry.config.name + textSize entry.config.cwd + textSize entry.config.executable +
  textsSize entry.config.args + textsSize entry.config.dependsOn +
  textSize entry.runtime.restartSuppressionReason + textSize entry.runtime.lastExitReason.name +
  textSize entry.runtime.processTreeBackend + textSize entry.runtime.processTreeDegradationReason +
  textSize entry.runtime.configSource + textSize entry.runtime.logLastError +
  textsSize entry.runtime.logPaths

theorem ProcessListEntry.frameSize_fields (entry : ProcessListEntry) :
    frameSize entry.fields = entry.size := by
  simp only [fields, List.flatten_cons, List.flatten_nil, frameSize_append, frameSize_cons,
    frameSize_nil, frameSize_appendStrings, frameSize_strings, Field.size, Field.bool, size,
    textSize, textsSize]
  omega

def processListSize (entries : List ProcessListEntry) : Nat :=
  8 + (entries.map ProcessListEntry.size).sum

theorem frameSize_appendProcessList (entries : List ProcessListEntry) :
    frameSize (appendProcessList entries) = processListSize entries := by
  have hentries : frameSize (entries.flatMap ProcessListEntry.fields) =
      (entries.map ProcessListEntry.size).sum := by
    induction entries with
    | nil => rfl
    | cons entry entries ih =>
      rw [List.flatMap_cons, frameSize_append, entry.frameSize_fields, ih, List.map_cons,
        List.sum_cons]
  simp only [appendProcessList, frameSize_append, frameSize_cons, frameSize_nil, hentries,
    Field.size, processListSize]

def ConfigSnapshot.size (config : ConfigSnapshot) : Nat :=
  64 + textSize config.name + textSize config.cwd + textSize config.executable +
  textsSize config.args + textSize config.runAs + textsSize config.envVars +
  textsSize config.dependsOn + textSize config.logDir + textSize config.logFileName

def RuntimeSnapshot.size (runtime : RuntimeSnapshot) : Nat :=
  128 + textSize runtime.restartSuppressionReason + textSize runtime.processTreeBackend +
  textSize runtime.processTreeDegradationReason + textSize runtime.configSource +
  textSize runtime.logLastError + textsSize runtime.logPaths

theorem frameSize_appendInspectSnapshot (config : ConfigSnapshot) (runtime : RuntimeSnapshot) :
    frameSize (appendInspectSnapshot config runtime) = 4 + config.size + runtime.size := by
  have hconfig : frameSize (appendProgCfg config) = config.size := by
    simp only [appendProgCfg, List.flatten_cons, List.flatten_nil, frameSize_append,
      frameSize_cons, frameSize_nil, frameSize_appendStrings, Field.size, Field.bool,
      ConfigSnapshot.size, textSize, textsSize]
    omega
  have hruntime : frameSize (appendRuntimeSnapshot runtime) = runtime.size := by
    simp only [appendRuntimeSnapshot, List.flatten_cons, List.flatten_nil, frameSize_append,
      frameSize_cons, frameSize_nil, frameSize_strings, Field.size, Field.bool,
      RuntimeSnapshot.size, textSize, textsSize]
    omega
  rw [appendInspectSnapshot, frameSize_cons, frameSize_append, hconfig, hruntime, Field.size]
  omega

theorem ProcessListEntry.checksPass_fields {entry : ProcessListEntry}
    (h : entry.size ≤ protocolV3MaxPayload) : ChecksPass entry.fields := by
  rw [size] at h
  have hargs := checksPass_of_small (.lengthError "argument list is too large")
    entry.config.args (by omega)
  have hdeps := checksPass_of_small (.lengthError "dependency list is too large")
    entry.config.dependsOn (by omega)
  simp only [checksPass_appendStrings] at hargs hdeps
  simp [fields, hargs, hdeps]

theorem checksPass_appendProcessList {entries : List ProcessListEntry}
    (h : processListSize entries ≤ protocolV3MaxPayload) :
    ChecksPass (appendProcessList entries) := by
  have hentries : 116 * entries.length ≤ (entries.map ProcessListEntry.size).sum ∧
      ∀ entry ∈ entries, entry.size ≤ (entries.map ProcessListEntry.size).sum := by
    clear h
    induction entries with
    | nil => exact ⟨Nat.le_refl 0, fun _ he => absurd he List.not_mem_nil⟩
    | cons entry entries ih =>
      have hsize : 116 ≤ entry.size := by
        rw [ProcessListEntry.size]
        omega
      rw [List.map_cons, List.sum_cons, List.length_cons]
      constructor
      · omega
      · intro other hother
        rcases List.mem_cons.1 hother with rfl | hother
        · omega
        · have := ih.2 other hother
          omega
  have hmax : protocolV3MaxPayload ≤ int32Max := by decide
  rw [processListSize] at h
  have hlength : entries.length ≤ int32Max := by omega
  have hfields : ChecksPass (entries.flatMap ProcessListEntry.fields) := by
    intro failure hm
    obtain ⟨entry, he, hf⟩ := List.mem_flatMap.1 hm
    have := hentries.2 entry he
    exact entry.checksPass_fields (by omega) failure hf
  simp [appendProcessList, hlength, hfields]

theorem checksPass_appendInspectSnapshot {config : ConfigSnapshot} (runtime : RuntimeSnapshot)
    (h : config.size ≤ protocolV3MaxPayload) :
    ChecksPass (appendInspectSnapshot config runtime) := by
  rw [ConfigSnapshot.size] at h
  have hargs := checksPass_of_small startListTooLarge config.args (by omega)
  have hvars := checksPass_of_small startListTooLarge config.envVars (by omega)
  have hdeps := checksPass_of_small startListTooLarge config.dependsOn (by omega)
  simp only [checksPass_appendStrings] at hargs hvars hdeps
  simp [appendInspectSnapshot, appendProgCfg, appendRuntimeSnapshot, hargs, hvars, hdeps]

end PmTiny
