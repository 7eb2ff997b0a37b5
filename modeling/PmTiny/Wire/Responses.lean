import PmTiny.Daemon.Payloads
import PmTiny.Wire.StartRequest

namespace PmTiny.Wire
set_option autoImplicit true
open StreamReader Persist

inductive PtyMode where
  | unsupported | disabled | enabled
  deriving DecidableEq, Repr

def ptyModeCode : PtyMode → Int32
  | .unsupported => -1
  | .disabled => 0
  | .enabled => 1

def ptyModeOf (code : Int32) : PtyMode :=
  if code = -1 then .unsupported else if code = 0 then .disabled else .enabled

def exitReasonCode : ExitReason → Int32
  | .none => 0
  | .exited => 1
  | .signaled => 2
  | .unknown => 3

def exitReasonOf (code : Int32) : ExitReason :=
  if code = 0 then .none else if code = 1 then .exited else if code = 2 then .signaled else .unknown

def logRequestModeCode : LogRequestMode → Int32
  | .live => 0
  | .history => 1

def logRequestModeOf (code : Int32) : LogRequestMode := if code = 0 then .live else .history

@[simp] theorem ptyModeOf_code (mode : PtyMode) : ptyModeOf (ptyModeCode mode) = mode := by
  cases mode <;> rfl

@[simp] theorem exitReasonOf_code (reason : ExitReason) :
    exitReasonOf (exitReasonCode reason) = reason := by
  cases reason <;> rfl

@[simp] theorem logRequestModeOf_code (mode : LogRequestMode) :
    logRequestModeOf (logRequestModeCode mode) = mode := by
  cases mode <;> rfl

theorem ptyModeCode_range (mode : PtyMode) : ¬(ptyModeCode mode < -1 ∨ ptyModeCode mode > 1) := by
  cases mode <;> decide

theorem exitReasonCode_range (reason : ExitReason) :
    ¬(exitReasonCode reason < 0 ∨ exitReasonCode reason > 3) := by
  cases reason <;> decide

theorem logRequestModeCode_range (mode : LogRequestMode) :
    ¬(logRequestModeCode mode < 0 ∨ logRequestModeCode mode > 1) := by
  cases mode <;> decide

/-- A `process_list_entry`. -/
structure ProcessListEntry where
  pid : Int64 := -1
  name : Text := []
  cwd : Text := []
  executable : Text := []
  args : List Text := []
  restartCount : Int32 := 0
  state : Int32 := 0
  hasUptime : Bool := false
  uptimeMs : Int64 := 0
  hasRss : Bool := false
  rssKib : Int64 := 0
  daemon : Bool := false
  pty : PtyMode := .unsupported
  dependsOn : List Text := []
  restartPending : Bool := false
  restartDelayRemainingMs : Int64 := 0
  restartAttemptsInWindow : Int32 := 0
  restartSuppressed : Bool := false
  restartSuppressionReason : Text := []
  generation : UInt64 := 0
  ready : Bool := false
  heartbeatEnabled : Bool := false
  hasLastExit : Bool := false
  lastExitReason : Text := []
  lastExitCode : Int32 := 0
  processTreeBackend : Text := []
  processTreeDegraded : Bool := false
  processTreeDegradationReason : Text := []
  configSource : Text := []
  logDegraded : Bool := false
  logDroppedBytes : UInt64 := 0
  logLastError : Text := []
  logRetryRemainingMs : Int64 := 0
  logPaths : List Text := []
  deriving DecidableEq, Repr

def processListSchemaVersion : Int32 := 5

def maxProcessCount : Int32 := 100000

def maxDependencyCount : Int32 := 100000

def maxLogPathCount : Int32 := 100

/-- The paths of the log files, whose number is not checked on writing. -/
def appendLogPaths (paths : List Text) : List Item := .num 4 paths.length :: paths.map .text

/-- The part of `append_process_list` for one entry. -/
def ProcessListEntry.items (entry : ProcessListEntry) : List Item :=
  [Item.int64 entry.pid, .text entry.name, .text entry.cwd, .text entry.executable] ++
  (appendStrings (.lengthError "argument list is too large") entry.args ++
  ([Item.int32 entry.restartCount, .int32 entry.state, .bool entry.hasUptime, .int64 entry.uptimeMs,
    .bool entry.hasRss, .int64 entry.rssKib, .bool entry.daemon, .int32 (ptyModeCode entry.pty)] ++
  (appendStrings (.lengthError "dependency list is too large") entry.dependsOn ++
  ([Item.bool entry.restartPending, .int64 entry.restartDelayRemainingMs,
    .int32 entry.restartAttemptsInWindow, .bool entry.restartSuppressed,
    .text entry.restartSuppressionReason, .uint64 entry.generation, .bool entry.ready,
    .bool entry.heartbeatEnabled, .bool entry.hasLastExit, .text entry.lastExitReason,
    .int32 entry.lastExitCode, .text entry.processTreeBackend, .bool entry.processTreeDegraded,
    .text entry.processTreeDegradationReason, .text entry.configSource, .bool entry.logDegraded,
    .uint64 entry.logDroppedBytes, .text entry.logLastError, .int64 entry.logRetryRemainingMs] ++
  appendLogPaths entry.logPaths))))

def appendProcessList (entries : List ProcessListEntry) : List Item :=
  .check (entries.length ≤ 2147483647) (.lengthError "process list is too large") ::
    .int32 processListSchemaVersion :: .num 4 entries.length ::
    entries.flatMap ProcessListEntry.items

/-- The part of `read_process_list` for one entry. -/
def readProcessListEntry : FrameReader ProcessListEntry := do
  let pid ← int64
  let name ← text
  let cwd ← text
  let executable ← text
  let args ← readStrings maxDependencyCount "invalid argument count"
  let restartCount ← int32
  let state ← int32
  let hasUptime ← readBool "invalid uptime availability flag"
  let uptimeMs ← int64
  let hasRss ← readBool "invalid RSS availability flag"
  let rssKib ← int64
  let daemon ← readBool "invalid daemon flag"
  let pty ← int32
  refuseIf (pty < -1 ∨ pty > 1) "invalid PTY mode"
  let dependsOn ← readStrings maxDependencyCount "invalid dependency count"
  let restartPending ← readBool "invalid restart-pending flag"
  let restartDelayRemainingMs ← int64
  let restartAttemptsInWindow ← int32
  refuseIf (restartDelayRemainingMs < 0 ∨ restartAttemptsInWindow < 0)
    "invalid restart runtime state"
  let restartSuppressed ← readBool "invalid restart-suppressed flag"
  let restartSuppressionReason ← text
  let generation ← uint64
  let ready ← readBool "invalid ready flag"
  let heartbeatEnabled ← readBool "invalid heartbeat-enabled flag"
  let hasLastExit ← readBool "invalid last-exit availability flag"
  let lastExitReason ← text
  let lastExitCode ← int32
  let processTreeBackend ← text
  let processTreeDegraded ← readBool "invalid process-tree degraded flag"
  let processTreeDegradationReason ← text
  let configSource ← text
  let logDegraded ← readBool "invalid log-degraded flag"
  let logDroppedBytes ← uint64
  let logLastError ← text
  let logRetryRemainingMs ← int64
  let logPaths ← readStrings maxLogPathCount "invalid log path count"
  refuseIf (logRetryRemainingMs < 0) "invalid log retry delay"
  pure {
    pid, name, cwd, executable, args, restartCount, state, hasUptime, uptimeMs, hasRss, rssKib
    daemon
    pty := ptyModeOf pty
    dependsOn, restartPending, restartDelayRemainingMs, restartAttemptsInWindow, restartSuppressed
    restartSuppressionReason, generation, ready, heartbeatEnabled, hasLastExit, lastExitReason
    lastExitCode, processTreeBackend, processTreeDegraded, processTreeDegradationReason
    configSource, logDegraded, logDroppedBytes, logLastError, logRetryRemainingMs, logPaths }

def readProcessList : FrameReader (List ProcessListEntry) := do
  let schemaVersion ← int32
  refuseIf (schemaVersion ≠ processListSchemaVersion) "unsupported process-list schema version"
  let count ← int32
  refuseIf (count < 0 ∨ count > maxProcessCount) "invalid process-list entry count"
  readProcessListEntry.many count.toNatClampNeg

/-- The entries that the reader accepts. -/
structure ProcessListEntry.Readable (entry : ProcessListEntry) : Prop where
  name : entry.name.length ≤ protocolV3MaxPayload
  cwd : entry.cwd.length ≤ protocolV3MaxPayload
  executable : entry.executable.length ≤ protocolV3MaxPayload
  args : Fits maxDependencyCount entry.args
  dependsOn : Fits maxDependencyCount entry.dependsOn
  restart : ¬(entry.restartDelayRemainingMs < 0 ∨ entry.restartAttemptsInWindow < 0)
  restartSuppressionReason : entry.restartSuppressionReason.length ≤ protocolV3MaxPayload
  lastExitReason : entry.lastExitReason.length ≤ protocolV3MaxPayload
  processTreeBackend : entry.processTreeBackend.length ≤ protocolV3MaxPayload
  processTreeDegradationReason : entry.processTreeDegradationReason.length ≤ protocolV3MaxPayload
  configSource : entry.configSource.length ≤ protocolV3MaxPayload
  logLastError : entry.logLastError.length ≤ protocolV3MaxPayload
  logRetry : ¬entry.logRetryRemainingMs < 0
  logPaths : Fits maxLogPathCount entry.logPaths

theorem bytes_appendLogPaths (failure : Failure) (paths : List Text) :
    (appendLogPaths paths).flatMap Item.bytes = (appendStrings failure paths).flatMap Item.bytes :=
  rfl

theorem ProcessListEntry.Readable.reads {entry : ProcessListEntry} (h : entry.Readable)
    (rest : List UInt8) :
    readProcessListEntry.run (entry.items.flatMap Item.bytes ++ rest) = .ok (entry, rest) := by
  have hpty := ptyModeCode_range entry.pty
  have hpaths := bytes_appendLogPaths startListTooLarge entry.logPaths
  simp only [readProcessListEntry, ProcessListEntry.items, bytes_append, bytes_cons, bytes_nil,
    hpaths, run_int64_bind, run_int32_bind, run_uint64_bind, run_readBool_bind,
    run_text_bind h.name, run_text_bind h.cwd, run_text_bind h.executable,
    run_readStrings_bind h.args, run_refuseIf_bind hpty, run_readStrings_bind h.dependsOn,
    run_refuseIf_bind h.restart, run_text_bind h.restartSuppressionReason,
    run_text_bind h.lastExitReason, run_text_bind h.processTreeBackend,
    run_text_bind h.processTreeDegradationReason, run_text_bind h.configSource,
    run_text_bind h.logLastError, run_readStrings_bind h.logPaths, run_refuseIf_bind h.logRetry,
    run_pure, ptyModeOf_code]

theorem passes_appendLogPaths {paths : List Text} (h : Fits limit paths) :
    ∀ item ∈ appendLogPaths paths, item.Passes := by
  intro item hitem
  rw [appendLogPaths, List.mem_cons, List.mem_map] at hitem
  rcases hitem with rfl | ⟨path, hpath, rfl⟩
  · exact Item.passes_num
  · exact Item.passes_text.2 (h.texts path hpath)

theorem ProcessListEntry.Readable.passes {entry : ProcessListEntry} (h : entry.Readable) :
    ∀ item ∈ entry.items, item.Passes := by
  simp only [ProcessListEntry.items, List.forall_mem_append]
  refine ⟨?_, passes_appendStrings h.args, ?_, passes_appendStrings h.dependsOn, ?_,
    passes_appendLogPaths h.logPaths⟩
  · simp [Item.int64, h.name, h.cwd, h.executable]
  · simp [Item.int32, Item.int64, Item.bool]
  · simp [Item.int32, Item.int64, Item.uint64, Item.bool, h.restartSuppressionReason,
      h.lastExitReason, h.processTreeBackend, h.processTreeDegradationReason, h.configSource,
      h.logLastError]

/-- The process lists that the reader accepts. -/
structure ReadableProcessList (entries : List ProcessListEntry) : Prop where
  count : entries.length ≤ 100000
  entries : ∀ entry ∈ entries, entry.Readable

theorem ReadableProcessList.reads {entries : List ProcessListEntry}
    (h : ReadableProcessList entries) :
    readProcessList.Reads ((appendProcessList entries).flatMap Item.bytes) entries := by
  obtain ⟨hlength, hentries⟩ := h
  have hvalue : (Int32.ofNat entries.length).toInt = entries.length :=
    Int32.toInt_ofNat_of_lt (by omega)
  have hcount :
    ¬(Int32.ofNat entries.length < 0 ∨ Int32.ofNat entries.length > maxProcessCount) := by
    have hmax : maxProcessCount.toInt = 100000 := rfl
    rw [Int32.lt_iff_toInt_lt, gt_iff_lt, Int32.lt_iff_toInt_lt, hvalue, hmax, Int32.toInt_zero]
    omega
  have hmany : (readProcessListEntry.many entries.length).Reads
      (entries.flatMap fun entry => entry.items.flatMap Item.bytes) entries := by
    apply reads_many
    intro entry hentry
    have hread := (hentries entry hentry).reads []
    rwa [List.append_nil] at hread
  have hbytes : (appendProcessList entries).flatMap Item.bytes =
      (Item.int32 processListSchemaVersion).bytes ++
        ((Item.int32 (Int32.ofNat entries.length)).bytes ++
        entries.flatMap fun entry => entry.items.flatMap Item.bytes) := by
    rw [appendProcessList, List.flatMap_cons, List.flatMap_cons, List.flatMap_cons,
      List.flatMap_assoc, Item.int32, Item.int32, hvalue]
    rfl
  have hcast : (Int32.ofNat entries.length).toNatClampNeg = entries.length := by
    rw [Int32.toNatClampNeg, hvalue]
    exact Int.toNat_natCast _
  rw [Reads, hbytes]
  simp only [readProcessList, run_int32_bind, run_refuseIf_bind (not_not.2 rfl),
    run_refuseIf_bind hcount, hcast]
  exact hmany

theorem ReadableProcessList.carries {entries : List ProcessListEntry}
    (h : ReadableProcessList entries) :
    Carries (appendProcessList entries) readProcessList entries := by
  apply carries_of_reads _ h.reads
  have hlength := h.count
  simp only [appendProcessList, List.forall_mem_cons, List.forall_mem_flatMap]
  refine ⟨?_, Item.passes_num, Item.passes_num, fun entry hentry => (h.entries entry hentry).passes⟩
  rw [Item.passes_check, decide_eq_true_iff]
  omega

/-- A `runtime_snapshot`. -/
structure RuntimeSnapshot where
  pid : Int64 := -1
  generation : UInt64 := 0
  state : Int32 := 0
  restartCount : Int32 := 0
  ready : Bool := false
  heartbeatEnabled : Bool := false
  hasLastTickAge : Bool := false
  lastTickAgeMs : Int64 := 0
  hasUptime : Bool := false
  uptimeMs : Int64 := 0
  hasRss : Bool := false
  rssKib : Int64 := 0
  pty : PtyMode := .unsupported
  restartPending : Bool := false
  restartDelayRemainingMs : Int64 := 0
  restartAttemptsInWindow : Int32 := 0
  restartSuppressed : Bool := false
  restartSuppressionReason : Text := []
  hasLastExit : Bool := false
  lastExitReason : ExitReason := .none
  lastExitCode : Int32 := 0
  processTreeBackend : Text := []
  processTreeDegraded : Bool := false
  processTreeDegradationReason : Text := []
  configSource : Text := []
  logDegraded : Bool := false
  logDroppedBytes : UInt64 := 0
  logLastError : Text := []
  logRetryRemainingMs : Int64 := 0
  logPaths : List Text := []
  deriving DecidableEq, Repr

structure InspectSnapshot where
  config : ProgCfg
  runtime : RuntimeSnapshot := {}
  deriving DecidableEq, Repr

def inspectSchemaVersion : Int32 := 2

def appendRuntimeSnapshot (snapshot : RuntimeSnapshot) : List Item :=
  [Item.int64 snapshot.pid, .uint64 snapshot.generation, .int32 snapshot.state,
    .int32 snapshot.restartCount, .bool snapshot.ready, .bool snapshot.heartbeatEnabled,
    .bool snapshot.hasLastTickAge, .int64 snapshot.lastTickAgeMs, .bool snapshot.hasUptime,
    .int64 snapshot.uptimeMs, .bool snapshot.hasRss, .int64 snapshot.rssKib,
    .int32 (ptyModeCode snapshot.pty), .bool snapshot.restartPending,
    .int64 snapshot.restartDelayRemainingMs, .int32 snapshot.restartAttemptsInWindow,
    .bool snapshot.restartSuppressed, .text snapshot.restartSuppressionReason,
    .bool snapshot.hasLastExit, .int32 (exitReasonCode snapshot.lastExitReason),
    .int32 snapshot.lastExitCode, .text snapshot.processTreeBackend,
    .bool snapshot.processTreeDegraded, .text snapshot.processTreeDegradationReason,
    .text snapshot.configSource, .bool snapshot.logDegraded, .uint64 snapshot.logDroppedBytes,
    .text snapshot.logLastError, .int64 snapshot.logRetryRemainingMs] ++
  appendLogPaths snapshot.logPaths

def RuntimeSnapshot.Impossible (snapshot : RuntimeSnapshot) : Prop :=
  (snapshot.hasLastTickAge = true ∧ snapshot.lastTickAgeMs < 0) ∨
    (snapshot.hasUptime = true ∧ snapshot.uptimeMs < 0) ∨
    (snapshot.hasRss = true ∧ snapshot.rssKib < 0) ∨
    snapshot.restartDelayRemainingMs < 0 ∨ snapshot.restartAttemptsInWindow < 0 ∨
    snapshot.logRetryRemainingMs < 0

instance (snapshot : RuntimeSnapshot) : Decidable snapshot.Impossible :=
  inferInstanceAs (Decidable (_ ∨ _))

def readRuntimeSnapshot : FrameReader RuntimeSnapshot := do
  let pid ← int64
  let generation ← uint64
  let state ← int32
  let restartCount ← int32
  let ready ← readBool "invalid ready flag"
  let heartbeatEnabled ← readBool "invalid heartbeat-enabled flag"
  let hasLastTickAge ← readBool "invalid last-tick availability flag"
  let lastTickAgeMs ← int64
  let hasUptime ← readBool "invalid uptime availability flag"
  let uptimeMs ← int64
  let hasRss ← readBool "invalid RSS availability flag"
  let rssKib ← int64
  let pty ← int32
  refuseIf (pty < -1 ∨ pty > 1) "invalid PTY mode"
  let restartPending ← readBool "invalid restart-pending flag"
  let restartDelayRemainingMs ← int64
  let restartAttemptsInWindow ← int32
  let restartSuppressed ← readBool "invalid restart-suppressed flag"
  let restartSuppressionReason ← text
  let hasLastExit ← readBool "invalid last-exit availability flag"
  let lastExitReason ← int32
  let lastExitCode ← int32
  refuseIf (lastExitReason < 0 ∨ lastExitReason > 3) "invalid last-exit reason"
  let processTreeBackend ← text
  let processTreeDegraded ← readBool "invalid process-tree degraded flag"
  let processTreeDegradationReason ← text
  let configSource ← text
  let logDegraded ← readBool "invalid log-degraded flag"
  let logDroppedBytes ← uint64
  let logLastError ← text
  let logRetryRemainingMs ← int64
  let logPaths ← readStrings maxLogPathCount "invalid log path count"
  let snapshot : RuntimeSnapshot := {
    pid, generation, state, restartCount, ready, heartbeatEnabled, hasLastTickAge, lastTickAgeMs
    hasUptime, uptimeMs, hasRss, rssKib
    pty := ptyModeOf pty
    restartPending, restartDelayRemainingMs, restartAttemptsInWindow, restartSuppressed
    restartSuppressionReason, hasLastExit
    lastExitReason := exitReasonOf lastExitReason
    lastExitCode, processTreeBackend, processTreeDegraded, processTreeDegradationReason
    configSource, logDegraded, logDroppedBytes, logLastError, logRetryRemainingMs, logPaths }
  refuseIf snapshot.Impossible "invalid runtime snapshot value"
  pure snapshot

def appendInspectSnapshot (snapshot : InspectSnapshot) : List Item :=
  .int32 inspectSchemaVersion ::
    (appendProgCfg snapshot.config ++ appendRuntimeSnapshot snapshot.runtime)

def readInspectSnapshot : FrameReader InspectSnapshot := do
  let schema ← int32
  refuseIf (schema ≠ inspectSchemaVersion) "unsupported inspect schema version"
  let config ← readProgCfg
  let runtime ← readRuntimeSnapshot
  pure { config, runtime }

/-- The snapshots that the reader accepts. -/
structure RuntimeSnapshot.Readable (snapshot : RuntimeSnapshot) : Prop where
  restartSuppressionReason : snapshot.restartSuppressionReason.length ≤ protocolV3MaxPayload
  processTreeBackend : snapshot.processTreeBackend.length ≤ protocolV3MaxPayload
  processTreeDegradationReason :
    snapshot.processTreeDegradationReason.length ≤ protocolV3MaxPayload
  configSource : snapshot.configSource.length ≤ protocolV3MaxPayload
  logLastError : snapshot.logLastError.length ≤ protocolV3MaxPayload
  logPaths : Fits maxLogPathCount snapshot.logPaths
  possible : ¬snapshot.Impossible

structure InspectSnapshot.Readable (snapshot : InspectSnapshot) : Prop where
  config : snapshot.config.Writable
  runtime : snapshot.runtime.Readable

theorem RuntimeSnapshot.Readable.reads {snapshot : RuntimeSnapshot} (h : snapshot.Readable)
    (rest : List UInt8) :
    readRuntimeSnapshot.run ((appendRuntimeSnapshot snapshot).flatMap Item.bytes ++ rest) =
      .ok (snapshot, rest) := by
  have hpty := ptyModeCode_range snapshot.pty
  have hreason := exitReasonCode_range snapshot.lastExitReason
  have hpaths := bytes_appendLogPaths startListTooLarge snapshot.logPaths
  simp only [readRuntimeSnapshot, appendRuntimeSnapshot, bytes_append, bytes_cons, bytes_nil,
    hpaths, run_int64_bind, run_int32_bind, run_uint64_bind, run_readBool_bind,
    run_refuseIf_bind hpty, run_text_bind h.restartSuppressionReason, run_refuseIf_bind hreason,
    run_text_bind h.processTreeBackend, run_text_bind h.processTreeDegradationReason,
    run_text_bind h.configSource, run_text_bind h.logLastError, run_readStrings_bind h.logPaths,
    ptyModeOf_code, exitReasonOf_code, run_refuseIf_bind h.possible, run_pure]

theorem InspectSnapshot.Readable.reads {snapshot : InspectSnapshot} (h : snapshot.Readable) :
    readInspectSnapshot.Reads ((appendInspectSnapshot snapshot).flatMap Item.bytes) snapshot := by
  have hruntime := h.runtime.reads []
  rw [Reads, ← List.append_nil ((appendInspectSnapshot snapshot).flatMap Item.bytes)]
  simp only [readInspectSnapshot, appendInspectSnapshot, bytes_append, bytes_cons, run_int32_bind,
    run_refuseIf_bind (not_not.2 rfl), run_bind (h.config.reads _), run_bind hruntime, run_pure]

theorem RuntimeSnapshot.Readable.passes {snapshot : RuntimeSnapshot} (h : snapshot.Readable) :
    ∀ item ∈ appendRuntimeSnapshot snapshot, item.Passes := by
  simp only [appendRuntimeSnapshot, List.forall_mem_append]
  refine ⟨?_, passes_appendLogPaths h.logPaths⟩
  simp [Item.int32, Item.int64, Item.uint64, Item.bool, h.restartSuppressionReason,
    h.processTreeBackend, h.processTreeDegradationReason, h.configSource, h.logLastError]

theorem InspectSnapshot.Readable.carries {snapshot : InspectSnapshot} (h : snapshot.Readable) :
    Carries (appendInspectSnapshot snapshot) readInspectSnapshot snapshot := by
  apply carries_of_reads _ h.reads
  simp only [appendInspectSnapshot, List.forall_mem_cons, List.forall_mem_append]
  exact ⟨Item.passes_num, h.config.passes, h.runtime.passes⟩

structure ProgramLogResponse where
  mode : LogRequestMode := .live
  generation : UInt64 := 0
  lastPid : Int64 := -1
  lastExitTimeUnixMs : Int64 := 0
  exitReason : Text := []
  exitCode : Int32 := 0
  deriving DecidableEq, Repr

def programLogResponseSchemaVersion : Int32 := 1

def appendProgramLogResponse (response : ProgramLogResponse) : List Item :=
  [.int32 programLogResponseSchemaVersion, .int32 (logRequestModeCode response.mode),
    .uint64 response.generation, .int64 response.lastPid, .int64 response.lastExitTimeUnixMs,
    .text response.exitReason, .int32 response.exitCode]

def ProgramLogResponse.Incomplete (response : ProgramLogResponse) : Prop :=
  response.mode = .history ∧
    (response.lastPid ≤ 0 ∨ response.lastExitTimeUnixMs ≤ 0 ∨ response.exitReason = [])

instance (response : ProgramLogResponse) : Decidable response.Incomplete :=
  inferInstanceAs (Decidable (_ ∧ _))

def readProgramLogResponse : FrameReader ProgramLogResponse := do
  let schema ← int32
  let mode ← int32
  refuseIf (schema ≠ programLogResponseSchemaVersion) "unsupported program-log response schema"
  refuseIf (mode < 0 ∨ mode > 1) "invalid program-log mode"
  let generation ← uint64
  let lastPid ← int64
  let lastExitTimeUnixMs ← int64
  let exitReason ← text
  let exitCode ← int32
  refuseIf (generation = 0) "invalid program-log generation"
  let response : ProgramLogResponse := {
    mode := logRequestModeOf mode
    generation, lastPid, lastExitTimeUnixMs, exitReason, exitCode }
  refuseIf response.Incomplete "incomplete program-log history metadata"
  pure response

/-- The responses that the reader accepts. -/
structure ProgramLogResponse.Readable (response : ProgramLogResponse) : Prop where
  generation : ¬response.generation = 0
  exitReason : response.exitReason.length ≤ protocolV3MaxPayload
  complete : ¬response.Incomplete

theorem ProgramLogResponse.Readable.reads {response : ProgramLogResponse} (h : response.Readable) :
    readProgramLogResponse.Reads ((appendProgramLogResponse response).flatMap Item.bytes)
      response := by
  have hmode := logRequestModeCode_range response.mode
  rw [Reads, ← List.append_nil ((appendProgramLogResponse response).flatMap Item.bytes)]
  simp only [readProgramLogResponse, appendProgramLogResponse, bytes_cons, bytes_nil,
    run_int32_bind, run_refuseIf_bind (not_not.2 rfl), run_refuseIf_bind hmode, run_uint64_bind,
    run_int64_bind, run_text_bind h.exitReason, run_refuseIf_bind h.generation,
    logRequestModeOf_code, run_refuseIf_bind h.complete, run_pure]

theorem ProgramLogResponse.Readable.carries {response : ProgramLogResponse}
    (h : response.Readable) :
    Carries (appendProgramLogResponse response) readProgramLogResponse response := by
  apply carries_of_reads _ h.reads
  simp [appendProgramLogResponse, Item.int32, Item.int64, Item.uint64, h.exitReason]

/-- A `start_response`. -/
structure StartResponse where
  result : StartResult := .started
  pid : Int64 := -1
  state : Text := []
  blockedBy : List Text := []
  message : Text := []
  deriving DecidableEq, Repr

def startResultCode : StartResult → Int32
  | .started => 0
  | .waiting => 1
  | .blocked => 2

def startResultOf (code : Int32) : StartResult :=
  if code = 0 then .started else if code = 1 then .waiting else .blocked

def appendStartResponse (response : StartResponse) : List Item :=
  [Item.int32 startSchemaVersion, .int32 (startResultCode response.result), .int64 response.pid,
    .text response.state] ++
  (appendStrings startListTooLarge response.blockedBy ++ [Item.text response.message])

/-- The fields of a response, up to the check that none of the payload is left. -/
def readStartResponseFields : FrameReader StartResponse := do
  let schema ← int32
  let result ← int32
  refuseIf (schema ≠ startSchemaVersion) "unsupported start-response schema"
  refuseIf (result < 0 ∨ result > 2) "invalid start result"
  let pid ← int64
  let state ← text
  let blockedBy ← readStrings maxStartItems "invalid blocker count"
  let message ← text
  pure { result := startResultOf result, pid, state, blockedBy, message }

def readStartResponse (payload : List UInt8) : Except String StartResponse := do
  let read ← readStartResponseFields.run payload
  rejectIf (read.2.length ≠ 0) "trailing start-response data"
  return read.1

@[simp] theorem startResultOf_code (result : StartResult) :
    startResultOf (startResultCode result) = result := by
  cases result <;> rfl

theorem startResultCode_range (result : StartResult) :
    ¬(startResultCode result < 0 ∨ startResultCode result > 2) := by
  cases result <;> decide

/-- The responses that the reader accepts. -/
structure StartResponse.Readable (response : StartResponse) : Prop where
  state : response.state.length ≤ protocolV3MaxPayload
  blockedBy : Fits maxStartItems response.blockedBy
  message : response.message.length ≤ protocolV3MaxPayload

theorem StartResponse.Readable.reads {response : StartResponse} (h : response.Readable) :
    readStartResponseFields.Reads ((appendStartResponse response).flatMap Item.bytes) response := by
  have hresult := startResultCode_range response.result
  rw [Reads, ← List.append_nil ((appendStartResponse response).flatMap Item.bytes)]
  simp only [readStartResponseFields, appendStartResponse, bytes_append, bytes_cons, bytes_nil,
    run_int32_bind, run_refuseIf_bind (not_not.2 rfl), run_refuseIf_bind hresult, run_int64_bind,
    run_text_bind h.state, run_readStrings_bind h.blockedBy, run_text_bind h.message,
    startResultOf_code, run_pure]

theorem readStartResponse_eq_ok : readStartResponse payload = .ok response ↔
    readStartResponseFields.Reads payload response := by
  simp only [readStartResponse, bind_eq_ok, rejectIf_eq_ok, not_not, List.length_eq_zero_iff]
  constructor
  · rintro ⟨⟨response', rest⟩, hread, u, hrest, h⟩
    subst hrest
    cases h
    exact hread
  · intro hread
    exact ⟨(response, []), hread, (), rfl, rfl⟩

end PmTiny.Wire
