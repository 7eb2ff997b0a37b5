import PmTiny.Wire.DaemonInfo

namespace PmTiny.Wire
set_option autoImplicit true
open StreamReader Persist

def utf8 (text : String) : Text := text.toUTF8.data.toList

theorem length_utf8 (text : String) : (utf8 text).length = text.utf8ByteSize :=
  Array.length_toList

theorem bytes_str (text : String) : (Field.str text).bytes = (Item.text (utf8 text)).bytes := by
  rw [Item.bytes, length_utf8]
  rfl

theorem bytes_int32 (value : Int) :
    (Field.int 4 value).bytes = (Item.int32 (Int32.ofInt value)).bytes := by
  apply bigEndian_congr
  rw [Int32.toInt_ofInt]
  exact Int.bmod_emod.symm

theorem bytes_int64 (value : Int) :
    (Field.int 8 value).bytes = (Item.int64 (Int64.ofInt value)).bytes := by
  apply bigEndian_congr
  rw [Int64.toInt_ofInt]
  exact Int.bmod_emod.symm

theorem bytes_uint64 (value : Nat) :
    (Item.int64 (Int64.ofInt value)).bytes = (Item.uint64 (UInt64.ofNat value)).bytes := by
  apply bigEndian_congr
  have hmod : (value : Int).bmod Int64.size % 256 ^ 8 = value % 256 ^ 8 := Int.bmod_emod
  rw [Int64.toInt_ofInt, UInt64.toNat_ofNat', hmod]
  omega

theorem bytes_bool (value : Bool) : (Field.bool value).bytes = (Item.bool value).bytes := by
  cases value <;> rfl

theorem bytes_texts (values : List String) :
    (values.map Field.str).flatMap Field.bytes =
    ((values.map utf8).map Item.text).flatMap Item.bytes := by
  rw [List.flatMap_map, List.flatMap_map, List.flatMap_map]
  exact List.flatMap_congr fun value _ => bytes_str value

theorem bytes_strings (failure failure' : Failure) (values : List String) :
    (PmTiny.appendStrings failure values).flatMap Field.bytes =
      (appendStrings failure' (values.map utf8)).flatMap Item.bytes := by
  have hcount :
    (Field.int 4 values.length).bytes = (Item.num 4 (values.map utf8).length).bytes := by
    rw [List.length_map]
    rfl
  rw [PmTiny.appendStrings, appendStrings, List.flatMap_cons, List.flatMap_cons, List.flatMap_cons,
    List.flatMap_cons, hcount, bytes_texts]
  rfl

theorem fappendAll_eq (h : fappendAll fields = .ok frame) : frame = fields.flatMap Field.bytes := by
  induction fields generalizing frame with
  | nil =>
    cases h
    rfl
  | cons field fields ih =>
    rw [fappendAll] at h
    cases hf : field.failure with
    | some failure => simp [hf] at h
    | none =>
      simp only [hf] at h
      cases hr : fappendAll fields with
      | error failure => simp [hr, Except.map] at h
      | ok rest =>
        simp only [hr, Except.map, Except.ok.injEq] at h
        rw [← h, ih hr, List.flatMap_cons]

end PmTiny.Wire

namespace PmTiny
open Wire

def ConfigSnapshot.wire (config : ConfigSnapshot) : Wire.ProgCfg where
  name := utf8 config.name
  cwd := utf8 config.cwd
  executable := utf8 config.executable
  args := config.args.map utf8
  killTimeoutS := Int32.ofInt config.killTimeoutS
  runAs := utf8 config.runAs
  dependsOn := config.dependsOn.map utf8
  startTimeout := Int32.ofInt config.startTimeout
  failureAction := config.failureAction
  daemon := config.daemon
  heartbeatTimeout := Int32.ofInt config.heartbeatTimeout
  envVars := config.envVars.map utf8
  oomScoreAdj := Int32.ofInt config.oomScoreAdj
  pty := config.pty
  logMode := config.logMode
  logDir := utf8 config.logDir
  logFileName := utf8 config.logFileName
  logMaxSizeKb := Int32.ofInt config.logMaxSizeKb
  logArchiveCount := Int32.ofInt config.logArchiveCount
  restartDelayMs := Int32.ofInt config.restart.delayMs
  restartMaxDelayMs := Int32.ofInt config.restart.maxDelayMs
  restartWindowMs := Int32.ofInt config.restart.windowMs
  restartMaxAttempts := Int32.ofInt config.restart.maxAttempts
  restartResetAfterMs := Int32.ofInt config.restart.resetAfterMs

def RuntimeSnapshot.wire (runtime : RuntimeSnapshot) : Wire.RuntimeSnapshot where
  pid := Int64.ofInt runtime.pid
  generation := UInt64.ofNat runtime.generation
  state := Int32.ofInt runtime.state
  restartCount := Int32.ofInt runtime.restartCount
  ready := runtime.ready
  heartbeatEnabled := runtime.heartbeatEnabled
  hasLastTickAge := runtime.hasLastTickAge
  lastTickAgeMs := Int64.ofInt runtime.lastTickAgeMs
  hasUptime := runtime.hasUptime
  uptimeMs := Int64.ofInt runtime.uptimeMs
  hasRss := runtime.hasRss
  rssKib := Int64.ofInt runtime.rssKib
  pty := ptyModeOf (Int32.ofInt runtime.pty)
  restartPending := runtime.restartPending
  restartDelayRemainingMs := Int64.ofInt runtime.restartDelayRemainingMs
  restartAttemptsInWindow := Int32.ofInt runtime.restartAttemptsInWindow
  restartSuppressed := runtime.restartSuppressed
  restartSuppressionReason := utf8 runtime.restartSuppressionReason
  hasLastExit := runtime.hasLastExit
  lastExitReason := runtime.lastExitReason
  lastExitCode := Int32.ofInt runtime.lastExitCode
  processTreeBackend := utf8 runtime.processTreeBackend
  processTreeDegraded := runtime.processTreeDegraded
  processTreeDegradationReason := utf8 runtime.processTreeDegradationReason
  configSource := utf8 runtime.configSource
  logDegraded := runtime.logDegraded
  logDroppedBytes := UInt64.ofNat runtime.logDroppedBytes
  logLastError := utf8 runtime.logLastError
  logRetryRemainingMs := Int64.ofInt runtime.logRetryRemainingMs
  logPaths := runtime.logPaths.map utf8

def RuntimeSnapshot.KnownPty (runtime : RuntimeSnapshot) : Prop :=
  -1 ≤ runtime.pty ∧ runtime.pty ≤ 1

/-- `make_process_list_entry`. -/
def ProcessListEntry.wire (entry : ProcessListEntry) : Wire.ProcessListEntry :=
  let config := entry.config.wire
  let runtime := entry.runtime.wire
  { pid := runtime.pid
    name := config.name
    cwd := config.cwd
    executable := config.executable
    args := config.args
    restartCount := runtime.restartCount
    state := runtime.state
    hasUptime := runtime.hasUptime
    uptimeMs := runtime.uptimeMs
    hasRss := runtime.hasRss
    rssKib := runtime.rssKib
    daemon := config.daemon
    pty := runtime.pty
    dependsOn := config.dependsOn
    restartPending := runtime.restartPending
    restartDelayRemainingMs := runtime.restartDelayRemainingMs
    restartAttemptsInWindow := runtime.restartAttemptsInWindow
    restartSuppressed := runtime.restartSuppressed
    restartSuppressionReason := runtime.restartSuppressionReason
    generation := runtime.generation
    ready := runtime.ready
    heartbeatEnabled := runtime.heartbeatEnabled
    hasLastExit := runtime.hasLastExit
    lastExitReason := utf8 entry.runtime.lastExitReason.name
    lastExitCode := runtime.lastExitCode
    processTreeBackend := runtime.processTreeBackend
    processTreeDegraded := runtime.processTreeDegraded
    processTreeDegradationReason := runtime.processTreeDegradationReason
    configSource := runtime.configSource
    logDegraded := runtime.logDegraded
    logDroppedBytes := runtime.logDroppedBytes
    logLastError := runtime.logLastError
    logRetryRemainingMs := runtime.logRetryRemainingMs
    logPaths := runtime.logPaths }

end PmTiny

namespace PmTiny.Wire
open StreamReader Persist

theorem failureActionCode_eq (action : FailureAction) :
    Int32.ofInt (failureActionValue action) = failureActionCode action := by
  cases action <;> rfl

theorem logModeCode_eq (mode : LogMode) : Int32.ofInt (logModeValue mode) = logModeCode mode := by
  cases mode <;> rfl

theorem exitReasonCode_eq (reason : ExitReason) :
    Int32.ofInt reason.value = exitReasonCode reason := by
  cases reason <;> rfl

theorem bytes_appendProgCfg (config : ConfigSnapshot) :
    (PmTiny.appendProgCfg config).flatMap Field.bytes =
      (appendProgCfg config.wire).flatMap Item.bytes := by
  have hschema : Int32.ofInt PmTiny.progCfgSchemaVersion = progCfgSchemaVersion := by decide
  simp only [PmTiny.appendProgCfg, appendProgCfg, ConfigSnapshot.wire, List.flatten_cons,
    List.flatten_nil, List.append_nil, List.flatMap_append, List.flatMap_cons, List.flatMap_nil,
    bytes_str, bytes_bool, bytes_int32, failureActionCode_eq, logModeCode_eq, hschema,
    bytes_strings PmTiny.startListTooLarge startListTooLarge]

theorem length_texts (paths : List String) :
    (Item.int32 (Int32.ofInt paths.length)).bytes = (Item.num 4 (paths.map utf8).length).bytes := by
  rw [← bytes_int32, List.length_map]
  rfl

theorem ptyModeCode_eq {pty : Int} (h : -1 ≤ pty ∧ pty ≤ 1) :
    ptyModeCode (ptyModeOf (Int32.ofInt pty)) = Int32.ofInt pty := by
  have hcases : pty = -1 ∨ pty = 0 ∨ pty = 1 := by omega
  rcases hcases with rfl | rfl | rfl <;> rfl

theorem nothing_append (l : List UInt8) : [] ++ l = l := List.nil_append l

theorem bytes_appendRuntimeSnapshot {runtime : PmTiny.RuntimeSnapshot} (h : runtime.KnownPty) :
    (PmTiny.appendRuntimeSnapshot runtime).flatMap Field.bytes =
      (appendRuntimeSnapshot runtime.wire).flatMap Item.bytes := by
  simp only [PmTiny.appendRuntimeSnapshot, appendRuntimeSnapshot, appendLogPaths,
    PmTiny.RuntimeSnapshot.wire, List.flatten_cons, List.flatten_nil, List.append_nil,
    List.flatMap_append, List.flatMap_cons, List.flatMap_nil, List.append_assoc, length_texts,
    bytes_texts, bytes_str, bytes_bool, bytes_int32, bytes_int64, bytes_uint64,
    exitReasonCode_eq, ptyModeCode_eq h]

theorem bytes_appendInspectSnapshot (config : ConfigSnapshot) {runtime : PmTiny.RuntimeSnapshot}
    (h : runtime.KnownPty) :
    (PmTiny.appendInspectSnapshot config runtime).flatMap Field.bytes =
      (appendInspectSnapshot ⟨config.wire, runtime.wire⟩).flatMap Item.bytes := by
  have hschema : Int32.ofInt PmTiny.inspectSchemaVersion = inspectSchemaVersion := by decide
  simp only [PmTiny.appendInspectSnapshot, appendInspectSnapshot, List.flatMap_cons,
    List.flatMap_append, bytes_int32, hschema, bytes_appendProgCfg, bytes_appendRuntimeSnapshot h]

theorem bytes_fields {entry : PmTiny.ProcessListEntry} (h : entry.runtime.KnownPty) :
    entry.fields.flatMap Field.bytes = entry.wire.items.flatMap Item.bytes := by
  simp only [PmTiny.ProcessListEntry.fields, ProcessListEntry.items, appendLogPaths,
    PmTiny.ProcessListEntry.wire, ConfigSnapshot.wire, PmTiny.RuntimeSnapshot.wire,
    List.flatten_cons, List.flatten_nil, List.append_nil, List.flatMap_append, List.flatMap_cons,
    List.flatMap_nil, List.append_assoc, length_texts, bytes_texts, bytes_str, bytes_bool,
      bytes_int32, bytes_int64, bytes_uint64, ptyModeCode_eq h,
    bytes_strings (.lengthError "argument list is too large")
      (.lengthError "argument list is too large"),
    bytes_strings (.lengthError "dependency list is too large")
      (.lengthError "dependency list is too large")]

theorem bytes_appendProcessList {entries : List PmTiny.ProcessListEntry}
    (h : ∀ entry ∈ entries, entry.runtime.KnownPty) :
    (PmTiny.appendProcessList entries).flatMap Field.bytes =
      (appendProcessList (entries.map (·.wire))).flatMap Item.bytes := by
  have hentries : (entries.flatMap PmTiny.ProcessListEntry.fields).flatMap Field.bytes =
      ((entries.map (·.wire)).flatMap ProcessListEntry.items).flatMap Item.bytes := by
    rw [List.flatMap_assoc, List.flatMap_assoc, List.flatMap_map]
    exact List.flatMap_congr fun entry hentry => bytes_fields (h entry hentry)
  have hcount : (Field.int 4 entries.length).bytes =
      (Item.num 4 (entries.map (·.wire)).length).bytes := by
    rw [List.length_map]
    rfl
  have hschema : Int32.ofInt PmTiny.processListSchemaVersion = processListSchemaVersion := by decide
  rw [PmTiny.appendProcessList, appendProcessList, List.flatMap_append, hentries,
    List.flatMap_cons, List.flatMap_cons, List.flatMap_cons, List.flatMap_cons, List.flatMap_cons,
    List.flatMap_cons, hcount, bytes_int32, hschema]
  simp only [List.flatMap_nil, List.append_assoc, nothing_append]
  rfl

theorem readProcessList_sent {entries : List PmTiny.ProcessListEntry}
    (h : ∀ entry ∈ entries, entry.runtime.KnownPty)
    (hread : ReadableProcessList (entries.map (·.wire)))
    (hframe : fappendAll (PmTiny.appendProcessList entries) = .ok frame) :
    readProcessList.Reads frame (entries.map (·.wire)) := by
  rw [fappendAll_eq hframe, bytes_appendProcessList h]
  exact hread.reads

theorem readInspectSnapshot_sent {config : ConfigSnapshot} {runtime : PmTiny.RuntimeSnapshot}
    (h : runtime.KnownPty) (hread : (⟨config.wire, runtime.wire⟩ : InspectSnapshot).Readable)
    (hframe : fappendAll (PmTiny.appendInspectSnapshot config runtime) = .ok frame) :
    readInspectSnapshot.Reads frame ⟨config.wire, runtime.wire⟩ := by
  rw [fappendAll_eq hframe, bytes_appendInspectSnapshot config h]
  exact hread.reads

end PmTiny.Wire
