import PmTiny.Wire.Forms

namespace PmTiny
set_option autoImplicit true
open Wire

def StartResponse.wire (response : StartResponse) : Wire.StartResponse where
  result := response.result
  pid := Int64.ofInt (pidValue response.pid)
  state := utf8 response.state
  blockedBy := response.blockedBy.map utf8

def ProgramLogResponse.wire (response : ProgramLogResponse) : Wire.ProgramLogResponse :=
  let exit := response.lastWstatus.map exitOf
  { mode := response.mode
    generation := UInt64.ofNat response.generation
    lastPid := Int64.ofInt (pidValue response.lastPid)
    lastExitTimeUnixMs := Int64.ofInt response.lastExitTimeUnixMs
    exitReason := utf8 (exit.elim "" fun exit => exit.1.name)
    exitCode := Int32.ofInt (exit.elim 0 fun exit => exit.2) }

def DaemonInfoSnapshot.wire (info : DaemonInfoSnapshot) : Wire.DaemonInfoSnapshot where
  version := utf8 info.version
  protocolVersion := Int32.ofInt info.protocolVersion
  platform := platformEnum.of (UInt8.ofNat info.platform.toNat)
  pid := Int64.ofInt info.pid
  uptimeMs := Int64.ofInt info.uptimeMs
  runMode := info.runMode
  state := info.state
  singleThreadedControlLoop := info.singleThreadedControlLoop
  persistenceActive := info.persistenceActive
  fileConfigCount := UInt32.ofNat info.fileConfigCount
  runtimeDefinitionCount := UInt32.ofNat info.runtimeDefinitionCount
  configFile := utf8 info.configFile
  configLoaded := info.configLoaded
  homeDir := utf8 info.homeDir
  pidFile := utf8 info.pidFile
  programConfigFile := utf8 info.programConfigFile
  appEnvironDir := utf8 info.appEnvironDir
  appLogDir := utf8 info.appLogDir
  daemonLogFile := utf8 info.daemonLogFile
  udsAddress := utf8 info.udsAddress
  udsAbstractNamespace := info.udsAbstractNamespace
  allowedUids := info.allowedUids.map UInt32.ofNat
  allowedGids := info.allowedGids.map UInt32.ofNat
  namedPipe := utf8 info.namedPipe
  pipeSddl := utf8 info.pipeSddl
  serviceName := utf8 info.serviceName
  requestedProcessTreeMode := utf8 info.requestedProcessTreeMode
  effectiveProcessTreeMode := utf8 info.effectiveProcessTreeMode
  cgroupRoot := utf8 info.cgroupRoot
  subreaperEnabled := info.subreaperEnabled
  processTreeDegraded := info.processTreeDegraded
  processTreeDegradationReason := utf8 info.processTreeDegradationReason
  logLevel := utf8 info.logLevel
  logMaxSizeKb := Int32.ofInt info.logMaxSizeKb
  logArchiveCount := Int32.ofInt info.logArchiveCount
  logConsoleMirror := info.logConsoleMirror
  logSink := logSinkEnum.of (UInt8.ofNat info.logSink.toNat)
  logDegraded := info.logDegraded
  logLastError := utf8 info.logLastError
  dynamicCreate := info.dynamicCreate
  pty := info.pty
  switchUser := info.switchUser
  oomAdjust := info.oomAdjust
  failureAction := info.failureAction
  serviceMode := info.serviceMode
  processTreeBackends := info.processTreeBackends.map utf8
  sources := info.sources.foldl (fun sources entry => sources.insert (utf8 entry.1) entry.2) .empty

namespace Field

def Passes (field : Field) : Prop := field.failure = none

@[simp] theorem passes_int : (Field.int width value).Passes := rfl

@[simp] theorem passes_bool : (Field.bool value).Passes := rfl

@[simp] theorem passes_byte : (Field.byte value).Passes := rfl

@[simp] theorem passes_str : (Field.str value).Passes ↔
    (utf8 value).length ≤ protocolV3MaxPayload := by
  rw [Passes, failure, Wire.length_utf8]
  split_ifs with h
  · exact iff_of_false (fun hnone => by cases hnone) (by omega)
  · exact iff_of_true rfl (by omega)

@[simp] theorem passes_check {e : Failure} : (Field.check passed e).Passes ↔ passed = true := by
  cases passed with
  | true => simp [Passes, failure]
  | false => simp [Passes, failure]

theorem passes_of_ok (h : fappendAll fields = .ok frame) : ∀ field ∈ fields, Field.Passes field :=
  (fappendAll_ok_iff fields).1 ⟨frame, h⟩

theorem passes_strings {values : List String} (h : ∀ field ∈ values.map .str, Field.Passes field) :
    ∀ value ∈ values.map utf8, value.length ≤ protocolV3MaxPayload :=
  List.forall_mem_map.2 fun _ hvalue => passes_str.1 (h _ (List.mem_map_of_mem hvalue))

end Field

/-- The lists of a definition are no longer than the reader allows. -/
structure ConfigSnapshot.Legible (config : ConfigSnapshot) : Prop where
  args : config.args.length ≤ 100000
  envVars : config.envVars.length ≤ 100000
  dependsOn : config.dependsOn.length ≤ 100000

/-- The numbers of a snapshot fit their types, and its paths the limit of the reader. -/
structure RuntimeSnapshot.Legible (runtime : RuntimeSnapshot) : Prop where
  lastTickAgeMs : runtime.lastTickAgeMs < 2 ^ 63
  uptimeMs : runtime.uptimeMs < 2 ^ 63
  rssKib : runtime.rssKib < 2 ^ 63
  restartDelayRemainingMs : runtime.restartDelayRemainingMs < 2 ^ 63
  restartAttemptsInWindow : runtime.restartAttemptsInWindow < 2 ^ 31
  logRetryRemainingMs : runtime.logRetryRemainingMs < 2 ^ 63
  logPaths : runtime.logPaths.length ≤ 100

structure RuntimeSnapshot.Proper (runtime : RuntimeSnapshot) : Prop where
  lastTickAgeMs : 0 ≤ runtime.lastTickAgeMs
  uptimeMs : 0 ≤ runtime.uptimeMs
  rssKib : runtime.hasRss = true → 0 ≤ runtime.rssKib
  restartDelayRemainingMs : 0 ≤ runtime.restartDelayRemainingMs
  restartAttemptsInWindow : 0 ≤ runtime.restartAttemptsInWindow
  logRetryRemainingMs : 0 ≤ runtime.logRetryRemainingMs
  pty : runtime.KnownPty

theorem nonneg_if {c : Prop} [Decidable c] (difference : Int) :
    0 ≤ if c then max 0 difference else 0 := by
  split
  · exact Int.le_max_left 0 difference
  · exact Int.le_refl 0

theorem proper_snapshotRuntime (prog : ProgInfo) (details : ProgDetails) (nowMs : Int) :
    (snapshotRuntime prog details nowMs).Proper where
  lastTickAgeMs := nonneg_if _
  uptimeMs := nonneg_if _
  rssKib := by
    intro hrss
    simp only [snapshotRuntime, Bool.and_eq_true, decide_eq_true_eq] at hrss ⊢
    rw [if_pos hrss.1]
    exact hrss.2
  restartDelayRemainingMs := nonneg_if _
  restartAttemptsInWindow := Int.natCast_nonneg _
  logRetryRemainingMs := nonneg_if _
  pty := by
    simp only [RuntimeSnapshot.KnownPty, snapshotRuntime]
    split <;> decide

end PmTiny

namespace PmTiny.Wire
set_option autoImplicit true
open StreamReader Persist

theorem int64_nonneg {value : Int} (hlow : 0 ≤ value) (hhigh : value < 2 ^ 63) :
    ¬Int64.ofInt value < 0 := by
  rw [Int64.lt_iff_toInt_lt, Int64.toInt_ofInt_of_le (by omega) hhigh, Int64.toInt_zero]
  omega

theorem int32_nonneg {value : Int} (hlow : 0 ≤ value) (hhigh : value < 2 ^ 31) :
    ¬Int32.ofInt value < 0 := by
  rw [Int32.lt_iff_toInt_lt, Int32.toInt_ofInt_of_le (by omega) hhigh, Int32.toInt_zero]
  omega

theorem fits_of_passes {limit : Int32} {values : List String}
    (h : ∀ field ∈ values.map .str, Field.Passes field)
    (hcount : (values.length : Int) ≤ limit.toInt) :
    Fits limit (values.map utf8) := by
  refine ⟨?_, Field.passes_strings h⟩
  rw [List.length_map]
  exact hcount

theorem passes_appendStrings_iff {failure : Failure} {values : List String} :
    (∀ field ∈ PmTiny.appendStrings failure values, Field.Passes field) ↔
      values.length ≤ int32Max ∧ ∀ field ∈ values.map .str, Field.Passes field := by
  rw [PmTiny.appendStrings, List.forall_mem_cons, List.forall_mem_cons, Field.passes_check,
    decide_eq_true_iff]
  exact and_congr_right fun _ => and_iff_right Field.passes_int

section

variable {entry : PmTiny.ProcessListEntry} {config : ConfigSnapshot}
  {runtime : PmTiny.RuntimeSnapshot}

theorem readable_entry (h : ∀ field ∈ entry.fields, Field.Passes field)
    (hconfig : entry.config.Legible) (hruntime : entry.runtime.Legible)
    (hproper : entry.runtime.Proper) : entry.wire.Readable := by
  simp only [PmTiny.ProcessListEntry.fields, List.flatten_cons, List.flatten_nil, List.append_nil,
    List.forall_mem_append, List.forall_mem_cons, passes_appendStrings_iff, Field.passes_str] at h
  obtain ⟨⟨-, hname, hcwd, hexecutable, -⟩, ⟨-, hargs⟩, -, ⟨-, hdependsOn⟩,
    ⟨-, -, -, -, hsuppression, -, -, -, -, hreason, -, hbackend, -, hdegradation, hsource, -, -,
      herror, -⟩, hpaths⟩ := h
  exact {
    name := hname
    cwd := hcwd
    executable := hexecutable
    args := fits_of_passes hargs (Int.ofNat_le.2 hconfig.args)
    dependsOn := fits_of_passes hdependsOn (Int.ofNat_le.2 hconfig.dependsOn)
    restart := not_or.2 ⟨int64_nonneg hproper.restartDelayRemainingMs
        hruntime.restartDelayRemainingMs,
      int32_nonneg hproper.restartAttemptsInWindow hruntime.restartAttemptsInWindow⟩
    restartSuppressionReason := hsuppression
    lastExitReason := hreason
    processTreeBackend := hbackend
    processTreeDegradationReason := hdegradation
    configSource := hsource
    logLastError := herror
    logRetry := int64_nonneg hproper.logRetryRemainingMs hruntime.logRetryRemainingMs
    logPaths := fits_of_passes hpaths (Int.ofNat_le.2 hruntime.logPaths) }

theorem writable_config (h : ∀ field ∈ PmTiny.appendProgCfg config, Field.Passes field)
    (hlegible : config.Legible) : config.wire.Writable := by
  simp only [PmTiny.appendProgCfg, List.flatten_cons, List.flatten_nil, List.append_nil,
    List.forall_mem_append, List.forall_mem_cons, passes_appendStrings_iff, Field.passes_str] at h
  obtain ⟨⟨-, hname, hcwd, hexecutable, -⟩, ⟨-, hargs⟩, ⟨-, hrunAs, -⟩, ⟨-, henvVars⟩,
    ⟨-, hdependsOn⟩, -, -, -, -, -, -, -, hdir, hfile, -⟩ := h
  exact {
    name := hname
    cwd := hcwd
    executable := hexecutable
    args := fits_of_passes hargs (Int.ofNat_le.2 hlegible.args)
    runAs := hrunAs
    envs := rfl
    envVars := fits_of_passes henvVars (Int.ofNat_le.2 hlegible.envVars)
    dependsOn := fits_of_passes hdependsOn (Int.ofNat_le.2 hlegible.dependsOn)
    logDir := hdir
    logFileName := hfile }

theorem possible_runtime (hlegible : runtime.Legible) (hproper : runtime.Proper) :
    ¬runtime.wire.Impossible := by
  rintro (⟨-, h⟩ | ⟨-, h⟩ | ⟨hrss, h⟩ | h | h | h)
  · exact int64_nonneg hproper.lastTickAgeMs hlegible.lastTickAgeMs h
  · exact int64_nonneg hproper.uptimeMs hlegible.uptimeMs h
  · exact int64_nonneg (hproper.rssKib hrss) hlegible.rssKib h
  · exact int64_nonneg hproper.restartDelayRemainingMs hlegible.restartDelayRemainingMs h
  · exact int32_nonneg hproper.restartAttemptsInWindow hlegible.restartAttemptsInWindow h
  · exact int64_nonneg hproper.logRetryRemainingMs hlegible.logRetryRemainingMs h

theorem readable_runtime (h : ∀ field ∈ PmTiny.appendRuntimeSnapshot runtime, Field.Passes field)
    (hlegible : runtime.Legible) (hproper : runtime.Proper) : runtime.wire.Readable := by
  simp only [PmTiny.appendRuntimeSnapshot, List.flatten_cons, List.flatten_nil, List.append_nil,
    List.forall_mem_append, List.forall_mem_cons, Field.passes_str] at h
  obtain ⟨⟨-, -, -, -, -, -, -, -, -, -, -, -, -, -, -, -, -, hsuppression, -, -, -, hbackend, -,
    hdegradation, hsource, -, -, herror, -⟩, hpaths⟩ := h
  exact {
    restartSuppressionReason := hsuppression
    processTreeBackend := hbackend
    processTreeDegradationReason := hdegradation
    configSource := hsource
    logLastError := herror
    logPaths := fits_of_passes hpaths (Int.ofNat_le.2 hlegible.logPaths)
    possible := possible_runtime hlegible hproper }

end

theorem readProcessList_received {entries : List PmTiny.ProcessListEntry}
    (hframe : fappendAll (PmTiny.appendProcessList entries) = .ok frame)
    (hcount : entries.length ≤ 100000)
    (hlegible : ∀ entry ∈ entries, entry.config.Legible ∧ entry.runtime.Legible)
    (hproper : ∀ entry ∈ entries, entry.runtime.Proper) :
    readProcessList.Reads frame (entries.map (·.wire)) := by
  have hpasses := Field.passes_of_ok hframe
  rw [PmTiny.appendProcessList, List.forall_mem_append, List.forall_mem_flatMap] at hpasses
  refine readProcessList_sent (fun entry hentry => (hproper entry hentry).pty) ?_ hframe
  refine ⟨by rwa [List.length_map], List.forall_mem_map.2 fun entry hentry => ?_⟩
  exact readable_entry (hpasses.2 entry hentry) (hlegible entry hentry).1
    (hlegible entry hentry).2 (hproper entry hentry)

theorem readInspectSnapshot_received {config : ConfigSnapshot} {runtime : PmTiny.RuntimeSnapshot}
    (hframe : fappendAll (PmTiny.appendInspectSnapshot config runtime) = .ok frame)
    (hconfig : config.Legible) (hruntime : runtime.Legible) (hproper : runtime.Proper) :
    readInspectSnapshot.Reads frame ⟨config.wire, runtime.wire⟩ := by
  have hpasses := Field.passes_of_ok hframe
  rw [PmTiny.appendInspectSnapshot, List.forall_mem_cons, List.forall_mem_append] at hpasses
  exact readInspectSnapshot_sent hproper.pty ⟨writable_config hpasses.2.1 hconfig,
    readable_runtime hpasses.2.2 hruntime hproper⟩ hframe

theorem startResultCode_eq (result : StartResult) :
    Int32.ofInt result.value = startResultCode result := by
  cases result <;> rfl

theorem readStartResponse_received {response : PmTiny.StartResponse}
    (hframe : fappendAll (PmTiny.appendStartResponse response) = .ok frame)
    (hcount : response.blockedBy.length ≤ 100000) :
    readStartResponse frame = .ok response.wire := by
  have hschema : Int32.ofInt PmTiny.startSchemaVersion = startSchemaVersion := by decide
  have hmessage : utf8 "" = [] := by decide +kernel
  have hbytes : (PmTiny.appendStartResponse response).flatMap Field.bytes =
      (appendStartResponse response.wire).flatMap Item.bytes := by
    simp only [PmTiny.appendStartResponse, appendStartResponse, PmTiny.StartResponse.wire,
      List.flatten_cons, List.flatten_nil, List.append_nil, List.flatMap_append, List.flatMap_cons,
      List.flatMap_nil, bytes_str, bytes_int32, bytes_int64, hschema, hmessage, startResultCode_eq,
      bytes_strings PmTiny.startListTooLarge startListTooLarge]
  have hpasses := Field.passes_of_ok hframe
  simp only [PmTiny.appendStartResponse, List.flatten_cons, List.flatten_nil, List.append_nil,
    List.forall_mem_append, List.forall_mem_cons, passes_appendStrings_iff, Field.passes_str]
    at hpasses
  obtain ⟨⟨-, -, -, hstate, -⟩, ⟨-, hblockedBy⟩, -⟩ := hpasses
  have hreadable : response.wire.Readable :=
    ⟨hstate, fits_of_passes hblockedBy (Int.ofNat_le.2 hcount), Nat.zero_le _⟩
  rw [fappendAll_eq hframe, hbytes]
  exact readStartResponse_eq_ok.2 hreadable.reads

theorem bytes_appendProgramLogResponse (response : PmTiny.ProgramLogResponse) :
    (PmTiny.appendProgramLogResponse response).flatMap Field.bytes =
      (appendProgramLogResponse response.wire).flatMap Item.bytes := by
  have hschema : Int32.ofInt PmTiny.programLogResponseSchemaVersion =
      programLogResponseSchemaVersion := by decide
  have hmode : Int32.ofInt response.mode.value = logRequestModeCode response.mode := by
    cases response.mode <;> rfl
  simp only [PmTiny.appendProgramLogResponse, appendProgramLogResponse,
    PmTiny.ProgramLogResponse.wire, List.flatMap_cons, List.flatMap_nil, bytes_str, bytes_int32,
    bytes_int64, bytes_uint64, hschema, hmode]

theorem readProgramLogResponse_received {response : PmTiny.ProgramLogResponse}
    (hframe : fappendAll (PmTiny.appendProgramLogResponse response) = .ok frame)
    (hgeneration : ¬response.wire.generation = 0) :
    readProgramLogResponse.run frame = if response.wire.Incomplete then
      .error "incomplete program-log history metadata" else .ok (response.wire, []) := by
  have hpasses := Field.passes_of_ok hframe
  simp only [PmTiny.appendProgramLogResponse, List.forall_mem_cons, Field.passes_str] at hpasses
  have hreason : response.wire.exitReason.length ≤ protocolV3MaxPayload :=
    hpasses.2.2.2.2.2.1
  have hmode := logRequestModeCode_range response.wire.mode
  have hchecked : (refuseIf response.wire.Incomplete "incomplete program-log history metadata" >>=
      fun _ => pure response.wire : FrameReader ProgramLogResponse).run [] =
        if response.wire.Incomplete then .error "incomplete program-log history metadata"
        else .ok (response.wire, []) := by
    split_ifs with h
    · change (Except.bind (if _ then _ else _) _) = _
      rw [if_pos h]
      rfl
    · exact run_refuseIf_bind h
  rw [fappendAll_eq hframe, bytes_appendProgramLogResponse,
    ← List.append_nil ((appendProgramLogResponse response.wire).flatMap Item.bytes), ← hchecked]
  simp only [readProgramLogResponse, appendProgramLogResponse, bytes_cons, bytes_nil,
    run_int32_bind, run_refuseIf_bind (not_not.2 rfl), run_refuseIf_bind hmode, run_uint64_bind,
    run_int64_bind, run_text_bind hreason, run_refuseIf_bind hgeneration, logRequestModeOf_code]

section DaemonInfo

variable {info : PmTiny.DaemonInfoSnapshot}

theorem bytes_byte (value : Bool) : (Field.byte value).bytes = (Item.byte value).bytes := by
  cases value <;> rfl

theorem bytes_uint32 (value : Nat) :
    (Field.int 4 value).bytes = (Item.uint32 (UInt32.ofNat value)).bytes := by
  apply bigEndian_congr
  rw [UInt32.toNat_ofNat']
  omega

theorem bytes_platform {platform : Int} (h : 0 ≤ platform ∧ platform ≤ 2) :
    (Field.int 1 platform).bytes =
      (Item.uint8 (platformEnum.code (platformEnum.of (UInt8.ofNat platform.toNat)))).bytes := by
  have hcases : platform = 0 ∨ platform = 1 ∨ platform = 2 := by omega
  rcases hcases with rfl | rfl | rfl <;> rfl

theorem bytes_logSink {sink : Int} (h : 0 ≤ sink ∧ sink ≤ 2) :
    (Field.int 1 sink).bytes =
      (Item.uint8 (logSinkEnum.code (logSinkEnum.of (UInt8.ofNat sink.toNat)))).bytes := by
  have hcases : sink = 0 ∨ sink = 1 ∨ sink = 2 := by omega
  rcases hcases with rfl | rfl | rfl <;> rfl

theorem bytes_runMode (mode : DaemonRunMode) :
    (Field.int 1 mode.value).bytes = (Item.uint8 (runModeEnum.code mode)).bytes := by
  cases mode <;> rfl

theorem bytes_runtimeState (state : DaemonRuntimeState) :
    (Field.int 1 state.value).bytes = (Item.uint8 (runtimeStateEnum.code state)).bytes := by
  cases state <;> rfl

theorem bytes_configSource (source : DaemonConfigSource) :
    (Field.int 1 source.value).bytes = (Item.uint8 (configSourceEnum.code source)).bytes := by
  cases source <;> rfl

theorem bytes_appendVector {α : Type} {field : α → Field} {item : α → Item} (values : List α)
    (h : ∀ value ∈ values, (field value).bytes = (item value).bytes) :
    (PmTiny.appendVector (values.map field)).flatMap Field.bytes =
      (appendVector (values.map item)).flatMap Item.bytes := by
  have hvalues : (values.map field).flatMap Field.bytes = (values.map item).flatMap Item.bytes := by
    rw [List.flatMap_map, List.flatMap_map]
    exact List.flatMap_congr h
  have hcount : (Field.int 4 (values.map field).length).bytes =
      (Item.num 4 (values.map item).length).bytes := by
    rw [List.length_map, List.length_map]
    rfl
  rw [PmTiny.appendVector, appendVector, List.flatMap_cons, List.flatMap_cons, List.flatMap_cons,
    List.flatMap_cons, hcount, hvalues]
  rfl

/-- Values that the daemon gives to the information, whatever its state. -/
structure Known (info : PmTiny.DaemonInfoSnapshot) : Prop where
  platform : 0 ≤ info.platform ∧ info.platform ≤ 2
  logSink : 0 ≤ info.logSink ∧ info.logSink ≤ 2
  sources : ∃ source : String → DaemonConfigSource,
    info.sources = sourceFields.map fun key => (key, source key)
  backends : info.processTreeBackends.length ≤ 1024

theorem known_makeDaemonInfo (registry : Registry) (daemon : DaemonDetails) :
    Known (makeDaemonInfo registry daemon) where
  platform := by simp [makeDaemonInfo, makeDaemonInfoBase]
  logSink := by
    simp only [makeDaemonInfo]
    split
    · decide
    · split <;> decide
  sources := makeDaemonInfo_sources registry daemon
  backends := by simp [makeDaemonInfo]

theorem sourceKeys_sorted : sourceKeys.Pairwise textLess := by decide +kernel

theorem entries_sources (h : Known info) :
    info.wire.sources.entries = info.sources.map fun entry => (utf8 entry.1, entry.2) := by
  obtain ⟨source, hsources⟩ := h.sources
  have hsorted : (info.sources.map fun entry => (utf8 entry.1, entry.2)).Pairwise
      fun entry entry' => textLess entry.1 entry'.1 := by
    rw [hsources, List.map_map, ← List.pairwise_map (f := Prod.fst), List.map_map]
    exact sourceKeys_sorted
  have hinsert := OrderedMap.entries_insertAll (.empty : OrderedMap textLess DaemonConfigSource)
    hsorted
  rw [List.foldl_map] at hinsert
  exact hinsert

theorem bytes_sources (h : Known info) :
    (info.sources.flatMap PmTiny.appendSource).flatMap Field.bytes =
      (info.wire.sources.entries.flatMap appendSource).flatMap Item.bytes := by
  rw [entries_sources h, List.flatMap_map, List.flatMap_assoc, List.flatMap_assoc]
  refine List.flatMap_congr fun entry _ => ?_
  simp only [PmTiny.appendSource, appendSource, List.flatMap_cons, List.flatMap_nil, bytes_str,
    bytes_configSource]
  rfl

theorem bytes_uids (values : List Nat) :
    (PmTiny.appendVector (values.map fun value : Nat => .int 4 value)).flatMap Field.bytes =
      (appendVector ((values.map UInt32.ofNat).map .uint32)).flatMap Item.bytes := by
  rw [List.map_map]
  exact bytes_appendVector values fun value _ => bytes_uint32 value

theorem bytes_backends (values : List String) :
    (PmTiny.appendVector (values.map .str)).flatMap Field.bytes =
      (appendVector ((values.map utf8).map .text)).flatMap Item.bytes := by
  rw [List.map_map]
  exact bytes_appendVector values fun value _ => bytes_str value

theorem bytes_appendDaemonInfo (h : Known info) :
    (PmTiny.appendDaemonInfo info).flatMap Field.bytes =
      (appendDaemonInfo info.wire).flatMap Item.bytes := by
  have hschema : Int32.ofInt PmTiny.daemonInfoSchemaVersion = daemonInfoSchemaVersion := by decide
  have hlength : info.wire.sources.entries.length = info.sources.length := by
    rw [entries_sources h, List.length_map]
  have hcount : (Field.int 4 info.sources.length).bytes =
      (Item.num 4 info.wire.sources.entries.length).bytes := by
    rw [hlength]
    rfl
  have hcheck : ∀ (passed : Bool) (failure : Failure), (Field.check passed failure).bytes = [] :=
    fun _ _ => rfl
  have hcheck' : ∀ (passed : Bool) (failure : Failure), (Item.check passed failure).bytes = [] :=
    fun _ _ => rfl
  simp only [PmTiny.appendDaemonInfo, appendDaemonInfo, List.flatten_cons, List.flatten_nil,
    List.append_nil, List.flatMap_append, List.flatMap_cons, List.flatMap_nil, List.append_assoc,
    hcount, hcheck, hcheck', bytes_sources h, bytes_uint32 info.fileConfigCount,
    bytes_uint32 info.runtimeDefinitionCount]
  simp only [PmTiny.DaemonInfoSnapshot.wire, hschema, bytes_str, bytes_int32, bytes_int64,
    bytes_byte, bytes_platform h.platform, bytes_logSink h.logSink, bytes_runMode,
    bytes_runtimeState, bytes_uids, bytes_backends]

theorem readable_sources (h : Known info) : ReadableSources info.wire.sources := by
  have hentries := entries_sources h
  obtain ⟨source, hsources⟩ := h.sources
  have hknown : ∀ entry ∈ info.wire.sources.entries, entry.1 ∈ sourceKeys := by
    rw [hentries, hsources, List.map_map, List.forall_mem_map]
    exact fun key hkey => List.mem_map_of_mem hkey
  have hshort : ∀ key ∈ sourceKeys, key.length ≤ protocolV3MaxPayload := by decide +kernel
  refine ⟨?_, hknown, fun entry hentry => hshort _ (hknown entry hentry)⟩
  have hlength : sourceFields.length ≤ 64 := by decide
  rwa [hentries, hsources, List.length_map, List.length_map]

theorem readable_info (hknown : Known info)
    (h : ∀ field ∈ PmTiny.appendDaemonInfo info, Field.Passes field) : info.wire.Readable := by
  have hvector : ∀ fields : List Field, (∀ field ∈ PmTiny.appendVector fields, Field.Passes field) ↔
      fields.length ≤ PmTiny.daemonInfoMaxItems ∧ ∀ field ∈ fields, Field.Passes field := by
    intro fields
    rw [PmTiny.appendVector, List.forall_mem_cons, List.forall_mem_cons, Field.passes_check,
      decide_eq_true_iff]
    exact and_congr_right fun _ => and_iff_right Field.passes_int
  simp only [PmTiny.appendDaemonInfo, List.flatten_cons, List.flatten_nil, List.append_nil,
    List.forall_mem_append, List.forall_mem_cons, hvector, List.length_map, Field.passes_str] at h
  obtain ⟨⟨-, hversion, -, -, -, -, -, -, -, -, -, -, hconfigFile, -, hhomeDir, hpidFile,
      hprogramConfigFile, happEnvironDir, happLogDir, hdaemonLogFile, hudsAddress, -⟩,
    ⟨hallowedUids, -⟩, ⟨hallowedGids, -⟩,
    ⟨hnamedPipe, hpipeSddl, hserviceName, hrequested, heffective, hcgroupRoot, -, -, hdegradation,
      hlogLevel, -, -, -, -, -, hlogLastError, -⟩,
    ⟨-, hbackends⟩, -⟩ := h
  have hlength : ∀ values : List Nat, values.length ≤ PmTiny.daemonInfoMaxItems →
      (values.map UInt32.ofNat).length ≤ 1024 := by
    intro values hvalues
    rwa [List.length_map]
  exact {
    version := hversion
    configFile := hconfigFile
    homeDir := hhomeDir
    pidFile := hpidFile
    programConfigFile := hprogramConfigFile
    appEnvironDir := happEnvironDir
    appLogDir := happLogDir
    daemonLogFile := hdaemonLogFile
    udsAddress := hudsAddress
    allowedUids := hlength _ hallowedUids
    allowedGids := hlength _ hallowedGids
    namedPipe := hnamedPipe
    pipeSddl := hpipeSddl
    serviceName := hserviceName
    requestedProcessTreeMode := hrequested
    effectiveProcessTreeMode := heffective
    cgroupRoot := hcgroupRoot
    processTreeDegradationReason := hdegradation
    logLevel := hlogLevel
    logLastError := hlogLastError
    backends := (List.length_map utf8).symm ▸ hknown.backends
    backendTexts := Field.passes_strings hbackends
    sources := readable_sources hknown }

theorem readDaemonInfo_received (registry : Registry) (daemon : DaemonDetails)
    (hframe : fappendAll (PmTiny.appendDaemonInfo (makeDaemonInfo registry daemon)) = .ok frame) :
    readDaemonInfo frame = .ok (makeDaemonInfo registry daemon).wire := by
  have hknown := known_makeDaemonInfo registry daemon
  have hreadable := readable_info hknown (Field.passes_of_ok hframe)
  rw [readDaemonInfo_eq_ok, fappendAll_eq hframe, bytes_appendDaemonInfo hknown]
  exact hreadable.reads

end DaemonInfo

end PmTiny.Wire
