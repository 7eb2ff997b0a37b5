import PmTiny.Daemon.Snapshots

namespace PmTiny
set_option autoImplicit true

def daemonInfoSchemaVersion : Int := 1

def daemonInfoMaxItems : Nat := 1024

def daemonInfoMaxSources : Nat := 64

inductive DaemonConfigSource where
  | defaultValue | configFile | environment | commandLine | derived
  deriving DecidableEq, Repr

def DaemonConfigSource.value : DaemonConfigSource → Int
  | .defaultValue => 0
  | .configFile => 1
  | .environment => 2
  | .commandLine => 3
  | .derived => 4

structure DaemonConfig where
  configPath : String := ""
  configLoaded : Bool := false
  homeDir : String := ""
  lockFile : String := ""
  logFile : String := ""
  programConfigFile : String := ""
  appLogDir : String := ""
  appEnvironDir : String := ""
  logLevel : String := "info"
  logMaxSizeKb : Int := 4096
  logArchiveCount : Int := 3
  socketFile : String := ""
  udsAbstractNamespace : Bool := false
  processTreeMode : String := "auto"
  cgroupRoot : String := ""
  allowedUids : List Nat := []
  allowedGids : List Nat := []
  pipeName : String := ""
  pipeSddl : String := ""
  sourceOf : String → DaemonConfigSource := fun _ => .defaultValue

structure DaemonOptions where
  daemonize : Bool := false
  service : Bool := false
  serviceName : String := "pm_tiny"
  serviceNameExplicit : Bool := false

inductive DaemonRunMode where
  | foreground | daemon | service
  deriving DecidableEq, Repr

def DaemonRunMode.value : DaemonRunMode → Int
  | .foreground => 0
  | .daemon => 1
  | .service => 2

inductive DaemonRuntimeState where
  | running | reloading | stopping
  deriving DecidableEq, Repr

def DaemonRuntimeState.value : DaemonRuntimeState → Int
  | .running => 0
  | .reloading => 1
  | .stopping => 2

structure DaemonInfoSnapshot where
  version : String
  protocolVersion : Int := 3
  platform : Int := 0
  pid : Int
  uptimeMs : Int
  runMode : DaemonRunMode
  state : DaemonRuntimeState := .running
  singleThreadedControlLoop : Bool := true
  persistenceActive : Bool := false
  fileConfigCount : Nat := 0
  runtimeDefinitionCount : Nat := 0
  configFile : String
  configLoaded : Bool
  homeDir : String
  pidFile : String
  programConfigFile : String
  appEnvironDir : String
  appLogDir : String
  daemonLogFile : String
  udsAddress : String
  udsAbstractNamespace : Bool
  allowedUids : List Nat
  allowedGids : List Nat
  namedPipe : String
  pipeSddl : String
  serviceName : String
  requestedProcessTreeMode : String
  effectiveProcessTreeMode : String := ""
  cgroupRoot : String
  subreaperEnabled : Bool := false
  processTreeDegraded : Bool := false
  processTreeDegradationReason : String := ""
  logLevel : String
  logMaxSizeKb : Int
  logArchiveCount : Int
  logConsoleMirror : Bool := false
  logSink : Int := 1
  logDegraded : Bool := false
  logLastError : String := ""
  dynamicCreate : Bool := true
  pty : Bool := false
  switchUser : Bool := false
  oomAdjust : Bool := false
  failureAction : Bool := false
  serviceMode : Bool := false
  processTreeBackends : List String := []
  sources : List (String × DaemonConfigSource)

/-- The keys that `source_fields` knows, in the order of a `std::map`. -/
def sourceFields : List String :=
  ["allowed_gids", "allowed_uids", "app_environ_dir", "app_log_dir", "cgroup_root", "config_file",
    "daemon_log_file", "home_dir", "log_archive_count", "log_level",
      "log_max_size_kb", "named_pipe",
    "pid_file", "pipe_sddl", "program_config_file", "requested_process_tree_mode", "service_name",
    "uds_abstract_namespace", "uds_address"]

def sourceConfigField (key : String) : String :=
  if key = "config_file" then "config_path"
  else if key = "pid_file" then "lock_file"
  else if key = "daemon_log_file" then "log_file"
  else if key = "uds_address" then "socket_file"
  else if key = "named_pipe" then "pipe_name"
  else if key = "requested_process_tree_mode" then "process_tree_mode"
  else key

def makeSources (config : DaemonConfig) (options : DaemonOptions) :
    List (String × DaemonConfigSource) :=
  sourceFields.map fun key => (key,
    if key = "service_name" then
      if options.serviceNameExplicit then .commandLine else .defaultValue
    else config.sourceOf (sourceConfigField key))

def makeDaemonInfoBase (config : DaemonConfig) (options : DaemonOptions) (version : String)
    (pid uptimeMs : Int) : DaemonInfoSnapshot where
  version := version
  pid := pid
  uptimeMs := uptimeMs
  runMode :=
    if options.service then .service else if options.daemonize then .daemon else .foreground
  configFile := config.configPath
  configLoaded := config.configLoaded
  homeDir := config.homeDir
  pidFile := config.lockFile
  programConfigFile := config.programConfigFile
  appEnvironDir := config.appEnvironDir
  appLogDir := config.appLogDir
  daemonLogFile := config.logFile
  udsAddress := config.socketFile
  udsAbstractNamespace := config.udsAbstractNamespace
  allowedUids := config.allowedUids
  allowedGids := config.allowedGids
  namedPipe := config.pipeName
  pipeSddl := config.pipeSddl
  serviceName := options.serviceName
  requestedProcessTreeMode := config.processTreeMode
  cgroupRoot := config.cgroupRoot
  logLevel := config.logLevel
  logMaxSizeKb := config.logMaxSizeKb
  logArchiveCount := config.logArchiveCount
  sources := makeSources config options

structure DaemonHealth where
  effectiveProcessTreeMode : Option String := none
  cgroupRoot : String := ""
  subreaperEnabled : Bool := true
  subreaperError : String := ""
  processTreeDegraded : Bool := false
  processTreeReason : String := ""
  logLevel : String := "info"
  logMaxSizeBytes : Nat := 4194304
  logArchiveCount : Int := 3
  logMirrorConsole : Bool := true
  logSink : String := "console"
  logDegraded : Bool := false
  logLastError : String := ""

def DaemonHealth.degradationReason (health : DaemonHealth) : String :=
  if health.effectiveProcessTreeMode.isNone ∨ health.processTreeReason = "" then
    health.subreaperError
  else if health.subreaperError = "" then health.processTreeReason
  else health.subreaperError ++ "; " ++ health.processTreeReason

structure DaemonDetails where
  config : DaemonConfig := {}
  options : DaemonOptions := {}
  version : String := "0.0.0"
  pid : Int := 1
  uptimeMs : Int := 0
  persistenceActive : Bool := false
  health : DaemonHealth := {}

/-- The snapshot of `make_daemon_info_data`. -/
def makeDaemonInfo (registry : Registry) (daemon : DaemonDetails) : DaemonInfoSnapshot :=
  let base := makeDaemonInfoBase daemon.config daemon.options daemon.version daemon.pid
    daemon.uptimeMs
  let health := daemon.health
  let treeRuns := health.effectiveProcessTreeMode.isSome
  { base with
    state := if registry.isReloading then .reloading
      else if registry.serverExit then .stopping else .running
    persistenceActive := daemon.persistenceActive
    fileConfigCount := (registry.pmTinyProgs.filter (·.configSource ≠ "runtime")).length
    runtimeDefinitionCount := (registry.pmTinyProgs.filter (·.configSource = "runtime")).length
    effectiveProcessTreeMode := health.effectiveProcessTreeMode.getD "unavailable"
    cgroupRoot := if treeRuns then health.cgroupRoot else base.cgroupRoot
    sources := if treeRuns then
      base.sources.map fun entry => if entry.1 = "cgroup_root" then (entry.1, .derived) else entry
      else base.sources
    subreaperEnabled := health.subreaperEnabled
    processTreeDegraded := !health.subreaperEnabled || treeRuns && health.processTreeDegraded
    processTreeDegradationReason := health.degradationReason
    logLevel := health.logLevel
    logMaxSizeKb := (health.logMaxSizeBytes / 1024 : Nat)
    logArchiveCount := health.logArchiveCount
    logConsoleMirror := health.logMirrorConsole
    logSink := if health.logSink = "file" then 0
      else if health.logSink = "console_fallback" then 2 else 1
    logDegraded := health.logDegraded
    logLastError := health.logLastError
    pty := true
    switchUser := true
    oomAdjust := true
    failureAction := true
    serviceMode := false
    processTreeBackends := ["cgroup_v2", "process_group"] }

def appendVector (fields : List Field) : List Field :=
  .check (fields.length ≤ daemonInfoMaxItems)
    (.protocolError "daemon-info item count exceeds limit") :: .int 4 fields.length :: fields

def appendSource (entry : String × DaemonConfigSource) : List Field :=
  [.check (entry.1 ∈ sourceFields) (.protocolError "unknown daemon-info source key"),
    .str entry.1, .int 1 entry.2.value]

def appendDaemonInfo (info : DaemonInfoSnapshot) : List Field :=
  List.flatten [
  [.int 4 daemonInfoSchemaVersion, .str info.version, .int 4 info.protocolVersion,
    .int 1 info.platform, .int 8 info.pid, .int 8 info.uptimeMs, .int 1 info.runMode.value,
    .int 1 info.state.value, .byte info.singleThreadedControlLoop, .byte info.persistenceActive,
    .int 4 info.fileConfigCount, .int 4 info.runtimeDefinitionCount, .str info.configFile,
    .byte info.configLoaded, .str info.homeDir, .str info.pidFile, .str info.programConfigFile,
    .str info.appEnvironDir, .str info.appLogDir, .str info.daemonLogFile, .str info.udsAddress,
    .byte info.udsAbstractNamespace],
  appendVector (info.allowedUids.map fun uid : Nat => .int 4 uid),
  appendVector (info.allowedGids.map fun gid : Nat => .int 4 gid),
  [.str info.namedPipe, .str info.pipeSddl, .str info.serviceName,
    .str info.requestedProcessTreeMode, .str info.effectiveProcessTreeMode, .str info.cgroupRoot,
    .byte info.subreaperEnabled, .byte info.processTreeDegraded,
    .str info.processTreeDegradationReason, .str info.logLevel, .int 4 info.logMaxSizeKb,
    .int 4 info.logArchiveCount, .byte info.logConsoleMirror, .int 1 info.logSink,
    .byte info.logDegraded, .str info.logLastError, .byte info.dynamicCreate, .byte info.pty,
    .byte info.switchUser, .byte info.oomAdjust, .byte info.failureAction, .byte info.serviceMode],
  appendVector (info.processTreeBackends.map .str),
  [.check (info.sources.length ≤ daemonInfoMaxSources)
      (.protocolError "daemon-info source count exceeds limit"),
    .int 4 info.sources.length],
  info.sources.flatMap appendSource]

/-- The bytes of the texts that a daemon is configured with and reports. -/
def DaemonDetails.textSize (daemon : DaemonDetails) : Nat :=
  let config := daemon.config
  let health := daemon.health
  daemon.version.utf8ByteSize + config.configPath.utf8ByteSize + config.homeDir.utf8ByteSize +
  config.lockFile.utf8ByteSize + config.programConfigFile.utf8ByteSize +
  config.appEnvironDir.utf8ByteSize + config.appLogDir.utf8ByteSize + config.logFile.utf8ByteSize +
  config.socketFile.utf8ByteSize + config.pipeName.utf8ByteSize + config.pipeSddl.utf8ByteSize +
  daemon.options.serviceName.utf8ByteSize + config.processTreeMode.utf8ByteSize +
  (health.effectiveProcessTreeMode.getD "unavailable").utf8ByteSize +
  (if health.effectiveProcessTreeMode.isSome then health.cgroupRoot else
    config.cgroupRoot).utf8ByteSize +
  health.degradationReason.utf8ByteSize + health.logLevel.utf8ByteSize +
  health.logLastError.utf8ByteSize

def DaemonDetails.infoSize (daemon : DaemonDetails) : Nat :=
  525 + daemon.textSize + 4 * daemon.config.allowedUids.length + 4 *
    daemon.config.allowedGids.length

theorem frameSize_ints (values : List Nat) :
    frameSize (values.map fun value : Nat => .int 4 value) = 4 * values.length := by
  induction values with
  | nil => rfl
  | cons value values ih =>
    rw [List.map_cons, frameSize_cons, ih, List.length_cons, Field.size]
    omega

theorem frameSize_appendVector (fields : List Field) :
    frameSize (appendVector fields) = 4 + frameSize fields := by
  rw [appendVector, frameSize_cons, frameSize_cons]
  exact Nat.zero_add _

theorem frameSize_sources (source : String → DaemonConfigSource) :
    frameSize ((sourceFields.map fun key => (key, source key)).flatMap appendSource) = 349 := by
  have h : ∀ keys : List String,
      frameSize ((keys.map fun key => (key, source key)).flatMap appendSource) =
        (keys.map fun key => 5 + key.utf8ByteSize).sum := by
    intro keys
    induction keys with
    | nil => rfl
    | cons key keys ih =>
      simp only [List.map_cons, List.flatMap_cons, frameSize_append, ih, appendSource,
        frameSize_cons, frameSize_nil, Field.size, List.sum_cons]
      omega
  rw [h]
  decide

theorem makeDaemonInfo_sources (registry : Registry) (daemon : DaemonDetails) :
    ∃ source : String → DaemonConfigSource, (makeDaemonInfo registry daemon).sources =
      sourceFields.map fun key => (key, source key) := by
  simp only [makeDaemonInfo, makeDaemonInfoBase, makeSources]
  split
  · rw [List.map_map]
    refine ⟨fun key => if key = "cgroup_root" then .derived else if key = "service_name" then
      if daemon.options.serviceNameExplicit then .commandLine else .defaultValue
      else daemon.config.sourceOf (sourceConfigField key), ?_⟩
    apply List.map_congr_left
    intro key _
    simp only [Function.comp]
    split <;> rfl
  · exact ⟨_, rfl⟩

theorem frameSize_appendDaemonInfo (registry : Registry) (daemon : DaemonDetails) :
    frameSize (appendDaemonInfo (makeDaemonInfo registry daemon)) = daemon.infoSize := by
  obtain ⟨source, hsources⟩ := makeDaemonInfo_sources registry daemon
  have hbackends : frameSize ((["cgroup_v2", "process_group"] : List String).map .str) = 30 := by
    decide
  rw [appendDaemonInfo, hsources]
  simp only [List.flatten_cons, List.flatten_nil, frameSize_append, frameSize_cons, frameSize_nil,
    frameSize_appendVector, frameSize_ints, frameSize_sources, Field.size, Field.byte]
  simp only [makeDaemonInfo, makeDaemonInfoBase, hbackends, DaemonDetails.infoSize,
    DaemonDetails.textSize]
  omega

theorem checksPass_appendDaemonInfo (registry : Registry) (daemon : DaemonDetails) :
    ChecksPass (appendDaemonInfo (makeDaemonInfo registry daemon)) ↔
      daemon.config.allowedUids.length ≤ daemonInfoMaxItems ∧
        daemon.config.allowedGids.length ≤ daemonInfoMaxItems := by
  obtain ⟨source, hsources⟩ := makeDaemonInfo_sources registry daemon
  have hkeys :
    ChecksPass ((sourceFields.map fun key => (key, source key)).flatMap appendSource) := by
    intro failure hm
    obtain ⟨entry, he, hf⟩ := List.mem_flatMap.1 hm
    obtain ⟨key, hkey, rfl⟩ := List.mem_map.1 he
    simp [appendSource, hkey] at hf
  have hints : ∀ values : List Nat, ChecksPass (values.map fun value : Nat => .int 4 value) := by
    intro values failure hm
    obtain ⟨value, -, hv⟩ := List.mem_map.1 hm
    cases hv
  have hcount : sourceFields.length ≤ daemonInfoMaxSources := by decide
  have hbackends : 2 ≤ daemonInfoMaxItems := by decide
  rw [appendDaemonInfo, hsources]
  simp [appendVector, makeDaemonInfo, makeDaemonInfoBase, hkeys, hints, hcount, hbackends]

end PmTiny
