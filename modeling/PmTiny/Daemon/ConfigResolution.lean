import Mathlib.Algebra.Ring.Int.Defs
import PmTiny.Daemon.DaemonArguments
import PmTiny.Daemon.DaemonInfo
import PmTiny.Daemon.LogFileNames

namespace PmTiny
open Persist
set_option autoImplicit true

def pathSeparator : DaemonPlatform → String
  | .posix => "/"
  | .windows => "\\"

def isAbsolutePath (path : String) : DaemonPlatform → Bool
  | .posix => path.toList.head? = some '/'
  | .windows =>
    (path.toList.head?.any Char.isAlpha && path.toList[1]? = some ':' &&
        path.toList[2]?.any isSeparator) ||
      path.toList.head?.any isSeparator

def parentDirectory (path : String) (platform : DaemonPlatform) : String :=
  let slash := match platform with
    | .posix => findLastOf (· == '/') path.toList
    | .windows => findLastOf isSeparator path.toList
  match slash with
  | none => "."
  | some 0 => String.ofList (path.toList.take 1)
  | some index => String.ofList (path.toList.take index)

def joinPath (base name : String) (platform : DaemonPlatform) : String :=
  if base = "" then name
  else if name = "" then base
  else if base.toList.getLast?.any isSeparator then base ++ name
  else base ++ pathSeparator platform ++ name

def isDrive (reversed : List Char) : Bool :=
  reversed.length = 2 && reversed.head? = some ':' && reversed.all fun c => c.utf8Size = 1

/-- `trim_trailing_separators` on the characters from the last one on. -/
def trimReversed (platform : DaemonPlatform) : List Char → List Char
  | [] => []
  | last :: before =>
    if before ≠ [] ∧ isSeparator last = true ∧ ¬ (platform = .windows ∧ isDrive before = true) then
      trimReversed platform before
    else last :: before

def trimTrailingSeparators (path : String) (platform : DaemonPlatform) : String :=
  String.ofList (trimReversed platform path.toList.reverse).reverse

def resolveRelative (configPath path : String) (platform : DaemonPlatform) : String :=
  if path = "" ∨ isAbsolutePath path platform = true then path
  else joinPath (parentDirectory configPath platform) path platform

/-- A configuration file: what keeps it from being opened, or its size with what keeps it from being
read or what the parser says about its text. -/
inductive ConfigFile where
  | unopened (reason : String)
  | unreadable (size : Nat) (reason : String)
  | text (size : Nat) (parsed : Except String Yaml)

structure DaemonSystem where
  environment : String → String
  passwdHome : Option String
  fileExists : String → Bool
  file : String → ConfigFile
  /-- What a failed conversion of the value of a key says. -/
  badConversion : String → String
  /-- `PM_TINY_UDS_ABSTRACT_NAMESPACE_DEFAULT` is defined. -/
  abstractDefault : Bool
  /-- The empty path names no file. -/
  file_empty : ∃ reason, file "" = .unopened reason

def defaultHome (system : DaemonSystem) : DaemonPlatform → String
  | .windows =>
    let profile := system.environment "USERPROFILE"
    let drive := system.environment "HOMEDRIVE"
    let path := system.environment "HOMEPATH"
    if profile ≠ "" then joinPath profile ".pm_tiny" .windows
    else if drive ≠ "" ∧ path ≠ "" then joinPath (drive ++ path) ".pm_tiny" .windows
    else ".pm_tiny"
  | .posix =>
    match system.passwdHome with
    | some directory => joinPath directory ".pm_tiny" .posix
    | none =>
      let home := system.environment "HOME"
      if home = "" then ".pm_tiny" else joinPath home ".pm_tiny" .posix

def pmTinyDefaultCfgFile : String := "/usr/local/pm_tiny/pm_tiny.yaml"

def implicitConfigPath (system : DaemonSystem) (options : DaemonCliOptions)
    (platform : DaemonPlatform) : String :=
  if platform = .posix then pmTinyDefaultCfgFile
  else
    let home := if options.homeExplicit then options.homeDir else system.environment "PM_TINY_HOME"
    let home := if home = "" then defaultHome system platform else home
    joinPath home "pm_tiny.yaml" platform

def maxYamlBytes : Nat := 4 * 1024 * 1024

def loadYamlFile (system : DaemonSystem) (path : String) : Except String Yaml :=
  match system.file path with
  | .unopened reason => .error ("Cannot open daemon config `" ++ path ++ "`: " ++ reason)
  | .unreadable size reason =>
    if size > maxYamlBytes then .error ("Daemon config `" ++ path ++ "` exceeds 4 MiB limit")
    else .error ("Cannot read daemon config `" ++ path ++ "`" ++ reason)
  | .text size parsed =>
    if size > maxYamlBytes then .error ("Daemon config `" ++ path ++ "` exceeds 4 MiB limit")
    else
      match parsed with
      | .error what => .error ("Failed to load daemon config `" ++ path ++ "`: " ++ what)
      | .ok root => .ok root

/-- `as<unsigned>`. -/
def asUnsigned : Yaml → Option Nat
  | .scalar text =>
    if text.toList.head? = some '-' then none
    else (Yaml.readInt text.toList).bind fun n =>
      if n < 2 ^ 32 then some n.toNat else none
  | _ => none

def asUnsignedList : Yaml → Option (List Nat)
  | .sequence items => items.mapM asUnsigned
  | _ => none

def asInteger (node : Yaml) : Option Int := (Yaml.asInt node).map Int32.toInt

def readValue (system : DaemonSystem) (root : Yaml) (key : String) (convert : Yaml → Option α)
    (target : α) : Except String α :=
  match root.get? key with
  | none => .ok target
  | some node =>
    match convert node with
    | some value => .ok value
    | none => .error ("Invalid daemon field `" ++ key ++ "`: " ++ system.badConversion key)

def commonKeys : List String :=
  ["pm_tiny_home_dir", "pm_tiny_log_file", "pm_tiny_prog_cfg_file", "pm_tiny_app_log_dir",
    "pm_tiny_app_environ_dir", "pm_tiny_log_level", "pm_tiny_log_max_size_kb",
    "pm_tiny_log_archive_count"]

def posixKeys : List String :=
  ["pm_tiny_sock_file", "pm_tiny_uds_abstract_namespace", "pm_tiny_allowed_uids",
    "pm_tiny_allowed_gids", "pm_tiny_process_tree_mode", "pm_tiny_cgroup_root"]

def windowsKeys : List String := ["pm_tiny_pipe_name", "pm_tiny_pipe_sddl"]

def validateKeys (platform : DaemonPlatform) : List (String × Yaml) → Except String Unit
  | [] => .ok ()
  | (key, _) :: rest =>
    if key ∈ commonKeys then validateKeys platform rest
    else if platform = .posix ∧ key ∈ posixKeys then validateKeys platform rest
    else if platform = .windows ∧ key ∈ windowsKeys then validateKeys platform rest
    else if key ∈ posixKeys ∨ key ∈ windowsKeys then
      .error ("Daemon field `" ++ key ++ "` is unsupported on this platform")
    else if "pm_tiny_".toList.isPrefixOf key.toList then
      .error ("Unknown daemon field `" ++ key ++ "`")
    else validateKeys platform rest

def fileSources : List (String × String) :=
  [("pm_tiny_home_dir", "home_dir"), ("pm_tiny_log_file", "log_file"),
    ("pm_tiny_prog_cfg_file", "program_config_file"), ("pm_tiny_app_log_dir", "app_log_dir"),
    ("pm_tiny_app_environ_dir", "app_environ_dir"), ("pm_tiny_log_level", "log_level"),
    ("pm_tiny_log_max_size_kb", "log_max_size_kb"),
    ("pm_tiny_log_archive_count", "log_archive_count"), ("pm_tiny_sock_file", "socket_file"),
    ("pm_tiny_uds_abstract_namespace", "uds_abstract_namespace"),
    ("pm_tiny_process_tree_mode", "process_tree_mode"), ("pm_tiny_cgroup_root", "cgroup_root"),
    ("pm_tiny_allowed_uids", "allowed_uids"), ("pm_tiny_allowed_gids", "allowed_gids"),
    ("pm_tiny_pipe_name", "pipe_name"), ("pm_tiny_pipe_sddl", "pipe_sddl")]

/-- The sources when the fields of the entries that are given were set. -/
def setSources (given : κ → Bool) (source : DaemonConfigSource) :
    List (κ × String) → (String → DaemonConfigSource) → String → DaemonConfigSource
  | [], sources, field => sources field
  | entry :: rest, sources, field =>
    if field = entry.2 ∧ given entry.1 = true then source
    else setSources given source rest sources field

def readFields (system : DaemonSystem) (root : Yaml) (platform : DaemonPlatform)
    (config : DaemonConfig) : Except String DaemonConfig := do
  let homeDir ← readValue system root "pm_tiny_home_dir" Yaml.asString config.homeDir
  let logFile ← readValue system root "pm_tiny_log_file" Yaml.asString config.logFile
  let programConfigFile ←
    readValue system root "pm_tiny_prog_cfg_file" Yaml.asString config.programConfigFile
  let appLogDir ← readValue system root "pm_tiny_app_log_dir" Yaml.asString config.appLogDir
  let appEnvironDir ←
    readValue system root "pm_tiny_app_environ_dir" Yaml.asString config.appEnvironDir
  let logLevel ← readValue system root "pm_tiny_log_level" Yaml.asString config.logLevel
  let logMaxSizeKb ← readValue system root "pm_tiny_log_max_size_kb" asInteger config.logMaxSizeKb
  let logArchiveCount ←
    readValue system root "pm_tiny_log_archive_count" asInteger config.logArchiveCount
  let config := { config with
    homeDir := homeDir, logFile := logFile, programConfigFile := programConfigFile
    appLogDir := appLogDir, appEnvironDir := appEnvironDir, logLevel := logLevel
    logMaxSizeKb := logMaxSizeKb, logArchiveCount := logArchiveCount }
  match platform with
  | .posix =>
    let socketFile ← readValue system root "pm_tiny_sock_file" Yaml.asString config.socketFile
    let udsAbstractNamespace ← readValue system root "pm_tiny_uds_abstract_namespace" Yaml.asBool
      config.udsAbstractNamespace
    let processTreeMode ←
      readValue system root "pm_tiny_process_tree_mode" Yaml.asString config.processTreeMode
    let cgroupRoot ← readValue system root "pm_tiny_cgroup_root" Yaml.asString config.cgroupRoot
    let allowedUids ← readValue system root "pm_tiny_allowed_uids" asUnsignedList config.allowedUids
    let allowedGids ← readValue system root "pm_tiny_allowed_gids" asUnsignedList config.allowedGids
    return { config with
      socketFile := socketFile, udsAbstractNamespace := udsAbstractNamespace
      processTreeMode := processTreeMode, cgroupRoot := cgroupRoot
      allowedUids := allowedUids, allowedGids := allowedGids }
  | .windows =>
    let pipeName ← readValue system root "pm_tiny_pipe_name" Yaml.asString config.pipeName
    let pipeSddl ← readValue system root "pm_tiny_pipe_sddl" Yaml.asString config.pipeSddl
    return { config with pipeName := pipeName, pipeSddl := pipeSddl }

def resolveFields (path : String) (platform : DaemonPlatform) (config : DaemonConfig) :
    DaemonConfig :=
  { config with
    homeDir := resolveRelative path config.homeDir platform
    logFile := resolveRelative path config.logFile platform
    programConfigFile := resolveRelative path config.programConfigFile platform
    appLogDir := resolveRelative path config.appLogDir platform
    appEnvironDir := resolveRelative path config.appEnvironDir platform
    socketFile :=
      if platform = .posix ∧ config.udsAbstractNamespace = false then
        resolveRelative path config.socketFile platform
      else config.socketFile
    configLoaded := true }

def loadFileConfig (system : DaemonSystem) (path : String) (platform : DaemonPlatform)
    (config : DaemonConfig) : Except String DaemonConfig := do
  let root ← loadYamlFile system path
  match root with
  | .mapping entries =>
    validateKeys platform entries
    let config ← readFields system root platform config
    return resolveFields path platform { config with
      sourceOf := setSources (fun key => (root.get? key).isSome) .configFile fileSources
        config.sourceOf }
  | _ => throw ("Daemon config `" ++ path ++ "` must be a mapping")

/-- The value of an environment variable that is not empty takes the place of the target. -/
def overrideString (system : DaemonSystem) (name target : String) : String :=
  if system.environment name ≠ "" then system.environment name else target

def overrideLogLevel (system : DaemonSystem) (target : String) : Except String String :=
  let level := system.environment "PM_TINY_LOG_LEVEL"
  if level ≠ "" then
    if validLogLevel level then .ok level
    else .error "PM_TINY_LOG_LEVEL must be debug, info, warn, error, or fatal"
  else .ok target

def overrideNumber (system : DaemonSystem) (name : String) (minimum maximum target : Int) :
    Except String Int :=
  let value := system.environment name
  if value ≠ "" then
    match parseLong value minimum maximum with
    | some parsed => .ok parsed
    | none =>
      .error (name ++ " must be between " ++ toString minimum ++ " and " ++ toString maximum)
  else .ok target

def overrideAbstract (system : DaemonSystem) (platform : DaemonPlatform) (target : Bool) :
    Except String Bool :=
  let value := system.environment "PM_TINY_UDS_ABSTRACT_NAMESPACE"
  if platform = .posix ∧ value ≠ "" then
    match parseBool value with
    | some parsed => .ok parsed
    | none => .error "PM_TINY_UDS_ABSTRACT_NAMESPACE must be a boolean"
  else .ok target

def overrideOn (only platform : DaemonPlatform) (system : DaemonSystem) (name target : String) :
    String :=
  if platform = only then overrideString system name target else target

def environmentSources : List (String × String) :=
  [("PM_TINY_HOME", "home_dir"), ("PM_TINY_LOG_FILE", "log_file"),
    ("PM_TINY_PROG_CFG_FILE", "program_config_file"), ("PM_TINY_APP_LOG_DIR", "app_log_dir"),
    ("PM_TINY_APP_ENVIRON_DIR", "app_environ_dir"), ("PM_TINY_LOG_LEVEL", "log_level"),
    ("PM_TINY_LOG_MAX_SIZE_KB", "log_max_size_kb"),
    ("PM_TINY_LOG_ARCHIVE_COUNT", "log_archive_count")]

/-- The variables that only one platform looks at. -/
def platformSources : DaemonPlatform → List (String × String)
  | .windows => [("PM_TINY_PIPE_NAME", "pipe_name"), ("PM_TINY_PIPE_SDDL", "pipe_sddl")]
  | .posix =>
    [("PM_TINY_SOCK_FILE", "socket_file"), ("PM_TINY_PROCESS_TREE_MODE", "process_tree_mode"),
      ("PM_TINY_CGROUP_ROOT", "cgroup_root"),
      ("PM_TINY_UDS_ABSTRACT_NAMESPACE", "uds_abstract_namespace")]

def environmentSourceOf (system : DaemonSystem) (platform : DaemonPlatform)
    (sources : String → DaemonConfigSource) : String → DaemonConfigSource :=
  setSources (fun name => decide (system.environment name ≠ "")) .environment
    (environmentSources ++ platformSources platform) sources

def applyEnvironment (system : DaemonSystem) (platform : DaemonPlatform) (config : DaemonConfig) :
    Except String DaemonConfig := do
  let logLevel ← overrideLogLevel system config.logLevel
  let logMaxSizeKb ←
    overrideNumber system "PM_TINY_LOG_MAX_SIZE_KB" 1 1048576 config.logMaxSizeKb
  let logArchiveCount ←
    overrideNumber system "PM_TINY_LOG_ARCHIVE_COUNT" 0 100 config.logArchiveCount
  let udsAbstractNamespace ← overrideAbstract system platform config.udsAbstractNamespace
  return { config with
    homeDir := overrideString system "PM_TINY_HOME" config.homeDir
    logFile := overrideString system "PM_TINY_LOG_FILE" config.logFile
    programConfigFile := overrideString system "PM_TINY_PROG_CFG_FILE" config.programConfigFile
    appLogDir := overrideString system "PM_TINY_APP_LOG_DIR" config.appLogDir
    appEnvironDir := overrideString system "PM_TINY_APP_ENVIRON_DIR" config.appEnvironDir
    logLevel := logLevel
    logMaxSizeKb := logMaxSizeKb
    logArchiveCount := logArchiveCount
    pipeName := overrideOn .windows platform system "PM_TINY_PIPE_NAME" config.pipeName
    pipeSddl := overrideOn .windows platform system "PM_TINY_PIPE_SDDL" config.pipeSddl
    socketFile := overrideOn .posix platform system "PM_TINY_SOCK_FILE" config.socketFile
    processTreeMode :=
      overrideOn .posix platform system "PM_TINY_PROCESS_TREE_MODE" config.processTreeMode
    cgroupRoot := overrideOn .posix platform system "PM_TINY_CGROUP_ROOT" config.cgroupRoot
    udsAbstractNamespace := udsAbstractNamespace
    sourceOf := environmentSourceOf system platform config.sourceOf }

def commandLineSources (options : DaemonCliOptions) (platform : DaemonPlatform) :
    List (Bool × String) :=
  [(options.homeExplicit, "home_dir"), (options.logLevelExplicit, "log_level"),
    (options.logMaxSizeExplicit, "log_max_size_kb"),
    (options.logArchiveCountExplicit, "log_archive_count"),
    (platform = .windows && options.pipeName ≠ "", "pipe_name"),
    (platform = .windows && options.pipeSddl ≠ "", "pipe_sddl")]

def applyCommandLine (options : DaemonCliOptions) (platform : DaemonPlatform)
    (config : DaemonConfig) : DaemonConfig :=
  { config with
    homeDir := if options.homeExplicit then options.homeDir else config.homeDir
    logLevel := if options.logLevelExplicit then options.logLevel else config.logLevel
    logMaxSizeKb :=
      if options.logMaxSizeExplicit then options.logMaxSizeKb else config.logMaxSizeKb
    logArchiveCount :=
      if options.logArchiveCountExplicit then options.logArchiveCount else config.logArchiveCount
    pipeName :=
      if platform = .windows ∧ options.pipeName ≠ "" then options.pipeName else config.pipeName
    pipeSddl :=
      if platform = .windows ∧ options.pipeSddl ≠ "" then options.pipeSddl else config.pipeSddl
    sourceOf := setSources id .commandLine (commandLineSources options platform) config.sourceOf }

/-- Home and the other directories before anything is derived from them. -/
def settleDirectories (system : DaemonSystem) (platform : DaemonPlatform) (config : DaemonConfig) :
    DaemonConfig :=
  { config with
    homeDir := trimTrailingSeparators
      (if config.homeDir = "" then defaultHome system platform else config.homeDir) platform
    appLogDir := trimTrailingSeparators config.appLogDir platform
    appEnvironDir := trimTrailingSeparators config.appEnvironDir platform }

/-- The fields that are derived from home, those that are still empty. -/
def derivedSources (platform : DaemonPlatform) (config : DaemonConfig) : List (Bool × String) :=
  [(config.logFile = "", "log_file"), (config.programConfigFile = "", "program_config_file"),
    (config.appLogDir = "", "app_log_dir"), (config.appEnvironDir = "", "app_environ_dir"),
    (true, "lock_file"), (platform = .posix && config.socketFile = "", "socket_file")]

def derivePaths (platform : DaemonPlatform) (config : DaemonConfig) : DaemonConfig :=
  let derive (target file : String) :=
    if target = "" then joinPath config.homeDir file platform else target
  { config with
    logFile := derive config.logFile "pm_tiny.log"
    programConfigFile := derive config.programConfigFile "prog.yaml"
    appLogDir := derive config.appLogDir "logs"
    appEnvironDir := derive config.appEnvironDir "environ"
    lockFile := joinPath config.homeDir "pm_tiny.pid" platform
    socketFile :=
      if platform = .posix ∧ config.socketFile = "" then
        if config.udsAbstractNamespace then "pm_tinyd"
        else joinPath config.homeDir "pm_tinyd.sock" platform
      else config.socketFile
    sourceOf := setSources id .derived (derivedSources platform config) config.sourceOf }

def windowsDefaultPipeName : String := "\\\\.\\pipe\\pm_tiny"

def windowsDefaultPipeSddl : String := "D:P(A;;GA;;;SY)(A;;GA;;;BA)(A;;GRGW;;;IU)"

/-- The configuration before any layer but the path of its file. -/
def initialConfig (system : DaemonSystem) (options : DaemonCliOptions) (platform : DaemonPlatform) :
    DaemonConfig where
  udsAbstractNamespace := system.abstractDefault && platform = .posix
  pipeName := windowsDefaultPipeName
  pipeSddl := windowsDefaultPipeSddl
  configPath :=
    if options.configExplicit then options.configPath
    else implicitConfigPath system options platform
  sourceOf := setSources id .commandLine [(options.configExplicit, "config_path")]
    fun _ => .defaultValue

/-- The file is read when it was asked for or when it is there. -/
def readConfigFile (system : DaemonSystem) (options : DaemonCliOptions) (platform : DaemonPlatform)
    (config : DaemonConfig) : Except String DaemonConfig :=
  if options.configExplicit = true ∨ system.fileExists config.configPath = true then
    loadFileConfig system config.configPath platform config
  else .ok config

def resolveDaemonConfig (system : DaemonSystem) (options : DaemonCliOptions)
    (platform : DaemonPlatform) : Except String DaemonConfig := do
  let config ← readConfigFile system options platform (initialConfig system options platform)
  rejectIf (¬ validLogLevel config.logLevel)
    "pm_tiny_log_level must be debug, info, warn, error, or fatal"
  rejectIf (config.logMaxSizeKb < 1 ∨ config.logMaxSizeKb > 1048576)
    "pm_tiny_log_max_size_kb must be between 1 and 1048576"
  rejectIf (config.logArchiveCount < 0 ∨ config.logArchiveCount > 100)
    "pm_tiny_log_archive_count must be between 0 and 100"
  let config ← applyEnvironment system platform config
  let config := applyCommandLine options platform config
  let config := derivePaths platform (settleDirectories system platform config)
  rejectIf (config.programConfigFile = "") "pm_tiny_prog_cfg_file must not be empty"
  rejectIf (platform = .windows ∧ config.pipeName = "") "pm_tiny_pipe_name must not be empty"
  rejectIf (platform = .windows ∧ config.pipeSddl = "") "pm_tiny_pipe_sddl must not be empty"
  return config

end PmTiny
