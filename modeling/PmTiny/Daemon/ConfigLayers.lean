import PmTiny.Daemon.ConfigStages

namespace PmTiny
open Persist
set_option autoImplicit true

/-- What each layer supplies for a field, and what the field is when none does. -/
structure Layers (α : Type) where
  commandLine : Option α := none
  environment : Option α := none
  configFile : Option α := none
  otherwise : α
  otherwiseSource : DaemonConfigSource := .defaultValue

/-- The value of the highest layer that supplies one, with the layer. -/
def Layers.effective (layers : Layers α) : α × DaemonConfigSource :=
  overlay layers.commandLine .commandLine (overlay layers.environment .environment
    (overlay layers.configFile .configFile (layers.otherwise, layers.otherwiseSource)))

def Layers.map (f : α → β) (layers : Layers α) : Layers β where
  commandLine := layers.commandLine.map f
  environment := layers.environment.map f
  configFile := layers.configFile.map f
  otherwise := f layers.otherwise
  otherwiseSource := layers.otherwiseSource

def fileString (root : Yaml) (key : String) : Option String :=
  match root.get? key with
  | some (.scalar text) => nonEmpty text
  | _ => none

def fileList (root : Yaml) (key : String) : Option (List Nat) :=
  ((root.get? key).bind asUnsignedList).filter fun items => items ≠ []

section Fields

variable (system : DaemonSystem) (options : DaemonCliOptions) (platform : DaemonPlatform)

def configPathLayers : Layers String where
  commandLine := if options.configExplicit then nonEmpty options.configPath else none
  otherwise := implicitConfigPath system options platform

/-- A path of the file, resolved against the directory of the file. -/
def filePath (key : String) : Option String :=
  (fileString (loadedRoot system options platform) key).map fun text =>
    resolveRelative (initialConfig system options platform).configPath text platform

def homeLayers : Layers String :=
  Layers.map (fun path => trimTrailingSeparators path platform) {
    commandLine := if options.homeExplicit then nonEmpty options.homeDir else none
    environment := nonEmpty (system.environment "PM_TINY_HOME")
    configFile := filePath system options platform "pm_tiny_home_dir"
    otherwise := defaultHome system platform }

def effectiveHome : String := (homeLayers system options platform).effective.1

/-- A path that is derived from home when no layer supplies it. -/
def pathLayers (name key file : String) : Layers String where
  environment := nonEmpty (system.environment name)
  configFile := filePath system options platform key
  otherwise := joinPath (effectiveHome system options platform) file platform
  otherwiseSource := .derived

def directoryLayers (name key file : String) : Layers String :=
  (pathLayers system options platform name key file).map fun path =>
    trimTrailingSeparators path platform

def lockLayers : Layers String where
  otherwise := joinPath (effectiveHome system options platform) "pm_tiny.pid" platform
  otherwiseSource := .derived

def logLevelLayers : Layers String where
  commandLine := if options.logLevelExplicit then nonEmpty options.logLevel else none
  environment := nonEmpty (system.environment "PM_TINY_LOG_LEVEL")
  configFile := fileString (loadedRoot system options platform) "pm_tiny_log_level"
  otherwise := "info"

def numberLayers (given : Bool) (value : Int) (name key : String)
    (minimum maximum default : Int) : Layers Int where
  commandLine := if given then some value else none
  environment :=
    (nonEmpty (system.environment name)).bind fun text => parseLong text minimum maximum
  configFile := ((loadedRoot system options platform).get? key).bind asInteger
  otherwise := default

def abstractLayers : Layers Bool where
  environment :=
    (platformEnvironment system .posix platform "PM_TINY_UDS_ABSTRACT_NAMESPACE").bind parseBool
  configFile :=
    ((loadedRoot system options platform).get? "pm_tiny_uds_abstract_namespace").bind Yaml.asBool
  otherwise := system.abstractDefault && platform = .posix

def effectiveAbstract : Bool := (abstractLayers system options platform).effective.1

/-- A relative path of the file is resolved unless the name is an abstract one. -/
def socketLayers : Layers String where
  environment := platformEnvironment system .posix platform "PM_TINY_SOCK_FILE"
  configFile :=
    if effectiveAbstract system options platform then
      fileString (loadedRoot system options platform) "pm_tiny_sock_file"
    else filePath system options platform "pm_tiny_sock_file"
  otherwise :=
    if platform = .windows then ""
    else if effectiveAbstract system options platform then "pm_tinyd"
    else joinPath (effectiveHome system options platform) "pm_tinyd.sock" platform
  otherwiseSource := if platform = .windows then .defaultValue else .derived

def posixLayers (name key default : String) : Layers String where
  environment := platformEnvironment system .posix platform name
  configFile := fileString (loadedRoot system options platform) key
  otherwise := default

def listLayers (key : String) : Layers (List Nat) where
  configFile := fileList (loadedRoot system options platform) key
  otherwise := []

def pipeLayers (value name key default : String) : Layers String where
  commandLine := if platform = .windows then nonEmpty value else none
  environment := platformEnvironment system .windows platform name
  configFile := fileString (loadedRoot system options platform) key
  otherwise := default

/-- Every field is what its highest layer supplies, and its source names that layer. -/
structure Layered (config : DaemonConfig) : Prop where
  configPath : (config.configPath, config.sourceOf "config_path") =
    (configPathLayers system options platform).effective
  homeDir : (config.homeDir, config.sourceOf "home_dir") =
    (homeLayers system options platform).effective
  lockFile : (config.lockFile, config.sourceOf "lock_file") =
    (lockLayers system options platform).effective
  logFile : (config.logFile, config.sourceOf "log_file") =
    (pathLayers system options platform "PM_TINY_LOG_FILE" "pm_tiny_log_file"
      "pm_tiny.log").effective
  programConfigFile : (config.programConfigFile, config.sourceOf "program_config_file") =
    (pathLayers system options platform "PM_TINY_PROG_CFG_FILE" "pm_tiny_prog_cfg_file"
      "prog.yaml").effective
  appLogDir : (config.appLogDir, config.sourceOf "app_log_dir") =
    (directoryLayers system options platform "PM_TINY_APP_LOG_DIR" "pm_tiny_app_log_dir"
      "logs").effective
  appEnvironDir : (config.appEnvironDir, config.sourceOf "app_environ_dir") =
    (directoryLayers system options platform "PM_TINY_APP_ENVIRON_DIR" "pm_tiny_app_environ_dir"
      "environ").effective
  logLevel : (config.logLevel, config.sourceOf "log_level") =
    (logLevelLayers system options platform).effective
  logMaxSizeKb : (config.logMaxSizeKb, config.sourceOf "log_max_size_kb") =
    (numberLayers system options platform options.logMaxSizeExplicit options.logMaxSizeKb
      "PM_TINY_LOG_MAX_SIZE_KB" "pm_tiny_log_max_size_kb" 1 1048576 4096).effective
  logArchiveCount : (config.logArchiveCount, config.sourceOf "log_archive_count") =
    (numberLayers system options platform options.logArchiveCountExplicit options.logArchiveCount
      "PM_TINY_LOG_ARCHIVE_COUNT" "pm_tiny_log_archive_count" 0 100 3).effective
  socketFile : (config.socketFile, config.sourceOf "socket_file") =
    (socketLayers system options platform).effective
  udsAbstractNamespace : (config.udsAbstractNamespace, config.sourceOf "uds_abstract_namespace") =
    (abstractLayers system options platform).effective
  processTreeMode : (config.processTreeMode, config.sourceOf "process_tree_mode") =
    (posixLayers system options platform "PM_TINY_PROCESS_TREE_MODE" "pm_tiny_process_tree_mode"
      "auto").effective
  cgroupRoot : (config.cgroupRoot, config.sourceOf "cgroup_root") =
    (posixLayers system options platform "PM_TINY_CGROUP_ROOT" "pm_tiny_cgroup_root" "").effective
  allowedUids : (config.allowedUids, config.sourceOf "allowed_uids") =
    (listLayers system options platform "pm_tiny_allowed_uids").effective
  allowedGids : (config.allowedGids, config.sourceOf "allowed_gids") =
    (listLayers system options platform "pm_tiny_allowed_gids").effective
  pipeName : (config.pipeName, config.sourceOf "pipe_name") =
    (pipeLayers system options platform options.pipeName "PM_TINY_PIPE_NAME" "pm_tiny_pipe_name"
      windowsDefaultPipeName).effective
  pipeSddl : (config.pipeSddl, config.sourceOf "pipe_sddl") =
    (pipeLayers system options platform options.pipeSddl "PM_TINY_PIPE_SDDL" "pm_tiny_pipe_sddl"
      windowsDefaultPipeSddl).effective

end Fields

def Blank (root : Yaml) (key : String) : Prop :=
  root.get? key = some .null ∨ root.get? key = some (.scalar "")

def fileAbstract (system : DaemonSystem) (options : DaemonCliOptions) (platform : DaemonPlatform) :
    Bool :=
  (((loadedRoot system options platform).get? "pm_tiny_uds_abstract_namespace").bind
    Yaml.asBool).getD (system.abstractDefault && platform = .posix)

/-- No higher layer leaves a field to an empty value of the file, and the environment does not
change the abstract flag of a relative socket path. -/
structure Clean (system : DaemonSystem) (options : DaemonCliOptions) (platform : DaemonPlatform) :
    Prop where
  homeDir : options.homeExplicit = false → system.environment "PM_TINY_HOME" = "" →
    ¬ Blank (loadedRoot system options platform) "pm_tiny_home_dir"
  logFile : system.environment "PM_TINY_LOG_FILE" = "" →
    (loadedRoot system options platform).get? "pm_tiny_log_file" ≠ some .null
  programConfigFile : system.environment "PM_TINY_PROG_CFG_FILE" = "" →
    (loadedRoot system options platform).get? "pm_tiny_prog_cfg_file" ≠ some .null
  appLogDir : system.environment "PM_TINY_APP_LOG_DIR" = "" →
    (loadedRoot system options platform).get? "pm_tiny_app_log_dir" ≠ some .null
  appEnvironDir : system.environment "PM_TINY_APP_ENVIRON_DIR" = "" →
    (loadedRoot system options platform).get? "pm_tiny_app_environ_dir" ≠ some .null
  socketFile : system.environment "PM_TINY_SOCK_FILE" = "" →
    (loadedRoot system options platform).get? "pm_tiny_sock_file" ≠ some .null
  socketPath : ∀ text flag, system.environment "PM_TINY_SOCK_FILE" = "" →
    (loadedRoot system options platform).get? "pm_tiny_sock_file" = some (.scalar text) →
      text ≠ "" → isAbsolutePath text platform = false →
        parseBool (system.environment "PM_TINY_UDS_ABSTRACT_NAMESPACE") = some flag →
          flag = fileAbstract system options platform
  processTreeMode : system.environment "PM_TINY_PROCESS_TREE_MODE" = "" →
    ¬ Blank (loadedRoot system options platform) "pm_tiny_process_tree_mode"
  cgroupRoot : system.environment "PM_TINY_CGROUP_ROOT" = "" →
    ¬ Blank (loadedRoot system options platform) "pm_tiny_cgroup_root"
  allowedUids :
    (loadedRoot system options platform).get? "pm_tiny_allowed_uids" ≠ some (.sequence [])
  allowedGids :
    (loadedRoot system options platform).get? "pm_tiny_allowed_gids" ≠ some (.sequence [])
  pipeName : options.pipeName = "" → system.environment "PM_TINY_PIPE_NAME" = "" →
    (loadedRoot system options platform).get? "pm_tiny_pipe_name" ≠ some .null
  pipeSddl : options.pipeSddl = "" → system.environment "PM_TINY_PIPE_SDDL" = "" →
    (loadedRoot system options platform).get? "pm_tiny_pipe_sddl" ≠ some .null

theorem nonEmpty_eq_none_iff : nonEmpty value = none ↔ value = "" := by
  rw [nonEmpty]
  split
  · rename_i hempty
    exact ⟨fun _ => hempty, fun _ => rfl⟩
  · rename_i hne
    constructor
    · intro hsome
      cases hsome
    · exact fun hempty => absurd hempty hne

theorem not_blank_scalar (h : root.get? key = some (.scalar text)) (htext : text ≠ "") :
    ¬ Blank root key := by
  rw [Blank, h]
  rintro (hnull | hempty)
  · cases hnull
  · cases hempty
    exact htext rfl

theorem not_blank_missing (h : root.get? key = none) : ¬ Blank root key := by
  rw [Blank, h]
  rintro (hnull | hempty)
  · cases hnull
  · cases hempty

inductive ReadText (root : Yaml) (key target : String) : String → Prop where
  | missing (h : root.get? key = none) (hfile : fileString root key = none) :
      ReadText root key target target
  | null (h : root.get? key = some .null) (hfile : fileString root key = none) :
      ReadText root key target "null"
  | empty (h : root.get? key = some (.scalar "")) (hfile : fileString root key = none) :
      ReadText root key target ""
  | text (h : root.get? key = some (.scalar value)) (hvalue : value ≠ "")
      (hfile : fileString root key = some value) : ReadText root key target value

theorem readText (h : Read root key Yaml.asString target value) :
    ReadText root key target value := by
  cases h with
  | missing hmissing => exact .missing hmissing (by rw [fileString, hmissing])
  | @present node _ hnode hvalue =>
    cases node with
    | null =>
      cases hvalue
      exact .null hnode (by rw [fileString, hnode])
    | scalar text =>
      cases hvalue
      by_cases hempty : value = ""
      · subst hempty
        refine .empty hnode ?_
        rw [fileString, hnode]
        rfl
      · refine .text hnode hempty ?_
        rw [fileString, hnode]
        exact nonEmpty_of_ne hempty
    | sequence items => cases hvalue
    | mapping entries => cases hvalue

def fileSource (root : Yaml) (key : String) : DaemonConfigSource :=
  if (root.get? key).isSome = true then .configFile else .defaultValue

theorem FromFile.source (h : FromFile system path pathSource platform root file) (key : String)
    (hentry : (key, field) ∈ fileSources) (get : DaemonConfig → α) :
    file.setting get field = (get file, fileSource root key) :=
  Prod.ext rfl (h.sources _ hentry)

theorem overlay_eq_overlay_iff (found : Option α) (source : DaemonConfigSource)
    (below other : α × DaemonConfigSource) :
    overlay found source below = overlay found source other ↔ (found = none → below = other) := by
  cases found with
  | none => exact ⟨fun h _ => h, fun h => h rfl⟩
  | some value =>
    constructor
    · intro _ hnone
      cases hnone
    · exact fun _ => rfl

theorem findLastOf_lt (h : findLastOf among text = some index) : index < text.length := by
  induction text generalizing index with
  | nil => cases h
  | cons c rest ih =>
    rw [findLastOf] at h
    split at h
    · rename_i last hlast
      cases h
      exact Nat.succ_lt_succ (ih hlast)
    · split at h
      · cases h
        exact Nat.succ_pos _
      · cases h

theorem ofList_take_ne_empty {text : List Char} (h : index < text.length) (hpos : 0 < count) :
    String.ofList (text.take count) ≠ "" := by
  intro hempty
  rw [String.ofList_eq_empty_iff, List.take_eq_nil_iff] at hempty
  rcases hempty with hcount | htext
  · omega
  · rw [htext] at h
    exact absurd h (Nat.not_lt_zero _)

theorem parentDirectory_ne_empty (path : String) (platform : DaemonPlatform) :
    parentDirectory path platform ≠ "" := by
  cases platform with
  | posix =>
    unfold parentDirectory
    dsimp only
    split
    · decide
    · rename_i hslash
      exact ofList_take_ne_empty (findLastOf_lt hslash) Nat.one_pos
    · rename_i hzero hslash
      exact ofList_take_ne_empty (findLastOf_lt hslash) (Nat.pos_of_ne_zero hzero)
  | windows =>
    unfold parentDirectory
    dsimp only
    split
    · decide
    · rename_i hslash
      exact ofList_take_ne_empty (findLastOf_lt hslash) Nat.one_pos
    · rename_i hzero hslash
      exact ofList_take_ne_empty (findLastOf_lt hslash) (Nat.pos_of_ne_zero hzero)

theorem joinPath_cases (hbase : base ≠ "") (hname : name ≠ "") (platform : DaemonPlatform) :
    ∃ front, front ≠ "" ∧ joinPath base name platform = front ++ name := by
  rw [joinPath, if_neg hbase, if_neg hname]
  split
  · exact ⟨base, hbase, rfl⟩
  · refine ⟨base ++ pathSeparator platform, ?_, rfl⟩
    rw [Ne, String.append_eq_empty_iff]
    exact fun hboth => hbase hboth.1

theorem resolveRelative_ne_empty (h : text ≠ "") (path : String) (platform : DaemonPlatform) :
    resolveRelative path text platform ≠ "" := by
  rw [resolveRelative]
  split
  · exact h
  · have hparent := parentDirectory_ne_empty path platform
    obtain ⟨front, -, hjoin⟩ := joinPath_cases hparent h platform
    rw [hjoin, Ne, String.append_eq_empty_iff]
    exact fun hboth => h hboth.2

theorem resolveRelative_eq_self_iff (h : text ≠ "") (path : String) (platform : DaemonPlatform) :
    resolveRelative path text platform = text ↔ isAbsolutePath text platform = true := by
  rw [resolveRelative]
  constructor
  · intro hsame
    by_contra hrelative
    rw [if_neg fun heither => heither.elim h hrelative] at hsame
    have hparent := parentDirectory_ne_empty path platform
    obtain ⟨front, hfront, hjoin⟩ := joinPath_cases hparent h platform
    rw [hjoin] at hsame
    have hlength := congrArg String.length hsame
    rw [String.length_append] at hlength
    apply hfront
    rw [← String.toList_eq_nil_iff, ← List.length_eq_zero_iff, String.length_toList]
    omega
  · exact fun habsolute => if_pos (.inr habsolute)

theorem trimReversed_ne_nil (platform : DaemonPlatform) (h : text ≠ []) :
    trimReversed platform text ≠ [] := by
  induction text with
  | nil => exact absurd rfl h
  | cons last before ih =>
    rw [trimReversed]
    split
    · rename_i hbefore
      exact ih hbefore.1
    · exact List.cons_ne_nil _ _

theorem trim_ne_empty (platform : DaemonPlatform) (h : text ≠ "") :
    trimTrailingSeparators text platform ≠ "" := by
  rw [trimTrailingSeparators, Ne, String.ofList_eq_empty_iff, List.reverse_eq_nil_iff]
  apply trimReversed_ne_nil
  rw [Ne, List.reverse_eq_nil_iff, String.toList_eq_nil_iff]
  exact h

theorem trim_empty (platform : DaemonPlatform) : trimTrailingSeparators "" platform = "" := rfl

theorem trim_eq_self (platform : DaemonPlatform) (h : text.toList.getLast? = some c)
    (hc : isSeparator c = false) : trimTrailingSeparators text platform = text := by
  have hhead : text.toList.reverse.head? = some c := by rw [List.head?_reverse, h]
  rw [trimTrailingSeparators]
  generalize hreversed : text.toList.reverse = reversed at hhead
  cases reversed with
  | nil => cases hhead
  | cons last before =>
    cases hhead
    rw [trimReversed, if_neg fun hall => absurd hall.2.1 (by rw [hc]; decide), ← hreversed,
      List.reverse_reverse, String.ofList_toList]

theorem trim_joinPath (base : String) (platform : DaemonPlatform)
    (h : name.toList.getLast? = some c) (hc : isSeparator c = false) :
    trimTrailingSeparators (joinPath base name platform) platform =
      joinPath base name platform := by
  have hname : name ≠ "" := by
    rintro rfl
    cases h
  apply trim_eq_self platform _ hc
  by_cases hbase : base = ""
  · rw [joinPath, if_pos hbase, h]
  · obtain ⟨front, -, hjoin⟩ := joinPath_cases hbase hname platform
    rw [hjoin, String.toList_append, List.getLast?_append, h]
    rfl

theorem Layers.map_id (layers : Layers α) : layers.map id = layers := by
  rw [Layers.map, Option.map_id, id, id, id, id]

section Fields

variable {system : DaemonSystem} {options : DaemonCliOptions} {platform : DaemonPlatform}

theorem fileSource_missing (h : root.get? key = none) : fileSource root key = .defaultValue := by
  rw [fileSource, h]
  rfl

theorem fileSource_present (h : root.get? key = some node) :
    fileSource root key = .configFile := by
  rw [fileSource, h]
  rfl

theorem text_iff (h : ReadText root key target text) :
    (text, fileSource root key) = overlay (fileString root key) .configFile
    (target, .defaultValue) ↔
      ¬ Blank root key := by
  cases h with
  | missing hmissing hfile =>
    rw [fileSource_missing hmissing, hfile]
    exact ⟨fun _ => not_blank_missing hmissing, fun _ => rfl⟩
  | null hnode hfile =>
    rw [fileSource_present hnode, hfile]
    constructor
    · intro heq
      cases (Prod.mk.inj heq).2
    · exact fun hblank => absurd (.inl hnode) hblank
  | empty hnode hfile =>
    rw [fileSource_present hnode, hfile]
    constructor
    · intro heq
      cases (Prod.mk.inj heq).2
    · exact fun hblank => absurd (.inr hnode) hblank
  | text hnode hvalue hfile =>
    rw [fileSource_present hnode, hfile]
    exact ⟨fun _ => not_blank_scalar hnode hvalue, fun _ => rfl⟩

theorem taken_eq (h : Taken (root.get? key) convert target value) :
    (value, fileSource root key) =
      overlay ((root.get? key).bind convert) .configFile (target, .defaultValue) := by
  cases h with
  | missing hmissing =>
    rw [fileSource_missing hmissing, hmissing]
    rfl
  | present hnode hvalue =>
    rw [fileSource_present hnode, hnode, Option.bind_some, hvalue]
    rfl

theorem asUnsignedList_eq_nil (h : asUnsignedList node = some []) : node = .sequence [] := by
  cases node with
  | sequence items =>
    cases items with
    | nil => rfl
    | cons item items =>
      rw [asUnsignedList, List.mapM_cons] at h
      obtain ⟨_, -, h⟩ := Option.bind_eq_some_iff.1 h
      obtain ⟨_, -, h⟩ := Option.bind_eq_some_iff.1 h
      cases h
  | null => cases h
  | scalar text => cases h
  | mapping entries => cases h

theorem list_iff (h : Read root key asUnsignedList [] value) :
    (value, fileSource root key) = overlay (fileList root key) .configFile ([], .defaultValue) ↔
      root.get? key ≠ some (.sequence []) := by
  cases h with
  | missing hmissing =>
    rw [fileSource_missing hmissing, fileList, hmissing]
    constructor
    · intro _ hnode
      cases hnode
    · exact fun _ => rfl
  | @present node _ hnode hvalue =>
    rw [fileSource_present hnode, fileList, hnode, Option.bind_some, hvalue]
    by_cases hempty : value = []
    · subst hempty
      rw [asUnsignedList_eq_nil hvalue]
      constructor
      · intro heq
        cases (Prod.mk.inj heq).2
      · exact fun hne => absurd rfl hne
    · have hkept : (some value).filter (fun items => items ≠ []) = some value :=
        Option.filter_some_pos (decide_eq_true hempty)
      rw [hkept]
      constructor
      · rintro _ hnil
        cases hnil
        cases hvalue
        exact hempty rfl
      · exact fun _ => rfl

/-- The layers of a field that is derived from home, each path taken to `post`. -/
theorem derived_iff (post : String → String) (hpost : ∀ text, text ≠ "" → post text ≠ "")
    (hempty : post "" = "") (hderived : post derived = derived) (h : ReadText root key "" text)
    (path value : String) :
    derivedSetting post derived (overlay (nonEmpty value) .environment
        (resolveRelative path text platform, fileSource root key)) =
      (Layers.map post {
        environment := nonEmpty value
        configFile := (fileString root key).map fun text => resolveRelative path text platform
        otherwise := derived
        otherwiseSource := .derived }).effective ↔
      (value = "" → root.get? key ≠ some .null) := by
  by_cases hvalue : value = ""
  · subst hvalue
    cases h with
    | missing hmissing hfile =>
      rw [fileSource_missing hmissing, hfile, hmissing, resolveRelative_empty]
      constructor
      · intro _ _ hnull
        cases hnull
      · intro _
        exact (if_pos hempty).trans (Prod.ext hderived.symm rfl)
    | null hnode hfile =>
      rw [fileSource_present hnode, hfile]
      have htext : post (resolveRelative path "null" platform) ≠ "" :=
        hpost _ (resolveRelative_ne_empty (by decide) path platform)
      constructor
      · intro heq
        cases (Prod.mk.inj ((if_neg htext).symm.trans heq)).2
      · exact fun hnot => absurd hnode (hnot rfl)
    | empty hnode hfile =>
      rw [fileSource_present hnode, hfile, hnode, resolveRelative_empty]
      constructor
      · intro _ _ hnull
        cases hnull
      · intro _
        exact (if_pos hempty).trans (Prod.ext hderived.symm rfl)
    | text hnode htext hfile =>
      rw [fileSource_present hnode, hfile, hnode]
      constructor
      · intro _ _ hnull
        cases hnull
      · intro _
        exact if_neg (hpost _ (resolveRelative_ne_empty htext path platform))
  · rw [nonEmpty_of_ne hvalue]
    constructor
    · exact fun _ hempty => absurd hempty hvalue
    · exact fun _ => if_neg (hpost _ hvalue)

theorem path_iff (hhome : home = effectiveHome system options platform)
    (h : Read (loadedRoot system options platform) key Yaml.asString "" text)
    (name file : String) :
    derivedSetting id (joinPath home file platform)
        (overlay (nonEmpty (system.environment name)) .environment
          (resolveRelative (initialConfig system options platform).configPath text platform,
            fileSource (loadedRoot system options platform) key)) =
      (pathLayers system options platform name key file).effective ↔
      (system.environment name = "" →
        (loadedRoot system options platform).get? key ≠ some .null) := by
  subst hhome
  rw [← Layers.map_id (pathLayers system options platform name key file)]
  exact derived_iff id (fun _ htext => htext) rfl rfl (readText h) _ _

theorem directory_iff (hhome : home = effectiveHome system options platform)
    (h : Read (loadedRoot system options platform) key Yaml.asString "" text)
    (hfile : file.toList.getLast? = some c) (hc : isSeparator c = false) (name : String) :
    derivedSetting (fun path => trimTrailingSeparators path platform)
        (joinPath home file platform)
        (overlay (nonEmpty (system.environment name)) .environment
          (resolveRelative (initialConfig system options platform).configPath text platform,
            fileSource (loadedRoot system options platform) key)) =
      (directoryLayers system options platform name key file).effective ↔
      (system.environment name = "" →
        (loadedRoot system options platform).get? key ≠ some .null) := by
  subst hhome
  exact derived_iff _ (fun _ htext => trim_ne_empty platform htext) (trim_empty platform)
    (trim_joinPath _ platform hfile hc) (readText h) _ _

theorem home_iff {pair : String × DaemonConfigSource} (hchecked : options.Checked)
    (h : Read (loadedRoot system options platform) "pm_tiny_home_dir" Yaml.asString "" text)
    (hpair : pair = overlay
      (if options.homeExplicit then some options.homeDir else none) .commandLine
      (overlay (nonEmpty (system.environment "PM_TINY_HOME")) .environment
        (resolveRelative (initialConfig system options platform).configPath text platform,
          fileSource (loadedRoot system options platform) "pm_tiny_home_dir"))) :
    (trimTrailingSeparators (if pair.1 = "" then defaultHome system platform else pair.1) platform,
        pair.2) = (homeLayers system options platform).effective ↔
      (options.homeExplicit = false → system.environment "PM_TINY_HOME" = "" →
        ¬ Blank (loadedRoot system options platform) "pm_tiny_home_dir") := by
  subst hpair
  rw [homeLayers, filePath]
  cases hexplicit : options.homeExplicit with
  | true =>
    have hhome := hchecked.home hexplicit
    rw [if_pos rfl, if_pos rfl, nonEmpty_of_ne hhome]
    constructor
    · intro _ hfalse
      cases hfalse
    · intro _
      exact Prod.ext (congrArg (trimTrailingSeparators · platform) (if_neg hhome)) rfl
  | false =>
    rw [if_neg Bool.false_ne_true, if_neg Bool.false_ne_true]
    by_cases hvalue : system.environment "PM_TINY_HOME" = ""
    · rw [hvalue]
      cases readText h with
      | missing hmissing hfile =>
        rw [fileSource_missing hmissing, hfile, resolveRelative_empty]
        exact ⟨fun _ _ _ => not_blank_missing hmissing, fun _ => rfl⟩
      | null hnode hfile =>
        rw [fileSource_present hnode, hfile]
        constructor
        · intro heq
          cases (Prod.mk.inj heq).2
        · exact fun hnot => absurd (.inl hnode) (hnot rfl rfl)
      | empty hnode hfile =>
        rw [fileSource_present hnode, hfile]
        constructor
        · intro heq
          cases (Prod.mk.inj heq).2
        · exact fun hnot => absurd (.inr hnode) (hnot rfl rfl)
      | text hnode htext hfile =>
        rw [fileSource_present hnode, hfile]
        have hpath := resolveRelative_ne_empty htext
          (initialConfig system options platform).configPath platform
        constructor
        · exact fun _ _ _ => not_blank_scalar hnode htext
        · intro _
          exact Prod.ext (congrArg (trimTrailingSeparators · platform) (if_neg hpath)) rfl
    · rw [nonEmpty_of_ne hvalue]
      constructor
      · exact fun _ _ hempty => absurd hempty hvalue
      · intro _
        exact Prod.ext (congrArg (trimTrailingSeparators · platform) (if_neg hvalue)) rfl

theorem parseBool_empty : parseBool "" = none := by decide

theorem effectiveAbstract_posix : effectiveAbstract system options .posix =
    (parseBool (system.environment "PM_TINY_UDS_ABSTRACT_NAMESPACE")).getD
      (fileAbstract system options .posix) := by
  have hbind : (nonEmpty (system.environment "PM_TINY_UDS_ABSTRACT_NAMESPACE")).bind parseBool =
      parseBool (system.environment "PM_TINY_UDS_ABSTRACT_NAMESPACE") := by
    by_cases hvalue : system.environment "PM_TINY_UDS_ABSTRACT_NAMESPACE" = ""
    · rw [hvalue, parseBool_empty]
      rfl
    · rw [nonEmpty_of_ne hvalue]
      rfl
  rw [effectiveAbstract, Layers.effective, abstractLayers, platformEnvironment, if_pos rfl, hbind,
    fileAbstract]
  cases parseBool (system.environment "PM_TINY_UDS_ABSTRACT_NAMESPACE") with
  | some flag => rfl
  | none =>
    cases ((loadedRoot system options .posix).get? "pm_tiny_uds_abstract_namespace").bind
      Yaml.asBool with
    | some flag => rfl
    | none => rfl

theorem socketPath_iff (platform : DaemonPlatform) (htext : text ≠ "") (path : String)
    (fileFlag : Bool) (found : Option Bool) :
    (if fileFlag then text else resolveRelative path text platform) =
        (if found.getD fileFlag then text else resolveRelative path text platform) ↔
      (isAbsolutePath text platform = false → ∀ flag, found = some flag → flag = fileFlag) := by
  have hself := resolveRelative_eq_self_iff htext path platform
  cases found with
  | none =>
    constructor
    · intro _ _ _ hflag
      cases hflag
    · exact fun _ => rfl
  | some flag =>
    rw [Option.getD_some]
    by_cases hsame : flag = fileFlag
    · subst hsame
      constructor
      · rintro _ _ _ ⟨⟩
        rfl
      · exact fun _ => rfl
    · have hdiffer : (isAbsolutePath text platform = false → ∀ other, some flag = some other →
          other = fileFlag) ↔ isAbsolutePath text platform = true := by
        constructor
        · intro h
          by_contra hrelative
          exact hsame (h (Bool.eq_false_of_not_eq_true hrelative) flag rfl)
        · intro habsolute hrelative
          rw [habsolute] at hrelative
          cases hrelative
      rw [hdiffer, ← hself]
      cases fileFlag with
      | true =>
        rw [Bool.eq_false_of_not_eq_true hsame, if_pos rfl, if_neg Bool.false_ne_true]
        exact eq_comm
      | false => rw [Bool.eq_true_of_not_eq_false hsame, if_pos rfl, if_neg Bool.false_ne_true]

theorem socketText_ne_empty (htext : text ≠ "") (path : String) (flag : Bool) :
    (if flag then text else resolveRelative path text .posix) ≠ "" := by
  split
  · exact htext
  · exact resolveRelative_ne_empty htext path _

theorem socket_iff_posix {pair : String × DaemonConfigSource}
    (hhome : home = effectiveHome system options .posix)
    (hflag : flag = effectiveAbstract system options .posix)
    (h : Read (loadedRoot system options .posix) "pm_tiny_sock_file" Yaml.asString "" text)
    (hpair : pair = overlay
      (platformEnvironment system .posix .posix "PM_TINY_SOCK_FILE") .environment
      (if fileAbstract system options .posix then text
        else resolveRelative (initialConfig system options .posix).configPath text .posix,
        fileSource (loadedRoot system options .posix) "pm_tiny_sock_file")) :
    (if DaemonPlatform.posix = .posix ∧ pair.1 = "" then
        (if flag then "pm_tinyd" else joinPath home "pm_tinyd.sock" .posix, .derived)
      else pair) = (socketLayers system options .posix).effective ↔
      (system.environment "PM_TINY_SOCK_FILE" = "" →
        (loadedRoot system options .posix).get? "pm_tiny_sock_file" ≠ some .null) ∧
      ∀ text flag, system.environment "PM_TINY_SOCK_FILE" = "" →
        (loadedRoot system options .posix).get? "pm_tiny_sock_file" = some (.scalar text) →
          text ≠ "" → isAbsolutePath text .posix = false →
            parseBool (system.environment "PM_TINY_UDS_ABSTRACT_NAMESPACE") = some flag →
              flag = fileAbstract system options .posix := by
  subst hhome hflag hpair
  rw [platformEnvironment, if_pos rfl, socketLayers, platformEnvironment, if_pos rfl, filePath]
  by_cases hvalue : system.environment "PM_TINY_SOCK_FILE" = ""
  · rw [hvalue]
    cases readText h with
    | missing hmissing hfile =>
      rw [fileSource_missing hmissing, hfile, hmissing, resolveRelative_empty, Option.map_none,
        ite_self, ite_self]
      constructor
      · intro _
        constructor
        · intro _ hnull
          cases hnull
        · intro _ _ _ hscalar
          cases hscalar
      · exact fun _ => rfl
    | null hnode hfile =>
      rw [fileSource_present hnode, hfile, Option.map_none, ite_self]
      have hnull := socketText_ne_empty (by decide : "null" ≠ "")
        (initialConfig system options .posix).configPath (fileAbstract system options .posix)
      constructor
      · intro heq
        cases (Prod.mk.inj ((if_neg fun hboth => hnull hboth.2).symm.trans heq)).2
      · exact fun hnot => absurd hnode (hnot.1 rfl)
    | empty hnode hfile =>
      rw [fileSource_present hnode, hfile, hnode, resolveRelative_empty, Option.map_none,
        ite_self, ite_self]
      constructor
      · intro _
        constructor
        · intro _ hnull
          cases hnull
        · rintro _ _ _ ⟨⟩ hempty
          exact absurd rfl hempty
      · exact fun _ => rfl
    | text hnode htext hfile =>
      rw [fileSource_present hnode, hfile, hnode, Option.map_some]
      have hpath := socketText_ne_empty htext (initialConfig system options .posix).configPath
        (fileAbstract system options .posix)
      have hiff := socketPath_iff DaemonPlatform.posix htext
        (initialConfig system options .posix).configPath (fileAbstract system options .posix)
        (parseBool (system.environment "PM_TINY_UDS_ABSTRACT_NAMESPACE"))
      rw [← effectiveAbstract_posix] at hiff
      rw [← apply_ite some]
      constructor
      · intro heq
        have hsame := hiff.1 (Prod.mk.inj ((if_neg fun hboth => hpath hboth.2).symm.trans heq)).1
        constructor
        · intro _ hnull
          cases hnull
        · rintro _ flag _ ⟨⟩ _ hrelative hflag
          exact hsame hrelative flag hflag
      · rintro ⟨-, hsame⟩
        have hvalue := hiff.2 fun hrelative flag hflag =>
          hsame _ _ rfl rfl htext hrelative hflag
        exact (if_neg fun hboth => hpath hboth.2).trans (Prod.ext hvalue rfl)
  · rw [nonEmpty_of_ne hvalue]
    constructor
    · exact fun _ => ⟨fun hempty => absurd hempty hvalue, fun _ _ hempty => absurd hempty hvalue⟩
    · exact fun _ => if_neg fun hboth => hvalue hboth.2

theorem socket_windows
    (h : Read (loadedRoot system options .windows) "pm_tiny_sock_file" Yaml.asString "" text)
    (hmissing : (loadedRoot system options .windows).get? "pm_tiny_sock_file" = none)
    (flag : Bool) (path : String) :
    (if flag then text else resolveRelative path text .windows,
        fileSource (loadedRoot system options .windows) "pm_tiny_sock_file") =
      (socketLayers system options .windows).effective := by
  rw [h.eq_of_missing hmissing, fileSource_missing hmissing, resolveRelative_empty, ite_self,
    socketLayers, filePath, fileString, hmissing, Option.map_none, ite_self]
  rfl

theorem not_blank_level (h : Read root key Yaml.asString target text)
    (hlevel : validLogLevel text = true) : ¬ Blank root key := by
  cases readText h with
  | missing hmissing hfile => exact not_blank_missing hmissing
  | null hnode hfile => exact absurd hlevel (by decide)
  | empty hnode hfile => exact absurd hlevel (by decide)
  | text hnode htext hfile => exact not_blank_scalar hnode htext

theorem level_layered (hchecked : options.Checked)
    (h : Read (loadedRoot system options platform) "pm_tiny_log_level" Yaml.asString "info" text)
    (hlevel : validLogLevel text = true) :
    overlay (if options.logLevelExplicit then some options.logLevel else none) .commandLine
        (overlay (nonEmpty (system.environment "PM_TINY_LOG_LEVEL")) .environment
          (text, fileSource (loadedRoot system options platform) "pm_tiny_log_level")) =
      (logLevelLayers system options platform).effective := by
  have hgiven : (if options.logLevelExplicit then some options.logLevel else none) =
      if options.logLevelExplicit then nonEmpty options.logLevel else none := by
    cases hexplicit : options.logLevelExplicit with
    | true =>
      have hne : options.logLevel ≠ "" := by
        intro hempty
        have hvalid := hchecked.logLevel hexplicit
        rw [hempty] at hvalid
        exact absurd hvalid (by decide)
      rw [nonEmpty_of_ne hne]
    | false => rfl
  rw [hgiven, (text_iff (readText h)).2 (not_blank_level h hlevel)]
  rfl

theorem posix_iff {default : String}
    (h : Read (loadedRoot system options platform) key Yaml.asString default text)
    (hmissing : platform = .windows → (loadedRoot system options platform).get? key = none)
    (name : String) :
    overlay (platformEnvironment system .posix platform name) .environment
        (text, fileSource (loadedRoot system options platform) key) =
      (posixLayers system options platform name key default).effective ↔
      (system.environment name = "" → ¬ Blank (loadedRoot system options platform) key) := by
  rw [posixLayers, Layers.effective]
  refine (overlay_eq_overlay_iff _ _ _ _).trans ?_
  rw [text_iff (readText h)]
  cases platform with
  | posix => rw [platformEnvironment, if_pos rfl, nonEmpty_eq_none_iff]
  | windows =>
    have hblank := not_blank_missing (hmissing rfl)
    exact ⟨fun _ _ => hblank, fun _ _ => hblank⟩

/-- A pipe that was accepted has a name, so that only a key with no value goes wrong. -/
theorem pipe_iff {default : String}
    (h : Read (loadedRoot system options platform) key Yaml.asString default text)
    (hmissing : platform = .posix → (loadedRoot system options platform).get? key = none)
    (hsetting : setting = overlay
      (if platform = .windows then nonEmpty value else none) .commandLine
      (overlay (platformEnvironment system .windows platform name) .environment
        (text, fileSource (loadedRoot system options platform) key)))
    (haccepted : platform = .windows → setting.1 ≠ "") :
    setting = (pipeLayers system options platform value name key default).effective ↔
      (value = "" → system.environment name = "" →
        (loadedRoot system options platform).get? key ≠ some .null) := by
  subst hsetting
  rw [pipeLayers, Layers.effective]
  refine (overlay_eq_overlay_iff _ _ _ _).trans ?_
  refine (imp_congr_right fun _ => overlay_eq_overlay_iff _ _ _ _).trans ?_
  rw [text_iff (readText h)]
  cases platform with
  | posix =>
    rw [hmissing rfl]
    have hblank := not_blank_missing (hmissing rfl)
    constructor
    · intro _ _ _ hnull
      cases hnull
    · exact fun _ _ _ => hblank
  | windows =>
    rw [if_pos rfl, platformEnvironment, if_pos rfl, nonEmpty_eq_none_iff, nonEmpty_eq_none_iff]
    constructor
    · exact fun hclean hvalue henv hnull => hclean hvalue henv (.inl hnull)
    · rintro hclean hvalue henv (hnull | hempty)
      · exact hclean hvalue henv hnull
      · apply haccepted rfl
        rw [if_pos rfl, platformEnvironment, if_pos rfl, nonEmpty_eq_none_iff.2 hvalue,
          nonEmpty_eq_none_iff.2 henv]
        cases h with
        | missing hnone =>
          rw [hempty] at hnone
          cases hnone
        | present hnode hread =>
          rw [hempty] at hnode
          cases hnode
          cases hread
          rfl

end Fields

section Accepted

variable {system : DaemonSystem} {options : DaemonCliOptions} {platform : DaemonPlatform}
  {file config : DaemonConfig} (h : Accepted system options platform file config)

include h

theorem Accepted.configPath : config.setting DaemonConfig.configPath "config_path" =
    (configPathLayers system options platform).effective := by
  have hpath : file.setting DaemonConfig.configPath "config_path" =
      ((initialConfig system options platform).configPath, configPathSource options) :=
    Prod.ext h.fromFile.configPath h.fromFile.configPathSource
  rw [h.composed.configPath, hpath, configPathLayers, initialConfig, configPathSource]
  cases hexplicit : options.configExplicit with
  | true =>
    rw [if_pos rfl, if_pos rfl, if_pos rfl, nonEmpty_of_ne (h.explicit hexplicit)]
    rfl
  | false => rfl

theorem Accepted.homeDir_iff (hchecked : options.Checked) :
    config.setting DaemonConfig.homeDir "home_dir" =
      (homeLayers system options platform).effective ↔
      (options.homeExplicit = false → system.environment "PM_TINY_HOME" = "" →
        ¬ Blank (loadedRoot system options platform) "pm_tiny_home_dir") := by
  obtain ⟨text, hread, hvalue⟩ := h.fromFile.homeDir
  obtain ⟨pair, hpair, hsetting⟩ := h.composed.homeDir
  rw [h.fromFile.source "pm_tiny_home_dir" (by decide), hvalue] at hpair
  rw [hsetting]
  exact home_iff hchecked hread hpair

theorem Accepted.logFile_iff (hhome : config.homeDir = effectiveHome system options platform) :
    config.setting DaemonConfig.logFile "log_file" =
      (pathLayers system options platform "PM_TINY_LOG_FILE" "pm_tiny_log_file"
        "pm_tiny.log").effective ↔
      (system.environment "PM_TINY_LOG_FILE" = "" →
        (loadedRoot system options platform).get? "pm_tiny_log_file" ≠ some .null) := by
  obtain ⟨text, hread, hvalue⟩ := h.fromFile.logFile
  rw [h.composed.logFile, h.fromFile.source "pm_tiny_log_file" (by decide), hvalue]
  exact path_iff hhome hread _ _

theorem Accepted.programConfigFile_iff
    (hhome : config.homeDir = effectiveHome system options platform) :
    config.setting DaemonConfig.programConfigFile "program_config_file" =
      (pathLayers system options platform "PM_TINY_PROG_CFG_FILE" "pm_tiny_prog_cfg_file"
        "prog.yaml").effective ↔
      (system.environment "PM_TINY_PROG_CFG_FILE" = "" →
        (loadedRoot system options platform).get? "pm_tiny_prog_cfg_file" ≠ some .null) := by
  obtain ⟨text, hread, hvalue⟩ := h.fromFile.programConfigFile
  rw [h.composed.programConfigFile, h.fromFile.source "pm_tiny_prog_cfg_file" (by decide), hvalue]
  exact path_iff hhome hread _ _

theorem Accepted.appLogDir_iff (hhome : config.homeDir = effectiveHome system options platform) :
    config.setting DaemonConfig.appLogDir "app_log_dir" =
      (directoryLayers system options platform "PM_TINY_APP_LOG_DIR" "pm_tiny_app_log_dir"
        "logs").effective ↔
      (system.environment "PM_TINY_APP_LOG_DIR" = "" →
        (loadedRoot system options platform).get? "pm_tiny_app_log_dir" ≠ some .null) := by
  obtain ⟨text, hread, hvalue⟩ := h.fromFile.appLogDir
  have hlast : "logs".toList.getLast? = some 's' := by decide
  rw [h.composed.appLogDir, h.fromFile.source "pm_tiny_app_log_dir" (by decide), hvalue]
  exact directory_iff hhome hread hlast (by decide) _

theorem Accepted.appEnvironDir_iff
    (hhome : config.homeDir = effectiveHome system options platform) :
    config.setting DaemonConfig.appEnvironDir "app_environ_dir" =
      (directoryLayers system options platform "PM_TINY_APP_ENVIRON_DIR" "pm_tiny_app_environ_dir"
        "environ").effective ↔
      (system.environment "PM_TINY_APP_ENVIRON_DIR" = "" →
        (loadedRoot system options platform).get? "pm_tiny_app_environ_dir" ≠ some .null) := by
  obtain ⟨text, hread, hvalue⟩ := h.fromFile.appEnvironDir
  have hlast : "environ".toList.getLast? = some 'n' := by decide
  rw [h.composed.appEnvironDir, h.fromFile.source "pm_tiny_app_environ_dir" (by decide), hvalue]
  exact directory_iff hhome hread hlast (by decide) _

theorem Accepted.logLevel_layered (hchecked : options.Checked) :
    config.setting DaemonConfig.logLevel "log_level" =
      (logLevelLayers system options platform).effective := by
  rw [h.composed.logLevel, h.fromFile.source "pm_tiny_log_level" (by decide)]
  exact level_layered hchecked h.fromFile.logLevel h.logLevel

theorem Accepted.logMaxSizeKb_layered :
    config.setting DaemonConfig.logMaxSizeKb "log_max_size_kb" =
      (numberLayers system options platform options.logMaxSizeExplicit options.logMaxSizeKb
        "PM_TINY_LOG_MAX_SIZE_KB" "pm_tiny_log_max_size_kb" 1 1048576 4096).effective := by
  rw [h.composed.logMaxSizeKb, h.fromFile.source "pm_tiny_log_max_size_kb" (by decide),
    taken_eq h.fromFile.logMaxSizeKb]
  rfl

theorem Accepted.logArchiveCount_layered :
    config.setting DaemonConfig.logArchiveCount "log_archive_count" =
      (numberLayers system options platform options.logArchiveCountExplicit options.logArchiveCount
        "PM_TINY_LOG_ARCHIVE_COUNT" "pm_tiny_log_archive_count" 0 100 3).effective := by
  rw [h.composed.logArchiveCount, h.fromFile.source "pm_tiny_log_archive_count" (by decide),
    taken_eq h.fromFile.logArchiveCount]
  rfl

theorem Accepted.udsAbstractNamespace_layered :
    config.setting DaemonConfig.udsAbstractNamespace "uds_abstract_namespace" =
      (abstractLayers system options platform).effective := by
  rw [h.composed.udsAbstractNamespace,
    h.fromFile.source "pm_tiny_uds_abstract_namespace" (by decide),
    taken_eq h.fromFile.udsAbstractNamespace]
  rfl

theorem Accepted.fileAbstract_eq :
    file.udsAbstractNamespace = fileAbstract system options platform := by
  have hread := congrArg Prod.fst (taken_eq h.fromFile.udsAbstractNamespace)
  rw [fileAbstract]
  cases hfound : ((loadedRoot system options platform).get? "pm_tiny_uds_abstract_namespace").bind
    Yaml.asBool with
  | none =>
    rw [hfound] at hread
    exact hread
  | some flag =>
    rw [hfound] at hread
    exact hread

theorem Accepted.socketFile_iff (hhome : config.homeDir = effectiveHome system options platform) :
    config.setting DaemonConfig.socketFile "socket_file" =
      (socketLayers system options platform).effective ↔
      (system.environment "PM_TINY_SOCK_FILE" = "" →
        (loadedRoot system options platform).get? "pm_tiny_sock_file" ≠ some .null) ∧
      ∀ text flag, system.environment "PM_TINY_SOCK_FILE" = "" →
        (loadedRoot system options platform).get? "pm_tiny_sock_file" = some (.scalar text) →
          text ≠ "" → isAbsolutePath text platform = false →
            parseBool (system.environment "PM_TINY_UDS_ABSTRACT_NAMESPACE") = some flag →
              flag = fileAbstract system options platform := by
  obtain ⟨text, hread, hvalue⟩ := h.fromFile.socketFile
  obtain ⟨pair, hpair, hsetting⟩ := h.composed.socketFile
  rw [h.fromFile.source "pm_tiny_sock_file" (by decide), hvalue, h.fileAbstract_eq] at hpair
  rw [hsetting]
  cases platform with
  | posix =>
    exact socket_iff_posix hhome (congrArg Prod.fst h.udsAbstractNamespace_layered) hread hpair
  | windows =>
    have hmissing := h.fromFile.posixOnly rfl "pm_tiny_sock_file" (by decide)
    rw [hmissing, hpair]
    constructor
    · intro _
      constructor
      · intro _ hnull
        cases hnull
      · intro _ _ _ hscalar
        cases hscalar
    · exact fun _ => socket_windows hread hmissing _ _

theorem Accepted.processTreeMode_iff :
    config.setting DaemonConfig.processTreeMode "process_tree_mode" =
      (posixLayers system options platform "PM_TINY_PROCESS_TREE_MODE" "pm_tiny_process_tree_mode"
        "auto").effective ↔
      (system.environment "PM_TINY_PROCESS_TREE_MODE" = "" →
        ¬ Blank (loadedRoot system options platform) "pm_tiny_process_tree_mode") := by
  rw [h.composed.processTreeMode, h.fromFile.source "pm_tiny_process_tree_mode" (by decide)]
  exact posix_iff h.fromFile.processTreeMode
    (fun hplatform => h.fromFile.posixOnly hplatform "pm_tiny_process_tree_mode" (by decide)) _

theorem Accepted.cgroupRoot_iff :
    config.setting DaemonConfig.cgroupRoot "cgroup_root" =
      (posixLayers system options platform "PM_TINY_CGROUP_ROOT" "pm_tiny_cgroup_root"
        "").effective ↔
      (system.environment "PM_TINY_CGROUP_ROOT" = "" →
        ¬ Blank (loadedRoot system options platform) "pm_tiny_cgroup_root") := by
  rw [h.composed.cgroupRoot, h.fromFile.source "pm_tiny_cgroup_root" (by decide)]
  exact posix_iff h.fromFile.cgroupRoot
    (fun hplatform => h.fromFile.posixOnly hplatform "pm_tiny_cgroup_root" (by decide)) _

theorem Accepted.allowedUids_iff :
    config.setting DaemonConfig.allowedUids "allowed_uids" =
      (listLayers system options platform "pm_tiny_allowed_uids").effective ↔
      (loadedRoot system options platform).get? "pm_tiny_allowed_uids" ≠ some (.sequence []) := by
  rw [h.composed.allowedUids, h.fromFile.source "pm_tiny_allowed_uids" (by decide)]
  exact list_iff h.fromFile.allowedUids

theorem Accepted.allowedGids_iff :
    config.setting DaemonConfig.allowedGids "allowed_gids" =
      (listLayers system options platform "pm_tiny_allowed_gids").effective ↔
      (loadedRoot system options platform).get? "pm_tiny_allowed_gids" ≠ some (.sequence []) := by
  rw [h.composed.allowedGids, h.fromFile.source "pm_tiny_allowed_gids" (by decide)]
  exact list_iff h.fromFile.allowedGids

theorem Accepted.pipeName_iff :
    config.setting DaemonConfig.pipeName "pipe_name" =
      (pipeLayers system options platform options.pipeName "PM_TINY_PIPE_NAME" "pm_tiny_pipe_name"
        windowsDefaultPipeName).effective ↔
      (options.pipeName = "" → system.environment "PM_TINY_PIPE_NAME" = "" →
        (loadedRoot system options platform).get? "pm_tiny_pipe_name" ≠ some .null) := by
  have hsetting := h.composed.pipeName
  rw [h.fromFile.source "pm_tiny_pipe_name" (by decide)] at hsetting
  exact pipe_iff h.fromFile.pipeName
    (fun hplatform => h.fromFile.windowsOnly hplatform "pm_tiny_pipe_name" (by decide)) hsetting
    (fun hplatform => (h.pipe hplatform).1)

theorem Accepted.pipeSddl_iff :
    config.setting DaemonConfig.pipeSddl "pipe_sddl" =
      (pipeLayers system options platform options.pipeSddl "PM_TINY_PIPE_SDDL" "pm_tiny_pipe_sddl"
        windowsDefaultPipeSddl).effective ↔
      (options.pipeSddl = "" → system.environment "PM_TINY_PIPE_SDDL" = "" →
        (loadedRoot system options platform).get? "pm_tiny_pipe_sddl" ≠ some .null) := by
  have hsetting := h.composed.pipeSddl
  rw [h.fromFile.source "pm_tiny_pipe_sddl" (by decide)] at hsetting
  exact pipe_iff h.fromFile.pipeSddl
    (fun hplatform => h.fromFile.windowsOnly hplatform "pm_tiny_pipe_sddl" (by decide)) hsetting
    (fun hplatform => (h.pipe hplatform).2)

end Accepted

/-- An accepted configuration is layered exactly when no empty value of the file is in effect. -/
theorem resolve_layered_iff (harguments : parseDaemonArguments arguments platform = .ok options)
    (h : resolveDaemonConfig system options platform = .ok config) :
    Layered system options platform config ↔ Clean system options platform := by
  have hchecked := parseDaemonArguments_checked harguments
  obtain ⟨file, h⟩ := resolveDaemonConfig_eq_ok h
  constructor
  · intro hlayered
    have hhome : config.homeDir = effectiveHome system options platform :=
      congrArg Prod.fst hlayered.homeDir
    obtain ⟨hsocket, hsocketPath⟩ := (h.socketFile_iff hhome).1 hlayered.socketFile
    exact {
      homeDir := (h.homeDir_iff hchecked).1 hlayered.homeDir
      logFile := (h.logFile_iff hhome).1 hlayered.logFile
      programConfigFile := (h.programConfigFile_iff hhome).1 hlayered.programConfigFile
      appLogDir := (h.appLogDir_iff hhome).1 hlayered.appLogDir
      appEnvironDir := (h.appEnvironDir_iff hhome).1 hlayered.appEnvironDir
      socketFile := hsocket
      socketPath := hsocketPath
      processTreeMode := h.processTreeMode_iff.1 hlayered.processTreeMode
      cgroupRoot := h.cgroupRoot_iff.1 hlayered.cgroupRoot
      allowedUids := h.allowedUids_iff.1 hlayered.allowedUids
      allowedGids := h.allowedGids_iff.1 hlayered.allowedGids
      pipeName := h.pipeName_iff.1 hlayered.pipeName
      pipeSddl := h.pipeSddl_iff.1 hlayered.pipeSddl }
  · intro hclean
    have hhomeDir := (h.homeDir_iff hchecked).2 hclean.homeDir
    have hhome : config.homeDir = effectiveHome system options platform :=
      congrArg Prod.fst hhomeDir
    have hlock : config.setting DaemonConfig.lockFile "lock_file" =
        (lockLayers system options platform).effective := by
      rw [h.composed.lockFile, hhome]
      rfl
    exact {
      configPath := h.configPath
      homeDir := hhomeDir
      lockFile := hlock
      logFile := (h.logFile_iff hhome).2 hclean.logFile
      programConfigFile := (h.programConfigFile_iff hhome).2 hclean.programConfigFile
      appLogDir := (h.appLogDir_iff hhome).2 hclean.appLogDir
      appEnvironDir := (h.appEnvironDir_iff hhome).2 hclean.appEnvironDir
      logLevel := h.logLevel_layered hchecked
      logMaxSizeKb := h.logMaxSizeKb_layered
      logArchiveCount := h.logArchiveCount_layered
      socketFile := (h.socketFile_iff hhome).2 ⟨hclean.socketFile, hclean.socketPath⟩
      udsAbstractNamespace := h.udsAbstractNamespace_layered
      processTreeMode := h.processTreeMode_iff.2 hclean.processTreeMode
      cgroupRoot := h.cgroupRoot_iff.2 hclean.cgroupRoot
      allowedUids := h.allowedUids_iff.2 hclean.allowedUids
      allowedGids := h.allowedGids_iff.2 hclean.allowedGids
      pipeName := h.pipeName_iff.2 hclean.pipeName
      pipeSddl := h.pipeSddl_iff.2 hclean.pipeSddl }

/-- No variable is set, and the default configuration file holds `root`. -/
def plainSystem (root : Yaml) : DaemonSystem where
  environment _ := ""
  passwdHome := some "/root"
  fileExists path := path = pmTinyDefaultCfgFile
  file path :=
    if path = pmTinyDefaultCfgFile then .text 0 (.ok root)
    else .unopened "No such file or directory"
  badConversion _ := "bad conversion"
  abstractDefault := false
  file_empty := ⟨_, rfl⟩

def warnFile : Yaml := .mapping [("pm_tiny_log_level", .scalar "warn")]

theorem resolve_layered_iff_warn :
    ∃ config, resolveDaemonConfig (plainSystem warnFile) {} .posix = .ok config ∧
      (Layered (plainSystem warnFile) {} .posix config ↔
        Clean (plainSystem warnFile) {} .posix) := by
  have harguments : parseDaemonArguments [] .posix = .ok {} := rfl
  exact ⟨_, rfl, resolve_layered_iff harguments rfl⟩

def blankHomeFile : Yaml := .mapping [("pm_tiny_home_dir", .scalar "")]

/-- The default home is used, and the file is recorded as its source. -/
theorem resolve_not_layered : ¬ ∀ (system : DaemonSystem) (arguments : List String)
    (platform : DaemonPlatform) (options : DaemonCliOptions) (config : DaemonConfig),
    parseDaemonArguments arguments platform = .ok options →
      resolveDaemonConfig system options platform = .ok config →
        Layered system options platform config := by
  intro hall
  have hlayered := hall (plainSystem blankHomeFile) [] .posix {} _ rfl rfl
  have hsource : DaemonConfigSource.configFile = .defaultValue :=
    congrArg Prod.snd hlayered.homeDir
  cases hsource

end PmTiny
