import PmTiny.Daemon.ConfigResolution
import PmTiny.Persist.YamlRoundTrip

namespace PmTiny
open Persist
set_option autoImplicit true

inductive Taken (found : Option β) (convert : β → Option α) (target : α) : α → Prop where
  | missing (h : found = none) : Taken found convert target target
  | present (h : found = some node) (hvalue : convert node = some value) :
      Taken found convert target value

theorem Taken.eq_of_missing (h : Taken found convert target value) (hmissing : found = none) :
    value = target := by
  cases h with
  | missing => rfl
  | present hnode _ =>
    rw [hmissing] at hnode
    cases hnode

abbrev Read (root : Yaml) (key : String) (convert : Yaml → Option α) (target : α) : α → Prop :=
  Taken (root.get? key) convert target

theorem readValue_eq_ok (h : readValue system root key convert target = .ok value) :
    Read root key convert target value := by
  rw [readValue] at h
  split at h
  · rename_i hmissing
    cases h
    exact .missing hmissing
  · rename_i node hnode
    split at h
    · rename_i value' hvalue
      cases h
      exact .present hnode hvalue
    · cases h

theorem validateKeys_not_mem (h : validateKeys platform entries = .ok u)
    (hcommon : key ∉ commonKeys) (hposix : platform = .posix → key ∉ posixKeys)
    (hwindows : platform = .windows → key ∉ windowsKeys)
    (hkey : key ∈ posixKeys ∨ key ∈ windowsKeys) : ∀ entry ∈ entries, entry.1 ≠ key := by
  induction entries with
  | nil => exact fun _ hentry => absurd hentry List.not_mem_nil
  | cons first rest ih =>
    obtain ⟨name, node⟩ := first
    rw [validateKeys] at h
    intro entry hentry
    have hrest : validateKeys platform rest = .ok u → ∀ entry ∈ rest, entry.1 ≠ key := fun h => ih h
    split at h
    · rename_i hmem
      rcases List.mem_cons.1 hentry with rfl | hentry
      · exact fun heq => hcommon (heq ▸ hmem)
      · exact hrest h entry hentry
    · split at h
      · rename_i hmem
        rcases List.mem_cons.1 hentry with rfl | hentry
        · exact fun heq => hposix hmem.1 (heq ▸ hmem.2)
        · exact hrest h entry hentry
      · split at h
        · rename_i hmem
          rcases List.mem_cons.1 hentry with rfl | hentry
          · exact fun heq => hwindows hmem.1 (heq ▸ hmem.2)
          · exact hrest h entry hentry
        · split at h
          · cases h
          · rename_i hnone
            rcases List.mem_cons.1 hentry with rfl | hentry
            · rintro rfl
              exact hnone hkey
            · split at h
              · cases h
              · exact hrest h entry hentry

theorem get?_of_not_mem {entries : List (String × Yaml)} (h : ∀ entry ∈ entries, entry.1 ≠ key) :
    (Yaml.mapping entries).get? key = none := by
  rw [Yaml.get?, List.lookup_eq_none_iff]
  intro entry hentry
  exact bne_iff_ne.2 (h entry hentry).symm

theorem get?_posixKeys (h : validateKeys .windows entries = .ok u) (hkey : key ∈ posixKeys) :
    (Yaml.mapping entries).get? key = none := by
  apply get?_of_not_mem (validateKeys_not_mem h ?_ ?_ ?_ (.inl hkey))
  · revert key
    decide
  · exact fun hplatform => DaemonPlatform.noConfusion hplatform
  · revert key
    decide

theorem get?_windowsKeys (h : validateKeys .posix entries = .ok u) (hkey : key ∈ windowsKeys) :
    (Yaml.mapping entries).get? key = none := by
  apply get?_of_not_mem (validateKeys_not_mem h ?_ ?_ ?_ (.inr hkey))
  · revert key
    decide
  · revert key
    decide
  · exact fun hplatform => DaemonPlatform.noConfusion hplatform

theorem setSources_of_not_mem {entries : List (κ × String)}
    (h : ∀ entry ∈ entries, field ≠ entry.2) :
    setSources given source entries sources field = sources field := by
  induction entries with
  | nil => rfl
  | cons entry rest ih =>
    obtain ⟨hentry, hrest⟩ := List.forall_mem_cons.1 h
    rw [setSources, if_neg fun hset => hentry hset.1, ih hrest]

theorem setSources_of_mem {entries : List (κ × String)} {entry : κ × String}
    (h : entry ∈ entries)
    (hnodup : (entries.map Prod.snd).Nodup) :
    setSources given source entries sources entry.2 =
      if given entry.1 = true then source else sources entry.2 := by
  induction entries with
  | nil => exact absurd h List.not_mem_nil
  | cons first rest ih =>
    obtain ⟨hfirst, hrest⟩ := List.nodup_cons.1 hnodup
    rw [setSources]
    rcases List.mem_cons.1 h with rfl | hmem
    · have hothers : setSources given source rest sources entry.2 = sources entry.2 := by
        apply setSources_of_not_mem
        intro other hother heq
        exact hfirst (heq ▸ List.mem_map_of_mem (f := Prod.snd) hother)
      simp only [true_and, hothers]
    · have hne : entry.2 ≠ first.2 :=
        fun heq => hfirst (heq ▸ List.mem_map_of_mem (f := Prod.snd) hmem)
      rw [if_neg fun hset => hne hset.1, ih hmem hrest]

/-- Every field of the file was read, with what it is when its key is missing. -/
structure FieldsRead (root : Yaml) (config fields : DaemonConfig) : Prop where
  homeDir : Read root "pm_tiny_home_dir" Yaml.asString config.homeDir fields.homeDir
  logFile : Read root "pm_tiny_log_file" Yaml.asString config.logFile fields.logFile
  programConfigFile : Read root "pm_tiny_prog_cfg_file" Yaml.asString config.programConfigFile
    fields.programConfigFile
  appLogDir : Read root "pm_tiny_app_log_dir" Yaml.asString config.appLogDir fields.appLogDir
  appEnvironDir :
    Read root "pm_tiny_app_environ_dir" Yaml.asString config.appEnvironDir fields.appEnvironDir
  logLevel : Read root "pm_tiny_log_level" Yaml.asString config.logLevel fields.logLevel
  logMaxSizeKb :
    Read root "pm_tiny_log_max_size_kb" asInteger config.logMaxSizeKb fields.logMaxSizeKb
  logArchiveCount :
    Read root "pm_tiny_log_archive_count" asInteger config.logArchiveCount fields.logArchiveCount
  socketFile : Read root "pm_tiny_sock_file" Yaml.asString config.socketFile fields.socketFile
  udsAbstractNamespace : Read root "pm_tiny_uds_abstract_namespace" Yaml.asBool
    config.udsAbstractNamespace fields.udsAbstractNamespace
  processTreeMode :
    Read root "pm_tiny_process_tree_mode" Yaml.asString config.processTreeMode
      fields.processTreeMode
  cgroupRoot : Read root "pm_tiny_cgroup_root" Yaml.asString config.cgroupRoot fields.cgroupRoot
  allowedUids :
    Read root "pm_tiny_allowed_uids" asUnsignedList config.allowedUids fields.allowedUids
  allowedGids :
    Read root "pm_tiny_allowed_gids" asUnsignedList config.allowedGids fields.allowedGids
  pipeName : Read root "pm_tiny_pipe_name" Yaml.asString config.pipeName fields.pipeName
  pipeSddl : Read root "pm_tiny_pipe_sddl" Yaml.asString config.pipeSddl fields.pipeSddl
  sourceOf : fields.sourceOf = config.sourceOf
  configPath : fields.configPath = config.configPath

theorem readFields_eq_ok (h : readFields system root platform config = .ok fields)
    (hposix : platform = .windows → ∀ key ∈ posixKeys, root.get? key = none)
    (hwindows : platform = .posix → ∀ key ∈ windowsKeys, root.get? key = none) :
    FieldsRead root config fields := by
  obtain ⟨homeDir, hhome, h⟩ := bind_eq_ok.1 h
  obtain ⟨logFile, hlogFile, h⟩ := bind_eq_ok.1 h
  obtain ⟨programConfigFile, hprogram, h⟩ := bind_eq_ok.1 h
  obtain ⟨appLogDir, hlogDir, h⟩ := bind_eq_ok.1 h
  obtain ⟨appEnvironDir, henvironDir, h⟩ := bind_eq_ok.1 h
  obtain ⟨logLevel, hlevel, h⟩ := bind_eq_ok.1 h
  obtain ⟨logMaxSizeKb, hmaxSize, h⟩ := bind_eq_ok.1 h
  obtain ⟨logArchiveCount, harchive, h⟩ := bind_eq_ok.1 h
  cases platform with
  | posix =>
    obtain ⟨socketFile, hsocket, h⟩ := bind_eq_ok.1 h
    obtain ⟨udsAbstractNamespace, habstract, h⟩ := bind_eq_ok.1 h
    obtain ⟨processTreeMode, htree, h⟩ := bind_eq_ok.1 h
    obtain ⟨cgroupRoot, hcgroup, h⟩ := bind_eq_ok.1 h
    obtain ⟨allowedUids, huids, h⟩ := bind_eq_ok.1 h
    obtain ⟨allowedGids, hgids, h⟩ := bind_eq_ok.1 h
    have hother := hwindows rfl
    cases h
    exact {
      homeDir := readValue_eq_ok hhome
      logFile := readValue_eq_ok hlogFile
      programConfigFile := readValue_eq_ok hprogram
      appLogDir := readValue_eq_ok hlogDir
      appEnvironDir := readValue_eq_ok henvironDir
      logLevel := readValue_eq_ok hlevel
      logMaxSizeKb := readValue_eq_ok hmaxSize
      logArchiveCount := readValue_eq_ok harchive
      socketFile := readValue_eq_ok hsocket
      udsAbstractNamespace := readValue_eq_ok habstract
      processTreeMode := readValue_eq_ok htree
      cgroupRoot := readValue_eq_ok hcgroup
      allowedUids := readValue_eq_ok huids
      allowedGids := readValue_eq_ok hgids
      pipeName := .missing (hother _ (by decide))
      pipeSddl := .missing (hother _ (by decide))
      sourceOf := rfl
      configPath := rfl }
  | windows =>
    obtain ⟨pipeName, hname, h⟩ := bind_eq_ok.1 h
    obtain ⟨pipeSddl, hsddl, h⟩ := bind_eq_ok.1 h
    have hother := hposix rfl
    cases h
    exact {
      homeDir := readValue_eq_ok hhome
      logFile := readValue_eq_ok hlogFile
      programConfigFile := readValue_eq_ok hprogram
      appLogDir := readValue_eq_ok hlogDir
      appEnvironDir := readValue_eq_ok henvironDir
      logLevel := readValue_eq_ok hlevel
      logMaxSizeKb := readValue_eq_ok hmaxSize
      logArchiveCount := readValue_eq_ok harchive
      socketFile := .missing (hother _ (by decide))
      udsAbstractNamespace := .missing (hother _ (by decide))
      processTreeMode := .missing (hother _ (by decide))
      cgroupRoot := .missing (hother _ (by decide))
      allowedUids := .missing (hother _ (by decide))
      allowedGids := .missing (hother _ (by decide))
      pipeName := readValue_eq_ok hname
      pipeSddl := readValue_eq_ok hsddl
      sourceOf := rfl
      configPath := rfl }

theorem loadFileConfig_eq_ok (h : loadFileConfig system path platform config = .ok config') :
    ∃ root fields, loadYamlFile system path = .ok root ∧ FieldsRead root config fields ∧
      config' = resolveFields path platform
        { fields with
          sourceOf := setSources (fun key => (root.get? key).isSome) .configFile fileSources
            fields.sourceOf } ∧
      (platform = .windows → ∀ key ∈ posixKeys, root.get? key = none) ∧
      (platform = .posix → ∀ key ∈ windowsKeys, root.get? key = none) := by
  obtain ⟨root, hroot, h⟩ := bind_eq_ok.1 h
  cases root with
  | mapping entries =>
    obtain ⟨u, hkeys, h⟩ := bind_eq_ok.1 h
    obtain ⟨fields, hfields, h⟩ := bind_eq_ok.1 h
    have hposix : platform = .windows → ∀ key ∈ posixKeys,
        (Yaml.mapping entries).get? key = none := by
      rintro rfl key hkey
      exact get?_posixKeys hkeys hkey
    have hwindows : platform = .posix → ∀ key ∈ windowsKeys,
        (Yaml.mapping entries).get? key = none := by
      rintro rfl key hkey
      exact get?_windowsKeys hkeys hkey
    cases h
    exact ⟨_, fields, hroot, readFields_eq_ok hfields hposix hwindows, rfl, hposix, hwindows⟩
  | null => cases h
  | scalar text => cases h
  | sequence items => cases h

/-- The configuration when the file was read: every field as it is in the file, or at its
default. -/
structure FromFile (system : DaemonSystem) (path : String) (pathSource : DaemonConfigSource)
    (platform : DaemonPlatform) (root : Yaml) (config : DaemonConfig) : Prop where
  homeDir : ∃ text, Read root "pm_tiny_home_dir" Yaml.asString "" text ∧
    config.homeDir = resolveRelative path text platform
  logFile : ∃ text, Read root "pm_tiny_log_file" Yaml.asString "" text ∧
    config.logFile = resolveRelative path text platform
  programConfigFile : ∃ text, Read root "pm_tiny_prog_cfg_file" Yaml.asString "" text ∧
    config.programConfigFile = resolveRelative path text platform
  appLogDir : ∃ text, Read root "pm_tiny_app_log_dir" Yaml.asString "" text ∧
    config.appLogDir = resolveRelative path text platform
  appEnvironDir : ∃ text, Read root "pm_tiny_app_environ_dir" Yaml.asString "" text ∧
    config.appEnvironDir = resolveRelative path text platform
  logLevel : Read root "pm_tiny_log_level" Yaml.asString "info" config.logLevel
  logMaxSizeKb : Read root "pm_tiny_log_max_size_kb" asInteger 4096 config.logMaxSizeKb
  logArchiveCount : Read root "pm_tiny_log_archive_count" asInteger 3 config.logArchiveCount
  socketFile : ∃ text, Read root "pm_tiny_sock_file" Yaml.asString "" text ∧
    config.socketFile =
      if config.udsAbstractNamespace then text else resolveRelative path text platform
  udsAbstractNamespace : Read root "pm_tiny_uds_abstract_namespace" Yaml.asBool
    (system.abstractDefault && platform = .posix) config.udsAbstractNamespace
  processTreeMode :
    Read root "pm_tiny_process_tree_mode" Yaml.asString "auto" config.processTreeMode
  cgroupRoot : Read root "pm_tiny_cgroup_root" Yaml.asString "" config.cgroupRoot
  allowedUids : Read root "pm_tiny_allowed_uids" asUnsignedList [] config.allowedUids
  allowedGids : Read root "pm_tiny_allowed_gids" asUnsignedList [] config.allowedGids
  pipeName : Read root "pm_tiny_pipe_name" Yaml.asString windowsDefaultPipeName config.pipeName
  pipeSddl : Read root "pm_tiny_pipe_sddl" Yaml.asString windowsDefaultPipeSddl config.pipeSddl
  sources : ∀ entry ∈ fileSources, config.sourceOf entry.2 =
    if (root.get? entry.1).isSome then .configFile else .defaultValue
  posixOnly : platform = .windows → ∀ key ∈ posixKeys, root.get? key = none
  windowsOnly : platform = .posix → ∀ key ∈ windowsKeys, root.get? key = none
  configPath : config.configPath = path
  configPathSource : config.sourceOf "config_path" = pathSource

/-- The configuration before any layer, but for its path. -/
structure Initial (system : DaemonSystem) (path : String) (pathSource : DaemonConfigSource)
    (platform : DaemonPlatform) (config : DaemonConfig) : Prop where
  strings : config.homeDir = "" ∧ config.logFile = "" ∧ config.programConfigFile = "" ∧
    config.appLogDir = "" ∧ config.appEnvironDir = "" ∧ config.socketFile = "" ∧
    config.cgroupRoot = ""
  logging : config.logLevel = "info" ∧ config.logMaxSizeKb = 4096 ∧ config.logArchiveCount = 3
  access : config.processTreeMode = "auto" ∧ config.allowedUids = [] ∧ config.allowedGids = []
  pipe : config.pipeName = windowsDefaultPipeName ∧ config.pipeSddl = windowsDefaultPipeSddl
  udsAbstractNamespace : config.udsAbstractNamespace = (system.abstractDefault && platform = .posix)
  sources : ∀ entry ∈ fileSources, config.sourceOf entry.2 = .defaultValue
  configPath : config.configPath = path
  configPathSource : config.sourceOf "config_path" = pathSource

def configPathSource (options : DaemonCliOptions) : DaemonConfigSource :=
  if options.configExplicit then .commandLine else .defaultValue

theorem initialConfig_initial (system : DaemonSystem) (options : DaemonCliOptions)
    (platform : DaemonPlatform) :
    Initial system (initialConfig system options platform).configPath (configPathSource options)
      platform (initialConfig system options platform) where
  strings := ⟨rfl, rfl, rfl, rfl, rfl, rfl, rfl⟩
  logging := ⟨rfl, rfl, rfl⟩
  access := ⟨rfl, rfl, rfl⟩
  pipe := ⟨rfl, rfl⟩
  udsAbstractNamespace := rfl
  sources := by
    intro entry hentry
    have hne : ∀ entry ∈ fileSources, entry.2 ≠ "config_path" := by decide
    apply setSources_of_not_mem
    intro given hgiven
    rw [List.mem_singleton.1 hgiven]
    exact hne entry hentry
  configPath := rfl
  configPathSource := by
    have hmem : (options.configExplicit, "config_path") ∈
        [(options.configExplicit, "config_path")] := List.mem_cons_self
    exact setSources_of_mem hmem (List.nodup_singleton _)

theorem resolveRelative_empty (path : String) (platform : DaemonPlatform) :
    resolveRelative path "" platform = "" := by
  rw [resolveRelative, if_pos (.inl rfl)]

theorem FromFile.loaded (h : FieldsRead root config fields)
    (hinitial : Initial system path pathSource platform config)
    (hposix : platform = .windows → ∀ key ∈ posixKeys, root.get? key = none)
    (hwindows : platform = .posix → ∀ key ∈ windowsKeys, root.get? key = none) :
    FromFile system path pathSource platform root (resolveFields path platform
      { fields with
        sourceOf := setSources (fun key => (root.get? key).isSome) .configFile fileSources
          fields.sourceOf }) := by
  obtain ⟨⟨hhome, hlogFile, hprogram, hlogDir, henviron, hsocket, hcgroup⟩,
    ⟨hlevel, hmaxSize, harchives⟩, ⟨htree, huids, hgids⟩, ⟨hpipe, hsddl⟩, habstract, hsources,
    hpath, hpathSource⟩ := hinitial
  constructor
  · exact ⟨_, hhome ▸ h.homeDir, rfl⟩
  · exact ⟨_, hlogFile ▸ h.logFile, rfl⟩
  · exact ⟨_, hprogram ▸ h.programConfigFile, rfl⟩
  · exact ⟨_, hlogDir ▸ h.appLogDir, rfl⟩
  · exact ⟨_, henviron ▸ h.appEnvironDir, rfl⟩
  · exact hlevel ▸ h.logLevel
  · exact hmaxSize ▸ h.logMaxSizeKb
  · exact harchives ▸ h.logArchiveCount
  · refine ⟨_, hsocket ▸ h.socketFile, ?_⟩
    cases platform with
    | posix =>
      simp only [resolveFields]
      cases fields.udsAbstractNamespace with
      | true => rfl
      | false => rfl
    | windows =>
      have hempty : fields.socketFile = "" :=
        (h.socketFile.eq_of_missing (hposix rfl _ (by decide))).trans hsocket
      simp only [resolveFields, hempty, resolveRelative_empty, ite_self]
  · exact habstract ▸ h.udsAbstractNamespace
  · exact htree ▸ h.processTreeMode
  · exact hcgroup ▸ h.cgroupRoot
  · exact huids ▸ h.allowedUids
  · exact hgids ▸ h.allowedGids
  · exact hpipe ▸ h.pipeName
  · exact hsddl ▸ h.pipeSddl
  · intro entry hentry
    have hset : setSources (fun key => (root.get? key).isSome) .configFile fileSources
        fields.sourceOf entry.2 =
          if (root.get? entry.1).isSome = true then .configFile else fields.sourceOf entry.2 :=
      setSources_of_mem hentry (by decide)
    exact hset.trans (by rw [h.sourceOf, hsources entry hentry])
  · exact hposix
  · exact hwindows
  · exact h.configPath.trans hpath
  · refine (setSources_of_not_mem (by decide)).trans ?_
    rw [h.sourceOf, hpathSource]

theorem FromFile.absent (hinitial : Initial system path pathSource platform config) :
    FromFile system path pathSource platform (.mapping []) config := by
  obtain ⟨⟨hhome, hlogFile, hprogram, hlogDir, henviron, hsocket, hcgroup⟩,
    ⟨hlevel, hmaxSize, harchives⟩, ⟨htree, huids, hgids⟩, ⟨hpipe, hsddl⟩, habstract, hsources,
    hpath, hpathSource⟩ := hinitial
  have hempty := resolveRelative_empty path platform
  constructor
  · exact ⟨"", .missing rfl, hhome.trans hempty.symm⟩
  · exact ⟨"", .missing rfl, hlogFile.trans hempty.symm⟩
  · exact ⟨"", .missing rfl, hprogram.trans hempty.symm⟩
  · exact ⟨"", .missing rfl, hlogDir.trans hempty.symm⟩
  · exact ⟨"", .missing rfl, henviron.trans hempty.symm⟩
  · exact hlevel ▸ .missing rfl
  · exact hmaxSize ▸ .missing rfl
  · exact harchives ▸ .missing rfl
  · refine ⟨"", .missing rfl, ?_⟩
    rw [hsocket, hempty, ite_self]
  · exact habstract ▸ .missing rfl
  · exact htree ▸ .missing rfl
  · exact hcgroup ▸ .missing rfl
  · exact huids ▸ .missing rfl
  · exact hgids ▸ .missing rfl
  · exact hpipe ▸ .missing rfl
  · exact hsddl ▸ .missing rfl
  · exact fun entry hentry => hsources entry hentry
  · exact fun _ _ _ => rfl
  · exact fun _ _ _ => rfl
  · exact hpath
  · exact hpathSource

def nonEmpty (value : String) : Option String := if value = "" then none else some value

theorem nonEmpty_of_ne (h : value ≠ "") : nonEmpty value = some value := by
  rw [nonEmpty, if_neg h]

def overlay (found : Option α) (source : DaemonConfigSource) (below : α × DaemonConfigSource) :
    α × DaemonConfigSource :=
  match found with
  | some value => (value, source)
  | none => below

theorem overlay_overrideString (system : DaemonSystem) (name target : String)
    (source : DaemonConfigSource) :
    (overrideString system name target,
      if decide (system.environment name ≠ "") = true then .environment else source) =
      overlay (nonEmpty (system.environment name)) .environment (target, source) := by
  rw [overrideString, nonEmpty]
  by_cases h : system.environment name = ""
  · rw [if_neg (not_not_intro h), if_pos h,
      if_neg (by rw [decide_eq_true_eq]; exact not_not_intro h)]
    rfl
  · rw [if_pos h, if_neg h, if_pos (decide_eq_true h)]
    rfl

theorem Taken.overlay (h : Taken (nonEmpty text) convert target value)
    (source : DaemonConfigSource) :
    (value, if decide (text ≠ "") = true then .environment else source) =
      PmTiny.overlay ((nonEmpty text).bind convert) .environment (target, source) := by
  by_cases hempty : text = ""
  · rw [if_neg (by rw [decide_eq_true_eq]; exact not_not_intro hempty)]
    have hnone : nonEmpty text = none := if_pos hempty
    rw [h.eq_of_missing hnone, hnone]
    rfl
  · rw [if_pos (decide_eq_true hempty)]
    cases h with
    | missing hnone =>
      rw [nonEmpty_of_ne hempty] at hnone
      cases hnone
    | present hsome hvalue =>
      rw [hsome, Option.bind_some, hvalue]
      rfl

theorem overrideLogLevel_eq_ok (h : overrideLogLevel system target = .ok level) :
    level = overrideString system "PM_TINY_LOG_LEVEL" target := by
  rw [overrideLogLevel] at h
  rw [overrideString]
  split at h
  · rename_i hlevel
    split at h
    · cases h
      rw [if_pos hlevel]
    · cases h
  · rename_i hlevel
    cases h
    rw [if_neg hlevel]

theorem overrideNumber_eq_ok (h : overrideNumber system name minimum maximum target = .ok value) :
    Taken (nonEmpty (system.environment name)) (fun text => parseLong text minimum maximum) target
      value := by
  rw [overrideNumber] at h
  split at h
  · rename_i hvalue
    split at h
    · rename_i parsed hparsed
      cases h
      exact .present (nonEmpty_of_ne hvalue) hparsed
    · cases h
  · rename_i hvalue
    cases h
    exact .missing (if_pos (Classical.not_not.1 hvalue))

/-- The value of an environment variable that only one platform looks at. -/
def platformEnvironment (system : DaemonSystem) (only platform : DaemonPlatform) (name : String) :
    Option String :=
  if platform = only then nonEmpty (system.environment name) else none

theorem overrideAbstract_eq_ok (h : overrideAbstract system platform target = .ok value) :
    Taken (platformEnvironment system .posix platform "PM_TINY_UDS_ABSTRACT_NAMESPACE") parseBool
      target value := by
  rw [overrideAbstract] at h
  rw [platformEnvironment]
  split at h
  · rename_i hvalue
    rw [if_pos hvalue.1]
    split at h
    · rename_i parsed hparsed
      cases h
      exact .present (nonEmpty_of_ne hvalue.2) hparsed
    · cases h
  · rename_i hvalue
    cases h
    apply Taken.missing
    split
    · rename_i hplatform
      exact if_pos (Classical.not_not.1 fun hne => hvalue ⟨hplatform, hne⟩)
    · rfl

def DaemonConfig.setting (config : DaemonConfig) (get : DaemonConfig → α) (field : String) :
    α × DaemonConfigSource :=
  (get config, config.sourceOf field)

structure EnvironmentApplied (system : DaemonSystem) (platform : DaemonPlatform)
    (config config' : DaemonConfig) : Prop where
  homeDir : config'.setting DaemonConfig.homeDir "home_dir" =
    overlay (nonEmpty (system.environment "PM_TINY_HOME")) .environment
      (config.setting DaemonConfig.homeDir "home_dir")
  logFile : config'.setting DaemonConfig.logFile "log_file" =
    overlay (nonEmpty (system.environment "PM_TINY_LOG_FILE")) .environment
      (config.setting DaemonConfig.logFile "log_file")
  programConfigFile : config'.setting DaemonConfig.programConfigFile "program_config_file" =
    overlay (nonEmpty (system.environment "PM_TINY_PROG_CFG_FILE")) .environment
      (config.setting DaemonConfig.programConfigFile "program_config_file")
  appLogDir : config'.setting DaemonConfig.appLogDir "app_log_dir" =
    overlay (nonEmpty (system.environment "PM_TINY_APP_LOG_DIR")) .environment
      (config.setting DaemonConfig.appLogDir "app_log_dir")
  appEnvironDir : config'.setting DaemonConfig.appEnvironDir "app_environ_dir" =
    overlay (nonEmpty (system.environment "PM_TINY_APP_ENVIRON_DIR")) .environment
      (config.setting DaemonConfig.appEnvironDir "app_environ_dir")
  logLevel : config'.setting DaemonConfig.logLevel "log_level" =
    overlay (nonEmpty (system.environment "PM_TINY_LOG_LEVEL")) .environment
      (config.setting DaemonConfig.logLevel "log_level")
  logMaxSizeKb : config'.setting DaemonConfig.logMaxSizeKb "log_max_size_kb" =
    overlay ((nonEmpty (system.environment "PM_TINY_LOG_MAX_SIZE_KB")).bind
        fun text => parseLong text 1 1048576) .environment
      (config.setting DaemonConfig.logMaxSizeKb "log_max_size_kb")
  logArchiveCount : config'.setting DaemonConfig.logArchiveCount "log_archive_count" =
    overlay ((nonEmpty (system.environment "PM_TINY_LOG_ARCHIVE_COUNT")).bind
        fun text => parseLong text 0 100) .environment
      (config.setting DaemonConfig.logArchiveCount "log_archive_count")
  socketFile : config'.setting DaemonConfig.socketFile "socket_file" =
    overlay (platformEnvironment system .posix platform "PM_TINY_SOCK_FILE") .environment
      (config.setting DaemonConfig.socketFile "socket_file")
  udsAbstractNamespace :
    config'.setting DaemonConfig.udsAbstractNamespace "uds_abstract_namespace" =
      overlay ((platformEnvironment system .posix platform "PM_TINY_UDS_ABSTRACT_NAMESPACE").bind
          parseBool) .environment
        (config.setting DaemonConfig.udsAbstractNamespace "uds_abstract_namespace")
  processTreeMode : config'.setting DaemonConfig.processTreeMode "process_tree_mode" =
    overlay (platformEnvironment system .posix platform "PM_TINY_PROCESS_TREE_MODE") .environment
      (config.setting DaemonConfig.processTreeMode "process_tree_mode")
  cgroupRoot : config'.setting DaemonConfig.cgroupRoot "cgroup_root" =
    overlay (platformEnvironment system .posix platform "PM_TINY_CGROUP_ROOT") .environment
      (config.setting DaemonConfig.cgroupRoot "cgroup_root")
  pipeName : config'.setting DaemonConfig.pipeName "pipe_name" =
    overlay (platformEnvironment system .windows platform "PM_TINY_PIPE_NAME") .environment
      (config.setting DaemonConfig.pipeName "pipe_name")
  pipeSddl : config'.setting DaemonConfig.pipeSddl "pipe_sddl" =
    overlay (platformEnvironment system .windows platform "PM_TINY_PIPE_SDDL") .environment
      (config.setting DaemonConfig.pipeSddl "pipe_sddl")
  allowedUids : config'.setting DaemonConfig.allowedUids "allowed_uids" =
    config.setting DaemonConfig.allowedUids "allowed_uids"
  allowedGids : config'.setting DaemonConfig.allowedGids "allowed_gids" =
    config.setting DaemonConfig.allowedGids "allowed_gids"
  configPath : config'.setting DaemonConfig.configPath "config_path" =
    config.setting DaemonConfig.configPath "config_path"

section Sources

variable {system : DaemonSystem} {config config' : DaemonConfig}

theorem environmentSourceOf_mem {sources : String → DaemonConfigSource}
    (h : (name, field) ∈ environmentSources ++ platformSources platform) :
    environmentSourceOf system platform sources field =
      if decide (system.environment name ≠ "") = true then .environment else sources field := by
  have hnodup : ((environmentSources ++ platformSources platform).map Prod.snd).Nodup := by
    cases platform with
    | posix => decide
    | windows => decide
  exact setSources_of_mem h hnodup

variable {get : DaemonConfig → α} {getText : DaemonConfig → String}
  (hsource : config'.sourceOf = environmentSourceOf system platform config.sourceOf)

include hsource

theorem string_over (hget : getText config' = overrideString system name (getText config))
    (h : (name, field) ∈ environmentSources) :
    config'.setting getText field =
      overlay (nonEmpty (system.environment name)) .environment (config.setting getText field) := by
  have hmem : (name, field) ∈ environmentSources ++ platformSources platform :=
    List.mem_append_left _ h
  rw [DaemonConfig.setting, hget, hsource, environmentSourceOf_mem hmem]
  exact overlay_overrideString system name _ _

theorem taken_over (htaken : Taken (nonEmpty (system.environment name)) convert (get config)
      (get config')) (h : (name, field) ∈ environmentSources ++ platformSources platform) :
    config'.setting get field =
      overlay ((nonEmpty (system.environment name)).bind convert) .environment
        (config.setting get field) := by
  rw [DaemonConfig.setting, hsource, environmentSourceOf_mem h]
  exact htaken.overlay _

theorem untouched_over (hget : get config' = get config)
    (h : ∀ entry ∈ environmentSources ++ platformSources platform, field ≠ entry.2) :
    config'.setting get field = config.setting get field := by
  rw [DaemonConfig.setting, hget, hsource, environmentSourceOf, setSources_of_not_mem h]
  rfl

theorem platform_over (only : DaemonPlatform)
    (hget : getText config' = overrideOn only platform system name (getText config))
    (h : (name, field) ∈ platformSources only) :
    config'.setting getText field =
      overlay (platformEnvironment system only platform name) .environment
        (config.setting getText field) := by
  rw [overrideOn] at hget
  rw [platformEnvironment]
  by_cases hplatform : platform = only
  · subst hplatform
    rw [if_pos rfl] at hget ⊢
    rw [DaemonConfig.setting, hget, hsource, environmentSourceOf_mem (List.mem_append_right _ h)]
    exact overlay_overrideString system name _ _
  · have hother : ∀ entry ∈ platformSources only,
        ∀ other ∈ environmentSources ++ platformSources platform, entry.2 ≠ other.2 := by
      cases only with
      | posix =>
        cases platform with
        | posix => exact absurd rfl hplatform
        | windows => decide
      | windows =>
        cases platform with
        | posix => decide
        | windows => exact absurd rfl hplatform
    rw [if_neg hplatform] at hget ⊢
    exact untouched_over hsource hget (hother _ h)

theorem abstract_over (h : Taken (platformEnvironment system .posix platform
      "PM_TINY_UDS_ABSTRACT_NAMESPACE") parseBool config.udsAbstractNamespace
      config'.udsAbstractNamespace) :
    config'.setting DaemonConfig.udsAbstractNamespace "uds_abstract_namespace" =
      overlay ((platformEnvironment system .posix platform "PM_TINY_UDS_ABSTRACT_NAMESPACE").bind
          parseBool) .environment
        (config.setting DaemonConfig.udsAbstractNamespace "uds_abstract_namespace") := by
  cases platform with
  | posix => exact taken_over hsource h (by decide)
  | windows => exact untouched_over hsource (h.eq_of_missing rfl) (by decide)

end Sources

theorem environment_apart {field : String}
    (h : ∀ entry ∈ environmentSources ++ platformSources .posix ++ platformSources .windows,
      field ≠ entry.2) (platform : DaemonPlatform) :
    ∀ entry ∈ environmentSources ++ platformSources platform, field ≠ entry.2 := by
  intro entry hentry
  apply h
  cases platform with
  | posix => exact List.mem_append_left _ hentry
  | windows =>
    rcases List.mem_append.1 hentry with hentry | hentry
    · exact List.mem_append_left _ (List.mem_append_left _ hentry)
    · exact List.mem_append_right _ hentry

theorem applyEnvironment_eq_ok (h : applyEnvironment system platform config = .ok config') :
    EnvironmentApplied system platform config config' := by
  obtain ⟨logLevel, hlevel, h⟩ := bind_eq_ok.1 h
  obtain ⟨logMaxSizeKb, hmaxSize, h⟩ := bind_eq_ok.1 h
  obtain ⟨logArchiveCount, harchives, h⟩ := bind_eq_ok.1 h
  obtain ⟨udsAbstractNamespace, habstract, h⟩ := bind_eq_ok.1 h
  have hnumber : ∀ {name field : String}, (name, field) ∈ environmentSources →
      (name, field) ∈ environmentSources ++ platformSources platform :=
    fun hmem => List.mem_append_left _ hmem
  cases h
  exact {
    homeDir := string_over rfl rfl (by decide)
    logFile := string_over rfl rfl (by decide)
    programConfigFile := string_over rfl rfl (by decide)
    appLogDir := string_over rfl rfl (by decide)
    appEnvironDir := string_over rfl rfl (by decide)
    logLevel := string_over rfl (overrideLogLevel_eq_ok hlevel) (by decide)
    logMaxSizeKb := taken_over rfl (overrideNumber_eq_ok hmaxSize) (hnumber (by decide))
    logArchiveCount := taken_over rfl (overrideNumber_eq_ok harchives) (hnumber (by decide))
    socketFile := platform_over rfl .posix rfl (by decide)
    udsAbstractNamespace := abstract_over rfl (overrideAbstract_eq_ok habstract)
    processTreeMode := platform_over rfl .posix rfl (by decide)
    cgroupRoot := platform_over rfl .posix rfl (by decide)
    pipeName := platform_over rfl .windows rfl (by decide)
    pipeSddl := platform_over rfl .windows rfl (by decide)
    allowedUids := untouched_over rfl rfl (environment_apart (by decide) _)
    allowedGids := untouched_over rfl rfl (environment_apart (by decide) _)
    configPath := untouched_over rfl rfl (environment_apart (by decide) _) }

structure CommandLineApplied (options : DaemonCliOptions) (platform : DaemonPlatform)
    (config config' : DaemonConfig) : Prop where
  homeDir : config'.setting DaemonConfig.homeDir "home_dir" =
    overlay (if options.homeExplicit then some options.homeDir else none) .commandLine
      (config.setting DaemonConfig.homeDir "home_dir")
  logLevel : config'.setting DaemonConfig.logLevel "log_level" =
    overlay (if options.logLevelExplicit then some options.logLevel else none) .commandLine
      (config.setting DaemonConfig.logLevel "log_level")
  logMaxSizeKb : config'.setting DaemonConfig.logMaxSizeKb "log_max_size_kb" =
    overlay (if options.logMaxSizeExplicit then some options.logMaxSizeKb else none) .commandLine
      (config.setting DaemonConfig.logMaxSizeKb "log_max_size_kb")
  logArchiveCount : config'.setting DaemonConfig.logArchiveCount "log_archive_count" =
    overlay (if options.logArchiveCountExplicit then some options.logArchiveCount else none)
      .commandLine (config.setting DaemonConfig.logArchiveCount "log_archive_count")
  pipeName : config'.setting DaemonConfig.pipeName "pipe_name" =
    overlay (if platform = .windows then nonEmpty options.pipeName else none) .commandLine
      (config.setting DaemonConfig.pipeName "pipe_name")
  pipeSddl : config'.setting DaemonConfig.pipeSddl "pipe_sddl" =
    overlay (if platform = .windows then nonEmpty options.pipeSddl else none) .commandLine
      (config.setting DaemonConfig.pipeSddl "pipe_sddl")
  logFile : config'.setting DaemonConfig.logFile "log_file" =
    config.setting DaemonConfig.logFile "log_file"
  programConfigFile : config'.setting DaemonConfig.programConfigFile "program_config_file" =
    config.setting DaemonConfig.programConfigFile "program_config_file"
  appLogDir : config'.setting DaemonConfig.appLogDir "app_log_dir" =
    config.setting DaemonConfig.appLogDir "app_log_dir"
  appEnvironDir : config'.setting DaemonConfig.appEnvironDir "app_environ_dir" =
    config.setting DaemonConfig.appEnvironDir "app_environ_dir"
  socketFile : config'.setting DaemonConfig.socketFile "socket_file" =
    config.setting DaemonConfig.socketFile "socket_file"
  udsAbstractNamespace :
    config'.setting DaemonConfig.udsAbstractNamespace "uds_abstract_namespace" =
      config.setting DaemonConfig.udsAbstractNamespace "uds_abstract_namespace"
  processTreeMode : config'.setting DaemonConfig.processTreeMode "process_tree_mode" =
    config.setting DaemonConfig.processTreeMode "process_tree_mode"
  cgroupRoot : config'.setting DaemonConfig.cgroupRoot "cgroup_root" =
    config.setting DaemonConfig.cgroupRoot "cgroup_root"
  allowedUids : config'.setting DaemonConfig.allowedUids "allowed_uids" =
    config.setting DaemonConfig.allowedUids "allowed_uids"
  allowedGids : config'.setting DaemonConfig.allowedGids "allowed_gids" =
    config.setting DaemonConfig.allowedGids "allowed_gids"
  configPath : config'.setting DaemonConfig.configPath "config_path" =
    config.setting DaemonConfig.configPath "config_path"

section CommandLine

variable {config config' : DaemonConfig} {get : DaemonConfig → α} {getText : DaemonConfig → String}
  (hsource : config'.sourceOf =
    setSources id .commandLine (commandLineSources options platform) config.sourceOf)

include hsource

theorem given_over (hget : get config' = if given = true then value else get config)
    (h : (given, field) ∈ commandLineSources options platform) :
    config'.setting get field =
      overlay (if given = true then some value else none) .commandLine
        (config.setting get field) := by
  have hnodup : ((commandLineSources options platform).map Prod.snd).Nodup := by
    show ["home_dir", "log_level", "log_max_size_kb", "log_archive_count", "pipe_name",
      "pipe_sddl"].Nodup
    decide
  have hfield : config'.sourceOf field =
      if given = true then .commandLine else config.sourceOf field := by
    rw [hsource]
    exact setSources_of_mem h hnodup
  rw [DaemonConfig.setting, hget, hfield]
  split
  · rfl
  · rfl

theorem pipe_over (hget : getText config' =
      if platform = .windows ∧ value ≠ "" then value else getText config)
    (h : (platform = .windows && value ≠ "", field) ∈ commandLineSources options platform) :
    config'.setting getText field =
      overlay (if platform = .windows then nonEmpty value else none) .commandLine
        (config.setting getText field) := by
  have hgiven : (if (decide (platform = .windows) && decide (value ≠ "")) = true then some value
      else none) = if platform = .windows then nonEmpty value else none := by
    rw [nonEmpty]
    cases platform with
    | posix => rfl
    | windows =>
      by_cases hvalue : value = ""
      · rw [if_neg (by rw [hvalue]; decide), if_pos rfl, if_pos hvalue]
      · rw [if_pos (by rw [Bool.and_eq_true]; exact ⟨rfl, decide_eq_true hvalue⟩), if_pos rfl,
          if_neg hvalue]
  rw [← hgiven]
  apply given_over hsource ?_ h
  rw [hget]
  simp only [Bool.and_eq_true, decide_eq_true_eq]

theorem not_given (hget : get config' = get config)
    (h : field ∉ ["home_dir", "log_level", "log_max_size_kb", "log_archive_count", "pipe_name",
      "pipe_sddl"]) : config'.setting get field = config.setting get field := by
  have hfield : config'.sourceOf field = config.sourceOf field := by
    rw [hsource]
    apply setSources_of_not_mem
    intro entry hentry heq
    apply h
    rw [heq]
    exact List.mem_map_of_mem (f := Prod.snd) hentry
  rw [DaemonConfig.setting, hget, hfield]
  rfl

end CommandLine

theorem applyCommandLine_applied (options : DaemonCliOptions) (platform : DaemonPlatform)
    (config : DaemonConfig) :
    CommandLineApplied options platform config (applyCommandLine options platform config) where
  homeDir := given_over rfl rfl (.head _)
  logLevel := given_over rfl rfl (.tail _ (.head _))
  logMaxSizeKb := given_over rfl rfl (.tail _ (.tail _ (.head _)))
  logArchiveCount := given_over rfl rfl (.tail _ (.tail _ (.tail _ (.head _))))
  pipeName := pipe_over rfl rfl (.tail _ (.tail _ (.tail _ (.tail _ (.head _)))))
  pipeSddl := pipe_over rfl rfl (.tail _ (.tail _ (.tail _ (.tail _ (.tail _ (.head _))))))
  logFile := not_given rfl rfl (by decide)
  programConfigFile := not_given rfl rfl (by decide)
  appLogDir := not_given rfl rfl (by decide)
  appEnvironDir := not_given rfl rfl (by decide)
  socketFile := not_given rfl rfl (by decide)
  udsAbstractNamespace := not_given rfl rfl (by decide)
  processTreeMode := not_given rfl rfl (by decide)
  cgroupRoot := not_given rfl rfl (by decide)
  allowedUids := not_given rfl rfl (by decide)
  allowedGids := not_given rfl rfl (by decide)
  configPath := not_given rfl rfl (by decide)

/-- A field that is derived from home when it is empty after `post`. -/
def derivedSetting (post : String → String) (derived : String)
    (pair : String × DaemonConfigSource) : String × DaemonConfigSource :=
  if post pair.1 = "" then (derived, .derived) else (post pair.1, pair.2)

/-- The directories are trimmed, and what is empty is derived. -/
structure Finished (system : DaemonSystem) (platform : DaemonPlatform)
    (config config' : DaemonConfig) : Prop where
  homeDir : config'.setting DaemonConfig.homeDir "home_dir" =
    (trimTrailingSeparators
      (if config.homeDir = "" then defaultHome system platform else config.homeDir) platform,
      config.sourceOf "home_dir")
  lockFile : config'.setting DaemonConfig.lockFile "lock_file" =
    (joinPath config'.homeDir "pm_tiny.pid" platform, .derived)
  logFile : config'.setting DaemonConfig.logFile "log_file" =
    derivedSetting id (joinPath config'.homeDir "pm_tiny.log" platform)
      (config.setting DaemonConfig.logFile "log_file")
  programConfigFile : config'.setting DaemonConfig.programConfigFile "program_config_file" =
    derivedSetting id (joinPath config'.homeDir "prog.yaml" platform)
      (config.setting DaemonConfig.programConfigFile "program_config_file")
  appLogDir : config'.setting DaemonConfig.appLogDir "app_log_dir" =
    derivedSetting (fun path => trimTrailingSeparators path platform)
      (joinPath config'.homeDir "logs" platform)
      (config.setting DaemonConfig.appLogDir "app_log_dir")
  appEnvironDir : config'.setting DaemonConfig.appEnvironDir "app_environ_dir" =
    derivedSetting (fun path => trimTrailingSeparators path platform)
      (joinPath config'.homeDir "environ" platform)
      (config.setting DaemonConfig.appEnvironDir "app_environ_dir")
  socketFile : config'.setting DaemonConfig.socketFile "socket_file" =
    if platform = .posix ∧ config.socketFile = "" then
      (if config'.udsAbstractNamespace then "pm_tinyd"
        else joinPath config'.homeDir "pm_tinyd.sock" platform, .derived)
    else config.setting DaemonConfig.socketFile "socket_file"
  logLevel : config'.setting DaemonConfig.logLevel "log_level" =
    config.setting DaemonConfig.logLevel "log_level"
  logMaxSizeKb : config'.setting DaemonConfig.logMaxSizeKb "log_max_size_kb" =
    config.setting DaemonConfig.logMaxSizeKb "log_max_size_kb"
  logArchiveCount : config'.setting DaemonConfig.logArchiveCount "log_archive_count" =
    config.setting DaemonConfig.logArchiveCount "log_archive_count"
  udsAbstractNamespace :
    config'.setting DaemonConfig.udsAbstractNamespace "uds_abstract_namespace" =
      config.setting DaemonConfig.udsAbstractNamespace "uds_abstract_namespace"
  processTreeMode : config'.setting DaemonConfig.processTreeMode "process_tree_mode" =
    config.setting DaemonConfig.processTreeMode "process_tree_mode"
  cgroupRoot : config'.setting DaemonConfig.cgroupRoot "cgroup_root" =
    config.setting DaemonConfig.cgroupRoot "cgroup_root"
  allowedUids : config'.setting DaemonConfig.allowedUids "allowed_uids" =
    config.setting DaemonConfig.allowedUids "allowed_uids"
  allowedGids : config'.setting DaemonConfig.allowedGids "allowed_gids" =
    config.setting DaemonConfig.allowedGids "allowed_gids"
  pipeName : config'.setting DaemonConfig.pipeName "pipe_name" =
    config.setting DaemonConfig.pipeName "pipe_name"
  pipeSddl : config'.setting DaemonConfig.pipeSddl "pipe_sddl" =
    config.setting DaemonConfig.pipeSddl "pipe_sddl"
  configPath : config'.setting DaemonConfig.configPath "config_path" =
    config.setting DaemonConfig.configPath "config_path"

section Derived

variable {settled config' : DaemonConfig} {get : DaemonConfig → α}
  {getText : DaemonConfig → String}
  (hsource : config'.sourceOf =
    setSources id .derived (derivedSources platform settled) settled.sourceOf)

include hsource

theorem derived_source (h : (given, field) ∈ derivedSources platform settled) :
    config'.sourceOf field = if given = true then .derived else settled.sourceOf field := by
  have hnodup : ((derivedSources platform settled).map Prod.snd).Nodup := by
    show ["log_file", "program_config_file", "app_log_dir", "app_environ_dir", "lock_file",
      "socket_file"].Nodup
    decide
  rw [hsource]
  exact setSources_of_mem h hnodup

theorem derived_over (hget : getText config' =
      if getText settled = "" then value else getText settled)
    (h : (decide (getText settled = ""), field) ∈ derivedSources platform settled)
    (hpost : getText settled = post (getText config)) (hfield : settled.sourceOf field =
      config.sourceOf field) :
    config'.setting getText field = derivedSetting post value (config.setting getText field) := by
  rw [DaemonConfig.setting, DaemonConfig.setting, hget, derived_source hsource h, derivedSetting,
    hfield, hpost]
  by_cases hempty : post (getText config) = ""
  · rw [if_pos hempty, if_pos hempty, if_pos (decide_eq_true hempty)]
  · rw [if_neg hempty, if_neg hempty, if_neg (by rw [decide_eq_true_eq]; exact hempty)]

theorem not_derived (hget : get config' = get settled) (hkeep : get settled = get config)
    (hfield : settled.sourceOf field = config.sourceOf field)
    (h : field ∉ ["log_file", "program_config_file", "app_log_dir", "app_environ_dir", "lock_file",
      "socket_file"]) : config'.setting get field = config.setting get field := by
  have hsame : config'.sourceOf field = settled.sourceOf field := by
    rw [hsource]
    apply setSources_of_not_mem
    intro entry hentry heq
    apply h
    rw [heq]
    exact List.mem_map_of_mem (f := Prod.snd) hentry
  rw [DaemonConfig.setting, hget, hkeep, hsame, hfield]
  rfl

end Derived

theorem derivePaths_finished (system : DaemonSystem) (platform : DaemonPlatform)
    (config : DaemonConfig) : Finished system platform config
      (derivePaths platform (settleDirectories system platform config)) := by
  obtain ⟨settled, hsettled⟩ : ∃ settled, settleDirectories system platform config = settled :=
    ⟨_, rfl⟩
  have hsource : (derivePaths platform settled).sourceOf =
      setSources id .derived (derivedSources platform settled) settled.sourceOf := rfl
  have hfield : ∀ field, settled.sourceOf field = config.sourceOf field := by
    rw [← hsettled]
    exact fun _ => rfl
  rw [hsettled]
  exact {
    homeDir := by
      rw [← hfield]
      refine (not_derived hsource rfl rfl rfl (by decide)).trans ?_
      simp only [DaemonConfig.setting, ← hsettled, settleDirectories]
    lockFile :=
      Prod.ext rfl (derived_source hsource (.tail _ (.tail _ (.tail _ (.tail _ (.head _))))))
    logFile := derived_over hsource rfl (.head _)
      (by simp only [← hsettled, settleDirectories, id]) (hfield _)
    programConfigFile := derived_over hsource rfl (.tail _ (.head _))
      (by simp only [← hsettled, settleDirectories, id]) (hfield _)
    appLogDir := derived_over hsource rfl (.tail _ (.tail _ (.head _)))
      (by simp only [← hsettled, settleDirectories]) (hfield _)
    appEnvironDir := derived_over hsource rfl (.tail _ (.tail _ (.tail _ (.head _))))
      (by simp only [← hsettled, settleDirectories]) (hfield _)
    socketFile := by
      have hsocket : settled.socketFile = config.socketFile := by
        simp only [← hsettled, settleDirectories]
      have hgiven :=
        derived_source hsource (.tail _ (.tail _ (.tail _ (.tail _ (.tail _ (.head _))))))
      simp only [Bool.and_eq_true, decide_eq_true_eq, hsocket, hfield] at hgiven
      have hvalue : (derivePaths platform settled).socketFile =
          if platform = .posix ∧ settled.socketFile = "" then
            if (derivePaths platform settled).udsAbstractNamespace then "pm_tinyd"
            else joinPath (derivePaths platform settled).homeDir "pm_tinyd.sock" platform
          else settled.socketFile := rfl
      rw [DaemonConfig.setting, hvalue, hgiven, hsocket]
      split
      · rfl
      · rfl
    logLevel := not_derived hsource rfl (by simp only [← hsettled, settleDirectories]) (hfield _)
      (by decide)
    logMaxSizeKb :=
      not_derived hsource rfl (by simp only [← hsettled, settleDirectories]) (hfield _)
      (by decide)
    logArchiveCount :=
      not_derived hsource rfl (by simp only [← hsettled, settleDirectories]) (hfield _)
      (by decide)
    udsAbstractNamespace :=
      not_derived hsource rfl (by simp only [← hsettled, settleDirectories]) (hfield _)
      (by decide)
    processTreeMode :=
      not_derived hsource rfl (by simp only [← hsettled, settleDirectories]) (hfield _)
      (by decide)
    cgroupRoot := not_derived hsource rfl (by simp only [← hsettled, settleDirectories]) (hfield _)
      (by decide)
    allowedUids := not_derived hsource rfl (by simp only [← hsettled, settleDirectories]) (hfield _)
      (by decide)
    allowedGids := not_derived hsource rfl (by simp only [← hsettled, settleDirectories]) (hfield _)
      (by decide)
    pipeName := not_derived hsource rfl (by simp only [← hsettled, settleDirectories]) (hfield _)
      (by decide)
    pipeSddl := not_derived hsource rfl (by simp only [← hsettled, settleDirectories]) (hfield _)
      (by decide)
    configPath := not_derived hsource rfl (by simp only [← hsettled, settleDirectories]) (hfield _)
      (by decide) }

structure Composed (system : DaemonSystem) (options : DaemonCliOptions) (platform : DaemonPlatform)
    (file config : DaemonConfig) : Prop where
  configPath : config.setting DaemonConfig.configPath "config_path" =
    file.setting DaemonConfig.configPath "config_path"
  homeDir : ∃ pair : String × DaemonConfigSource,
    pair = overlay (if options.homeExplicit then some options.homeDir else none) .commandLine
        (overlay (nonEmpty (system.environment "PM_TINY_HOME")) .environment
          (file.setting DaemonConfig.homeDir "home_dir")) ∧
      config.setting DaemonConfig.homeDir "home_dir" =
        (trimTrailingSeparators (if pair.1 = "" then defaultHome system platform else pair.1)
          platform, pair.2)
  lockFile : config.setting DaemonConfig.lockFile "lock_file" =
    (joinPath config.homeDir "pm_tiny.pid" platform, .derived)
  logFile : config.setting DaemonConfig.logFile "log_file" =
    derivedSetting id (joinPath config.homeDir "pm_tiny.log" platform)
      (overlay (nonEmpty (system.environment "PM_TINY_LOG_FILE")) .environment
        (file.setting DaemonConfig.logFile "log_file"))
  programConfigFile : config.setting DaemonConfig.programConfigFile "program_config_file" =
    derivedSetting id (joinPath config.homeDir "prog.yaml" platform)
      (overlay (nonEmpty (system.environment "PM_TINY_PROG_CFG_FILE")) .environment
        (file.setting DaemonConfig.programConfigFile "program_config_file"))
  appLogDir : config.setting DaemonConfig.appLogDir "app_log_dir" =
    derivedSetting (fun path => trimTrailingSeparators path platform)
      (joinPath config.homeDir "logs" platform)
      (overlay (nonEmpty (system.environment "PM_TINY_APP_LOG_DIR")) .environment
        (file.setting DaemonConfig.appLogDir "app_log_dir"))
  appEnvironDir : config.setting DaemonConfig.appEnvironDir "app_environ_dir" =
    derivedSetting (fun path => trimTrailingSeparators path platform)
      (joinPath config.homeDir "environ" platform)
      (overlay (nonEmpty (system.environment "PM_TINY_APP_ENVIRON_DIR")) .environment
        (file.setting DaemonConfig.appEnvironDir "app_environ_dir"))
  logLevel : config.setting DaemonConfig.logLevel "log_level" =
    overlay (if options.logLevelExplicit then some options.logLevel else none) .commandLine
      (overlay (nonEmpty (system.environment "PM_TINY_LOG_LEVEL")) .environment
        (file.setting DaemonConfig.logLevel "log_level"))
  logMaxSizeKb : config.setting DaemonConfig.logMaxSizeKb "log_max_size_kb" =
    overlay (if options.logMaxSizeExplicit then some options.logMaxSizeKb else none) .commandLine
      (overlay ((nonEmpty (system.environment "PM_TINY_LOG_MAX_SIZE_KB")).bind
          fun text => parseLong text 1 1048576) .environment
        (file.setting DaemonConfig.logMaxSizeKb "log_max_size_kb"))
  logArchiveCount : config.setting DaemonConfig.logArchiveCount "log_archive_count" =
    overlay (if options.logArchiveCountExplicit then some options.logArchiveCount else none)
      .commandLine
      (overlay ((nonEmpty (system.environment "PM_TINY_LOG_ARCHIVE_COUNT")).bind
          fun text => parseLong text 0 100) .environment
        (file.setting DaemonConfig.logArchiveCount "log_archive_count"))
  socketFile : ∃ pair : String × DaemonConfigSource,
    pair = overlay (platformEnvironment system .posix platform "PM_TINY_SOCK_FILE") .environment
        (file.setting DaemonConfig.socketFile "socket_file") ∧
      config.setting DaemonConfig.socketFile "socket_file" =
        if platform = .posix ∧ pair.1 = "" then
          (if config.udsAbstractNamespace then "pm_tinyd"
            else joinPath config.homeDir "pm_tinyd.sock" platform, .derived)
        else pair
  udsAbstractNamespace :
    config.setting DaemonConfig.udsAbstractNamespace "uds_abstract_namespace" =
      overlay ((platformEnvironment system .posix platform "PM_TINY_UDS_ABSTRACT_NAMESPACE").bind
          parseBool) .environment
        (file.setting DaemonConfig.udsAbstractNamespace "uds_abstract_namespace")
  processTreeMode : config.setting DaemonConfig.processTreeMode "process_tree_mode" =
    overlay (platformEnvironment system .posix platform "PM_TINY_PROCESS_TREE_MODE") .environment
      (file.setting DaemonConfig.processTreeMode "process_tree_mode")
  cgroupRoot : config.setting DaemonConfig.cgroupRoot "cgroup_root" =
    overlay (platformEnvironment system .posix platform "PM_TINY_CGROUP_ROOT") .environment
      (file.setting DaemonConfig.cgroupRoot "cgroup_root")
  allowedUids : config.setting DaemonConfig.allowedUids "allowed_uids" =
    file.setting DaemonConfig.allowedUids "allowed_uids"
  allowedGids : config.setting DaemonConfig.allowedGids "allowed_gids" =
    file.setting DaemonConfig.allowedGids "allowed_gids"
  pipeName : config.setting DaemonConfig.pipeName "pipe_name" =
    overlay (if platform = .windows then nonEmpty options.pipeName else none) .commandLine
      (overlay (platformEnvironment system .windows platform "PM_TINY_PIPE_NAME") .environment
        (file.setting DaemonConfig.pipeName "pipe_name"))
  pipeSddl : config.setting DaemonConfig.pipeSddl "pipe_sddl" =
    overlay (if platform = .windows then nonEmpty options.pipeSddl else none) .commandLine
      (overlay (platformEnvironment system .windows platform "PM_TINY_PIPE_SDDL") .environment
        (file.setting DaemonConfig.pipeSddl "pipe_sddl"))

theorem composed (henvironment : EnvironmentApplied system platform file config)
    (hcommand : CommandLineApplied options platform config given)
    (hfinished : Finished system platform given result) :
    Composed system options platform file result where
  configPath := hfinished.configPath.trans (hcommand.configPath.trans henvironment.configPath)
  homeDir := by
    refine ⟨_, rfl, ?_⟩
    rw [← henvironment.homeDir, ← hcommand.homeDir]
    exact hfinished.homeDir
  lockFile := hfinished.lockFile
  logFile := by
    rw [← henvironment.logFile, ← hcommand.logFile]
    exact hfinished.logFile
  programConfigFile := by
    rw [← henvironment.programConfigFile, ← hcommand.programConfigFile]
    exact hfinished.programConfigFile
  appLogDir := by
    rw [← henvironment.appLogDir, ← hcommand.appLogDir]
    exact hfinished.appLogDir
  appEnvironDir := by
    rw [← henvironment.appEnvironDir, ← hcommand.appEnvironDir]
    exact hfinished.appEnvironDir
  logLevel := by rw [hfinished.logLevel, hcommand.logLevel, henvironment.logLevel]
  logMaxSizeKb := by
    rw [hfinished.logMaxSizeKb, hcommand.logMaxSizeKb, henvironment.logMaxSizeKb]
  logArchiveCount := by
    rw [hfinished.logArchiveCount, hcommand.logArchiveCount, henvironment.logArchiveCount]
  socketFile := by
    refine ⟨_, rfl, ?_⟩
    rw [← henvironment.socketFile, ← hcommand.socketFile]
    exact hfinished.socketFile
  udsAbstractNamespace := by
    rw [hfinished.udsAbstractNamespace, hcommand.udsAbstractNamespace,
      henvironment.udsAbstractNamespace]
  processTreeMode := by
    rw [hfinished.processTreeMode, hcommand.processTreeMode, henvironment.processTreeMode]
  cgroupRoot := by rw [hfinished.cgroupRoot, hcommand.cgroupRoot, henvironment.cgroupRoot]
  allowedUids := hfinished.allowedUids.trans (hcommand.allowedUids.trans henvironment.allowedUids)
  allowedGids := hfinished.allowedGids.trans (hcommand.allowedGids.trans henvironment.allowedGids)
  pipeName := by rw [hfinished.pipeName, hcommand.pipeName, henvironment.pipeName]
  pipeSddl := by rw [hfinished.pipeSddl, hcommand.pipeSddl, henvironment.pipeSddl]

/-- What the configuration file holds, nothing when none is loaded. -/
def loadedRoot (system : DaemonSystem) (options : DaemonCliOptions) (platform : DaemonPlatform) :
    Yaml :=
  let path := (initialConfig system options platform).configPath
  if options.configExplicit = true ∨ system.fileExists path = true then
    match loadYamlFile system path with
    | .ok root => root
    | .error _ => .mapping []
  else .mapping []

/-- A configuration was accepted, with the file stage `file`. -/
structure Accepted (system : DaemonSystem) (options : DaemonCliOptions) (platform : DaemonPlatform)
    (file config : DaemonConfig) : Prop where
  fromFile : FromFile system (initialConfig system options platform).configPath
    (configPathSource options) platform (loadedRoot system options platform) file
  explicit : options.configExplicit = true → options.configPath ≠ ""
  logLevel : validLogLevel file.logLevel = true
  composed : Composed system options platform file config
  pipe : platform = .windows → config.pipeName ≠ "" ∧ config.pipeSddl ≠ ""

theorem loadYamlFile_empty (system : DaemonSystem) : loadYamlFile system "" ≠ .ok root := by
  obtain ⟨reason, hempty⟩ := system.file_empty
  rw [loadYamlFile, hempty]
  intro hroot
  cases hroot

theorem readConfigFile_eq_ok (h : readConfigFile system options platform
      (initialConfig system options platform) = .ok file) :
    FromFile system (initialConfig system options platform).configPath (configPathSource options)
        platform (loadedRoot system options platform) file ∧
      (options.configExplicit = true → options.configPath ≠ "") := by
  have hinitial := initialConfig_initial system options platform
  rw [readConfigFile] at h
  split at h
  · rename_i hload
    obtain ⟨root, fields, hroot, hfields, rfl, hposix, hwindows⟩ := loadFileConfig_eq_ok h
    have hloaded : loadedRoot system options platform = root := by
      rw [loadedRoot, if_pos hload, hroot]
    rw [hloaded]
    refine ⟨.loaded hfields hinitial hposix hwindows, ?_⟩
    intro hexplicit hempty
    have hpath : (initialConfig system options platform).configPath = "" := by
      rw [initialConfig, if_pos hexplicit, hempty]
    rw [hpath] at hroot
    exact loadYamlFile_empty system hroot
  · rename_i hload
    cases h
    have hloaded : loadedRoot system options platform = .mapping [] := by
      rw [loadedRoot, if_neg hload]
    rw [hloaded]
    exact ⟨.absent hinitial, fun hexplicit => absurd (.inl hexplicit) hload⟩

theorem resolveDaemonConfig_eq_ok (h : resolveDaemonConfig system options platform = .ok config) :
    ∃ file, Accepted system options platform file config := by
  obtain ⟨file, hfile, h⟩ := bind_eq_ok.1 h
  obtain ⟨_, hlevel, h⟩ := bind_eq_ok.1 h
  obtain ⟨_, -, h⟩ := bind_eq_ok.1 h
  obtain ⟨_, -, h⟩ := bind_eq_ok.1 h
  obtain ⟨environment, henvironment, h⟩ := bind_eq_ok.1 h
  obtain ⟨_, -, h⟩ := bind_eq_ok.1 h
  obtain ⟨_, hname, h⟩ := bind_eq_ok.1 h
  obtain ⟨_, hsddl, h⟩ := bind_eq_ok.1 h
  obtain ⟨hfrom, hexplicit⟩ := readConfigFile_eq_ok hfile
  cases h
  refine ⟨file, hfrom, hexplicit, Classical.not_not.1 (rejectIf_eq_ok.1 hlevel), ?_, ?_⟩
  · exact composed (applyEnvironment_eq_ok henvironment) (applyCommandLine_applied _ _ _)
      (derivePaths_finished _ _ _)
  · intro hplatform
    exact ⟨fun hempty => rejectIf_eq_ok.1 hname ⟨hplatform, hempty⟩,
      fun hempty => rejectIf_eq_ok.1 hsddl ⟨hplatform, hempty⟩⟩

end PmTiny

