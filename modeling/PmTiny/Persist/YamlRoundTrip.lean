import PmTiny.Persist.ProgCfg

namespace PmTiny.Persist
set_option autoImplicit true

structure AcceptableRestart (cfg : ProgCfg) : Prop where
  delay : 0 ≤ cfg.restartDelayMs ∧ cfg.restartDelayMs ≤ restartDurationMaxMs
  maxDelay : 0 ≤ cfg.restartMaxDelayMs ∧ cfg.restartMaxDelayMs ≤ restartDurationMaxMs
  window : 1 ≤ cfg.restartWindowMs ∧ cfg.restartWindowMs ≤ restartDurationMaxMs
  attempts : 0 ≤ cfg.restartMaxAttempts ∧ cfg.restartMaxAttempts ≤ restartAttemptsMax
  resetAfter : 0 ≤ cfg.restartResetAfterMs ∧ cfg.restartResetAfterMs ≤ restartDurationMaxMs
  ordered : ¬cfg.restartMaxDelayMs < cfg.restartDelayMs

structure AcceptableLogging (cfg : ProgCfg) : Prop where
  pty : ¬(cfg.pty = true ∧ cfg.logMode = .split)
  logMaxSize : 1 ≤ cfg.logMaxSizeKb ∧ cfg.logMaxSizeKb ≤ 1048576
  logArchive : 0 ≤ cfg.logArchiveCount ∧ cfg.logArchiveCount ≤ 100

structure Acceptable (cfg : ProgCfg) : Prop where
  envVars : ∀ entry ∈ cfg.envVars, reservedKey (envKey entry) = false
  restart : AcceptableRestart cfg
  logging : AcceptableLogging cfg

theorem sequence_ofStrings (values : List String) (field entry : String) :
    parseStringSequence (some (.ofStrings values)) field entry = (values, []) := by
  simp [parseStringSequence, Yaml.ofStrings, List.filterMap_map, Function.comp_def]

@[simp] theorem ok_bind (a : α) (f : α → Except ε β) : (Except.ok a >>= f) = f a := rfl

@[simp] theorem throw_eq_error (e : ε) : (throw e : Except ε α) = .error e := rfl

@[simp] theorem error_bind (e : ε) (f : α → Except ε β) : (Except.error e >>= f) = .error e := rfl

theorem bind_eq_ok {x : Except ε α} {f : α → Except ε β} :
    x >>= f = .ok b ↔ ∃ a, x = .ok a ∧ f a = .ok b := by
  cases x with
  | error e => simp
  | ok a => simp

theorem validateRange_eq_ok : validateRange value minimum maximum key entry = .ok u ↔
    minimum ≤ value ∧ value ≤ maximum := by
  rw [validateRange]
  split <;> simp_all

theorem serialize_members (cfg : ProgCfg) :
    let node := serializeProgCfgYamlNode cfg
    node.get? "name" = some (.scalar cfg.name) ∧
    node.get? "cwd" = some (.scalar cfg.cwd) ∧
    node.get? "executable" = some (.scalar cfg.executable) ∧
    node.get? "args" = some (.ofStrings cfg.args) ∧
    node.get? "env_vars" = some (.ofStrings cfg.envVars) ∧
    node.get? "kill_timeout_s" = some (.ofInt cfg.killTimeoutS) ∧
    node.get? "user" = some (.scalar cfg.runAs) ∧
    node.get? "run_as" = none ∧
    node.get? "run_as_user" = none ∧
    node.get? "command" = none ∧
    node.get? "depends_on" = some (.ofStrings cfg.dependsOn) ∧
    node.get? "start_timeout" = some (.ofInt cfg.startTimeout) ∧
    node.get? "failure_action" = some (.scalar (failureActionToStr cfg.failureAction)) ∧
    node.get? "daemon" = some (.ofBool cfg.daemon) ∧
    node.get? "heartbeat_timeout" = some (.ofInt cfg.heartbeatTimeout) ∧
    node.get? "oom_score_adj" = some (.ofInt cfg.oomScoreAdj) ∧
    node.get? "pty" = some (.ofBool cfg.pty) ∧
    node.get? "log_mode" = some (.scalar (logModeName cfg.logMode)) ∧
    node.get? "log_dir" = (if cfg.logDir = "" then none else some (.scalar cfg.logDir)) ∧
    node.get? "log_file_name" =
      (if cfg.logFileName = "" then none else some (.scalar cfg.logFileName)) ∧
    node.get? "log_max_size_kb" = some (.ofInt cfg.logMaxSizeKb) ∧
    node.get? "log_archive_count" = some (.ofInt cfg.logArchiveCount) ∧
    node.get? "restart_delay_ms" = some (.ofInt cfg.restartDelayMs) ∧
    node.get? "restart_max_delay_ms" = some (.ofInt cfg.restartMaxDelayMs) ∧
    node.get? "restart_window_ms" = some (.ofInt cfg.restartWindowMs) ∧
    node.get? "restart_max_attempts" = some (.ofInt cfg.restartMaxAttempts) ∧
    node.get? "restart_reset_after_ms" = some (.ofInt cfg.restartResetAfterMs) := by
  by_cases hd : cfg.logDir = "" <;> by_cases hf : cfg.logFileName = "" <;>
    simp [serializeProgCfgYamlNode, optionalText, Yaml.get?, List.lookup_cons, hd, hf]

theorem readOptionalString_text {node : Yaml} {text : String}
    (hg : node.get? key = if text = "" then none else some (.scalar text)) :
    readOptionalString node key "" entry = .ok text := by
  rw [readOptionalString, readOptional, hg]
  split_ifs with h
  · rw [h]
  · rfl

theorem removed_serialize (cfg : ProgCfg) :
    removedFields.find? (fun key => ((serializeProgCfgYamlNode cfg).get? key).isSome) = none := by
  by_cases hd : cfg.logDir = "" <;> by_cases hf : cfg.logFileName = "" <;>
    simp [removedFields, serializeProgCfgYamlNode, optionalText, Yaml.get?,
      List.lookup_cons, hd, hf]

theorem failureAction_serialize (action : FailureAction) :
    strToFailureAction (failureActionToStr action) = .ok action := by
  cases action <;> rfl

theorem logMode_serialize (mode : LogMode) : parseLogMode (logModeName mode) = some mode := by
  cases mode <;> rfl

theorem runAs_serialize (cfg : ProgCfg) (name : String) :
    parseRunAs (serializeProgCfgYamlNode cfg) name = .ok cfg.runAs := by
  simp only [parseRunAs, readOptionalString, readOptional, serialize_members, Yaml.asString_scalar,
    ok_bind]
  split_ifs with h
  · rfl
  · rw [not_not.1 h]

theorem killTimeout_serialize (cfg : ProgCfg) (name : String) :
    parseKillTimeout (serializeProgCfgYamlNode cfg) name = .ok cfg.killTimeoutS := by
  simp [parseKillTimeout, readOptionalInt, readOptional, serialize_members]

theorem failureActionNode_serialize (cfg : ProgCfg) (name : String) :
    parseFailureAction (serializeProgCfgYamlNode cfg) name = .ok (cfg.failureAction, []) := by
  simp only [parseFailureAction, readOptionalString, readOptional, serialize_members,
    Yaml.asString_scalar, ok_bind, failureAction_serialize]
  rfl

theorem rejectIf_eq_ok {condition : Prop} [Decidable condition] :
    rejectIf condition message = .ok u ↔ ¬condition := by
  rw [rejectIf]
  split_ifs with h <;> simp [h]

theorem rejectAny_eq_ok {found : Option α} : rejectAny found message = .ok u ↔ found = none := by
  cases found <;> simp [rejectAny]

theorem logModeNode_serialize {mode : LogMode} (cfg : ProgCfg) (name : String) :
    parseLogModeNode (serializeProgCfgYamlNode cfg) cfg.pty name = .ok mode ↔
      ¬(cfg.pty = true ∧ cfg.logMode = .split) ∧ cfg.logMode = mode := by
  simp only [parseLogModeNode, readOptionalString, readOptional, serialize_members,
    Yaml.asString_scalar, ok_bind, logMode_serialize, bind_eq_ok, rejectIf_eq_ok]
  simp [pure, Except.pure]

theorem parseEnvVars_eq_ok : parseEnvVars node entry = .ok values ↔
    (∀ e ∈ values.1, reservedKey (envKey e) = false) ∧
      values = parseStringSequence (node.get? "env_vars") "env_vars" entry := by
  simp only [parseEnvVars, bind_eq_ok, rejectAny_eq_ok, List.find?_eq_none, Bool.not_eq_true]
  constructor
  · rintro ⟨-, henv, hvalues⟩
    cases hvalues
    exact ⟨henv, rfl⟩
  · rintro ⟨henv, rfl⟩
    exact ⟨(), henv, rfl⟩

theorem parseRestart_ok (h : parseRestart node parsed = .ok cfg) :
    AcceptableRestart cfg ∧ cfg = { parsed with
      restartDelayMs := cfg.restartDelayMs, restartMaxDelayMs := cfg.restartMaxDelayMs
      restartWindowMs := cfg.restartWindowMs, restartMaxAttempts := cfg.restartMaxAttempts
      restartResetAfterMs := cfg.restartResetAfterMs } := by
  simp only [parseRestart, bind_eq_ok, rejectIf_eq_ok, validateRange_eq_ok] at h
  obtain ⟨delay, -, maxDelay, -, window, -, attempts, -, reset, -, -, hdelay, -, hmax, -, hwindow,
    -, hattempts, -, hreset, -, hordered, hcfg⟩ := h
  cases hcfg
  exact ⟨⟨hdelay, hmax, hwindow, hattempts, hreset, hordered⟩, rfl⟩

theorem parseLogging_ok (h : parseLogging node parsed = .ok cfg) :
    AcceptableLogging cfg ∧ cfg = { parsed with
      logMode := cfg.logMode, logDir := cfg.logDir, logFileName := cfg.logFileName
      logMaxSizeKb := cfg.logMaxSizeKb, logArchiveCount := cfg.logArchiveCount } := by
  simp only [parseLogging, bind_eq_ok, validateRange_eq_ok] at h
  obtain ⟨mode, hmode, dir, -, file, -, size, -, archive, -, -, hsize, -, harchive, hcfg⟩ := h
  have hpty : ¬(parsed.pty = true ∧ mode = .split) := by
    simp only [parseLogModeNode, bind_eq_ok, rejectIf_eq_ok] at hmode
    obtain ⟨value, hvalue, u, hu, u', hno, hm⟩ := hmode
    cases hm
    exact hno
  cases hcfg
  exact ⟨⟨hpty, hsize, harchive⟩, rfl⟩

theorem parseRestart_serialize :
    parseRestart (serializeProgCfgYamlNode cfg) parsed = .ok result ↔
      AcceptableRestart cfg ∧ result = { parsed with
        restartDelayMs := cfg.restartDelayMs, restartMaxDelayMs := cfg.restartMaxDelayMs
        restartWindowMs := cfg.restartWindowMs, restartMaxAttempts := cfg.restartMaxAttempts
        restartResetAfterMs := cfg.restartResetAfterMs } := by
  simp only [parseRestart, readOptionalInt, readOptional, serialize_members, Yaml.asInt_ofInt,
    ok_bind, bind_eq_ok, rejectIf_eq_ok, validateRange_eq_ok]
  constructor
  · rintro ⟨-, hdelay, -, hmax, -, hwindow, -, hattempts, -, hreset, -, hordered, hresult⟩
    exact ⟨⟨hdelay, hmax, hwindow, hattempts, hreset, hordered⟩, (Except.ok.inj hresult).symm⟩
  · rintro ⟨h, rfl⟩
    exact ⟨(), h.delay, (), h.maxDelay, (), h.window, (), h.attempts, (), h.resetAfter, (),
      h.ordered, rfl⟩

theorem parseLogging_serialize (hp : parsed.pty = cfg.pty) :
    parseLogging (serializeProgCfgYamlNode cfg) parsed = .ok result ↔
      AcceptableLogging cfg ∧ result = { parsed with
        logMode := cfg.logMode, logDir := cfg.logDir, logFileName := cfg.logFileName
        logMaxSizeKb := cfg.logMaxSizeKb, logArchiveCount := cfg.logArchiveCount } := by
  have hdir : readOptionalString (serializeProgCfgYamlNode cfg) "log_dir" "" parsed.name =
      .ok cfg.logDir := readOptionalString_text (by simp only [serialize_members])
  have hfile : readOptionalString (serializeProgCfgYamlNode cfg) "log_file_name" "" parsed.name =
      .ok cfg.logFileName := readOptionalString_text (by simp only [serialize_members])
  simp only [parseLogging, hp, hdir, hfile, readOptionalInt, readOptional, serialize_members,
    Yaml.asInt_ofInt, ok_bind, bind_eq_ok, validateRange_eq_ok, logModeNode_serialize]
  constructor
  · rintro ⟨mode, ⟨hpty, rfl⟩, -, hsize, -, harchive, hresult⟩
    exact ⟨⟨hpty, hsize, harchive⟩, (Except.ok.inj hresult).symm⟩
  · rintro ⟨h, rfl⟩
    exact ⟨_, ⟨h.pty, rfl⟩, (), h.logMaxSize, (), h.logArchive, rfl⟩

theorem parse_serialize : parseProgCfgYamlNode (serializeProgCfgYamlNode cfg) = .ok c ↔
    Acceptable cfg ∧ c = { cfg with envs := [] } := by
  simp only [parseProgCfgYamlNode, removed_serialize, killTimeout_serialize, runAs_serialize,
    failureActionNode_serialize, readRequiredString, serialize_members, sequence_ofStrings,
    Yaml.asString_scalar, ok_bind, readOptionalInt, readOptional, Yaml.asInt_ofInt,
    readOptionalBool, Yaml.asBool_ofBool, bind_eq_ok, rejectIf_eq_ok, rejectAny_eq_ok,
    parseEnvVars_eq_ok, parseRestart_serialize]
  constructor
  · rintro ⟨-, -, -, -, values, ⟨henv, hvalues⟩, parsed, ⟨hrestart, hparsed⟩, result, hlogging,
      -, -, hc⟩
    subst hvalues hparsed
    rw [parseLogging_serialize (by rfl)] at hlogging
    obtain ⟨hlog, hresult⟩ := hlogging
    refine ⟨⟨henv, hrestart, hlog⟩, ?_⟩
    rw [← Except.ok.inj hc, hresult]
  · rintro ⟨⟨henv, hrestart, hlog⟩, rfl⟩
    exact ⟨(), trivial, (), by simp, _, ⟨henv, rfl⟩, _, ⟨hrestart, rfl⟩, _,
      (parseLogging_serialize (by rfl)).2 ⟨hlog, rfl⟩, (), rfl, rfl⟩

theorem parse_steps (h : parseProgCfgYamlNode node = .ok cfg) :
    ∃ base parsed daemon pty, (∀ entry ∈ base.envVars, reservedKey (envKey entry) = false) ∧
      base.envs = [] ∧ parseRestart node base = .ok parsed ∧
      parseLogging node { parsed with daemon, pty } = .ok cfg := by
  simp only [parseProgCfgYamlNode, bind_eq_ok, parseEnvVars_eq_ok] at h
  obtain ⟨_, _, name, _, cwd, _, _, _, executable, _, kill, _, runAs, _, envVars, henv, start, _,
    action, _, heartbeat, _, oom, _, parsed, hparsed, daemon, _, pty, _, result, hresult, _, _,
    hcfg⟩ := h
  cases hcfg
  exact ⟨_, parsed, daemon, pty, henv.1, rfl, hparsed, hresult⟩

theorem parse_acceptable (h : parseProgCfgYamlNode node = .ok cfg) : Acceptable cfg := by
  obtain ⟨base, parsed, daemon, pty, henv, -, hparsed, hresult⟩ := parse_steps h
  obtain ⟨hrestart, hp⟩ := parseRestart_ok hparsed
  obtain ⟨hlog, hr⟩ := parseLogging_ok hresult
  refine ⟨?_, ?_, hlog⟩
  · rw [hr, hp]
    exact henv
  · rw [hr]
    exact ⟨hrestart.delay, hrestart.maxDelay, hrestart.window, hrestart.attempts,
      hrestart.resetAfter, hrestart.ordered⟩

theorem parse_envs (h : parseProgCfgYamlNode node = .ok cfg) : cfg.envs = [] := by
  obtain ⟨base, parsed, daemon, pty, -, henvs, hparsed, hresult⟩ := parse_steps h
  rw [(parseLogging_ok hresult).2, (parseRestart_ok hparsed).2]
  exact henvs

end PmTiny.Persist
