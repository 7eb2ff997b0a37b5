import PmTiny.Persist.YamlRoundTrip
import PmTiny.Wire.Codec

namespace PmTiny.Wire
set_option autoImplicit true
open StreamReader Persist

/-- A `prog_cfg_t` as a client and the daemon exchange it. -/
structure ProgCfg where
  name : Text
  cwd : Text
  executable : Text
  args : List Text := []
  killTimeoutS : Int32 := 3
  runAs : Text := []
  envs : List Text := []
  dependsOn : List Text := []
  startTimeout : Int32 := 0
  failureAction : FailureAction := .skip
  daemon : Bool := true
  heartbeatTimeout : Int32 := -1
  envVars : List Text := []
  oomScoreAdj : Int32 := 0
  pty : Bool := false
  logMode : LogMode := .split
  logDir : Text := []
  logFileName : Text := []
  logMaxSizeKb : Int32 := 4096
  logArchiveCount : Int32 := 3
  restartDelayMs : Int32 := 1000
  restartMaxDelayMs : Int32 := 30000
  restartWindowMs : Int32 := 60000
  restartMaxAttempts : Int32 := 10
  restartResetAfterMs : Int32 := 60000
  deriving DecidableEq, Repr

structure StartRequest where
  mode : StartMode := .existing
  name : Text
  config : ProgCfg
  inheritedEnv : List Text := []
  showLog : Bool := false
  deriving DecidableEq, Repr

def progCfgSchemaVersion : Int32 := 2

def startSchemaVersion : Int32 := 2

def maxStartItems : Int32 := 100000

def failureActionCode : FailureAction → Int32
  | .skip => 0
  | .restart => 1
  | .reboot => 2

def failureActionOf (code : Int32) : FailureAction :=
  if code = 0 then .skip else if code = 1 then .restart else .reboot

def logModeCode : LogMode → Int32
  | .split => 0
  | .combined => 1

def logModeOf (code : Int32) : LogMode := if code = 0 then .split else .combined

def startModeCode : StartMode → Int32
  | .existing => 0
  | .create => 1

def startModeOf (code : Int32) : StartMode := if code = 0 then .existing else .create

def startListTooLarge : Failure := .protocolError "start list is too large"

def appendProgCfg (cfg : ProgCfg) : List Item :=
  [Item.int32 progCfgSchemaVersion, .text cfg.name, .text cfg.cwd, .text cfg.executable] ++
  (appendStrings startListTooLarge cfg.args ++
  ([Item.int32 cfg.killTimeoutS, .text cfg.runAs] ++
  (appendStrings startListTooLarge cfg.envVars ++
  (appendStrings startListTooLarge cfg.dependsOn ++
  [Item.int32 cfg.startTimeout, .int32 (failureActionCode cfg.failureAction), .bool cfg.daemon,
    .int32 cfg.heartbeatTimeout, .int32 cfg.oomScoreAdj, .bool cfg.pty,
    .int32 (logModeCode cfg.logMode), .text cfg.logDir, .text cfg.logFileName,
    .int32 cfg.logMaxSizeKb, .int32 cfg.logArchiveCount, .int32 cfg.restartDelayMs,
    .int32 cfg.restartMaxDelayMs, .int32 cfg.restartWindowMs, .int32 cfg.restartMaxAttempts,
    .int32 cfg.restartResetAfterMs]))))

def readProgCfg : FrameReader ProgCfg := do
  let schema ← int32
  refuseIf (schema ≠ progCfgSchemaVersion) "unsupported program-config schema"
  let name ← text
  let cwd ← text
  let executable ← text
  let args ← readStrings maxStartItems "invalid start argv count"
  let killTimeoutS ← int32
  let runAs ← text
  let envVars ← readStrings maxStartItems "invalid explicit environment count"
  let dependsOn ← readStrings maxStartItems "invalid dependency count"
  let startTimeout ← int32
  let failureAction ← int32
  refuseIf (failureAction < 0 ∨ failureAction > 2) "invalid failure action"
  let daemon ← readBool "invalid daemon flag"
  let heartbeatTimeout ← int32
  let oomScoreAdj ← int32
  let pty ← readBool "invalid PTY flag"
  let logMode ← int32
  let logDir ← text
  let logFileName ← text
  let logMaxSizeKb ← int32
  let logArchiveCount ← int32
  refuseIf (logMode < 0 ∨ logMode > 1) "invalid log mode"
  let restartDelayMs ← int32
  let restartMaxDelayMs ← int32
  let restartWindowMs ← int32
  let restartMaxAttempts ← int32
  let restartResetAfterMs ← int32
  pure {
    name, cwd, executable, args, killTimeoutS, runAs, dependsOn, startTimeout
    failureAction := failureActionOf failureAction
    daemon, heartbeatTimeout, envVars, oomScoreAdj, pty
    logMode := logModeOf logMode
    logDir, logFileName, logMaxSizeKb, logArchiveCount, restartDelayMs, restartMaxDelayMs
    restartWindowMs, restartMaxAttempts, restartResetAfterMs }

/-- What is wrong with an entry of the explicit environment, if anything. -/
def envVarError (env : Text) : Option String :=
  if env = [] ∨ env.head? = some 0x3d ∨ 0x3d ∉ env then some "invalid explicit environment entry"
  else if "PM_TINY_".toUTF8.data.toList.isPrefixOf env then
    some "reserved PM_TINY environment override"
  else none

def validateStartConfig (cfg : ProgCfg) : Except String Unit := do
  rejectIf (cfg.name = [] ∨ cfg.cwd = [] ∨ cfg.executable = [])
    "start definition requires name, cwd and executable"
  rejectIf (cfg.killTimeoutS < 1) "kill timeout must be positive"
  rejectIf (cfg.oomScoreAdj < -1000 ∨ cfg.oomScoreAdj > 1000)
    "oom score adjustment is out of range"
  rejectIf (cfg.restartDelayMs < 0 ∨ cfg.restartMaxDelayMs < cfg.restartDelayMs ∨
    cfg.restartWindowMs < 1 ∨ cfg.restartMaxAttempts < 0 ∨ cfg.restartResetAfterMs < 0)
    "invalid restart policy"
  rejectIf (cfg.logMaxSizeKb < 1 ∨ cfg.logMaxSizeKb > 1048576 ∨
    cfg.logArchiveCount < 0 ∨ cfg.logArchiveCount > 100) "invalid log rotation configuration"
  rejectIf (cfg.pty ∧ cfg.logMode = .split) "PTY requires combined log mode"
  rejectAny (cfg.envVars.findSome? envVarError) fun error => error

/-- The steps of `append_start_request`. -/
def StartRequest.items (request : StartRequest) : List Item :=
  [Item.int32 startSchemaVersion, .int32 (startModeCode request.mode), .text request.name] ++
  (appendProgCfg request.config ++
  (appendStrings startListTooLarge request.inheritedEnv ++ [Item.bool request.showLog]))

def appendStartRequest (request : StartRequest) : Except Failure (List UInt8) :=
  fappend request.items

/-- The fields of a request, up to the check that none of the payload is left. -/
def readStartFields : FrameReader StartRequest := do
  let schema ← int32
  let mode ← int32
  refuseIf (schema ≠ startSchemaVersion) "unsupported start-request schema"
  refuseIf (mode < 0 ∨ mode > 1) "invalid start mode"
  let name ← text
  let config ← readProgCfg
  let inheritedEnv ← readStrings maxStartItems "invalid inherited environment count"
  let showLog ← readBool "invalid log flag"
  pure { mode := startModeOf mode, name, config, inheritedEnv, showLog }

def readStartRequest (payload : List UInt8) : Except String StartRequest := do
  let read ← readStartFields.run payload
  rejectIf (read.2.length ≠ 0) "trailing start-request data"
  rejectIf (read.1.name = []) "start name is empty"
  if read.1.mode = .create then validateStartConfig read.1.config
  return read.1

@[simp] theorem failureActionOf_code (action : FailureAction) :
    failureActionOf (failureActionCode action) = action := by
  cases action <;> rfl

@[simp] theorem logModeOf_code (mode : LogMode) : logModeOf (logModeCode mode) = mode := by
  cases mode <;> rfl

@[simp] theorem startModeOf_code (mode : StartMode) : startModeOf (startModeCode mode) = mode := by
  cases mode <;> rfl

theorem failureActionCode_iff {code : Int32} : ¬(code < 0 ∨ code > 2) ↔
    failureActionCode (failureActionOf code) = code := by
  constructor
  · intro h
    have hcode : code = 0 ∨ code = 1 ∨ code = 2 := by grind
    rcases hcode with rfl | rfl | rfl <;> rfl
  · intro h
    rw [← h]
    cases failureActionOf code <;> decide

theorem logModeCode_iff {code : Int32} : ¬(code < 0 ∨ code > 1) ↔
    logModeCode (logModeOf code) = code := by
  constructor
  · intro h
    have hcode : code = 0 ∨ code = 1 := by grind
    rcases hcode with rfl | rfl <;> rfl
  · intro h
    rw [← h]
    cases logModeOf code <;> decide

theorem startModeCode_iff {code : Int32} : ¬(code < 0 ∨ code > 1) ↔
    startModeCode (startModeOf code) = code := by
  constructor
  · intro h
    have hcode : code = 0 ∨ code = 1 := by grind
    rcases hcode with rfl | rfl <;> rfl
  · intro h
    rw [← h]
    cases startModeOf code <;> decide

structure ProgCfg.Writable (cfg : ProgCfg) : Prop where
  name : cfg.name.length ≤ protocolV3MaxPayload
  cwd : cfg.cwd.length ≤ protocolV3MaxPayload
  executable : cfg.executable.length ≤ protocolV3MaxPayload
  args : Fits maxStartItems cfg.args
  runAs : cfg.runAs.length ≤ protocolV3MaxPayload
  envs : cfg.envs = []
  envVars : Fits maxStartItems cfg.envVars
  dependsOn : Fits maxStartItems cfg.dependsOn
  logDir : cfg.logDir.length ≤ protocolV3MaxPayload
  logFileName : cfg.logFileName.length ≤ protocolV3MaxPayload

theorem ProgCfg.Writable.reads (h : cfg.Writable) (rest : List UInt8) :
    readProgCfg.run ((appendProgCfg cfg).flatMap Item.bytes ++ rest) = .ok (cfg, rest) := by
  have haction :
    ¬(failureActionCode cfg.failureAction < 0 ∨ failureActionCode cfg.failureAction > 2) :=
    failureActionCode_iff.2 (by rw [failureActionOf_code])
  have hmode : ¬(logModeCode cfg.logMode < 0 ∨ logModeCode cfg.logMode > 1) :=
    logModeCode_iff.2 (by rw [logModeOf_code])
  simp only [readProgCfg, appendProgCfg, List.flatMap_append, List.flatMap_cons, List.flatMap_nil,
    List.append_assoc, List.append_nil, run_int32_bind, run_readBool_bind,
    run_text_bind h.name, run_text_bind h.cwd, run_text_bind h.executable,
    run_readStrings_bind h.args, run_text_bind h.runAs, run_readStrings_bind h.envVars,
    run_readStrings_bind h.dependsOn, run_text_bind h.logDir, run_text_bind h.logFileName,
    run_refuseIf_bind (not_not.2 rfl), run_refuseIf_bind haction, run_refuseIf_bind hmode, run_pure,
    failureActionOf_code, logModeOf_code]
  obtain ⟨-, -, -, -, -, henvs, -⟩ := h
  cases cfg
  cases henvs
  rfl

theorem leaves_readProgCfg : readProgCfg.Leaves fun cfg used =>
    cfg.Writable ∧ used = (appendProgCfg cfg).flatMap Item.bytes := by
  apply leaves_int32
  intro schema
  apply Leaves.refuseIf
  intro hschema
  apply leaves_text
  intro name hname
  apply leaves_text
  intro cwd hcwd
  apply leaves_text
  intro executable hexecutable
  apply leaves_readStrings startListTooLarge
  intro args hargs
  apply leaves_int32
  intro killTimeoutS
  apply leaves_text
  intro runAs hrunAs
  apply leaves_readStrings startListTooLarge
  intro envVars henvVars
  apply leaves_readStrings startListTooLarge
  intro dependsOn hdependsOn
  apply leaves_int32
  intro startTimeout
  apply leaves_int32
  intro failureAction
  apply Leaves.refuseIf
  intro haction
  apply leaves_readBool
  intro daemon
  apply leaves_int32
  intro heartbeatTimeout
  apply leaves_int32
  intro oomScoreAdj
  apply leaves_readBool
  intro pty
  apply leaves_int32
  intro logMode
  apply leaves_text
  intro logDir hlogDir
  apply leaves_text
  intro logFileName hlogFileName
  apply leaves_int32
  intro logMaxSizeKb
  apply leaves_int32
  intro logArchiveCount
  apply Leaves.refuseIf
  intro hmode
  apply leaves_int32
  intro restartDelayMs
  apply leaves_int32
  intro restartMaxDelayMs
  apply leaves_int32
  intro restartWindowMs
  apply leaves_int32
  intro restartMaxAttempts
  apply leaves_int32
  intro restartResetAfterMs
  apply Leaves.pure
  refine ⟨⟨hname, hcwd, hexecutable, hargs, hrunAs, rfl, henvVars, hdependsOn, hlogDir,
    hlogFileName⟩, ?_⟩
  rw [not_not.1 hschema]
  simp only [appendProgCfg, failureActionCode_iff.1 haction, logModeCode_iff.1 hmode,
    List.flatMap_append, List.flatMap_cons, List.flatMap_nil, List.append_assoc, List.append_nil]

theorem run_readProgCfg_eq_ok : readProgCfg.run l = .ok (cfg, rest) ↔
    cfg.Writable ∧ l = (appendProgCfg cfg).flatMap Item.bytes ++ rest := by
  constructor
  · intro h
    obtain ⟨used, rfl, hwritable, rfl⟩ := leaves_readProgCfg h
    exact ⟨hwritable, rfl⟩
  · rintro ⟨h, rfl⟩
    exact h.reads rest

structure StartRequest.Writable (request : StartRequest) : Prop where
  name : request.name.length ≤ protocolV3MaxPayload
  config : request.config.Writable
  inheritedEnv : Fits maxStartItems request.inheritedEnv

theorem StartRequest.Writable.reads (h : request.Writable) :
    readStartFields.Reads (request.items.flatMap Item.bytes) request := by
  have hmode : ¬(startModeCode request.mode < 0 ∨ startModeCode request.mode > 1) :=
    startModeCode_iff.2 (by rw [startModeOf_code])
  rw [Reads]
  simp only [readStartFields, StartRequest.items, List.flatMap_append, List.flatMap_cons,
    List.flatMap_nil, List.append_assoc, List.nil_append, run_int32_bind, run_text_bind h.name,
    run_refuseIf_bind (not_not.2 rfl), run_refuseIf_bind hmode, run_bind (h.config.reads _),
    run_readStrings_bind h.inheritedEnv, run_readBool_bind, run_pure, startModeOf_code]

theorem leaves_readStartFields : readStartFields.Leaves fun request used =>
    request.Writable ∧ used = request.items.flatMap Item.bytes := by
  apply leaves_int32
  intro schema
  apply leaves_int32
  intro mode
  apply Leaves.refuseIf
  intro hschema
  apply Leaves.refuseIf
  intro hmode
  apply leaves_text
  intro name hname
  apply Leaves.bind run_readProgCfg_eq_ok.1
  intro config hconfig
  apply leaves_readStrings startListTooLarge
  intro inheritedEnv hinheritedEnv
  apply leaves_readBool
  intro showLog
  apply Leaves.pure
  refine ⟨⟨hname, hconfig, hinheritedEnv⟩, ?_⟩
  rw [not_not.1 hschema]
  simp only [StartRequest.items, startModeCode_iff.1 hmode, List.flatMap_append, List.flatMap_cons,
    List.flatMap_nil, List.append_assoc, List.append_nil]

structure StartRequest.Valid (request : StartRequest) : Prop where
  name : request.name ≠ []
  config : request.mode = .create → validateStartConfig request.config = .ok ()

theorem readStartRequest_eq_ok : readStartRequest payload = .ok request ↔
    readStartFields.Reads payload request ∧ request.Valid := by
  simp only [readStartRequest, bind_eq_ok, rejectIf_eq_ok, not_not, List.length_eq_zero_iff]
  constructor
  · rintro ⟨⟨r, rest⟩, hread, u, hrest, u', hname, hvalid⟩
    subst hrest
    split at hvalid
    · obtain ⟨u'', hconfig, h⟩ := bind_eq_ok.1 hvalid
      cases h
      exact ⟨hread, hname, fun _ => hconfig⟩
    · rename_i hmode
      cases hvalid
      exact ⟨hread, hname, fun h => absurd h hmode⟩
  · rintro ⟨hread, hname, hconfig⟩
    refine ⟨(request, []), hread, (), rfl, (), hname, ?_⟩
    split
    · rename_i hmode
      exact bind_eq_ok.2 ⟨(), hconfig hmode, rfl⟩
    · rfl

theorem ProgCfg.Writable.passes (h : cfg.Writable) : ∀ item ∈ appendProgCfg cfg, item.Passes := by
  obtain ⟨hname, hcwd, hexecutable, hargs, hrunAs, -, henvVars, hdependsOn, hdir, hfile⟩ := h
  simp only [appendProgCfg, List.forall_mem_append]
  refine ⟨?_, passes_appendStrings hargs, ?_, passes_appendStrings henvVars,
    passes_appendStrings hdependsOn, ?_⟩
  · simp [Item.int32, hname, hcwd, hexecutable]
  · simp [Item.int32, hrunAs]
  · simp [Item.int32, Item.bool, hdir, hfile]

theorem StartRequest.Writable.append {request : StartRequest} (h : request.Writable) :
    appendStartRequest request = .ok (request.items.flatMap Item.bytes) := by
  rw [appendStartRequest, fappend_eq_ok]
  refine ⟨?_, rfl⟩
  simp only [StartRequest.items, List.forall_mem_append]
  refine ⟨?_, h.config.passes, passes_appendStrings h.inheritedEnv, ?_⟩
  · simp [Item.int32, h.name]
  · simp [Item.int32, Item.bool]

/-- The requests that a client may send. -/
structure StartRequest.Sendable (request : StartRequest) : Prop where
  writable : request.Writable
  valid : request.Valid

/-- Requests are read back as they were written, every request that is accepted is exactly what is
written for it, and a request that is cut off or followed by anything is refused. -/
theorem startRequest_codec :
    (∀ request : StartRequest, request.Sendable → ∃ payload,
      appendStartRequest request = .ok payload ∧ readStartRequest payload = .ok request ∧
      (∀ l m, m ≠ [] → payload = l ++ m → ∃ what, readStartRequest l = .error what) ∧
      ∀ m, m ≠ [] → ∃ what, readStartRequest (payload ++ m) = .error what) ∧
    ∀ payload request, readStartRequest payload = .ok request →
      appendStartRequest request = .ok payload := by
  have hrefused : ∀ l, (∀ request, ¬readStartFields.Reads l request) →
      ∃ what, readStartRequest l = .error what := by
    intro l hnone
    cases hl : readStartRequest l with
    | error what => exact ⟨what, rfl⟩
    | ok request => exact absurd (readStartRequest_eq_ok.1 hl).1 (hnone request)
  constructor
  · rintro request ⟨hwritable, hvalid⟩
    have hreads := hwritable.reads
    refine ⟨_, hwritable.append, readStartRequest_eq_ok.2 ⟨hreads, hvalid⟩, ?_, ?_⟩
    · intro l m hm hpayload
      rw [hpayload] at hreads
      apply hrefused
      intro request' h
      exact hm (hreads.of_append h).2.1
    · intro m hm
      apply hrefused
      intro request' h
      exact hm (h.of_append hreads).2.1
  · intro payload request h
    obtain ⟨hreads, -⟩ := readStartRequest_eq_ok.1 h
    obtain ⟨used, hused, hwritable, rfl⟩ := leaves_readStartFields hreads
    rw [List.append_nil] at hused
    rw [hused]
    exact hwritable.append

/-- A request to create a program, every field of which is set. -/
def webRequest : StartRequest where
  mode := .create
  name := "web".toUTF8.data.toList
  config :=
    { name := "web".toUTF8.data.toList
      cwd := "/srv".toUTF8.data.toList
      executable := "./web".toUTF8.data.toList
      args := ["--port".toUTF8.data.toList, "8080".toUTF8.data.toList, []]
      killTimeoutS := 10
      runAs := "www".toUTF8.data.toList
      dependsOn := ["db".toUTF8.data.toList, "cache".toUTF8.data.toList]
      startTimeout := 30
      failureAction := .reboot
      daemon := false
      heartbeatTimeout := 60
      envVars := ["A=1".toUTF8.data.toList, "B=".toUTF8.data.toList]
      oomScoreAdj := -500
      pty := true
      logMode := .combined
      logDir := "/var/log".toUTF8.data.toList
      logFileName := "web.log".toUTF8.data.toList
      logMaxSizeKb := 64
      logArchiveCount := 9
      restartDelayMs := 5
      restartMaxDelayMs := 50
      restartWindowMs := 1000
      restartMaxAttempts := 0
      restartResetAfterMs := 100 }
  inheritedEnv := ["PATH=/bin".toUTF8.data.toList]
  showLog := true

theorem webRequest_writable : webRequest.config.Writable := by
  constructor
  case args | envVars | dependsOn => constructor <;> decide +kernel
  case envs => rfl
  all_goals decide +kernel

theorem startRequest_codec_web : ∃ payload,
    appendStartRequest webRequest = .ok payload ∧ readStartRequest payload = .ok webRequest := by
  have hsendable : webRequest.Sendable :=
    ⟨⟨by decide +kernel, webRequest_writable, by decide +kernel, by decide +kernel⟩,
      by decide +kernel, fun _ => by decide +kernel⟩
  obtain ⟨payload, happend, hread, -⟩ := startRequest_codec.1 webRequest hsendable
  exact ⟨payload, happend, hread⟩

end PmTiny.Wire
