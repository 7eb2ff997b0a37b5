import PmTiny.Daemon.Tasks

namespace PmTiny
set_option autoImplicit true

def msgCmdNotCompleted (name : String) : String :=
  "On target `" ++ name ++ "`, another operation is not completed, try later."

def msgNotFound (name : String) : String := "not found `" ++ name ++ "`"

def msgPersistenceBusy : String := "persistence operation busy"

def executableHasPath (executable : String) : Bool := executable.toList.contains '/'

def programNameMaxLength : Nat := 128

def validFirst (ch : Char) : Bool := ch.isAlphanum

def validRest (ch : Char) : Bool := validFirst ch || ch == '.' || ch == '_' || ch == '-'

def isValidProgramName (name : String) : Bool :=
  match name.toList with
  | [] => false
  | first :: rest =>
    (first :: rest).length ≤ programNameMaxLength && validFirst first && rest.all validRest

def programNameValidationError (name : String) : String :=
  if name = "" then "Program name must not be empty"
  else if name.toList.length > programNameMaxLength then
    "Program name must be at most 128 characters"
  else "Invalid program name `" ++ name ++ "`; expected [A-Za-z0-9][A-Za-z0-9._-]*"

/-- The first complaint of `validate_and_order_prog_cfgs`, if it has one. -/
def validateAndOrderProgCfgs (configs : List DependencyNodeConfig) : Option String :=
  let nameError := configs.findSome? fun config =>
    if isValidProgramName config.name then
      (config.dependsOn.find? fun dependency => !isValidProgramName dependency).map
        fun dependency =>
        "Program `" ++ config.name ++ "` has invalid dependency name: " ++
          programNameValidationError dependency
    else some (programNameValidationError config.name)
  match nameError with
  | some message => some message
  | none =>
    match DependencyGraph.build configs with
    | .error error => some error.message
    | .ok _ => none

def createProg (config : ProgCfg) (configSource : String) : Option ProgInfo :=
  if config.cwd = "" then none
  else if config.executable = "" then none
  else some {
    name := config.name
    workDir := config.cwd
    executable := config.executable
    runAs := config.runAs
    killTimeoutSec := config.killTimeoutS
    dependsOn := config.dependsOn
    startTimeout := config.startTimeout
    failureAction := config.failureAction
    daemon := config.daemon
    heartbeatTimeout := config.heartbeatTimeout
    restartConfig := config.restart
    configSource := configSource }

/-- `parse_cfg`: the first definition of a name wins and incomplete ones are skipped. -/
def parseCfg (programs : List ProgCfg) : List ProgInfo :=
  programs.foldl (fun progs config =>
    if progs.any (·.name = config.name) then progs
    else match createProg config "file" with
      | none => progs
      | some prog => progs ++ [prog]) []

def parseCfg2 (loaded : Except String (List ProgCfg)) : ReloadConfig :=
  match loaded with
  | .error _ => ⟨[], .empty, false, "cannot load program configuration"⟩
  | .ok programs =>
    let pl := parseCfg programs
    match buildProgDependencyGraph pl with
    | .error error => ⟨pl, .empty, false, error.message⟩
    | .ok graph => ⟨pl, graph, true, ""⟩

namespace Server

def heartbeatPeerMatches (ω : System) (id : Nat) (p : ProgInfo) (s : Server) : Bool × Server :=
  let members := ω.members s.ticks p.name
  let s := (s.setProg p.name fun p => p.observe members).tick
  let found := ((s.findSession id).bind (·.peer)).any fun peer =>
    p.live && (p.observe members).inst.tree.contains peer.pid
  (found, if found then s else s.closeSession id)

/-- The identity checks of a create request: the user the program will run as. -/
def targetUser (ω : System) (id : Nat) (request : StartRequest) (s : Server) :
    Except Reply ProgCfg :=
  let fail (message : String) : Except Reply ProgCfg := .error { status := -3, message := message }
  let cfg := request.config
  if cfg.name ≠ request.name ∨ cfg.executable = "" ∨ cfg.cwd = "" then
    fail "invalid runtime definition"
  else match (s.findSession id).bind (·.peer) with
    | none => fail "cannot determine start request peer identity"
    | some peer =>
      match ω.userFromUid s.ticks peer.uid with
      | .error errno =>
        fail ("cannot resolve peer uid " ++ toString peer.uid ++ ": " ++ ω.strerror errno)
      | .ok peerUser =>
        let target := if cfg.runAs = "" then .ok peerUser else ω.uidFromUsername s.ticks cfg.runAs
        match target with
        | .error errno =>
          fail ("cannot resolve target user `" ++ cfg.runAs ++ "`: " ++ ω.strerror errno)
        | .ok user =>
          let cfg := { cfg with runAs := if cfg.runAs = "" then peerUser.name else cfg.runAs }
          let crossUser := user.uid ≠ peerUser.uid ∨ user.gid ≠ peerUser.gid
          if ω.euid ≠ 0 ∧ (user.uid ≠ ω.euid ∨ user.gid ≠ ω.egid) then
            fail ("pm_tiny uid " ++ toString ω.euid ++ " cannot start `" ++ request.name ++
              "` as user `" ++ cfg.runAs ++ "`")
          else if crossUser ∧ !executableHasPath cfg.executable then
            fail ("cross-user start requires executable containing `/`: `" ++ cfg.executable ++ "`")
          else .ok cfg

def startReply (s : Server) (name : String) : Reply :=
  let p := s.findProg name
  let pid := p.bind (·.inst.pid)
  let state := p.elim "" fun p => pmStateToStr p.state
  let response : StartResponse :=
    if s.runtimeState name = .blocked then
      { result := .blocked, pid := pid, state := state,
        blockedBy := s.dependencyRuntime.blockedBy s.dependencyGraph name }
    else if pid.isNone then
      { result := .waiting, pid := pid, state := state,
        blockedBy := s.dependencyRuntime.waitingFor s.dependencyGraph name }
    else { result := .started, pid := pid, state := state }
  { success with body := .start response }

def finishStart (id : Nat) (request : StartRequest) (s : Server) : Reply × Server :=
  (s.startReply request.name,
    if request.showLog ∧ s.runtimeState request.name ≠ .blocked then
      s.addSession request.name id
    else s)

def handleStartExisting (ω : System) (id : Nat) (request : StartRequest) (s : Server) :
    Reply × Server :=
  match s.findProg request.name with
  | none =>
    ({ status := -2, message := "process not found: `" ++ request.name ++ "`" }, s)
  | some p =>
    if p.live then ({ status := -2, message := "`" ++ request.name ++ "` already running" }, s)
    else
      let result := (s.setProg request.name (·.resetRestartPolicy)).requestStart ω request.name
      if result.1 then result.2.finishStart id request
      else
        ({ status := -1, message := "start failed: " ++ ω.strerror result.2.errno }, result.2)

def handleStartCreate (ω : System) (id : Nat) (request : StartRequest) (s : Server) :
    Reply × Server :=
  match s.findProg request.name with
  | some _ =>
    ({ status := -2, message := "process already exists: `" ++ request.name ++ "`" }, s)
  | none =>
    match targetUser ω id request s with
    | .error reply => (reply, s.tick)
    | .ok cfg =>
      match createProg cfg "runtime" with
      | none => ({ status := -3, message := "cannot create `" ++ request.name ++ "`" }, s.tick)
      | some prog =>
        match validateAndOrderProgCfgs ((s.pmTinyProgs ++ [prog]).map ProgInfo.dependencyNode) with
        | some message => ({ status := -3, message := message }, s.tick)
        | none =>
          let result := s.tick.startAndAddProg ω prog
          if result.1 then result.2.finishStart id request
          else
            let errno := if result.2.errno = 0 then eio else result.2.errno
            ({ status := -3, message := "cannot start `" ++ request.name ++ "` as user `" ++
                cfg.runAs ++ "`: " ++ ω.strerror errno }, result.2)

def handleCmdStart (ω : System) (id : Nat) (request : StartRequest) (s : Server) : Reply × Server :=
  match request.mode with
  | .existing => handleStartExisting ω id request s
  | .create => handleStartCreate ω id request s

def handleStop (ω : System) (id : Nat) (name : String) (s : Server) : Server :=
  let request := Request.stop name
  match s.findProg name with
  | none => s.writeFrame ω id request { status := -1, message := msgNotFound name }
  | some p =>
    if p.killPendingtasks ≠ [] then
      s.writeFrame ω id request { status := -3, message := msgCmdNotCompleted name }
    else
      let exiting := s.serverExiting ω id request
      if exiting.1 then exiting.2
      else
        let s := exiting.2.setProg name (·.resetRestartPolicy)
        let s := s.failPendingLogSessions ω name "log wait canceled by stop"
        if p.live then
          (s.asyncKillProg ω name).setProg name (·.enqueueAfterTermination (.stopProc id))
        else
          let s := (s.record (.stopIdle name)).setProg name (·.setState .stoped)
          (s.markDependencyStopped name).writeFrame ω id request success

def handleRemove (ω : System) (id : Nat) (name : String) (s : Server) : Server :=
  let request := Request.remove name
  match s.findProg name with
  | none => s.writeFrame ω id request { status := 1, message := msgNotFound name }
  | some p =>
    let dependents := s.dependencyDependents name
    if dependents ≠ [] then
      s.writeFrame ω id request { status := -3, message :=
        "cannot delete `" ++ name ++ "`; required by: " ++ ",".intercalate dependents }
    else if p.killPendingtasks ≠ [] then
      s.writeFrame ω id request { status := -3, message := msgCmdNotCompleted name }
    else
      let exiting := s.serverExiting ω id request
      if exiting.1 then exiting.2
      else if p.live then
        let s := (exiting.2.asyncKillProg ω name).setProg name (·.setState .requestDelete)
        s.setProg name (·.enqueueAfterTermination (.deleteProg id))
      else
        let s := (exiting.2.record (.removeIdle name)).triggerDAGTraversalNextNode name
        (s.answerSuccess ω id request).removeProg ω name

def handleRestart (ω : System) (id : Nat) (name : String) (showLog : Bool) (s : Server) : Server :=
  let request := Request.restart name showLog
  match s.findProg name with
  | none => s.writeFrame ω id request { status := -1, message := msgNotFound name }
  | some p =>
    let s := s.setProg name (·.resetRestartPolicy)
    if p.killPendingtasks ≠ [] then
      s.writeFrame ω id request { status := -3, message := msgCmdNotCompleted name }
    else if p.live then
      (s.asyncKillProg ω name).setProg name (·.enqueueAfterTermination (.startProg id showLog))
    else (s.record (.restartIdle name)).startProgTask ω name id showLog .restart

def handleSave (ω : System) (id : Nat) (s : Server) : Server :=
  if s.isReloading || s.persistence.busy then
    s.writeFrame ω id .save { status := -1, message := msgPersistenceBusy }
  else { s with persistence := .running, waitSaveSessions := s.waitSaveSessions ++ [id] }

def handleLog (ω : System) (id : Nat) (name : String) (mode : LogRequestMode) (s : Server) :
    Server :=
  let request := Request.log name mode
  match s.findProg name with
  | none => s.writeFrame ω id request { status := 1, message := msgNotFound name }
  | some p =>
    if mode = .live ∧ !p.live then
      if p.restartPending then
        { s with pendingLogSessions := s.pendingLogSessions ++ [(name, id)] }
      else s.writeFrame ω id request { status := 2, message :=
        "`" ++ name ++ "` is not running; use `pm log " ++ name ++
          " --history` to show the last completed generation" }
    else if mode = .history ∧ p.live then
      s.writeFrame ω id request { status := 2, message :=
        "`" ++ name ++ "` is running; use `pm log " ++ name ++ "`" }
    else if mode = .history ∧
      (p.inst.generation = 0 ∨ !p.hasLastExit ∨ p.lastExitTimeUnixMs ≤ 0) then
      s.writeFrame ω id request { status := 2, message :=
        "no completed log generation available for `" ++ name ++ "`" }
    else
      let s := if mode = .live then s.addSession name id else s
      let response : ProgramLogResponse :=
        { mode := mode, generation := p.inst.generation, lastPid := p.inst.lastPid,
          lastExitTimeUnixMs := p.lastExitTimeUnixMs,
          lastWstatus := if p.hasLastExit then some p.lastWstatus else none }
      s.writeFrame ω id request { success with body := .log response }

def handleAppReady (ω : System) (id : Nat) (name : String) (s : Server) : Server :=
  match s.findProg name with
  | none => s.closeSession id
  | some p =>
    let peer := s.heartbeatPeerMatches ω id p
    if !peer.1 then peer.2
    else if p.state = .starting then
      let nowMs := ω.clock peer.2.ticks
      let s := (peer.2.setProg name fun p => { p with
        state := .runing, lastTickTimepoint := nowMs, heartbeatActionDueMs := 0 }).tick
      s.spawn1 ω [name] .appReady
    else peer.2

def handleAppTick (ω : System) (id : Nat) (name : String) (s : Server) : Server :=
  match s.findProg name with
  | none => s.closeSession id
  | some p =>
    let peer := s.heartbeatPeerMatches ω id p
    if peer.1 ∧ p.state = .runing then
      let nowMs := ω.clock peer.2.ticks
      (peer.2.setProg name fun p => { p with
        lastTickTimepoint := nowMs, heartbeatActionDueMs := 0 }).tick
    else peer.2

def handleInspect (ω : System) (id : Nat) (name : String) (s : Server) : Server :=
  match s.findProg name with
  | none => s.writeFrame ω id (.inspect name) { status := 1, message := msgNotFound name }
  | some _ => s.writeFrame ω id (.inspect name) { success with body := .snapshot }

def handleQuit (ω : System) (id : Nat) (s : Server) : Server :=
  (s.writeFrame ω id .quit { success with body := .pid ω.pid }).requestQuit ω

def handleReload (ω : System) (id : Nat) (s : Server) : Server :=
  let exiting := s.serverExiting ω id .reload
  if exiting.1 then exiting.2
  else
    let s := exiting.2
    if s.persistence.busy then
      s.writeFrame ω id .reload { status := -1, message := msgPersistenceBusy }
    else
      let config := parseCfg2 (ω.loadProgCfg s.ticks)
      let s := s.tick
      if !config.valid then
        s.writeFrame ω id .reload { status := -1, message :=
          if config.errorMessage = "" then "invalid configuration" else config.errorMessage }
      else
        let s := { s with reloadConfig := some config }.requestQuit ω
        { s with waitReloadSessions := s.waitReloadSessions ++ [id] }

def handleFrame (ω : System) (id : Nat) (s : Server) : Request → Server
  | .malformed error => s.writeFrame ω id (.malformed error) { status := -1, message := error }
  | .list => s.writeFrame ω id .list { success with body := .snapshot }
  | .info => s.writeFrame ω id .info { success with body := .snapshot }
  | .version => s.writeFrame ω id .version { success with body := .snapshot }
  | .stop name => s.handleStop ω id name
  | .start request =>
    let exiting := s.serverExiting ω id (.start request)
    if exiting.1 then exiting.2
    else
      let result := exiting.2.handleCmdStart ω id request
      result.2.writeFrame ω id (.start request) result.1
  | .save => s.handleSave ω id
  | .remove name => s.handleRemove ω id name
  | .restart name showLog => s.handleRestart ω id name showLog
  | .log name mode => s.handleLog ω id name mode
  | .appReady name => s.handleAppReady ω id name
  | .appTick name => s.handleAppTick ω id name
  | .inspect name => s.handleInspect ω id name
  | .quit => s.handleQuit ω id
  | .reload => s.handleReload ω id

end Server
end PmTiny
