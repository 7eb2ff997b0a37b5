import PmTiny.Windows.Daemon

namespace PmTiny.Windows
set_option autoImplicit true

structure Message where
  session : Nat
  requestId : Nat
  request : Request

def Request.isLog : Request → Bool
  | .log _ _ => true
  | _ => false

inductive ControlOperationType where
  | stop | restart | remove
  deriving DecidableEq, Repr

structure ControlOperationState where
  processExists : Bool := false
  processActive : Bool := false
  definitionExists : Bool := false
  generation : Nat := 0

namespace ControlOperationType

def complete (type : ControlOperationType) (generation : Nat) (state : ControlOperationState) :
    Bool :=
  match type with
  | .stop => state.processExists && !state.processActive
  | .restart =>
    state.processExists && state.processActive && decide (state.generation ≠ generation)
  | .remove => !state.processExists && !state.definitionExists

def action : ControlOperationType → CompletionAction
  | .stop => .remove
  | .restart => .restart
  | .remove => .deleteConfig

end ControlOperationType

def checkProgramConfig (ω : System) (t : Nat) (cfg : ProgramConfig) : Except String ProgramConfig :=
  if cfg.runAs ≠ "" then
    .error ("Program `" ++ cfg.name ++ "` field `user` is unsupported on Windows")
  else if cfg.oomScoreAdj ≠ 0 then
    .error ("Program `" ++ cfg.name ++ "` field `oom_score_adj` is unsupported on Windows")
  else if cfg.pty then
    .error ("Program `" ++ cfg.name ++ "` field `pty: true` is unsupported on Windows")
  else if cfg.failureAction = .reboot then
    .error ("Program `" ++ cfg.name ++ "` field `failure_action: reboot` is unsupported on " ++
      "Windows; supported values: skip, restart")
  else (ω.loadEnvironmentSidecar t cfg.name).map fun envs => { cfg with envs }

def checkProgramConfigs (ω : System) (t : Nat) :
    List ProgramConfig → Except String (List ProgramConfig)
  | [] => .ok []
  | cfg :: cfgs =>
    match checkProgramConfig ω t cfg with
    | .error error => .error error
    | .ok cfg => (checkProgramConfigs ω t cfgs).map (cfg :: ·)

def loadProgramConfigs (ω : System) (t : Nat) : Except String (List ProgramConfig) :=
  match ω.readProgramFile t with
  | .error error => .error error
  | .ok programs =>
    match checkProgramConfigs ω t programs with
    | .error error => .error error
    | .ok programs => Persist.orderProgCfgs programs

def PendingResponse.followsRestart (r : PendingResponse) : Bool :=
  match r.request with
  | .restart _ _ => r.showLog
  | _ => false

def LogStream.bind (st : LogStream) (p : ProcessHandle) : LogStream :=
  { st with
    generation := p.generation
    offset := p.logTail.beginOffset
    waitingForGeneration := false }

namespace Daemon

def reply (ω : System) (s : Daemon) (m : Message) (status : Int) (message : String)
    (body : ReplyBody := .none) : Daemon :=
  s.send ω m.session (.reply m.session m.requestId ⟨status, message, body⟩)

def fail (ω : System) (s : Daemon) (m : Message) (error : String) : Daemon :=
  s.reply ω m (-1) ("ERR " ++ error ++ "\n")

def removeProcess (s : Daemon) (name : String) : Daemon :=
  { s with processes := Keyed.remove ProcessHandle.name name s.processes }

/-- The graph of the other programs, if nothing depends on the program. -/
def prepareDelete (c : Core) (name : String) : Except String DependencyGraph :=
  if (findConfig name c.configMap).isNone then .error "process not found"
  else
    let dependents := (c.graph.find name).elim [] fun id => (c.graph.dependents id).map c.graph.name
    if dependents ≠ [] then
      .error ("cannot delete `" ++ name ++ "`; required by: " ++ ",".intercalate dependents)
    else buildDependencies (eraseConfig name c.configMap)

def commitDelete (s : Daemon) (name : String) (graph : DependencyGraph) : Daemon :=
  { s.record (.deleted name) with configMap := eraseConfig name s.configMap }.replaceDependencies
    graph

def applyManualStop (s : Daemon) (name : String) : Daemon :=
  (s.setProcess name fun p => { p.clearRestart with disableRestart := true }).markIdle name

def liveLogResponse (p : ProcessHandle) : ProgramLogResponse where
  mode := .live
  generation := p.generation
  lastPid := p.lastPid

def logResponse (p : ProcessHandle) (mode : LogRequestMode) : ProgramLogResponse where
  mode := mode
  generation := p.generation
  lastPid := p.lastPid
  lastExitTimeUnixMs := p.lastExitTimeUnixMs
  exitCode := if p.hasLastExit then some p.lastExitCode else none

def beginLogStream (ω : System) (s : Daemon) (m : Message) (name : String) (followProcess : Bool)
    (mode : LogRequestMode) : Daemon :=
  match findConfig name s.configMap, s.find name with
  | none, _ | some _, none => s.fail ω m "process not found"
  | some _, some p =>
    if mode = .live ∧ !p.hasProcess ∧ !followProcess then
      s.fail ω m ("`" ++ name ++ "` is not running; use `pm log " ++ name ++
        " --history` to show the last completed generation")
    else if mode = .history ∧ p.hasProcess then
      s.fail ω m ("`" ++ name ++ "` is running; use `pm log " ++ name ++ "`")
    else if mode = .history ∧ (p.generation = 0 ∨ !p.hasLastExit ∨ p.lastExitTimeUnixMs ≤ 0) then
      s.fail ω m ("no completed log generation available for `" ++ name ++ "`")
    else
      let answered := if m.request.isLog ∧ (mode = .history ∨ p.hasProcess) then
          s.reply ω m 0 "OK" (.log (logResponse p mode))
        else s
      let waiting := followProcess && !p.hasProcess && m.request.isLog
      { answered with
        nextStream := s.nextStream + 1
        logStreams := s.logStreams ++ [{
          key := s.nextStream
          session := m.session
          requestId := m.requestId
          request := m.request
          name := name
          generation := p.generation
          offset := if !waiting ∧ p.generation ≠ 0 then p.logTail.beginOffset else 0
          followProcess := followProcess
          waitingForGeneration := waiting
          mode := mode }] }

def findStream (s : Daemon) (key : Nat) : Option LogStream :=
  Keyed.find LogStream.key key s.logStreams

def setStream (s : Daemon) (key : Nat) (f : LogStream → LogStream) : Daemon :=
  { s with logStreams := Keyed.update LogStream.key key f s.logStreams }

def eraseStream (s : Daemon) (key : Nat) : Daemon :=
  { s with logStreams := Keyed.remove LogStream.key key s.logStreams }

def chunkSize : Nat := 16 * 1024

/-- The exit event of the record's generation, if one is known. -/
def exitEvent (p : ProcessHandle) (mode : LogRequestMode) : String :=
  if mode = .live ∧ p.hasLastExit then
    formatProgramExitEvent p.name p.lastPid "exited" p.lastExitCode
  else ""

/-- The next chunk of a stream that is bound to a generation, or its end. -/
def serveStream (ω : System) (s : Daemon) (st : LogStream) : Daemon :=
  match (s.find st.name).filter fun p => p.generation = st.generation with
  | none => (s.send ω st.session (.final st.key "")).eraseStream st.key
  | some p =>
    let offset := max st.offset p.logTail.beginOffset
    if offset < p.logTail.totalBytes then
      let content := p.logTail.read offset chunkSize
      (s.send ω st.session (.chunk st.key content)).setStream st.key fun st =>
        { st with offset := offset + content.length }
    else if p.hasProcess ∧ st.mode = .live then
      s.setStream st.key fun st => { st with offset := offset }
    else (s.send ω st.session (.final st.key (exitEvent p st.mode))).eraseStream st.key

def pollLogStream (ω : System) (s : Daemon) (key : Nat) : Daemon :=
  match s.findStream key with
  | none => s
  | some st =>
    let m : Message := ⟨st.session, st.requestId, st.request⟩
    if !s.isOpen st.session then s.eraseStream key
    else if st.waitingForGeneration then
      match s.find st.name with
      | some p =>
        if p.generation ≠ st.generation then
          let answered :=
            if st.request.isLog then s.reply ω m 0 "OK" (.log (liveLogResponse p)) else s
          let st := st.bind p
          ((answered.setStream key fun _ => st).record (.pollStream key st.offset)).serveStream ω st
        else if st.request.isLog ∧ !p.restartPending then
          (s.fail ω m "log wait ended before the next generation started").eraseStream key
        else s
      | none =>
        if st.request.isLog then
          (s.fail ω m "log wait ended before the next generation started").eraseStream key
        else s
    else (s.record (.pollStream key st.offset)).serveStream ω st

def pollLogStreams (ω : System) (s : Daemon) : Daemon :=
  (s.logStreams.map LogStream.key).foldl (pollLogStream ω) s

def completionText (saveResult : Option Int) : Request → String
  | .save => if saveResult = some 0 then "OK saved\n" else "ERR save failed\n"
  | .reload => "OK reloaded\n"
  | .restart _ _ => "OK restarted\n"
  | .remove _ => "OK deleted\n"
  | _ => "OK stopped\n"

def completionStatus (saveResult : Option Int) : Request → Int
  | .save => if saveResult = some 0 then 0 else -1
  | _ => 0

def completionBody (c : Core) (r : PendingResponse) : ReplyBody :=
  if r.followsRestart then (c.find r.name).elim .none fun p => .log (liveLogResponse p) else .none

def operationState (c : Core) (name : String) : ControlOperationState where
  processExists := (c.find name).isSome
  definitionExists := (findConfig name c.configMap).isSome
  processActive := (c.find name).any fun p => p.hasProcess || p.termination.phase ≠ .none
  generation := (c.find name).elim 0 (·.generation)

def responseComplete (c : Core) (saveResult : Option Int) (r : PendingResponse) : Bool :=
  match r.request with
  | .save => saveResult.isSome
  | .reload => !c.reloadPending
  | .restart _ _ => ControlOperationType.complete .restart r.generation (operationState c r.name)
  | .remove _ => ControlOperationType.complete .remove r.generation (operationState c r.name)
  | _ => ControlOperationType.complete .stop r.generation (operationState c r.name)

def pollPendingResponse (ω : System) (saveResult : Option Int) (s : Daemon)
    (r : PendingResponse) : Daemon :=
  let m : Message := ⟨r.session, r.requestId, r.request⟩
  if !s.isOpen r.session then s
  else if responseComplete s.toCore saveResult r then
    let answered := s.reply ω m (completionStatus saveResult r.request)
      (completionText saveResult r.request) (completionBody s.toCore r)
    if r.followsRestart then answered.beginLogStream ω m r.name false .live else answered
  else if r.followsRestart ∧ (s.find r.name).any (fun p => !p.hasProcess) ∧
      s.dependencyState r.name = .failed then
    s.fail ω m "failed to restart process"
  else { s with pendingResponses := s.pendingResponses ++ [r] }

def pollPersistence (s : Daemon) : Option Int × Daemon :=
  match s.persistence with
  | .completed result => (some result, { s with persistence := .idle })
  | _ => (none, s)

def pollPendingResponses (ω : System) (s : Daemon) : Daemon :=
  let (saveResult, s) := s.pollPersistence
  s.pendingResponses.foldl (pollPendingResponse ω saveResult) { s with pendingResponses := [] }

def rollback (s : Daemon) (name : String) : Daemon :=
  let s := if (s.find name).any fun p => !p.hasProcess then s.removeProcess name else s
  let s : Daemon := { s with configMap := eraseConfig name s.configMap }
  match buildDependencies s.configMap with
  | .ok graph => (s.replaceDependencies graph).refresh
  | .error _ => s.refresh

def startReply (c : Core) (name : String) : Reply :=
  match (c.find name).filter (·.hasProcess) with
  | some p => ⟨0, "started", .start ⟨.started, some p.processId,
      if p.ready ∨ p.config.startTimeout = 0 then "online" else "starting", []⟩⟩
  | none =>
    if c.dependencyState name = .blocked then
      ⟨0, "blocked", .start ⟨.blocked, none, "blocked", c.dependencies.blockedBy c.graph name⟩⟩
    else ⟨0, "waiting", .start ⟨.waiting, none, "waiting", c.dependencies.waitingFor c.graph name⟩⟩

def startDefined (ω : System) (s : Daemon) (mode : StartMode) (cfg : ProgramConfig)
    (graph : DependencyGraph) : Reply × Daemon :=
  let configs := eraseConfig cfg.name s.configMap ++ [cfg]
  let s := ((s.record (.define cfg)).replaceDependencies graph).refresh
  let s := { s with configMap := insertConfig cfg s.configMap }.ensureProcessRecords configs
  let s := if mode = .create then s.setProcess cfg.name fun p => { p with configSource := .runtime }
    else s
  match (s.startOperation (.requestClosure cfg.name)).scheduleDependencyLaunch ω with
  | (s, failure :: _) => (⟨-1, "ERR failed to start: " ++ failure ++ "\n", .none⟩,
      if mode = .create then s.rollback cfg.name else s)
  | (s, []) => (startReply s.toCore cfg.name, if mode = .create then s.record (.created cfg) else s)

def unsupportedStart (cfg : ProgramConfig) : Bool :=
  cfg.runAs ≠ "" || cfg.oomScoreAdj ≠ 0 || cfg.pty || cfg.failureAction = .reboot

def handleStart (ω : System) (s : Daemon) (r : StartRequest) : Reply × Daemon :=
  let fail (s : Daemon) (text : String) : Reply × Daemon := (⟨-1, "ERR " ++ text ++ "\n", .none⟩, s)
  let base : Except String ProgramConfig := match r.mode, findConfig r.name s.configMap with
    | .existing, none => .error "process not found"
    | .create, some _ => .error "process already exists"
    | .existing, some cfg => .ok { cfg with name := r.name }
    | .create, none => .ok { r.config with name := r.name }
  if s.reloadPending || s.shouldStop then fail s "daemon is busy"
  else match base with
  | .error error => fail s error
  | .ok cfg =>
    if cfg.executable = "" then fail s "missing executable"
    else if unsupportedStart cfg then fail s "unsupported Windows start option"
    else if r.mode = .existing ∧ (s.find r.name).any (·.hasProcess) then
      fail s "process already running"
    else
      let s := if r.mode = .existing ∧ (s.find r.name).isSome then
          (s.setProcess r.name (·.clearRestart)).markIdle r.name
        else s
      let cfg := if r.mode = .create then { cfg with envs := r.inheritedEnv } else cfg
      let cfg := if cfg.cwd = "" then { cfg with cwd := "." } else cfg
      match buildDependencies (eraseConfig cfg.name s.configMap ++ [cfg]) with
      | .error error => fail s error
      | .ok graph => s.startDefined ω r.mode cfg graph

def handleAppSignal (ω : System) (s : Daemon) (name : String) (readySignal : Bool) :
    Reply × Daemon :=
  let missing : Reply := ⟨-1, "ERR process not found\n", .none⟩
  match s.find name with
  | none => (missing, s)
  | some p =>
    if !p.hasProcess then (missing, s)
    else
      let now := ω.clock s.ticks
      let s := (s.setProcess name fun p =>
        { p with lastTickMs := now, heartbeatActionDueMs := 0 }).tick
      if !readySignal then (⟨0, "OK tick\n", .none⟩, s)
      else
        let s := s.setProcess name fun p => { p with ready := true }
        match (s.startOperation (.markReady name)).scheduleDependencyLaunch ω with
        | (s, failure :: _) =>
          (⟨-1, "ERR failed to start dependency: " ++ failure ++ "\n", .none⟩, s)
        | (s, []) => (⟨0, "OK ready\n", .none⟩, s)

def handleMessage (ω : System) (s : Daemon) : Request → Reply × Daemon
  | .start r => s.handleStart ω r
  | .appReady name => s.handleAppSignal ω name true
  | .appTick name => s.handleAppSignal ω name false
  | .quit => (⟨0, "success", .pid ω.processId⟩, { s with shouldStop := true })
  | .inspect name =>
    if (findConfig name s.configMap).isNone then (⟨-1, "ERR process not found\n", .none⟩, s)
    else (⟨0, "success", .snapshot⟩, s)
  | _ => (⟨0, "success", .snapshot⟩, s)

/-- Every program that has a process is asked to end, dependents first. -/
def stopAll (ω : System) (s : Daemon) : Daemon :=
  (s.graph.reverseTopologicalOrder.map s.graph.name).foldl (fun s name =>
    if (s.find name).any (·.hasProcess) then
      ((s.setProcess name fun p => { p with disableRestart := true }).requestProgramTermination ω
        name .remove 0).2
    else s) s

def handleReload (ω : System) (s : Daemon) (m : Message) : Daemon :=
  if s.persistence.busy then s.fail ω m "persistence operation busy"
  else match loadProgramConfigs ω s.ticks with
    | .error error => s.tick.fail ω m error
    | .ok programs =>
      if s.reloadPending || s.shouldStop then s.tick.fail ω m "daemon is busy"
      else
        let s := { s.tick with reloadPending := true, reloadPrograms := programs }.stopAll ω
        { s with pendingResponses := s.pendingResponses ++
          [⟨m.session, m.requestId, m.request, "", 0, false⟩] }

def handleSave (ω : System) (s : Daemon) (m : Message) : Daemon :=
  if s.reloadPending || s.shouldStop || s.persistence.busy then
    s.fail ω m "persistence operation busy"
  else
    { s with
      persistence := .running
      pendingResponses :=
        s.pendingResponses ++ [⟨m.session, m.requestId, m.request, "", 0, false⟩] }

/-- What is left of a stop, restart or delete once the program has no process. -/
def answerStopped (ω : System) (s : Daemon) (m : Message) (name : String)
    (operation : ControlOperationType) (showLog : Bool) (generation : Nat) : Daemon :=
  match operation with
  | .stop => s.reply ω m 0 "OK already stopped\n"
  | .remove => (s.removeProcess name).reply ω m 0 "OK deleted\n"
  | .restart =>
    match (s.startOperation (.requestClosure name)).scheduleDependencyLaunch ω with
    | (s, failure :: _) => s.fail ω m ("failed to restart: " ++ failure)
    | (s, []) =>
      if showLog then { s with pendingResponses := s.pendingResponses ++
        [⟨m.session, m.requestId, m.request, name, generation, true⟩] }
      else s.reply ω m 0 "OK restart scheduled\n"

def handleOperation (ω : System) (s : Daemon) (m : Message) (name : String)
    (operation : ControlOperationType) (showLog : Bool) : Daemon :=
  match s.find name with
  | none => s.fail ω m "process not found"
  | some p =>
    match (if operation = .remove then (prepareDelete s.toCore name).map some else .ok none) with
    | .error error => s.fail ω m error
    | .ok deletion =>
      match (if p.hasProcess then s.requestProgramTermination ω name operation.action 0
        else (.ok "", s)) with
      | (.error error, s) => s.fail ω m error
      | (.ok _, s) =>
        let s := match deletion with
          | some graph => s.commitDelete name graph
          | none => s
        let s := if operation = .stop then s.applyManualStop name else s
        if !p.hasProcess then s.answerStopped ω m name operation showLog p.generation
        else { s with pendingResponses := s.pendingResponses ++
          [⟨m.session, m.requestId, m.request, name, p.generation, showLog⟩] }

def handleAsyncRequest (ω : System) (s : Daemon) (m : Message) : Daemon :=
  match m.request with
  | .malformed error => s.fail ω m error
  | .log name mode =>
    let waitForRestart := decide (mode = .live) &&
      (s.find name).any fun p => !p.hasProcess && p.restartPending
    s.beginLogStream ω m name waitForRestart mode
  | .reload => s.handleReload ω m
  | .save => s.handleSave ω m
  | .stop name => s.handleOperation ω m name .stop false
  | .restart name showLog => s.handleOperation ω m name .restart showLog
  | .remove name => s.handleOperation ω m name .remove false
  | .start r =>
    let (reply, s) := s.handleMessage ω m.request
    let s := s.send ω m.session (.reply m.session m.requestId reply)
    if r.showLog ∧ reply.status = 0 then s.beginLogStream ω m r.name true .live else s
  | _ =>
    let (reply, s) := s.handleMessage ω m.request
    s.send ω m.session (.reply m.session m.requestId reply)

/-- One request, from its arrival until the handler returns. -/
def serve (ω : System) (s : Daemon) (m : Message) : Daemon :=
  { { s.record (.request m.request) with request := some m.request }.handleAsyncRequest ω m with
    request := none }

def handleProcessLog (s : Daemon) (name : String) (generation stream : Nat) (data : List UInt8)
    (eof : Bool) : Daemon :=
  match (s.find name).filter fun p => p.generation = generation with
  | none => s
  | some _ =>
    let s := if data.isEmpty then s
      else (s.record (.appended name generation data)).setProcess name fun p =>
        { p with logTail := p.logTail.append data }
    if eof then s.setProcess name fun p =>
      { p with logPipeEof := Function.update p.logPipeEof stream true }
    else s

def handleProcessExit (ω : System) (s : Daemon) (name : String) (generation exitCode : Nat) :
    Daemon :=
  match (s.find name).filter fun p => p.generation = generation with
  | none => s
  | some _ =>
    ((s.record (.processExit name generation exitCode)).setProcess name fun p =>
      { p with
        rootExitObserved := true
        rootExitCode := exitCode
        hasLastExit := true
        lastExitCode := exitCode
        lastExitTimeUnixMs := ω.unixTime s.ticks }).tick

/-- The exit of a new process, and its output, are watched from here on. -/
def watchProcess (ω : System) (s : Daemon) (name : String) : Daemon :=
  match s.find name with
  | none => s
  | some p =>
    if p.hasProcess ∧ p.watchedGeneration ≠ p.generation ∧ ω.watchProcess s.ticks then
      { s.setProcess name (fun p => { p with watchedGeneration := p.generation }) with
        processWatches := s.processWatches ++ [(name, p.generation)]
        ticks := s.ticks + 1 }
    else s.tick

def watchProcessLog (ω : System) (name : String) (s : Daemon) (stream : Nat) : Daemon :=
  match s.find name with
  | none => s
  | some p =>
    if p.hasProcess ∧ stream < p.streamCount ∧ p.pipeRead stream ∧
        p.watchedLogGeneration stream ≠ p.generation ∧ ω.watchProcessLog s.ticks then
      { s.setProcess name (fun p => { p with
          pipeRead := Function.update p.pipeRead stream false
          watchedLogGeneration := Function.update p.watchedLogGeneration stream p.generation }) with
        logWatches := s.logWatches ++ [(name, p.generation, stream)]
        ticks := s.ticks + 1 }
    else s.tick

def refreshProcessExitWatches (ω : System) (s : Daemon) : Daemon :=
  (s.processes.map ProcessHandle.name).foldl (fun s name =>
    [0, 1].foldl (watchProcessLog ω name) (s.watchProcess ω name)) s

end Daemon
end PmTiny.Windows
