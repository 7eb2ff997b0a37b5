import PmTiny.Daemon.Handlers

namespace PmTiny
set_option autoImplicit true

namespace ProgInfo

/-- The exit of the root process as `check_delayed_chld_sig` notes it down. -/
def noteExit (p : ProgInfo) (nowMs unixMs : Int) (wstatus : Nat) : ProgInfo :=
  { p.updateCountTimer nowMs with
    lastWstatus := wstatus, hasLastExit := true, lastExitTimeUnixMs := unixMs }

def clearPid (p : ProgInfo) : ProgInfo := { p with inst := { p.inst with pid := none } }

/-- The root is gone and descendants remain: the program goes on terminating. -/
def reapDraining (p : ProgInfo) (nowMs lifeTime drainMs : Int) : TerminationAction × ProgInfo :=
  let p := p.clearPid
  let p :=
    if p.daemon && !p.state.terminating then p.enqueueAfterTermination (.planRestart nowMs lifeTime)
    else p
  let result := p.markTreeDraining drainMs
  (result.1, (result.2.setState .requestStop).setTermination .treeDraining)

def normalExit (p : ProgInfo) : Bool := p.state.terminating || !p.daemon

def reapExited (p : ProgInfo) (nowMs lifeTime : Int) : ProgInfo :=
  let p := p.clearPid.cleanup
  if p.normalExit then p.setState (if p.state = .requestStop then .stoped else .exit)
  else
    let plan := p.planAutomaticRestart nowMs lifeTime
    if plan.1.restart then
      { plan.2 with deadCount := plan.2.deadCount + 1, state := .waitingStart }
    else plan.2.setState .stoped

/-- A program that was starting and is not restarted is reported to `spawn1`. -/
def unlocksOnExit (p : ProgInfo) (nowMs lifeTime : Int) : Bool :=
  decide (p.state = .starting) &&
    (p.normalExit || !(p.planAutomaticRestart nowMs lifeTime).1.restart)

def observation (p : ProgInfo) (index : Nat) : LifecycleProcessObservation :=
  let phase := p.inst.job.phase
  { processIndex := index
    generation := p.inst.generation
    hasProcess := p.live
    starting := p.state = .starting
    online := p.state = .runing
    terminating := p.state.terminating
    treeDraining := phase = .treeDraining ∨ phase = .forceKillRequested
    terminationDueMs :=
      if phase = .termRequested ∨ phase = .treeDraining then p.inst.job.deadlineMs else 0
    restartPending := p.restartPending
    restartDueMs := p.restartDueMs
    launchTimeMs := p.lastStartupMs
    lastTickMs := p.lastTickTimepoint
    heartbeatActionDueMs := p.heartbeatActionDueMs
    startTimeoutS := p.startTimeout
    heartbeatTimeoutS := p.heartbeatTimeout
    failureAction := p.failureAction }

end ProgInfo

structure Reaped where
  startingProg : List String := []
  penddingtaskProgs : List String := []
  deletingProgs : List String := []

namespace Server

def reapProg (ω : System) (acc : Reaped × Server) (p : ProgInfo) (wstatus : Nat) :
    Reaped × Server :=
  let name := p.name
  let s := acc.2.markDependencyStopped name
  let nowMs := ω.clock s.ticks
  let unixMs := ω.unixTime s.ticks
  let lifeTime := nowMs - p.lastStartupMs
  let s := (s.setProg name fun p => p.noteExit nowMs unixMs wstatus).tick
  let tree := (s.detachSessions ω name).isTreeEmpty ω name
  let s := tree.2
  if !tree.1 then
    let drainMs := ω.clock s.ticks
    let action := (s.findProg name).elim .none fun p => (p.reapDraining nowMs lifeTime drainMs).1
    let s := (s.setProg name fun p => (p.reapDraining nowMs lifeTime drainMs).2).tick
    (acc.1, if action = .sendTerm then s.signalTree name .term else s)
  else
    let s := s.setProg name fun p => p.reapExited nowMs lifeTime
    ({ startingProg := acc.1.startingProg ++
        if p.unlocksOnExit nowMs lifeTime then [name] else []
       penddingtaskProgs := acc.1.penddingtaskProgs ++ if p.state.terminating then [name] else []
       deletingProgs := acc.1.deletingProgs ++ if p.state = .requestDelete then [name] else [] }, s)

/-- One reaped child; a pid that belongs to no program is a descendant and only logged. -/
def reapChild (ω : System) (acc : Reaped × Server) (child : Nat × Nat) : Reaped × Server :=
  match acc.2.pmTinyProgs.find? fun p => p.inst.pid = some child.1 with
  | none => acc
  | some p => reapProg ω acc p child.2

def reapAll (ω : System) (children : List (Nat × Nat)) (s : Server) : Server :=
  let acc := children.foldl (reapChild ω) ({}, s)
  let s :=
    if acc.1.startingProg.isEmpty then acc.2 else acc.2.spawn1 ω acc.1.startingProg .reaper
  let s := acc.1.penddingtaskProgs.foldl (fun s name => s.executePenddingtasks ω name .reaper) s
  acc.1.deletingProgs.foldl (fun s name => s.removeProg ω name) s

def unschedule (s : Server) (name : String) : Server :=
  s.setProg name fun p => { p with restartPending := false, restartDueMs := 0 }

def scheduledRestart (ω : System) (nowMs : Int) (s : Server) (name : String) : Server :=
  match s.findProg name with
  | none => s
  | some p =>
    if !p.restartPending || p.live then s
    else
      let tree := s.isTreeEmpty ω name
      if !tree.1 ∨ nowMs < p.restartDueMs then tree.2
      else
        let result := tree.2.startProg ω name .scheduled
        let s := result.2.unschedule name
        if result.1 = some false then
          (s.failPendingLogSessions ω name
            "failed to start the next generation").flagStartupFail name
        else s

def dueRestarts (ω : System) (nowMs : Int) (ordered : List String) (due : List Nat) (s : Server) :
    Server :=
  due.foldl (fun s index => (ordered[index]?).elim s (s.scheduledRestart ω nowMs)) s

def acceptReady (s : Server) (name : String) (nowMs : Int) : Server :=
  s.setProg name fun p => { p with
    state := .runing, lastTickTimepoint := nowMs, heartbeatActionDueMs := 0 }

def ignoreTimeout (s : Server) (name : String) (nowMs : Int) : Server :=
  s.setProg name fun p => { p with
    heartbeatActionDueMs := nowMs + max 1 p.heartbeatTimeout * 1000 }

/-- The timeout loop; a reboot leaves it at once. -/
def handleTimeouts (ω : System) (nowMs : Int) (ordered : List String) :
    List LifecycleTimeoutEvent → List String → Server → Bool × List String × Server
  | [], startingProg, s => (false, startingProg, s)
  | event :: events, startingProg, s =>
    match (ordered[event.processIndex]?).bind s.findProg with
    | none => handleTimeouts ω nowMs ordered events startingProg s
    | some p =>
      if s.serverExit ∨ p.inst.generation ≠ event.generation ∨ !p.live then
        handleTimeouts ω nowMs ordered events startingProg s
      else match event.action with
        | .acceptReady =>
          handleTimeouts ω nowMs ordered events (startingProg ++ [p.name])
            (s.acceptReady p.name nowMs)
        | .ignore =>
          handleTimeouts ω nowMs ordered events startingProg (s.ignoreTimeout p.name nowMs)
        | .restart =>
          handleTimeouts ω nowMs ordered events startingProg
            ((s.asyncKillProg ω p.name).setProg p.name
              (·.enqueueAfterTermination .timeoutRestart))
        | .reboot => (true, startingProg, s)

def pollProg (ω : System) (s : Server) (name : String) : Server :=
  match s.findProg name with
  | none => s
  | some p =>
    if !p.state.terminating then s
    else
      let nowMs := ω.clock s.ticks
      let tree := s.isTreeEmpty ω name
      let action := (tree.2.findProg name).elim .none fun p => (p.pollTermination nowMs tree.1).1
      let s := tree.2.setProg name fun p => (p.pollTermination nowMs tree.1).2
      let gone := if p.live then (false, s) else s.isTreeEmpty ω name
      if gone.1 then
        (gone.2.setProg name fun p => p.cleanup.setTermination .completed).executePenddingtasks ω
          name .poll
      else if action = .sendKill then
        let s := gone.2
        let force := (s.findProg name).elim .none fun p => p.asyncForceKill.1
        let s := s.setProg name fun p => p.asyncForceKill.2
        if force = .sendKill then s.signalTree name .kill else s
      else gone.2

def checkDelayedChldSig (ω : System) (children : Option (List (Nat × Nat))) (s : Server) : Server :=
  let s := children.elim s fun children => s.reapAll ω children
  let nowMs := ω.clock s.ticks
  let s := s.tick
  let ordered := s.pmTinyProgs.map (·.name)
  let plan := planLifecycleTick nowMs (s.pmTinyProgs.mapIdx fun i p => p.observation i)
    s.persistence.busy
  let s := if s.serverExit then s else s.dueRestarts ω nowMs ordered plan.dueRestarts
  let timeouts := handleTimeouts ω nowMs ordered plan.timeouts [] s
  let s := (timeouts.2.2.pmTinyProgs.map (·.name)).foldl (pollProg ω) timeouts.2.2
  if !timeouts.1 ∧ timeouts.2.1 ≠ [] then s.spawn1 ω timeouts.2.1 .timeout else s

def checkDelayedExitSig (ω : System) (exitSignal : Bool) (s : Server) : Server :=
  if exitSignal then (s.record .exitSignal).requestQuit ω else s

def answerAll (ω : System) (request : Request) (reply : Reply) (ids : List Nat) (s : Server) :
    Server := ids.foldl (fun s id => s.writeFrame ω id request reply) s

def pollSaveProcToCfg (ω : System) (s : Server) : Server :=
  match s.persistence with
  | .completed result =>
    let reply : Reply :=
      if result = 0 then { status := 0, message := "save success" }
      else { status := 1, message := "save fail" }
    let s := { s with persistence := .idle }.answerAll ω .save reply s.waitSaveSessions
    { s with waitSaveSessions := [] }
  | _ => s

def anyLiving (ω : System) (s : Server) : Bool × Server :=
  (s.pmTinyProgs.map (·.name)).foldl (fun acc name =>
    if (acc.2.findProg name).any (·.live) then (true, acc.2)
    else
      let tree := acc.2.isTreeEmpty ω name
      (acc.1 || !tree.1, tree.2)) (false, s)

def swapReloadConfig (config : ReloadConfig) (s : Server) : Server :=
  { s.record .swapReloadConfig with
    pmTinyProgs := config.pl
    dependencyGraph := config.graph
    dependencyRuntime := .reset
    reloadConfig := none }

/-- `check_quit_or_reload`; a loop exit sets `stopped`. -/
def checkQuitOrReload (ω : System) (s : Server) : Server :=
  let living := (s.pollSaveProcToCfg ω).anyLiving ω
  let s := living.2
  if !s.serverExit ∨ living.1 ∨ s.persistence.busy then s
  else match s.reloadConfig with
    | none => { s.record .loopExit with stopped := true }
    | some config =>
      let names := s.pmTinyProgs.map (·.name)
      let reply := if config.valid then success
        else { status := -1, message := "invalid configuration" }
      let s := { s with serverExit := false }.answerAll ω .reload reply s.waitReloadSessions
      let s := { s with waitReloadSessions := [] }
      if !config.valid then { s with reloadConfig := some { config with pl := [] } }
      else
        let s := s.swapReloadConfig config
        (names.foldl (fun s name => s.detachSessions ω name) s).spawn ω

def maintenance (ω : System) (exitSignal : Bool) (children : Option (List (Nat × Nat)))
    (s : Server) : Server :=
  ((s.checkDelayedExitSig ω exitSignal).checkDelayedChldSig ω children).checkQuitOrReload ω

end Server

/-- What happens to the daemon from outside. -/
inductive Input where
  | connect (id : Nat) (peer : Option Peer)
  | request (id messageType requestId : Nat) (request : Request)
  | disconnect (id : Nat)
  | maintenance (exitSignal : Bool) (children : Option (List (Nat × Nat)))
  | treeChange (name : String)
  | saveDone (result : Int)
  deriving DecidableEq, Repr

namespace Server

def acceptSession (s : Server) (id : Nat) (peer : Option Peer) : Server :=
  if (s.findSession id).isSome then s
  else { s with sessions := s.sessions ++ [{ id := id, peer := peer }] }

/-- A message is dispatched unless its session is closed or marked for closing. -/
def dispatchMessage (ω : System) (id messageType requestId : Nat) (request : Request) (s : Server) :
    Server :=
  if (s.findSession id).any fun session => !session.closed && !session.markedClose then
    (s.setSession id fun session => { session with
      currentMessageType := messageType, currentRequestId := requestId }).handleFrame ω id request
  else s

def step (ω : System) (s : Server) (input : Input) : Server :=
  if s.stopped then s
  else match input with
    | .connect id peer => s.acceptSession id peer
    | .request id messageType requestId request =>
      s.dispatchMessage ω id messageType requestId request
    | .disconnect id => s.closeSession id
    | .maintenance exitSignal children => s.maintenance ω exitSignal children
    | .treeChange name => s.observe ω name
    | .saveDone result =>
      if s.persistence = .running then { s with persistence := .completed result } else s

/-- The server once its configuration is loaded and the first programs are started. -/
def boot (ω : System) : Option Server :=
  match ω.loadProgCfg 0 with
  | .error _ => none
  | .ok programs =>
    let progs := parseCfg programs
    match buildProgDependencyGraph progs with
    | .error _ => none
    | .ok graph => some
        (Server.spawn ω { pmTinyProgs := progs, dependencyGraph := graph, ticks := 1 })

def run (ω : System) (s : Server) (inputs : List Input) : Server := inputs.foldl (step ω) s

/-- The states of the daemon between two events. -/
inductive Reachable (ω : System) : Server → Prop
  | boot : boot ω = some s → Reachable ω s
  | step (input : Input) : Reachable ω s → Reachable ω (s.step ω input)

theorem Reachable.run (h : Reachable ω s) (inputs : List Input) : Reachable ω (s.run ω inputs) := by
  induction inputs generalizing s with
  | nil => exact h
  | cons input inputs ih => exact ih (h.step input)

end Server
end PmTiny
