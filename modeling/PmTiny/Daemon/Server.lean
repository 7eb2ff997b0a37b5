import PmTiny.Core.RuntimeNames
import PmTiny.Daemon.Prog
import PmTiny.Lib.Keyed

namespace PmTiny
set_option autoImplicit true

structure ProgCfg where
  name : String
  cwd : String := "/"
  executable : String := "/bin/true"
  killTimeoutS : Int := 3
  runAs : String := ""
  dependsOn : List String := []
  startTimeout : Int := 0
  failureAction : FailureAction := .skip
  daemon : Bool := true
  heartbeatTimeout : Int := -1
  restart : RestartPolicyConfig := {}
  deriving DecidableEq, Repr

inductive StartMode where
  | existing | create
  deriving DecidableEq, Repr

structure StartRequest where
  mode : StartMode
  name : String
  config : ProgCfg
  showLog : Bool := false
  deriving DecidableEq, Repr

inductive StartResult where
  | started | waiting | blocked
  deriving DecidableEq, Repr

structure StartResponse where
  result : StartResult
  pid : Option Nat
  state : String
  blockedBy : List String := []
  deriving DecidableEq, Repr

inductive LogRequestMode where
  | live | history
  deriving DecidableEq, Repr

structure ProgramLogResponse where
  mode : LogRequestMode
  generation : Nat
  lastPid : Option Nat
  lastExitTimeUnixMs : Int := 0
  lastWstatus : Option Nat := none
  deriving DecidableEq, Repr

/-- A decoded control request; `malformed` is one whose payload cannot be decoded. -/
inductive Request where
  | list | info | version | save | reload | quit
  | stop (name : String)
  | start (request : StartRequest)
  | remove (name : String)
  | restart (name : String) (showLog : Bool)
  | log (name : String) (mode : LogRequestMode)
  | appReady (name : String)
  | appTick (name : String)
  | inspect (name : String)
  | malformed (error : String)
  deriving DecidableEq, Repr

/-- The part of a response after its status and message. -/
inductive ReplyBody where
  | none
  | snapshot
  | start (response : StartResponse)
  | pid (pid : Nat)
  | log (response : ProgramLogResponse)
  deriving DecidableEq, Repr

structure Reply where
  status : Int
  message : String
  body : ReplyBody := .none
  deriving DecidableEq, Repr

structure Peer where
  pid : Nat
  uid : Nat
  gid : Nat
  deriving DecidableEq, Repr

structure Session where
  id : Nat
  closed : Bool := false
  markedClose : Bool := false
  peer : Option Peer := none
  currentMessageType : Nat := 0
  currentRequestId : Nat := 0
  prog : Option String := none
  deriving DecidableEq, Repr

/-- A response frame: the header that `write_frame` puts on it and the request it answers. -/
structure Frame where
  session : Nat
  messageType : Nat
  requestId : Nat
  request : Request
  reply : Reply
  deriving DecidableEq, Repr

inductive SpawnOutcome where
  /-- No child was forked. -/
  | refused (errno : Nat)
  /-- The child was forked but never executed the program. -/
  | aborted (pid errno : Nat)
  | started (pid : Nat)
  deriving DecidableEq, Repr

structure Passwd where
  name : String
  uid : Nat
  gid : Nat
  deriving DecidableEq, Repr

/-- What the operating system answers; the first argument counts the calls made so far. -/
structure System where
  clock : Nat → Int
  unixTime : Nat → Int
  members : Nat → String → List Nat
  spawn : Nat → ProgInfo → SpawnOutcome
  send : Nat → Bool
  loadProgCfg : Nat → Except String (List ProgCfg)
  userFromUid : Nat → Nat → Except Nat Passwd
  uidFromUsername : Nat → String → Except Nat Passwd
  euid : Nat
  egid : Nat
  pid : Nat
  strerror : Nat → String

structure ReloadConfig where
  pl : List ProgInfo
  graph : DependencyGraph
  valid : Bool
  errorMessage : String

/-- The persistence worker thread: a save is running, or its result waits to be polled. -/
inductive Persistence where
  | idle | running | completed (result : Int)
  deriving DecidableEq, Repr

def Persistence.busy : Persistence → Bool
  | .idle => false
  | .running | .completed _ => true

/-- The programs, the dependency graph with its runtime, and the shutdown flags. -/
structure Registry where
  pmTinyProgs : List ProgInfo := []
  dependencyGraph : DependencyGraph := .empty
  dependencyRuntime : DependencyRuntime := .reset
  serverExit : Bool := false
  reloadConfig : Option ReloadConfig := none

/-- Who asked for `real_spawn_prog`. -/
inductive SpawnSite where
  | runtime | task | scheduled | restart
  deriving DecidableEq, Repr

inductive TaskSite where
  | reaper | poll | quit
  deriving DecidableEq, Repr

/-- Who reports programs to `spawn1`. -/
inductive ReadySite where
  | reaper | appReady | timeout
  deriving DecidableEq, Repr

inductive Signal where
  | term | kill
  deriving DecidableEq, Repr

/-- The calls and state writes that a run is judged by. -/
inductive Call where
  | realSpawnProg (name : String) (site : SpawnSite)
  | spawn0 (names : List String)
  | spawn1 (names : List String) (site : ReadySite)
  | requestClosure (name : String)
  | waitingStart (name : String)
  | blocked (name : String)
  | runTask (name : String) (task : Task) (site : TaskSite)
  | stopIdle (name : String)
  | removeIdle (name : String)
  | restartIdle (name : String)
  | create (name : String) (dependsOn : List String)
  | signalTree (name : String) (signal : Signal)
  | answer (frame : Frame)
  | exitSignal
  | requestQuit
  | swapReloadConfig
  | loopExit
  deriving DecidableEq, Repr

/-- A recorded call with the registry it saw. -/
structure Event where
  call : Call
  reg : Registry

structure Server extends Registry where
  sessions : List Session := []
  logSessions : List (String × Nat) := []
  pendingLogSessions : List (String × Nat) := []
  waitReloadSessions : List Nat := []
  waitSaveSessions : List Nat := []
  persistence : Persistence := .idle
  errno : Nat := 0
  ticks : Nat := 0
  stopped : Bool := false
  history : List Event := []

def Registry.findProg (r : Registry) (name : String) : Option ProgInfo :=
  Keyed.find ProgInfo.name name r.pmTinyProgs

def Registry.isReloading (r : Registry) : Bool := r.serverExit && r.reloadConfig.isSome

def Registry.runtimeState (r : Registry) (name : String) : DependencyRuntimeState :=
  r.dependencyRuntime.state r.dependencyGraph name

def Registry.requested (r : Registry) (name : String) : Bool :=
  r.dependencyRuntime.isRequested r.dependencyGraph name

def buildProgDependencyGraph (progs : List ProgInfo) : Except DependencyError DependencyGraph :=
  DependencyGraph.build (progs.map ProgInfo.dependencyNode)

namespace Server

def record (s : Server) (call : Call) : Server :=
  { s with history := ⟨call, s.toRegistry⟩ :: s.history }

def tick (s : Server) : Server := { s with ticks := s.ticks + 1 }

def setProg (s : Server) (name : String) (f : ProgInfo → ProgInfo) : Server :=
  { s with pmTinyProgs := Keyed.update ProgInfo.name name f s.pmTinyProgs }

def setRuntime (s : Server) (rt : DependencyRuntime) : Server := { s with dependencyRuntime := rt }

def setErrno (s : Server) (errno : Nat) : Server := { s with errno := errno }

def findSession (s : Server) (id : Nat) : Option Session := Keyed.find Session.id id s.sessions

def setSession (s : Server) (id : Nat) (f : Session → Session) : Server :=
  { s with sessions := Keyed.update Session.id id f s.sessions }

/-- A weak pointer that can be locked to a session that is not closed. -/
def isOpen (s : Server) (id : Nat) : Bool := (s.findSession id).any fun session => !session.closed

def observe (ω : System) (name : String) (s : Server) : Server :=
  (s.setProg name fun p => p.observe (ω.members s.ticks name)).tick

def isTreeEmpty (ω : System) (name : String) (s : Server) : Bool × Server :=
  let s := s.observe ω name
  ((s.findProg name).all fun p => p.inst.tree.isEmpty, s)

def signalTree (s : Server) (name : String) (signal : Signal) : Server :=
  s.record (.signalTree name signal)

def closeSession (s : Server) (id : Nat) : Server :=
  match s.findSession id with
  | none => s
  | some session =>
    if session.closed then s
    else
      let s := match session.prog with
        | none => s
        | some name => { s with logSessions := s.logSessions.filter (· ≠ (name, id)) }
      s.setSession id fun session => { session with closed := true, prog := none }

def writeFrame (ω : System) (id : Nat) (request : Request) (reply : Reply) (s : Server) : Server :=
  match s.findSession id with
  | none => s
  | some session =>
    if session.closed then s
    else
      let s := s.record <| .answer
        ⟨id, session.currentMessageType, session.currentRequestId, request, reply⟩
      if ω.send s.ticks then s.tick else s.tick.closeSession id

def addSession (s : Server) (name : String) (id : Nat) : Server :=
  { s with logSessions := s.logSessions ++ [(name, id)] }.setSession id fun session =>
    { session with prog := some name }

def sessionsOf (table : List (String × Nat)) (name : String) : List Nat :=
  (table.filter fun e => e.1 = name).map (·.2)

def failPendingLogSessions (ω : System) (name message : String) (s : Server) : Server :=
  let s := (sessionsOf s.pendingLogSessions name).foldl (fun s id =>
    s.writeFrame ω id (.log name .live) { status := -1, message := message }) s
  { s with pendingLogSessions := s.pendingLogSessions.filter fun e => e.1 ≠ name }

def liveLogResponse (p : ProgInfo) : ReplyBody :=
  .log { mode := .live, generation := p.inst.generation, lastPid := p.inst.lastPid }

def activatePendingLogSessions (ω : System) (name : String) (s : Server) : Server :=
  let body := (s.findProg name).elim .none liveLogResponse
  let s := (sessionsOf s.pendingLogSessions name).foldl (fun s id =>
    if s.isOpen id then
      (s.addSession name id).writeFrame ω id (.log name .live)
        { status := 0, message := "success", body := body }
    else s) s
  { s with pendingLogSessions := s.pendingLogSessions.filter fun e => e.1 ≠ name }

def detachSessions (ω : System) (name : String) (s : Server) : Server :=
  let s := (sessionsOf s.logSessions name).foldl (fun s id =>
    s.setSession id fun session => { session with markedClose := true, prog := none }) s
  let s := { s with logSessions := s.logSessions.filter fun e => e.1 ≠ name }
  s.failPendingLogSessions ω name "log wait canceled before the next generation started"

/-- `real_spawn_prog`: fork, attach the process tree and wait for the program to be executed. -/
def realSpawnProg (ω : System) (name : String) (site : SpawnSite) (s : Server) : Bool × Server :=
  let s := s.record (.realSpawnProg name site)
  match s.findProg name with
  | none => (false, s)
  | some p =>
    match ω.spawn s.ticks p with
    | .refused errno => (false, (s.setErrno errno).tick)
    | .aborted pid errno =>
      (false, ((s.setProg name fun p =>
        { p with inst := (p.inst.start pid).resetFailedStart }).setErrno errno).tick)
    | .started pid =>
      (true, (s.setProg name fun p =>
        { p with
          inst := { p.inst.start pid with tree := { active := true, members := [pid] } }
          lastStartupMs := ω.clock s.ticks
          heartbeatActionDueMs := 0
          state := .starting }).tick)

def blockProg (s : Server) (name : String) : Server :=
  match s.findProg name with
  | none => s
  | some _ => (s.record (.blocked name)).setProg name (·.setState .blocked)

def flagStartupFail (s : Server) (name : String) : Server :=
  let failure := s.dependencyRuntime.markFailed s.dependencyGraph name
  let s := (s.setRuntime failure.1).setProg name (·.setState .startupFail)
  failure.2.blocked.foldl blockProg s

def progsFromNames (s : Server) (names : List String) : List String :=
  names.filter fun name => (s.findProg name).isSome

/-- One program of `spawn0`. -/
def spawnOne (ω : System) (acc : List String × Server) (name : String) : List String × Server :=
  match acc.2.findProg name with
  | none => acc
  | some p =>
    if p.live then acc
    else
      let result := acc.2.realSpawnProg ω name .runtime
      if result.1 then (acc.1, result.2)
      else (acc.1 ++ [name], result.2.flagStartupFail name)

def spawn0 (ω : System) (startProgs : List String) (s : Server) : List String × Server :=
  startProgs.foldl (spawnOne ω) ([], s.record (.spawn0 startProgs))

def markReady (s : Server) (name : String) : List String × Server :=
  let result := s.dependencyRuntime.markReady s.dependencyGraph name
  (result.2, s.setRuntime result.1)

def spawn1 (ω : System) (startedProgs : List String) (site : ReadySite) (s : Server) : Server :=
  let s := s.record (.spawn1 startedProgs site)
  let acc := startedProgs.foldl (fun (acc : List String × Server) name =>
    let unlocked := acc.2.markReady name
    (acc.1 ++ unlocked.1, unlocked.2)) ([], s)
  let startProgs := acc.2.progsFromNames acc.1
  if startProgs.isEmpty then acc.2 else (acc.2.spawn0 ω startProgs).2

def spawn (ω : System) (s : Server) : Server :=
  let s := { s with pmTinyProgs := s.pmTinyProgs.map fun p : ProgInfo => p.setState .waitingStart }
  let all := DependencyRuntime.requestAll s.dependencyGraph .reset
  let s := s.setRuntime all.1
  (s.spawn0 ω (s.progsFromNames all.2)).2

/-- `start_prog`: `none` is the return value 1 of a program that is running already. -/
def startProg (ω : System) (name : String) (site : SpawnSite) (s : Server) :
    Option Bool × Server :=
  if (s.findProg name).any (·.live) then (none, s)
  else
    let result := s.realSpawnProg ω name site
    (some result.1, if result.1 then result.2.activatePendingLogSessions ω name else result.2)

/-- The loop that marks the programs still pending after a request as waiting. -/
def markWaiting (s : Server) : Server :=
  (s.pmTinyProgs.map (·.name)).foldl (fun s name =>
    if s.runtimeState name = .pending then
      (s.record (.waitingStart name)).setProg name (·.setState .waitingStart)
    else s) s

def requestClosure (s : Server) (name : String) : List String × Server :=
  let s := s.record (.requestClosure name)
  let result := s.dependencyRuntime.requestClosure s.dependencyGraph name
  (result.2, s.setRuntime result.1)

/-- The loop that marks every running program as ready; what it unlocks is not started. -/
def markRunning (s : Server) : Server :=
  s.pmTinyProgs.foldl (fun s existing =>
    if existing.state = .runing then (s.markReady existing.name).2 else s) s

def requestStart (ω : System) (name : String) (s : Server) : Bool × Server :=
  let names := s.markRunning.requestClosure name
  let s := names.2.markWaiting
  let result := s.spawn0 ω (s.progsFromNames names.1)
  (result.1.isEmpty, result.2)

def markDependencyStopped (s : Server) (name : String) : Server :=
  s.setRuntime (s.dependencyRuntime.markIdle s.dependencyGraph name)

def triggerDAGTraversalNextNode (s : Server) (name : String) : Server :=
  if (s.findProg name).any (·.state = .waitingStart) then s.markDependencyStopped name else s

def rebuildDependencyGraph (s : Server) : Server :=
  match buildProgDependencyGraph s.pmTinyProgs with
  | .error _ => s
  | .ok graph =>
    { s with dependencyGraph := graph, dependencyRuntime := .reset }.markRunning

def dependencyDependents (s : Server) (name : String) : List String :=
  match s.dependencyGraph.find name with
  | none => []
  | some id => (s.dependencyGraph.dependents id).map s.dependencyGraph.name

def removeProg (ω : System) (name : String) (s : Server) : Server :=
  let s := { s with pmTinyProgs := Keyed.remove ProgInfo.name name s.pmTinyProgs }
  (s.detachSessions ω name).rebuildDependencyGraph

def eio : Nat := 5

def startAndAddProg (ω : System) (prog : ProgInfo) (s : Server) : Bool × Server :=
  let s := s.record (.create prog.name prog.dependsOn)
  let runtimeSnapshot := s.dependencyRuntime.snapshot s.dependencyGraph
  match buildProgDependencyGraph (s.pmTinyProgs ++ [prog]) with
  | .error _ => (false, s)
  | .ok graph =>
    let s := { s with
      pmTinyProgs := s.pmTinyProgs ++ [prog]
      dependencyGraph := graph
      dependencyRuntime := .migrate graph runtimeSnapshot }
    let names := s.requestClosure prog.name
    let s := names.2.markWaiting
    let result := s.spawn0 ω (s.progsFromNames names.1)
    if result.1.isEmpty then (true, result.2)
    else
      let s := result.2
      let spawnErrno := if s.errno = 0 then eio else s.errno
      let s := { s with pmTinyProgs := Keyed.remove ProgInfo.name prog.name s.pmTinyProgs }
      let s := match buildProgDependencyGraph s.pmTinyProgs with
        | .error _ => s
        | .ok rebuilt => { s with
            dependencyGraph := rebuilt
            dependencyRuntime := .migrate rebuilt runtimeSnapshot }
      (false, s.setErrno spawnErrno)

end Server
end PmTiny
