import Mathlib.Logic.Relation
import PmTiny.Core.ClosureRequests
import PmTiny.Core.RuntimeProgress
import PmTiny.Daemon.Loop

namespace PmTiny
set_option autoImplicit true

structure Core where
  gen : Nat
  pid : Option Nat
  tree : ProcessTreeHandle
  job : TerminationJob
  state : ProgState
  tasks : List GenerationTask
  pending : Bool

namespace Core

def live (c : Core) : Prop := c.pid.isSome = true

/-- A task that `execute_penddingtasks` would still run for this generation. -/
def Queued (c : Core) (t : Task) : Prop := ⟨c.gen, t⟩ ∈ c.tasks

def Unqueued (c : Core) : Prop := ∀ t, ¬c.Queued t

def Gone (c : Core) : Prop := c.pid = none ∧ c.tree.isEmpty = true

def Draining (c : Core) : Prop := c.pid = none ∧ c.tree.isEmpty = false

def Terminating (c : Core) : Prop :=
  c.tasks ≠ [] ∨ c.job.phase.active = true ∧ c.tree.isEmpty = false

/-- A program that was never started. -/
def Fresh (c : Core) : Prop :=
  c.pid = none ∧ c.tree = {} ∧ c.job = {} ∧ c.tasks = [] ∧ c.pending = false ∧ c.state = .noRun

/-- A program that was not started since it was registered. -/
structure Pristine (c : Core) : Prop where
  pid : c.pid = none
  tree : c.tree = {}
  job : c.job = {}
  tasks : c.tasks = []
  pending : c.pending = false
  state : c.state = .noRun ∨ c.state = .waitingStart

theorem Fresh.pristine (h : Fresh c) : Pristine c :=
  ⟨h.1, h.2.1, h.2.2.1, h.2.2.2.1, h.2.2.2.2.1, .inl h.2.2.2.2.2⟩

end Core

def ProgInfo.core (p : ProgInfo) : Core :=
  ⟨p.inst.generation, p.inst.pid, p.inst.tree, p.inst.job, p.state, p.killPendingtasks,
    p.restartPending⟩

namespace Registry

def core (r : Registry) (n : String) : Option Core := (r.findProg n).map ProgInfo.core

def setProg (r : Registry) (n : String) (f : ProgInfo → ProgInfo) : Registry :=
  { r with pmTinyProgs := Keyed.update ProgInfo.name n f r.pmTinyProgs }

def dropProg (r : Registry) (n : String) : Registry :=
  { r with pmTinyProgs := Keyed.remove ProgInfo.name n r.pmTinyProgs }

def setRuntime (r : Registry) (rt : DependencyRuntime) : Registry :=
  { r with dependencyRuntime := rt }

end Registry

/-- A create request that has changed the registry and may still be rolled back. -/
structure Saved where
  name : String
  graph : DependencyGraph
  runtime : DependencyRuntime

structure Ghost where
  /-- Reaped programs whose tasks the reaper has still to run. -/
  pendding : List String := []
  /-- Programs whose tasks are being run by the polling loop or by a shutdown. -/
  running : List String := []
  deleting : List String := []
  /-- Programs accepted as ready by the timeout loop. -/
  accepted : List String := []
  /-- Programs whose scheduled restart is under way. -/
  settling : List String := []
  /-- Programs that a shutdown has still to visit. -/
  stopping : List String := []
  /-- Programs that are unregistered while the graph still names them. -/
  dropped : List String := []
  saved : Option Saved := none
  acking : Bool := false
  swapping : Bool := false
  /-- The length of the trace when the current event began. -/
  mark : Nat := 0

structure Ghost.Outside (g : Ghost) : Prop where
  pendding : g.pendding = []
  deleting : g.deleting = []
  accepted : g.accepted = []
  settling : g.settling = []

/-- The registry with the recorded calls and the position inside the running event. -/
structure View where
  reg : Registry
  ghost : Ghost
  trace : List Event

def Call.Granted : Call → Prop
  | .answer ⟨_, _, _, .stop _, reply⟩ => reply.status = 0
  | .answer ⟨_, _, _, .remove _, reply⟩ => reply.status = 0
  | _ => False

/-- A quit request answered with success, or a termination signal. -/
def Call.Acknowledges : Call → Prop
  | .answer ⟨_, _, _, .quit, reply⟩ => reply.status = 0
  | .exitSignal => True
  | _ => False

/-- A shutdown runs a queued restart plan before the program is gone. -/
def Call.PlansEarly : Call → Prop
  | .runTask _ (.planRestart _ _) .quit => True
  | .runTask _ .timeoutRestart .quit => True
  | _ => False

namespace View

def core (v : View) (n : String) : Option Core := v.reg.core n

def requested (v : View) (n : String) : Bool := v.reg.requested n

def rtState (v : View) (n : String) : DependencyRuntimeState := v.reg.runtimeState n

def Active (v : View) : Prop :=
  v.reg.serverExit = false ∧ v.ghost.swapping = false ∧ v.ghost.acking = false

/-- The calls recorded since the current event began. -/
def fresh (v : View) : List Event := v.trace.take (v.trace.length - v.ghost.mark)

/-- No stop or delete request has been granted since the current event began. -/
def Quiet (v : View) : Prop := ∀ e ∈ v.fresh, ¬e.call.Granted

def Seen (v : View) (call : Call) : Prop := ⟨call, v.reg⟩ ∈ v.trace

def NoDependents (v : View) (n : String) : Prop :=
  ∀ m, n ∉ v.reg.dependencyGraph.dependencyNames m

end View

/-- A program that may be flagged as failed: its spawn failed, its scheduled restart failed, or its
timeout restart was suppressed. -/
def Flags (v : View) (n : String) (c : Core) : Prop :=
  (c.pid = none ∧ (v.requested n = true ∧ v.rtState n ≠ .ready ∨
      n ∈ v.ghost.settling ∧ c.Gone ∧ v.ghost.saved = none) ∧
    ∃ site r p, site ≠ .task ∧ ⟨.realSpawnProg n site, r⟩ ∈ v.trace ∧ r.findProg n = some p ∧
      (c.Terminating → p.core.Terminating)) ∨
  (c.Queued .timeoutRestart ∧ (n ∈ v.ghost.pendding ∨ n ∈ v.ghost.running) ∧
    v.ghost.saved = none ∧
    (c.Gone ∨ c.live ∧ v.reg.serverExit = true ∧
      ∃ r, ⟨.runTask n .timeoutRestart .quit, r⟩ ∈ v.trace))

def Enqueues (v : View) (c : Core) : Task → Prop
  | .planRestart _ _ => False
  | .timeoutRestart => True
  | .stopProc _ => c.tasks = [] ∧ v.Active ∧ c.pending = false ∧ c.state = .requestStop
  | .deleteProg _ => c.tasks = [] ∧ v.Active ∧ c.state = .requestDelete
  | .startProg _ _ => c.tasks = [] ∧ c.pending = false

def Plans (c : Core) : Task → ProgState → Bool → Prop
  | .planRestart _ _, state, pending =>
    state = .waitingStart ∧ pending = true ∨ state = .stoped ∧ pending = false
  | .timeoutRestart, state, pending =>
    state = .waitingStart ∧ pending = true ∨ state = c.state ∧ pending = false
  | _, _, _ => False

/-- One write to a program, with the position of the daemon after it. -/
inductive ProgMove (v : View) (n : String) : Core → Core → Ghost → Prop
  | touch : ProgMove v n c c v.ghost
  | observe (members : List Nat) :
      ProgMove v n c { c with tree := c.tree.observe members } v.ghost
  | reset : ProgMove v n c { c with pending := false } v.ghost
  | kill (job : TerminationJob) (hl : c.live) (hq : c.Unqueued ∨ v.reg.serverExit = true)
      (ha : n ∉ v.ghost.accepted) :
      ProgMove v n c { c with job := job, state := .requestStop } v.ghost
  | requestDelete (hl : c.live) (ht : c.tasks = []) (hs : c.state = .requestStop)
      (ha : v.Active) (hd : v.NoDependents n) :
      ProgMove v n c { c with state := .requestDelete } v.ghost
  | enqueue (t : Task) (hl : c.live) (hq : c.Unqueued) (hs : c.state.terminating = true)
      (ht : Enqueues v c t) (hn : v.ghost.pendding = []) :
      ProgMove v n c { c with tasks := c.tasks ++ [⟨c.gen, t⟩] } v.ghost
  | reapDrain (job : TerminationJob) (extra : List GenerationTask) (hl : c.live)
      (ht : c.tree.isEmpty = false) (hr : v.requested n = false) (hs : v.ghost.saved = none)
      (ha : v.ghost.accepted = []) (hn : n ∉ v.ghost.pendding)
      (he : extra = [] ∨ c.state.terminating = false ∧
        ∃ nowMs lifeTime, extra = [⟨c.gen, .planRestart nowMs lifeTime⟩]) :
      ProgMove v n c { c with
        pid := none, job := job, state := .requestStop, tasks := c.tasks ++ extra } v.ghost
  | reapStopped (hl : c.live) (hr : v.requested n = false) (hs : v.ghost.saved = none)
      (ha : v.ghost.accepted = []) (hset : v.ghost.settling = [])
      (hn : n ∉ v.ghost.pendding ∧ n ∉ v.ghost.deleting) (ht : c.state.terminating = true) :
      ProgMove v n c { c with
        pid := none, tree := {}, state := if c.state = .requestStop then .stoped else .exit }
        { v.ghost with
          pendding := v.ghost.pendding ++ [n]
          deleting := v.ghost.deleting ++ if c.state = .requestDelete then [n] else [] }
  | reapExited (state : ProgState) (pending : Bool) (hl : c.live) (hr : v.requested n = false)
      (hs : v.ghost.saved = none) (ha : v.ghost.accepted = []) (ht : c.state.terminating = false)
      (hst : state = .waitingStart ∨ state = .stoped ∨ state = .exit) :
      ProgMove v n c { c with pid := none, tree := {}, state := state, pending := pending } v.ghost
  | spawned (site : SpawnSite) (pid : Nat) (hp : c.pid = none) (ha : v.Active)
      (hc : v.Seen (.realSpawnProg n site)) (hrt : site = .runtime → v.requested n = true)
      (hsite : site = .scheduled → n ∈ v.ghost.settling)
      (htask : site = .task → (∃ id showLog, c.Queued (.startProg id showLog)) ∧
        (n ∈ v.ghost.pendding ∨ n ∈ v.ghost.running))
      (hrestart : site = .restart → c.pending = false ∧ v.Quiet) :
      ProgMove v n c { c with
        gen := c.gen + 1, pid := some pid, tree := ⟨true, [pid]⟩, job := {}, state := .starting }
        v.ghost
  | aborted (site : SpawnSite) (hp : c.pid = none) (hc : v.Seen (.realSpawnProg n site)) :
      ProgMove v n c { c with gen := c.gen + 1, pid := none, tree := {}, job := {} } v.ghost
  | startupFail (h : Flags v n c) : ProgMove v n c { c with state := .startupFail } v.ghost
  | block (hc : v.Seen (.blocked n)) (hr : v.requested n = true) (hs : v.rtState n ≠ .ready) :
      ProgMove v n c { c with state := .blocked } v.ghost
  | waiting (hc : v.Seen (.waitingStart n)) (hs : v.rtState n = .pending) (hq : v.Quiet)
      (ho : v.ghost.Outside) :
      ProgMove v n c { c with state := .waitingStart } v.ghost
  | run (hs : c.state = .starting) (hq : v.Quiet) (ho : v.ghost.Outside) :
      ProgMove v n c { c with state := .runing } v.ghost
  | accept (hl : c.live) (hq : c.Unqueued) (hs : c.state.terminating = false)
      (hd : v.ghost.deleting = []) :
      ProgMove v n c { c with state := .runing }
        { v.ghost with accepted := v.ghost.accepted ++ [n] }
  | plan (t : Task) (state : ProgState) (pending : Bool) (ht : c.Queued t)
      (hp : Plans c t state pending) (hn : n ∈ v.ghost.pendding ∨ n ∈ v.ghost.running)
      (hg : c.Gone ∨ v.reg.serverExit = true ∧ ∃ r, ⟨.runTask n t .quit, r⟩ ∈ v.trace) :
      ProgMove v n c { c with state := state, pending := pending } v.ghost
  | clearPendding (hn : n ∈ v.ghost.pendding) :
      ProgMove v n c { c with tasks := [] }
        { v.ghost with pendding := v.ghost.pendding.erase n }
  | clearRunning (hn : n ∈ v.ghost.running) :
      ProgMove v n c { c with tasks := [] } { v.ghost with running := v.ghost.running.erase n }
  | poll (job : TerminationJob) (hs : c.state.terminating = true) :
      ProgMove v n c { c with job := job } v.ghost
  | cleaned (hs : c.state.terminating = true) (hg : c.Gone) :
      ProgMove v n c { c with tree := {} } v.ghost
  | stoped (hc : v.Seen (.stopIdle n)) (hp : c.pid = none) (ht : c.tasks = []) :
      ProgMove v n c { c with state := .stoped } v.ghost
  | noRun (hx : v.reg.serverExit = true) (hs : c.state = .waitingStart) :
      ProgMove v n c { c with state := .noRun } v.ghost

/-- A program that `mark_ready` may be called for. -/
def MayReady (v : View) (n : String) (c : Core) : Prop :=
  c.state = .runing ∨ n ∈ v.ghost.accepted ∧ c.live ∨
  (∃ names r, ⟨.spawn1 names .reaper, r⟩ ∈ v.trace ∧ n ∈ names) ∧ c.Gone ∧ v.Quiet ∧
    n ∉ v.ghost.pendding ∧ n ∉ v.ghost.deleting

inductive RuntimeMove (v : View) : DependencyRuntime → Prop
  | idle (n : String) (hs : v.ghost.saved = none) :
      RuntimeMove v (v.reg.dependencyRuntime.markIdle v.reg.dependencyGraph n)
  | ready (n : String) (hc : v.core n = some c) (h : MayReady v n c) (hs : v.ghost.saved = none) :
      RuntimeMove v (v.reg.dependencyRuntime.markReady v.reg.dependencyGraph n).1
  | failed (n : String) (hc : v.core n = some c) (h : Flags v n c) :
      RuntimeMove v (v.reg.dependencyRuntime.markFailed v.reg.dependencyGraph n).1
  | closure (n : String) (hc : v.Seen (.requestClosure n)) (hq : v.Quiet) (ha : v.Active)
      (ho : v.ghost.Outside) :
      RuntimeMove v (v.reg.dependencyRuntime.requestClosure v.reg.dependencyGraph n).1

inductive GhostMove (v : View) : Ghost → Prop
  | enter (n : String)
      (hs : ∀ c, v.core n = some c → c.state.terminating = true ∨ c.tree.isEmpty = true) :
      GhostMove v { v.ghost with running := n :: v.ghost.running }
  | visited (n : String) (hs : ∀ c, v.core n = some c → c.state ≠ .starting) :
      GhostMove v { v.ghost with stopping := v.ghost.stopping.erase n }
  | forget : GhostMove v { v.ghost with accepted := [] }
  | settle (n : String) (hc : v.core n = some c) (hp : c.pending = true) (hg : c.Gone)
      (ha : v.Active) : GhostMove v { v.ghost with settling := n :: v.ghost.settling }
  | settled (n : String) (hp : ∀ c, v.core n = some c → c.pending = false) :
      GhostMove v { v.ghost with settling := v.ghost.settling.erase n }
  | doom (n : String) (hc : v.core n = some c) (hp : c.pid = none) (ht : c.tasks = [])
      (hq : v.Quiet) (ho : v.ghost.Outside) (hd : v.NoDependents n) :
      GhostMove v { v.ghost with deleting := n :: v.ghost.deleting }
  | commit (hw : ∀ saved, v.ghost.saved = some saved →
        DependencyRuntime.Waits v.reg.dependencyGraph v.reg.dependencyRuntime saved.name) :
      GhostMove v { v.ghost with saved := none }
  | ack (hq : v.Quiet) : GhostMove v { v.ghost with acking := true }
  | acked (hx : v.reg.serverExit = true) : GhostMove v { v.ghost with acking := false }
  | boundary (mark : Nat) (hg : v.ghost = { mark := mark }) :
      GhostMove v { mark := v.trace.length }

structure ReloadConfig.Ready (config : ReloadConfig) : Prop where
  valid : config.valid = true
  built : buildProgDependencyGraph config.pl = .ok config.graph
  fresh : ∀ p ∈ config.pl, p.core.Fresh

def Registry.add (r : Registry) (p : ProgInfo) (graph : DependencyGraph) : Registry :=
  { r with
    pmTinyProgs := r.pmTinyProgs ++ [p]
    dependencyGraph := graph
    dependencyRuntime := .migrate graph (r.dependencyRuntime.snapshot r.dependencyGraph) }

def Registry.rollback (r : Registry) (saved : Saved) : Registry :=
  let r := r.dropProg saved.name
  match buildProgDependencyGraph r.pmTinyProgs with
  | .error _ => r
  | .ok graph => { r with
      dependencyGraph := graph
      dependencyRuntime := .migrate graph (saved.runtime.snapshot saved.graph) }

def Registry.spawnAll (r : Registry) : Registry :=
  { r with
    pmTinyProgs := r.pmTinyProgs.map fun p => p.setState .waitingStart
    dependencyRuntime := (DependencyRuntime.requestAll r.dependencyGraph .reset).1 }

inductive RegistryMove (v : View) : Registry → Ghost → Prop
  | add (p : ProgInfo) (graph : DependencyGraph)
      (hb : buildProgDependencyGraph (v.reg.pmTinyProgs ++ [p]) = .ok graph)
      (hf : p.core.Fresh) (ha : v.Active) (hq : v.Quiet) (ho : v.ghost.Outside)
      (hs : v.ghost.saved = none) (hd : v.ghost.dropped = [])
        (hc : v.Seen (.create p.name p.dependsOn)) :
      RegistryMove v (v.reg.add p graph)
        { v.ghost with
          saved := some ⟨p.name, v.reg.dependencyGraph, v.reg.dependencyRuntime⟩ }
  | rollback (saved : Saved) (hs : v.ghost.saved = some saved) (hd : v.ghost.dropped = [])
      (ha : v.ghost.accepted = []) :
      RegistryMove v (v.reg.rollback saved) { v.ghost with saved := none }
  | drop (n : String) (hn : n ∈ v.ghost.deleting) (hs : v.ghost.saved = none)
      (ha : v.ghost.accepted = []) :
      RegistryMove v (v.reg.dropProg n)
        { v.ghost with deleting := v.ghost.deleting.erase n, dropped := n :: v.ghost.dropped }
  | rebuilt (graph : DependencyGraph) (hs : v.ghost.saved = none)
      (hb : buildProgDependencyGraph v.reg.pmTinyProgs = .ok graph) :
      RegistryMove v { v.reg with dependencyGraph := graph, dependencyRuntime := .reset }
        { v.ghost with dropped := [] }
  | stale (e : DependencyError) (hb : buildProgDependencyGraph v.reg.pmTinyProgs = .error e) :
      RegistryMove v v.reg { v.ghost with dropped := [] }
  | quit (names : List String) (hn : ∀ n c, v.core n = some c → n ∈ names)
      (hx : v.reg.serverExit = false) (hq : v.Quiet) (hs : v.ghost.saved = none) :
      RegistryMove v { v.reg with serverExit := true }
        { v.ghost with stopping := names, acking := false }
  | reload (config : ReloadConfig) (ha : v.Active) (hc : config.Ready) :
      RegistryMove v { v.reg with reloadConfig := some config } v.ghost
  | beginSwap (config : ReloadConfig) (hx : v.reg.serverExit = true)
      (hc : v.reg.reloadConfig = some config) (hs : v.ghost.stopping = []) :
      RegistryMove v { v.reg with serverExit := false } { v.ghost with swapping := true }
  | swap (config : ReloadConfig) (hw : v.ghost.swapping = true)
      (hc : v.reg.reloadConfig = some config)
      (hg : v.ghost = { swapping := true, mark := v.ghost.mark })
      (ht : ∃ r earlier, v.trace = ⟨.swapReloadConfig, r⟩ :: earlier) :
      RegistryMove v
        { v.reg with
          pmTinyProgs := config.pl, dependencyGraph := config.graph, dependencyRuntime := .reset,
          reloadConfig := none }
        { v.ghost with swapping := false }
  | spawnAll (hf : ∀ n c, v.core n = some c → c.Fresh) (ha : v.Active)
      (hg : v.ghost = { mark := v.ghost.mark })
      (hrt : v.reg.dependencyRuntime = .reset) :
      RegistryMove v v.reg.spawnAll v.ghost

def Answers (v : View) (n : String) (task : Task) (idle : Call) : Prop :=
  v.Active ∧ v.ghost.saved = none ∧ v.ghost.settling = [] ∧ ∃ c, v.core n = some c ∧
    ((∃ site, v.Seen (.runTask n task site) ∧ c.Queued task ∧ site ≠ .quit ∧
        (site = .reaper → n ∈ v.ghost.pendding)) ∨
      c.pid = none ∧ ∃ r p, ⟨idle, r⟩ ∈ v.trace ∧ r.findProg n = some p ∧
        p.inst.tree = c.tree ∧ match idle with
          | .stopIdle _ => c.state = .stoped ∧ c.tasks = [] ∧ c.pending = false ∧
              v.requested n = false ∧ n ∉ v.ghost.deleting
          | _ => n ∈ v.ghost.deleting)

/-- The program can be handed out on this event: it waits or is asked for, and the runtime calls its
direct dependencies ready, or they are now reported so. -/
def Event.Releases (e : Event) (n : String) : Prop :=
  match e.call with
  | .requestClosure m =>
    (e.reg.runtimeState n = .pending ∨
        DependencyRuntime.Enters e.reg.dependencyGraph e.reg.dependencyRuntime m n) ∧
      ∀ d ∈ e.reg.dependencyGraph.dependencyNames n, e.reg.runtimeState d = .ready
  | .spawn1 ms _ =>
    (e.reg.runtimeState n = .pending ∨ e.reg.runtimeState n = .blocked ∧
        ∃ m ∈ ms, DependencyRuntime.Below e.reg.dependencyGraph m n) ∧
      ∀ d ∈ e.reg.dependencyGraph.dependencyNames n, e.reg.runtimeState d = .ready ∨ d ∈ ms
  | _ => False

/-- A program without dependencies, or one that an event released which saw its dependencies as they
are now. -/
def View.Released (v : View) (n : String) : Prop :=
  v.reg.dependencyGraph.dependencyNames n = [] ∨
    ∃ e ∈ v.trace, e.Releases n ∧ e.reg.dependencyGraph = v.reg.dependencyGraph ∧
      ∀ d ∈ v.reg.dependencyGraph.dependencyNames n, e.reg.findProg d = v.reg.findProg d

/-- What holds when a call is recorded. -/
def Fits (v : View) : Call → Prop
  | .realSpawnProg n site => v.Active ∧ ∃ c, v.core n = some c ∧ c.pid = none ∧
      match site with
      | .runtime => v.requested n = true
      | .task => c.tree.isEmpty = true
      | .scheduled => c.tree.isEmpty = true
      | .restart => v.Seen (.restartIdle n)
  | .spawn0 names => v.Active ∧ ∀ n ∈ names, (∃ c, v.core n = some c) ∧
      (∀ d ∈ v.reg.dependencyGraph.dependencyNames n, v.rtState d = .ready) ∧ v.Released n
  | .answer ⟨id, _, _, .stop n, reply⟩ =>
      reply.status = 0 → Answers v n (.stopProc id) (.stopIdle n)
  | .answer ⟨id, _, _, .remove n, reply⟩ =>
      reply.status = 0 → Answers v n (.deleteProg id) (.removeIdle n)
  | .answer ⟨_, _, _, .quit, reply⟩ => reply.status = 0 → v.ghost.acking = true
  | .exitSignal => v.ghost.acking = true
  | .requestQuit => v.reg.serverExit = true
  | .swapReloadConfig => v.reg.reloadConfig ≠ none
  | _ => True

def Keeps (f : ProgInfo → ProgInfo) : Prop :=
  ∀ p, (f p).name = p.name ∧ (f p).dependsOn = p.dependsOn

inductive Move : View → View → Prop
  | prog (hf : Keeps f) (hp : v.reg.findProg n = some p) (h : ProgMove v n p.core (f p).core g) :
      Move v { v with reg := v.reg.setProg n f, ghost := g }
  | runtime (h : RuntimeMove v rt) : Move v { v with reg := v.reg.setRuntime rt }
  | ghost (h : GhostMove v g) : Move v { v with ghost := g }
  | registry (h : RegistryMove v r g) : Move v { v with reg := r, ghost := g }
  | log (call : Call) (h : Fits v call) : Move v { v with trace := ⟨call, v.reg⟩ :: v.trace }

abbrev Moves : View → View → Prop := Relation.ReflTransGen Move

end PmTiny
