import PmTiny.Windows.Loop

namespace PmTiny.Windows
set_option autoImplicit true

structure Kept (p q : ProcessHandle) : Prop where
  config : q.config = p.config
  hasProcess : q.hasProcess = p.hasProcess
  ready : q.ready = p.ready
  generation : q.generation = p.generation
  lastPid : q.lastPid = p.lastPid
  logTail : q.logTail = p.logTail
  hasLastExit : q.hasLastExit = p.hasLastExit
  lastExitCode : q.lastExitCode = p.lastExitCode
  completionAction : q.completionAction = p.completionAction
  terminating : q.termination.phase = .none ↔ p.termination.phase = .none
  restartPending : q.restartPending = p.restartPending
  restartDueMs : q.restartDueMs = p.restartDueMs
  restartState : q.restartState = p.restartState

/-- Why a program is launched: it is next on the worklist, or its restart is due. -/
def LaunchSite.Admits (site : LaunchSite) (c : Core) (p : ProcessHandle) (rest : List String) :
    Prop :=
  match site with
  | .dependency => c.launchQueue = p.name :: rest
  | .due nowMs => c.launchQueue = [] ∧ rest = [] ∧ p.restartPending = true ∧ p.restartDueMs ≤ nowMs

inductive TerminateReason (c : Core) (p : ProcessHandle) : CompletionAction → Prop
  | stopped (h : c.request = some (.stop p.name)) : TerminateReason c p .remove
  | restarted (h : c.request = some (.restart p.name showLog)) : TerminateReason c p .restart
  | deleted (h : c.request = some (.remove p.name)) : TerminateReason c p .deleteConfig
  | stopAll (h : p.name ∈ c.graph.names) : TerminateReason c p .remove
  | timeout (h : (p.name, event) ∈ c.timeouts) (hg : event.generation = p.generation) :
      TerminateReason c p .failureRestart
  | drained (h : p.termination.phase = .none) : TerminateReason c p .automatic

/-- What becomes of a completed process that is not granted a restart: its record, the dependency
runtime and the definitions. -/
inductive Completed (c : Core) (p : ProcessHandle) (nowMs : Int) :
    Option ProcessHandle → DependencyRuntime → List ProgramConfig → Prop
  | restart (h : Daemon.shouldRestart c p = true) (ha : p.completionAction = .restart) :
      Completed c p nowMs
        (some { p.reset with restartState := {}, restartPending := true, restartDueMs := nowMs })
        c.dependencies c.configMap
  | suppressed (h : Daemon.shouldRestart c p = true) (ha : p.completionAction ≠ .restart)
      (hd : (Daemon.restartDecision p nowMs).1.restart = false) :
      Completed c p nowMs
        (some { p.reset with
          restartState := (Daemon.restartDecision p nowMs).2
          restartPending := false
          restartDueMs := 0 })
        (if p.completionAction = .failureRestart then (c.dependencies.markFailed c.graph p.name).1
          else c.dependencies) c.configMap
  | remove (h : Daemon.shouldRestart c p = false) (ha : p.completionAction = .remove) :
      Completed c p nowMs (some p.reset) (c.dependencies.markIdle c.graph p.name) c.configMap
  | deleteConfig (h : Daemon.shouldRestart c p = false) (ha : p.completionAction = .deleteConfig) :
      Completed c p nowMs none c.dependencies (eraseConfig p.name c.configMap)
  | ended (h : Daemon.shouldRestart c p = false)
      (ha : p.completionAction ≠ .remove ∧ p.completionAction ≠ .deleteConfig) :
      Completed c p nowMs (some p.reset)
        (if p.ready then c.dependencies else (c.dependencies.markFailed c.graph p.name).1)
        c.configMap

/-- A new graph and runtime: only what was ready before, or runs and counts as ready, is ready, and
the requested flags still go with the states. -/
structure Rebuilt (c : Core) (graph : DependencyGraph) (rt : DependencyRuntime) : Prop where
  ready : ∀ m, rt.state graph m = .ready →
    c.dependencyState m = .ready ∨ ∃ p, c.find m = some p ∧ p.up = true
  consistent : c.dependencies.Consistent → rt.Consistent

/-- The records `ps` are those of the state, with `record` for the program. -/
def Daemon.Puts (s : Daemon) (ps : List ProcessHandle) (n : String)
    (record : Option ProcessHandle) : Prop := lookup ps = Function.update s.find n record

def Call.creates : Call → Bool
  | .created _ => true
  | _ => false

/-- A definition was put in place where there was none, and no program has been reported as created
since. -/
def Daemon.Defining (s : Daemon) (n : String) : Prop :=
  ∃ l e post cfg, s.history = l ++ e :: post ∧ (∀ e' ∈ l, e'.call.creates = false) ∧
    e.call = .define cfg ∧ cfg.name = n ∧ findConfig n e.core.configMap = none

def Call.silent : Call → Bool
  | .reply _ _ _ | .pollStream _ _ | .chunk _ _ | .final _ _ => true
  | _ => false

def Call.stream? : Call → Option Nat
  | .pollStream key _ | .chunk key _ | .final key _ => some key
  | _ => none

inductive StreamMove : Daemon → Daemon → Prop
  | opened (st : LogStream) (h : st.key = s.nextStream)
      (hbound : st.waitingForGeneration = false → ∃ p, s.find st.name = some p ∧
        p.generation = st.generation ∧ st.offset ≤ p.logTail.beginOffset) :
      StreamMove s { s with logStreams := s.logStreams ++ [st], nextStream := s.nextStream + 1 }
  | dropped (st : LogStream) (hst : s.findStream st.key = some st)
      (h : s.isOpen st.session = false ∨ st.waitingForGeneration = true) :
      StreamMove s (s.eraseStream st.key)
  | bound (ω : System) (st : LogStream) (hst : s.findStream st.key = some st)
      (h : st.waitingForGeneration = true) (hp : s.find st.name = some p) :
      StreamMove s (((s.setStream st.key fun _ => st.bind p).record
        (.pollStream st.key (st.bind p).offset)).serveStream ω (st.bind p))
  | served (ω : System) (st : LogStream) (hst : s.findStream st.key = some st)
      (h : st.waitingForGeneration = false) :
      StreamMove s ((s.record (.pollStream st.key st.offset)).serveStream ω st)

/-- One change of the daemon's state, with what its code has made sure of before it. -/
inductive Move : Daemon → Daemon → Prop
  | outside (hcore : s'.toCore = s.toCore) (hstreams : s'.logStreams = s.logStreams)
      (hnext : s'.nextStream = s.nextStream) (hhistory : s'.history = s.history)
      (hclosed : ∀ id ∈ s.closed, id ∈ s'.closed) : Move s s'
  | note (call : Call) (h : call.silent = true) (hreply : call.stream? = none) :
      Move s (s.record call)
  | stream (h : StreamMove s s') : Move s s'
  | edit (hp : s.find n = some p) (hk : Kept p q)
      (hps : s.Puts ps n (some q)) : Move s { s with processes := ps }
  | append (hp : s.find n = some p) (hk : Kept p q) (chunks : List (List UInt8))
      (hps : s.Puts ps n
        (some { q with logTail := chunks.foldl BoundedLogTail.append q.logTail })) :
      Move s { s.record (.appended n p.generation chunks.flatten) with processes := ps }
  | exit (hp : s.find n = some p) (hk : Kept p q) (code : Nat)
      (hps : s.Puts ps n
        (some { q with hasLastExit := true, lastExitCode := code })) :
      Move s { s.record (.processExit n p.generation code) with processes := ps }
  | terminate (hp : s.find n = some p) (hlive : p.hasProcess = true)
      (hr : TerminateReason s.toCore p action) (hk : Kept p q) (job : TerminationJob)
      (hjob : job.phase ≠ .none)
      (hps : s.Puts ps n
        (some { q with completionAction := action, termination := job })) :
      Move s { s.record (.terminate n action) with processes := ps }
  | setReady (hp : s.find n = some p) (hlive : p.hasProcess = true) (hk : Kept p q)
      (hps : s.Puts ps n (some { q with ready := true })) :
      Move s { s with processes := ps }
  | manual (hp : s.find n = some p) (hn : s.Names n) (hk : Kept p q)
      (hps : s.Puts ps n (some q.clearRestart)) :
      Move s { s with processes := ps, dependencies := s.dependencies.markIdle s.graph n }
  | started (hp : s.find n = some p) (hidle : p.hasProcess = false)
      (hsite : site.Admits s.toCore p rest)
      (hps : s.Puts ps n
        (some ((p.prepared site).reset.launched pid s.nextGeneration nowMs))) :
      Move s { { s with launchQueue := rest }.record (.launchProgram n site (.ok pid)) with
        processes := ps
        nextGeneration := s.nextGeneration + 1
        dependencies := s.dependencies.markStarting s.graph n }
  | refused (hp : s.find n = some p) (hidle : p.hasProcess = false)
      (hsite : site.Admits s.toCore p rest)
      (hps : s.Puts ps n (some (p.prepared site).reset)) :
      Move s { { s with launchQueue := rest }.record (.launchProgram n site (.error e)) with
        processes := ps
        dependencies := (s.dependencies.markFailed s.graph n).1 }
  | start (operation : StartOperation)
      (hready : ∀ n, operation = .markReady n →
        ∃ p, s.find n = some p ∧ p.hasProcess = true ∧ p.ready = true)
      (hnamed : ∀ n, operation = .requestClosure n → s.Names n) :
      Move s (s.startOperation operation)
  | dequeue (queue : List String) (h : ∀ n ∈ queue, n ∈ s.launchQueue) :
      Move s { s with launchQueue := queue }
  | complete (hqueue : s.launchQueue = []) (hp : s.find n = some p) (hlive : p.hasProcess = true)
      (hc : Completed s.toCore p nowMs q? rt configs)
      (hps : s.Puts ps n q?) :
      Move s { s.record (.complete n nowMs) with
        processes := ps, dependencies := rt, configMap := configs }
  | grant (hqueue : s.launchQueue = []) (hp : s.find n = some p) (hlive : p.hasProcess = true)
      (hrestart : Daemon.shouldRestart s.toCore p = true) (ha : p.completionAction ≠ .restart)
      (hd : (Daemon.restartDecision p nowMs).1.restart = true)
      (hps : s.Puts ps n (some { p.reset with
        restartState := (Daemon.restartDecision p nowMs).2
        restartPending := true
        restartDueMs := nowMs + (Daemon.restartDecision p nowMs).1.delayMs })) :
      Move s { (s.record (.complete n nowMs)).record (.granted n) with
        processes := ps, dependencies := s.dependencies.markPending s.graph n }
  | define (hqueue : s.launchQueue = []) (cfg : ProgramConfig) (hn : s.Names cfg.name)
      (hnew : ∀ c, findConfig cfg.name s.configMap = some c → c.cwd ≠ "" → cfg = c)
      (hrt : Rebuilt s.toCore graph rt)
      (hgraph : ∀ m, m ∈ graph.names ↔ (findConfig m (insertConfig cfg s.configMap)).isSome)
      (hsource : findConfig cfg.name s.configMap = none →
        ∃ r, s.request = some (.start r) ∧ r.mode = .create ∧ r.name = cfg.name) :
      Move s { s.record (.define cfg) with
        configMap := insertConfig cfg s.configMap, graph := graph, dependencies := rt }
  | commitDelete (hqueue : s.launchQueue = []) (hrequest : s.request = some (.remove n))
      (hp : s.find n = some p)
      (hend : p.hasProcess = true → p.completionAction = .deleteConfig ∧
        p.termination.phase ≠ .none)
      (hrt : Rebuilt s.toCore graph rt)
      (hgraph : ∀ m, m ∈ graph.names ↔ (findConfig m (eraseConfig n s.configMap)).isSome) :
      Move s { s.record (.deleted n) with
        configMap := eraseConfig n s.configMap, graph := graph, dependencies := rt }
  | rollback (hqueue : s.launchQueue = []) (hn : s.Names n) (hrt : Rebuilt s.toCore graph rt)
      (hgraph : (∀ m, m ∈ graph.names ↔ (findConfig m (eraseConfig n s.configMap)).isSome) ∨
        graph = s.graph) (hdefining : s.Defining n) :
      Move s { s with configMap := eraseConfig n s.configMap, graph := graph, dependencies := rt }
  | dropRecord (hn : s.Names n) (hp : s.find n = some p) (hidle : p.hasProcess = false)
      (hps : s.Puts ps n none) (hgone : findConfig n s.configMap = none ∨ s.Defining n) :
      Move s { s with processes := ps }
  | ensure (cfg : ProgramConfig) (hcfg : findConfig cfg.name s.configMap = some cfg)
      (hps : s.Puts ps cfg.name
        (some ((s.find cfg.name).elim { config := cfg } fun p => { p with config := cfg }))) :
      Move s { s.record (.ensure cfg) with processes := ps }
  | swap (hqueue : s.launchQueue = []) (hidle : ∀ n p, s.find n = some p → p.hasProcess = false)
      (hrt : Rebuilt s.toCore graph rt) (hconfigs : configMap = configMapOf s.reloadPrograms)
      (hgraph : ∀ graph', buildDependencies s.reloadPrograms = .ok graph' → graph = graph') :
      Move s { s.record .swapReload with
        processes := [], configMap := configMap, graph := graph, dependencies := rt }
  | flags (reloadPending : Bool) (reloadPrograms : List ProgramConfig)
      (shouldStop shutdownScheduled : Bool)
      (hprograms : reloadPrograms = s.reloadPrograms ∨ reloadPrograms = [] ∨
        ∃ ω t, loadProgramConfigs ω t = .ok reloadPrograms) :
      Move s { s with
        reloadPending := reloadPending
        reloadPrograms := reloadPrograms
        shouldStop := shouldStop
        shutdownScheduled := shutdownScheduled }
  | request (req : Request) (hqueue : s.launchQueue = []) (ht : s.timeouts = []) :
      Move s { s.record (.request req) with request := some req }
  | answered (hqueue : s.launchQueue = []) : Move s { s with request := none }
  | plan (l : List (String × LifecycleTimeoutEvent)) (hrequest : s.request = none)
      (h : ∀ n event, (n, event) ∈ l → ∃ p, s.find n = some p ∧ p.generation = event.generation ∧
        p.termination.phase = .none) : Move s { s with timeouts := l }
  | created (cfg : ProgramConfig) (hcfg : findConfig cfg.name s.configMap = some cfg)
      (hcwd : cfg.cwd ≠ "") (hp : s.find cfg.name = some p) (hpc : p.config = cfg)
      (hend : p.completionAction = .deleteConfig →
        ∃ e ∈ s.history, ∃ cfg' p', e.call = .define cfg' ∧ cfg'.name = cfg.name ∧
          findConfig cfg.name e.core.configMap = none ∧ e.core.find cfg.name = some p' ∧
          p'.completionAction = .deleteConfig) :
      Move s (s.record (.created cfg))

inductive Moves : Daemon → Daemon → Prop
  | refl (s : Daemon) : Moves s s
  | tail : Moves s s' → Move s' s'' → Moves s s''

theorem Moves.trans (h : Moves s s') (h' : Moves s' s'') : Moves s s'' := by
  induction h' with
  | refl => exact h
  | tail _ hm ih => exact ih.tail hm

theorem Move.moves (h : Move s s') : Moves s s' := (Moves.refl s).tail h

namespace Daemon

/-- The later state has recorded only events of a kind since. -/
def Adds (P : Event → Prop) (s s' : Daemon) : Prop :=
  ∃ l, s'.history = l ++ s.history ∧ ∀ e ∈ l, P e

theorem Adds.none {P : Event → Prop} (h : s'.history = s.history) : Adds P s s' :=
  ⟨[], h, fun e he => by cases he⟩

theorem Adds.one {P : Event → Prop} {e : Event} (h : s'.history = e :: s.history) (he : P e) :
    Adds P s s' := by
  refine ⟨[e], h, fun e' he' => ?_⟩
  rw [List.mem_singleton] at he'
  rw [he']
  exact he

theorem Adds.two {P : Event → Prop} {e₁ e₂ : Event} (h : s'.history = e₁ :: e₂ :: s.history)
    (h₁ : P e₁) (h₂ : P e₂) : Adds P s s' := by
  refine ⟨[e₁, e₂], h, fun e he => ?_⟩
  rcases List.mem_cons.1 he with rfl | he
  · exact h₁
  · rw [List.mem_singleton] at he
    rw [he]
    exact h₂

theorem Adds.trans {P : Event → Prop} (h : Adds P s s') (h' : Adds P s' s'') : Adds P s s'' := by
  obtain ⟨l, hl, hp⟩ := h
  obtain ⟨l', hl', hp'⟩ := h'
  refine ⟨l' ++ l, by rw [hl', hl, List.append_assoc], fun e he => ?_⟩
  rcases List.mem_append.1 he with he | he
  · exact hp' e he
  · exact hp e he

theorem Adds.mono {P Q : Event → Prop} (h : Adds P s s') (hpq : ∀ e, P e → Q e) : Adds Q s s' := by
  obtain ⟨l, hl, hp⟩ := h
  exact ⟨l, hl, fun e he => hpq e (hp e he)⟩

theorem Adds.mem {P : Event → Prop} (h : Adds P s s') : ∀ e ∈ s.history, e ∈ s'.history := by
  obtain ⟨l, hl, -⟩ := h
  intro e he
  rw [hl]
  exact List.mem_append_right l he

theorem Adds.cases {P : Event → Prop} (h : Adds P s s') :
    ∀ e ∈ s'.history, e ∈ s.history ∨ P e := by
  obtain ⟨l, hl, hp⟩ := h
  intro e he
  rw [hl] at he
  rcases List.mem_append.1 he with he | he
  · exact .inr (hp e he)
  · exact .inl he

end Daemon
end PmTiny.Windows
