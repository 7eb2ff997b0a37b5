import PmTiny.Persist.SaveLoad
import PmTiny.Windows.Launching
import PmTiny.Windows.Readiness

namespace PmTiny.Windows
set_option autoImplicit true

variable {s s₁ fresh : Daemon} {ω ω' : System} {ok : ProgramConfig → Bool} {n : String}
  {programs : List ProgramConfig} {graph : DependencyGraph} {rt : DependencyRuntime}

open Daemon

deriving instance DecidableEq for Persist.ProgCfg

def Launching.startAll (ok : ProgramConfig → Bool) (graph : DependencyGraph)
    (rt : DependencyRuntime) (programs : List ProgramConfig) : Launching :=
  (Launching.startOperation ⟨graph, rt, programs.map fun cfg => (cfg, false), [], []⟩
    .requestAll).schedule ok

namespace Daemon

theorem launching_ensureProcessRecords (programs : List ProgramConfig)
    (hnodup : (programs.map Persist.ProgCfg.name).Nodup)
    (hnew : ∀ cfg ∈ programs, s.find cfg.name = none) :
    (s.ensureProcessRecords programs).launching =
      { s.launching with
        records := s.launching.records ++ programs.map fun cfg => (cfg, false) } := by
  induction programs generalizing s with
  | nil =>
    rw [List.map_nil, List.append_nil]
    rfl
  | cons cfg programs ih =>
    obtain ⟨hcfg, hnodup'⟩ := List.nodup_cons.1 hnodup
    have hrecord : s.ensureProcessRecord cfg =
        { s.record (.ensure cfg) with processes := s.processes ++ [{ config := cfg }] } := by
      rw [ensureProcessRecord, hnew cfg List.mem_cons_self]
    have hlaunching : (s.ensureProcessRecord cfg).launching =
        { s.launching with records := s.launching.records ++ [(cfg, false)] } := by
      rw [hrecord]
      simp only [launching, record, launchedNames, List.filterMap_cons, Call.launchName,
        List.map_append, List.map_cons, List.map_nil]
      rfl
    have hfind : ∀ cfg' ∈ programs, (s.ensureProcessRecord cfg).find cfg'.name = none := by
      intro cfg' hcfg'
      have hold := hnew cfg' (List.mem_cons_of_mem cfg hcfg')
      have hself := hnew cfg List.mem_cons_self
      have hne : cfg.name ≠ cfg'.name := by
        intro he
        exact hcfg (List.mem_map.2 ⟨cfg', hcfg', he.symm⟩)
      rw [hrecord]
      exact (Keyed.find_append_singleton (a := ({ config := cfg } : ProcessHandle)) hself).trans
        ((if_neg hne).trans hold)
    have hrest := ih (s := s.ensureProcessRecord cfg) hnodup' hfind
    rw [hlaunching] at hrest
    rw [ensureProcessRecords, List.foldl_cons, ← ensureProcessRecords, hrest, List.map_cons,
      List.append_assoc]
    rfl

theorem launching_swapReload (hok : ∀ t cfg, (ω.launch t cfg).isOk = ok cfg)
    (hqueue : s.launchQueue = []) (hbuild : buildDependencies s.reloadPrograms = .ok graph) :
    (s.swapReload ω).launching = (Launching.startAll ok graph
      (.migrate graph (s.dependencies.snapshot s.graph)) s.reloadPrograms).onto
        (launchedNames s.history) := by
  obtain ⟨-, hnodup⟩ := build_ok hbuild
  obtain ⟨s₀, hs₀⟩ : ∃ s₀ : Daemon, s₀ = ({ s.record .swapReload with
    configMap := configMapOf s.reloadPrograms, processes := [] } : Daemon).replaceDependencies
      graph := ⟨_, rfl⟩
  have hlaunching : s₀.launching = ⟨graph, .migrate graph (s.dependencies.snapshot s.graph), [], [],
      launchedNames s.history⟩ := by
    rw [hs₀, ← hqueue]
    rfl
  have hensured := launching_ensureProcessRecords (s := s₀) s.reloadPrograms hnodup (by
    intro cfg hcfg
    rw [hs₀]
    rfl)
  have hswap : (s.swapReload ω).launching = (((s₀.ensureProcessRecords
      s.reloadPrograms).startOperation .requestAll).scheduleDependencyLaunch ω).1.launching := by
    rw [swapReload]
    simp only [record] at hbuild hs₀ ⊢
    rw [hbuild, hs₀]
    rfl
  rw [hswap, launching_schedule hok, launching_startOperation, hensured, hlaunching,
    Launching.startAll, ← Launching.schedule_onto]
  rfl

theorem launching_start (hok : ∀ t cfg, (ω.launch t cfg).isOk = ok cfg)
    (h : start ω programs = some fresh) (hprograms : programs ≠ []) :
    ∃ graph, buildDependencies programs = .ok graph ∧
      fresh.launching = Launching.startAll ok graph .reset programs := by
  rw [start] at h
  cases hbuild : buildDependencies programs with
  | error error =>
    rw [hbuild] at h
    cases h
  | ok graph =>
    obtain ⟨-, hnodup⟩ := build_ok hbuild
    rw [hbuild] at h
    simp only at h
    generalize hs₀ :
      ({ configMap := configMapOf programs, ticks := 1 } : Daemon).replaceDependencies
      graph = s₀ at *
    have hlaunching : s₀.launching = ⟨graph, .reset, [], [], []⟩ := by
      rw [← hs₀]
      rfl
    have hensured := launching_ensureProcessRecords (s := s₀) programs hnodup (by
      intro cfg hcfg
      rw [← hs₀]
      rfl)
    rw [if_neg (by simpa using hprograms), Option.some.injEq] at h
    refine ⟨graph, rfl, ?_⟩
    rw [← h, launching_schedule hok, launching_startOperation, hensured, hlaunching]
    rfl

theorem start_nil (h : start ω [] = some fresh) :
    launchedNames fresh.history = [] ∧ ∀ n, fresh.dependencyState n = .idle := by
  rw [start] at h
  cases hbuild : buildDependencies [] with
  | error error =>
    rw [hbuild] at h
    cases h
  | ok graph =>
    rw [hbuild] at h
    simp only [List.isEmpty_nil, if_true, Option.some.injEq] at h
    obtain ⟨hnames, -⟩ := build_ok hbuild
    have hnone : ∀ n, n ∉ graph.names := by
      intro n
      rw [hnames]
      exact List.not_mem_nil
    rw [← h]
    exact ⟨rfl, fun n => DependencyRuntime.state_of_not_mem (hnone n)⟩

theorem since_swapReload (hidle : s.Idle) (hdistinct : s.Distinct)
    (hstopped : allProcessesStopped s.toCore = true) :
    launchedNames (s.swapReload ω).history =
      launchedNames (since s (s.swapReload ω)) ++ launchedNames s.history := by
  have hmoves := ((passes_swapReload ω s hstopped hidle.launchQueue).1 hdistinct).1
  rw [hmoves.history, launchedNames, List.filterMap_append]
  rfl

end Daemon

/-- Two systems on which the same launches succeed, whenever they are made. -/
def SameOutcomes (ω ω' : System) : Prop :=
  ∀ t t' cfg, (ω.launch t cfg).isOk = (ω'.launch t' cfg).isOk

namespace Daemon

/-- The main loop puts the new definitions in force. -/
structure Swaps (s : Daemon) : Prop where
  pending : s.reloadPending = true
  stopped : allProcessesStopped s.toCore = true
  running : s.shutdownScheduled = false

/-- The swap hands the programs of a start to `launch_program`, and leaves the runtime of a
start. -/
def ReloadsAsStart (s : Daemon) : Prop := ∀ ω ω' fresh, SameOutcomes ω ω' →
  start ω' s.reloadPrograms = some fresh →
    (∀ n, n ∈ launchedNames (since s (s.swapReload ω)) ↔ n ∈ launchedNames fresh.history) ∧
    ∀ n, (s.swapReload ω).dependencyState n = fresh.dependencyState n

theorem loadProgramConfigs_build {t : Nat} (h : loadProgramConfigs ω t = .ok programs) :
    ∃ graph, buildDependencies programs = .ok graph := by
  have hordered : ∃ checked, Persist.orderProgCfgs checked = .ok programs := by
    rw [loadProgramConfigs] at h
    split at h
    · cases h
    · split at h
      · cases h
      · exact ⟨_, h⟩
  obtain ⟨checked, hchecked⟩ := hordered
  obtain ⟨graph, hgraph⟩ := Persist.orderProgCfgs_build hchecked
  refine ⟨graph, ?_⟩
  rw [buildDependencies, hgraph]
  rfl

/-- No program of the new definitions has a state that a request for all programs respects. -/
def Unstarted (s : Daemon) (programs : List ProgramConfig) : Prop :=
  ∀ cfg ∈ programs, s.dependencyState cfg.name ≠ .ready ∧ s.dependencyState cfg.name ≠ .starting ∧
    s.dependencyState cfg.name ≠ .failed

theorem migrated_state (hbuild : buildDependencies programs = .ok graph) (hcfg : cfg ∈ programs) :
    DependencyRuntime.state graph (.migrate graph (s.dependencies.snapshot s.graph)) cfg.name =
      s.dependencyState cfg.name := by
  obtain ⟨hnames, -⟩ := build_ok hbuild
  have hmem : cfg.name ∈ graph.names := by
    rw [hnames]
    exact List.mem_map_of_mem hcfg
  rw [DependencyRuntime.state_migrate, if_pos hmem]
  rfl

theorem startAll_migrate (hbuild : buildDependencies programs = .ok graph)
    (h : s.Unstarted programs) :
    Launching.startAll ok graph (.migrate graph (s.dependencies.snapshot s.graph)) programs =
      Launching.startAll ok graph .reset programs := by
  obtain ⟨hnames, -⟩ := build_ok hbuild
  have hrequest : DependencyRuntime.requestAll graph
      (.migrate graph (s.dependencies.snapshot s.graph)) =
        DependencyRuntime.requestAll graph .reset := by
    apply DependencyRuntime.requestAll_eq_reset
    intro i
    by_cases hi : i < graph.size
    · have hname : graph.name i ∈ graph.names :=
        DependencyGraph.find_isSome.1 ⟨i, DependencyGraph.find_name hi⟩
      rw [hnames] at hname
      obtain ⟨cfg, hcfg, he⟩ := List.mem_map.1 hname
      have hstate := migrated_state (s := s) hbuild hcfg
      rw [he, DependencyRuntime.state_of_find (DependencyGraph.find_name hi)] at hstate
      have hcond := h cfg hcfg
      rw [he] at hcond
      rw [hstate]
      generalize s.dependencyState (graph.name i) = st at hcond
      cases st with
      | idle | blocked | pending => simp
      | ready => exact absurd rfl hcond.1
      | starting => exact absurd rfl hcond.2.1
      | failed => exact absurd rfl hcond.2.2
    · exact .inl (DependencyRuntime.migrate_states _ (Nat.le_of_not_lt hi))
  rw [Launching.startAll, Launching.startAll, Launching.startOperation, Launching.startOperation,
    StartOperation.apply, StartOperation.apply, hrequest]

theorem startAll_nil (hbuild : buildDependencies [] = .ok graph) :
    (Launching.startAll ok graph rt []).launched = [] := by
  obtain ⟨hnames, -⟩ := build_ok hbuild
  have hqueue : (DependencyRuntime.requestAll graph rt).2 = [] := by
    apply List.eq_nil_iff_forall_not_mem.2
    intro n hn
    have hname := DependencyRuntime.names_of_collected hn
    rw [hnames] at hname
    cases hname
  rw [Launching.startAll, Launching.schedule, Launching.setQueue]
  generalize Launching.rounds _ = fuel
  cases fuel with
  | zero => rfl
  | succ fuel =>
    rw [Launching.run, Launching.startOperation, StartOperation.apply]
    simp only [hqueue, List.nil_append]

theorem graph_startAll (graph : DependencyGraph) (rt : DependencyRuntime)
    (programs : List ProgramConfig) :
    (Launching.startAll ok graph rt programs).graph = graph :=
  Launching.run_graph ok _ _

theorem startAll_passes (programs : List ProgramConfig) {st : DependencyRuntimeState}
    (hstate : rt.state graph n = st) (hst : st = .ready ∨ st = .starting ∨ st = .failed) :
    n ∉ (Launching.startAll (fun _ => true) graph rt programs).launched ∧
      (Launching.startAll (fun _ => true) graph rt programs).state n = st := by
  have hne : st ≠ .idle ∧ st ≠ .blocked ∧ st ≠ .pending := by
    rcases hst with rfl | rfl | rfl
    · decide
    · decide
    · decide
  obtain ⟨hqueue, hsame⟩ := DependencyRuntime.state_requestAll (hstate ▸ hne)
  apply Launching.Passes.schedule _ ⟨hne.2.2, hne.2.1⟩
  exact ⟨hqueue, List.not_mem_nil, hsame.trans hstate⟩

theorem startAll_serves (hbuild : buildDependencies programs = .ok graph) (hn : n ∈ graph.names) :
    n ∈ (Launching.startAll (fun _ => true) graph .reset programs).launched ∨
      (Launching.startAll (fun _ => true) graph .reset programs).state n = .pending := by
  obtain ⟨hnames, -⟩ := build_ok hbuild
  have hserves : (Launching.startOperation
      ⟨graph, .reset, programs.map fun cfg => (cfg, false), [], []⟩ .requestAll).Serves := by
    refine ⟨fun m hm => ?_, fun m cfg hfind => ?_, fun m hm => ?_, fun m hm => ?_⟩
    · apply Keyed.find_isSome.2
      have hkeys : (programs.map fun cfg => (cfg, false)).map Launching.recordName =
          programs.map Persist.ProgCfg.name := by
        rw [List.map_map]
        rfl
      change m ∈ (programs.map fun cfg => (cfg, false)).map Launching.recordName
      rw [hkeys, ← hnames]
      exact hm
    · obtain ⟨cfg', -, he⟩ := List.mem_map.1 (Keyed.mem_of_find hfind)
      cases he
    · exact DependencyRuntime.names_of_collected hm
    · exact (DependencyRuntime.requestAll_reset hm).imp_right .inr
  exact hserves.schedule hn

theorem start_build (hbuild : buildDependencies programs = .ok graph) (ω : System) :
    ∃ fresh, start ω programs = some fresh := by
  rw [start, hbuild]
  simp only
  split
  · exact ⟨_, rfl⟩
  · exact ⟨_, rfl⟩

theorem reloads_of_unstarted (hidle : s.Idle) (hdistinct : s.Distinct) (hswap : s.Swaps)
    (hbuild : buildDependencies s.reloadPrograms = .ok graph) (h : s.Unstarted s.reloadPrograms) :
    s.ReloadsAsStart := by
  intro ω ω' fresh hsame hstart
  obtain ⟨ok, hok⟩ : ∃ ok : ProgramConfig → Bool, ∀ t cfg, (ω.launch t cfg).isOk = ok cfg :=
    ⟨fun cfg => (ω'.launch 0 cfg).isOk, fun t cfg => hsame t 0 cfg⟩
  have hok' : ∀ t cfg, (ω'.launch t cfg).isOk = ok cfg :=
    fun t cfg => (hsame 0 t cfg).symm.trans (hok 0 cfg)
  have hlaunching := launching_swapReload hok hidle.launchQueue hbuild
  have hsince := since_swapReload (ω := ω) hidle hdistinct hswap.stopped
  have hlaunched : launchedNames (s.swapReload ω).history = (Launching.startAll ok graph
      (.migrate graph (s.dependencies.snapshot s.graph)) s.reloadPrograms).launched ++
        launchedNames s.history := congrArg Launching.launched hlaunching
  have hstate : ∀ n, (s.swapReload ω).dependencyState n = (Launching.startAll ok graph
      (.migrate graph (s.dependencies.snapshot s.graph)) s.reloadPrograms).state n :=
    fun n => congrArg (fun a => Launching.state a n) hlaunching
  rw [hsince, List.append_cancel_right_eq] at hlaunched
  by_cases hprograms : s.reloadPrograms = []
  · rw [hprograms] at hbuild hstart hlaunched hstate
    obtain ⟨hnone, hidle'⟩ := start_nil hstart
    rw [startAll_nil hbuild] at hlaunched
    refine ⟨fun n => by rw [hlaunched, hnone], fun n => ?_⟩
    rw [hstate, hidle']
    apply DependencyRuntime.state_of_not_mem
    obtain ⟨hnames, -⟩ := build_ok hbuild
    rw [graph_startAll, hnames]
    exact List.not_mem_nil
  · obtain ⟨graph', hbuild', hfresh⟩ := launching_start hok' hstart hprograms
    rw [hbuild] at hbuild'
    cases hbuild'
    rw [startAll_migrate hbuild h, ← hfresh] at hlaunched
    refine ⟨fun n => by rw [hlaunched]; rfl, fun n => ?_⟩
    rw [hstate, startAll_migrate hbuild h, ← hfresh]
    rfl

theorem unstarted_of_reloads (hidle : s.Idle) (hdistinct : s.Distinct) (hswap : s.Swaps)
    (hbuild : buildDependencies s.reloadPrograms = .ok graph) (h : s.ReloadsAsStart) :
    s.Unstarted s.reloadPrograms := by
  intro cfg hcfg
  by_contra hcond
  have hst : s.dependencyState cfg.name = .ready ∨ s.dependencyState cfg.name = .starting ∨
      s.dependencyState cfg.name = .failed := by
    by_contra hst
    rw [not_or, not_or] at hst
    exact hcond hst
  -- every launch succeeds, so a start launches the program or leaves it waiting
  let ω := simpleSystem [] fun _ => none
  have hok : ∀ t cfg, (ω.launch t cfg).isOk = (fun _ => true) cfg := fun _ _ => rfl
  obtain ⟨fresh, hstart⟩ := start_build hbuild ω
  obtain ⟨hnames, hstates⟩ := h ω ω fresh (fun _ _ _ => rfl) hstart
  have hlaunching := launching_swapReload hok hidle.launchQueue hbuild
  have hsince := since_swapReload (ω := ω) hidle hdistinct hswap.stopped
  obtain ⟨graph', hbuild', hfresh⟩ := launching_start hok hstart (List.ne_nil_of_mem hcfg)
  rw [hbuild] at hbuild'
  cases hbuild'
  obtain ⟨hskipped, hkept⟩ := startAll_passes s.reloadPrograms
    (migrated_state (s := s) hbuild hcfg) hst
  have hlaunched : launchedNames (s.swapReload ω).history = _ ++ launchedNames s.history :=
    congrArg Launching.launched hlaunching
  rw [hsince, List.append_cancel_right_eq] at hlaunched
  rw [← hlaunched, hnames] at hskipped
  have hmem : cfg.name ∈ graph.names := by
    obtain ⟨hgraph, -⟩ := build_ok hbuild
    rw [hgraph]
    exact List.mem_map_of_mem hcfg
  rcases startAll_serves hbuild hmem with hserved | hwaits
  · rw [← hfresh] at hserved
    exact hskipped hserved
  · rw [← hfresh] at hwaits
    have hsame : (s.swapReload ω).dependencyState cfg.name = s.dependencyState cfg.name :=
      (congrArg (fun a => Launching.state a cfg.name) hlaunching).trans hkept
    have hpending : fresh.dependencyState cfg.name = .pending := hwaits
    rw [← hstates, hsame] at hpending
    rw [hpending] at hst
    rcases hst with he | he | he
    · cases he
    · cases he
    · cases he

/-- The state in which the main loop decides on the swap. -/
def beforeSwap (ω : System) (s : Daemon) : Daemon := (s.serveWatches ω).tickProcesses ω

/-- A reload launches the programs of a start, and leaves the dependency states of a start, exactly
when none of the new programs was left ready, starting or failed under its name by the definitions
before. -/
theorem reload_as_start_iff {t : Nat} (h : Reachable ω s) (hswap : (s.beforeSwap ω).Swaps)
    (hload : loadProgramConfigs ω' t = .ok (s.beforeSwap ω).reloadPrograms) :
    (s.beforeSwap ω).ReloadsAsStart ↔
      (s.beforeSwap ω).Unstarted (s.beforeSwap ω).reloadPrograms := by
  obtain ⟨-, -, -, hidle, hdistinct⟩ := h.moves
  have hrests : Rests s (s.beforeSwap ω) :=
    (passes_serveWatches ω s).rests.trans (rests_tickProcesses ω _)
  obtain ⟨hgoes, hidle'⟩ := hrests hidle
  obtain ⟨graph, hbuild⟩ := loadProgramConfigs_build hload
  have hdistinct' := (hgoes hdistinct).2
  exact ⟨unstarted_of_reloads hidle' hdistinct' hswap hbuild,
    reloads_of_unstarted hidle' hdistinct' hswap hbuild⟩

def requestReload : Input := .callback (.requests 1 [(1, .reload)])

def swapsLoaded (ω : System) (s : Daemon) : Bool :=
  s.phase = .polling && s.reloadPending && allProcessesStopped s.toCore && !s.shutdownScheduled &&
    decide ((loadProgramConfigs ω 0).toOption = some s.reloadPrograms)

theorem swaps_of_loaded (h : swapsLoaded ω s = true) :
    s.Swaps ∧ loadProgramConfigs ω 0 = .ok s.reloadPrograms := by
  simp only [swapsLoaded, Bool.and_eq_true, Bool.not_eq_true', decide_eq_true_iff] at h
  obtain ⟨⟨⟨⟨-, hpending⟩, hstopped⟩, hrunning⟩, hload⟩ := h
  refine ⟨⟨hpending, hstopped, hrunning⟩, ?_⟩
  cases hresult : loadProgramConfigs ω 0 with
  | error error =>
    rw [hresult] at hload
    cases hload
  | ok programs =>
    rw [hresult] at hload
    rw [Option.some.inj hload]

theorem reload_as_start_stopped : ∃ s, Reachable (exitingSystem [oneShot "a" []]) s ∧
    (s.beforeSwap (exitingSystem [oneShot "a" []])).Swaps ∧
    (∃ cfg ∈ (s.beforeSwap (exitingSystem [oneShot "a" []])).reloadPrograms, cfg.name = "a") ∧
    (s.beforeSwap (exitingSystem [oneShot "a" []])).ReloadsAsStart := by
  obtain ⟨s, hs, htest⟩ := run_any (ω := exitingSystem [oneShot "a" []])
    ([Input.tick, .wake, requestReload] ++ exits "a" 1) (fun s =>
      let s := s.beforeSwap (exitingSystem [oneShot "a" []])
      swapsLoaded (exitingSystem [oneShot "a" []]) s &&
        (s.reloadPrograms.any fun cfg => cfg.name = "a") &&
        s.reloadPrograms.all fun cfg => s.dependencyState cfg.name = .idle) (by decide +kernel)
  simp only [Bool.and_eq_true, List.any_eq_true, List.all_eq_true, decide_eq_true_iff] at htest
  obtain ⟨⟨hloaded, hany⟩, hall⟩ := htest
  obtain ⟨hswap, hload⟩ := swaps_of_loaded hloaded
  refine ⟨s, hs, hswap, hany, (reload_as_start_iff hs hswap hload).2 fun cfg hcfg => ?_⟩
  rw [hall cfg hcfg]
  decide

/-- A program that ended by itself before the reload is still ready under its name, so the reload
does not launch it. -/
theorem reload_skips_ready : ∃ s, Reachable (exitingSystem [oneShot "a" []]) s ∧
    (s.beforeSwap (exitingSystem [oneShot "a" []])).Swaps ∧
    loadProgramConfigs (exitingSystem [oneShot "a" []]) 0 =
      .ok (s.beforeSwap (exitingSystem [oneShot "a" []])).reloadPrograms ∧
    ¬(s.beforeSwap (exitingSystem [oneShot "a" []])).ReloadsAsStart := by
  obtain ⟨s, hs, htest⟩ := run_any (ω := exitingSystem [oneShot "a" []])
    ([Input.tick, .wake] ++ exits "a" 1 ++ [Input.tick, .wake, requestReload]) (fun s =>
      let s := s.beforeSwap (exitingSystem [oneShot "a" []])
      swapsLoaded (exitingSystem [oneShot "a" []]) s &&
        "a" ∉ launchedNames (since s (s.swapReload (exitingSystem [oneShot "a" []]))) &&
        (start (exitingSystem [oneShot "a" []]) s.reloadPrograms).any fun fresh =>
          "a" ∈ launchedNames fresh.history) (by decide +kernel)
  simp only [Bool.and_eq_true, Option.any_eq_true, decide_eq_true_iff] at htest
  obtain ⟨⟨hloaded, hskipped⟩, fresh, hfresh, hlaunched⟩ := htest
  obtain ⟨hswap, hload⟩ := swaps_of_loaded hloaded
  refine ⟨s, hs, hswap, hload, fun h => hskipped ?_⟩
  obtain ⟨hnames, -⟩ := h (exitingSystem [oneShot "a" []]) _ fresh (fun _ _ _ => rfl) hfresh
  exact (hnames "a").2 hlaunched

end Daemon
end PmTiny.Windows
