import PmTiny.Trace.Runs

namespace PmTiny
set_option autoImplicit true

/-- A program is not created on top of a dependency that is about to be deleted. -/
def SparesDoomed (e : Event) : Prop :=
  match e.call with
  | .create _ dependsOn =>
    ∀ d ∈ dependsOn, ∀ q, e.reg.findProg d = some q → q.state ≠ .requestDelete
  | _ => True

namespace DependencyGraph

theorem noDependents_iff (h : build configs = .ok graph) :
    (∀ m, n ∉ graph.dependencyNames m) ↔ ∀ config ∈ configs, n ∉ config.dependsOn := by
  constructor
  · intro hn config hc
    rw [← build_dependencyNames h hc]
    exact hn config.name
  · intro hn m hm
    by_cases hmem : m ∈ graph.names
    · rw [build_names h] at hmem
      obtain ⟨config, hc, rfl⟩ := List.mem_map.1 hmem
      rw [build_dependencyNames h hc] at hm
      exact hn config hc hm
    · rw [dependencyNames] at hm
      split at hm
      · cases hm
      · rename_i id hid
        exact hmem (find_isSome.1 ⟨id, hid⟩)

theorem Valid.filter (h : Valid configs) {removed : List String}
    (hr : ∀ n ∈ removed, ∀ config ∈ configs, n ∉ config.dependsOn) :
    Valid (configs.filter fun config => config.name ∉ removed) := by
  have hsub : ∀ {config}, config ∈ configs.filter (fun config => config.name ∉ removed) →
      config ∈ configs := List.mem_of_mem_filter
  obtain ⟨rank, hrank⟩ := h.acyclic
  refine ⟨fun c hc => h.name_ne c (hsub hc), ?_, fun c hc => h.deps_nodup c (hsub hc),
    fun c hc => h.not_self c (hsub hc), fun c hc d hd => ?_,
    ⟨rank, fun c hc => hrank c (hsub hc)⟩⟩
  · exact (List.filter_sublist.map _).nodup h.names_nodup
  · obtain ⟨config, hconfig, rfl⟩ := List.mem_map.1 (h.registered c (hsub hc) d hd)
    refine List.mem_map.2 ⟨config, List.mem_filter.2 ⟨hconfig, ?_⟩, rfl⟩
    exact decide_eq_true fun hn => hr _ hn c (hsub hc) hd

end DependencyGraph

/-- The definitions of the registered programs. -/
def Registry.nodes (r : Registry) : List DependencyNodeConfig :=
  r.pmTinyProgs.map ProgInfo.dependencyNode

theorem Registry.nodes_dropProg {r : Registry} :
    (r.dropProg n).nodes = r.nodes.filter fun config => config.name ≠ n := by
  rw [nodes, dropProg, Keyed.remove, nodes, List.filter_map]
  rfl

/-- The graph was built from the registered programs and those that are just being removed. -/
structure InStep (v : View) : Prop where
  built : ∃ configs, DependencyGraph.build configs = .ok v.reg.dependencyGraph ∧
    v.reg.nodes = configs.filter fun config => config.name ∉ v.ghost.dropped
  condemned : ∀ n c, v.core n = some c → c.state = .requestDelete → v.NoDependents n
  deleting : ∀ n ∈ v.ghost.deleting, v.NoDependents n
  dropped : ∀ n ∈ v.ghost.dropped, v.NoDependents n
  saved : ∀ saved, v.ghost.saved = some saved → ∃ configs config,
    v.reg.nodes = configs ++ [config] ∧ config.name = saved.name ∧
      ∃ graph, DependencyGraph.build configs = .ok graph

theorem InStep.of_build (hb : DependencyGraph.build v.reg.nodes = .ok v.reg.dependencyGraph)
    (hc : ∀ n c, v.core n = some c → c.state ≠ .requestDelete) (hd : v.ghost.deleting = [])
    (hr : v.ghost.dropped = []) (hs : v.ghost.saved = none) : InStep v :=
  ⟨⟨_, hb, by simp [hr]⟩, fun n c hn h => absurd h (hc n c hn), by simp [hd], by simp [hr],
    by simp [hs]⟩

theorem InStep.noDependents (hi : InStep v) (hb : DependencyGraph.build configs = .ok graph)
    (hsub : configs ⊆ v.reg.nodes) (hn : v.NoDependents n) :
    ∀ m, n ∉ graph.dependencyNames m := by
  obtain ⟨all, hall, hnodes⟩ := hi.built
  refine (DependencyGraph.noDependents_iff hb).2 fun config hc => ?_
  have hmem := hsub hc
  rw [hnodes] at hmem
  exact (DependencyGraph.noDependents_iff hall).1 hn config (List.mem_of_mem_filter hmem)

theorem InStep.rebuilds (hi : InStep v) :
    ∃ graph, buildProgDependencyGraph v.reg.pmTinyProgs = .ok graph := by
  obtain ⟨configs, hb, hnodes⟩ := hi.built
  have hvalid : DependencyGraph.Valid v.reg.nodes := by
    rw [hnodes]
    apply (DependencyGraph.valid_of_build hb).filter
    intro n hn
    exact (DependencyGraph.noDependents_iff hb).1 (hi.dropped n hn)
  exact DependencyGraph.build_isOk hvalid

theorem ProgMove.condemned (h : ProgMove v n c c' g) (hs : c'.state = .requestDelete) :
    c.state = .requestDelete ∨ v.NoDependents n := by
  cases h with
  | requestDelete _ _ _ _ hd => exact .inr hd
  | reapStopped =>
    dsimp only at hs
    split at hs <;> cases hs
  | reapExited state pending _ _ _ _ _ hst =>
    dsimp only at hs
    subst state
    simp at hst
  | plan t state pending _ hp =>
    dsimp only at hs
    subst state
    cases t <;> simp [Plans] at hp
    exact .inl hp.1.symm
  | _ => first | exact .inl hs | cases hs

theorem ProgMove.doomed (h : ProgMove v n c c' g) (hm : m ∈ g.deleting) :
    m ∈ v.ghost.deleting ∨ m = n ∧ c.state = .requestDelete := by
  cases h with
  | reapStopped =>
    rcases List.mem_append.1 hm with hm | hm
    · exact .inl hm
    · split at hm
      · rename_i hs
        exact .inr ⟨List.mem_singleton.1 hm, hs⟩
      · cases hm
  | _ => exact .inl hm

theorem ProgMove.dropped (h : ProgMove v n c c' g) : g.dropped = v.ghost.dropped := by
  cases h <;> rfl

theorem inStep_prog (hf : Keeps f) (hp : v.reg.findProg n = some p)
    (h : ProgMove v n p.core (f p).core g) (hi : InStep v) :
    InStep { v with reg := v.reg.setProg n f, ghost := g } := by
  have hc := Registry.core_of_find hp
  have hnodes : (v.reg.setProg n f).nodes = v.reg.nodes := Registry.nodes_setProg hf
  refine ⟨?_, fun m c hm hs => ?_, fun m hm => ?_, fun m hm => ?_, fun saved hs => ?_⟩
  · obtain ⟨configs, hb, hn⟩ := hi.built
    exact ⟨configs, hb, by rw [hnodes, hn, h.dropped]⟩
  · rcases Registry.core_setProg hf hp hm with ⟨rfl, rfl⟩ | ⟨-, hm⟩
    · rcases h.condemned hs with hs | hd
      · exact hi.condemned _ _ hc hs
      · exact hd
    · exact hi.condemned m c hm hs
  · rcases h.doomed hm with hm | ⟨rfl, hs⟩
    · exact hi.deleting m hm
    · exact hi.condemned _ _ hc hs
  · exact hi.dropped m (h.dropped ▸ hm)
  · rw [hnodes]
    exact hi.saved saved (h.saved ▸ hs)

theorem inStep_ghost (h : GhostMove v g) (hi : InStep v) : InStep { v with ghost := g } := by
  cases h with
  | doom n _ _ _ _ _ hd =>
    refine ⟨hi.built, hi.condemned, fun m hm => ?_, hi.dropped, hi.saved⟩
    rcases List.mem_cons.1 hm with rfl | hm
    · exact hd
    · exact hi.deleting m hm
  | commit => exact ⟨hi.built, hi.condemned, hi.deleting, hi.dropped, by simp⟩
  | boundary mark hg =>
    have hbuilt := hi.built
    rw [hg] at hbuilt
    exact ⟨hbuilt, hi.condemned, by simp, by simp, by simp⟩
  | _ => exact ⟨hi.built, hi.condemned, hi.deleting, hi.dropped, hi.saved⟩

theorem inStep_add (hb : buildProgDependencyGraph (v.reg.pmTinyProgs ++ [p]) = .ok graph)
    (hf : p.core.Fresh) (ho : v.ghost.Outside) (hd : v.ghost.dropped = [])
    (hK : SparesDoomed ⟨.create p.name p.dependsOn, v.reg⟩) (hi : InStep v) :
    InStep { v with
      reg := v.reg.add p graph
      ghost := { v.ghost with
        saved := some ⟨p.name, v.reg.dependencyGraph, v.reg.dependencyRuntime⟩ } } := by
  obtain ⟨configs, hconfigs, hnodes⟩ := hi.built
  have hall : v.reg.nodes = configs := by
    rw [hnodes, hd]
    simp
  have hadd : (v.reg.add p graph).nodes = configs ++ [p.dependencyNode] := by
    rw [Registry.nodes, Registry.add, List.map_append, ← hall]
    rfl
  have hbuild : DependencyGraph.build (configs ++ [p.dependencyNode]) = .ok graph := by
    rw [← hadd]
    exact hb
  refine ⟨⟨_, hbuild, ?_⟩, fun n c hn hs => ?_, by simp [ho.deleting], by simp [hd],
    fun saved hs => ?_⟩
  · show (v.reg.add p graph).nodes = _
    rw [hadd, hd]
    simp
  · rcases Registry.core_add hb hn with ⟨-, rfl⟩ | ⟨-, hn⟩
    · cases hf.2.2.2.2.2.symm.trans hs
    · refine (DependencyGraph.noDependents_iff hbuild).2 fun config hc => ?_
      rcases List.mem_append.1 hc with hc | hc
      · exact (DependencyGraph.noDependents_iff hconfigs).1 (hi.condemned n c hn hs) config hc
      · rw [List.mem_singleton.1 hc]
        intro hmem
        obtain ⟨q, hq, rfl⟩ := Registry.core_eq_some.1 hn
        exact hK n hmem q hq hs
  · cases hs
    exact ⟨configs, p.dependencyNode, hadd, rfl, _, hconfigs⟩

theorem inStep_rollback (hs : v.ghost.saved = some saved) (hd : v.ghost.dropped = []) (hb : Base v)
    (hi : InStep v) :
    InStep { v with reg := v.reg.rollback saved, ghost := { v.ghost with saved := none } } := by
  obtain ⟨configs, config, hnodes, hname, graph, hbuild⟩ := hi.saved saved hs
  have hdrop : (v.reg.dropProg saved.name).nodes = configs := by
    have hnodup : ((configs ++ [config]).map (·.name)).Nodup := by
      have := hb.nodup
      rw [← hnodes, Registry.nodes, List.map_map]
      exact this
    rw [Registry.nodes_dropProg, hnodes, List.filter_append, List.filter_eq_self.2,
      List.filter_cons,
      if_neg (by simp [hname])]
    · simp
    · intro c hc
      refine decide_eq_true fun he => ?_
      rw [List.map_append] at hnodup
      exact List.disjoint_of_nodup_append hnodup (List.mem_map_of_mem hc) (by simp [he, hname])
  have hroll : v.reg.rollback saved = { v.reg.dropProg saved.name with
      dependencyGraph := graph
      dependencyRuntime := .migrate graph (saved.runtime.snapshot saved.graph) } := by
    have hok : buildProgDependencyGraph (v.reg.dropProg saved.name).pmTinyProgs = .ok graph := by
      show DependencyGraph.build (v.reg.dropProg saved.name).nodes = _
      rw [hdrop, hbuild]
    obtain ⟨e, herror, -⟩ | ⟨graph', hbuild', h⟩ := v.reg.rollback_cases saved
    · cases herror.symm.trans hok
    · cases hbuild'.symm.trans hok
      exact h
  have hsub : configs ⊆ v.reg.nodes := by
    rw [hnodes]
    exact List.subset_append_left _ _
  rw [hroll]
  refine ⟨⟨configs, hbuild, ?_⟩, fun n c hn hs => ?_, fun n hn => ?_, by simp [hd], by simp⟩
  · show (v.reg.dropProg saved.name).nodes = _
    rw [hdrop, hd]
    simp
  · exact hi.noDependents hbuild hsub (hi.condemned n c (Registry.core_dropProg hn).2 hs)
  · exact hi.noDependents hbuild hsub (hi.deleting n hn)

theorem inStep_drop (hn : n ∈ v.ghost.deleting) (hs : v.ghost.saved = none) (hi : InStep v) :
    InStep { v with
      reg := v.reg.dropProg n
      ghost := { v.ghost with
        deleting := v.ghost.deleting.erase n, dropped := n :: v.ghost.dropped } } := by
  obtain ⟨configs, hb, hnodes⟩ := hi.built
  refine ⟨⟨configs, hb, ?_⟩, fun m c hm => hi.condemned m c (Registry.core_dropProg hm).2,
    fun m hm => hi.deleting m (List.mem_of_mem_erase hm), fun m hm => ?_, by simp [hs]⟩
  · rw [Registry.nodes_dropProg, hnodes, List.filter_filter]
    apply List.filter_congr
    intro config _
    simp [not_or]
  · rcases List.mem_cons.1 hm with rfl | hm
    · exact hi.deleting m hn
    · exact hi.dropped m hm

theorem inStep_registry (h : RegistryMove v r g) (hb : Base v)
    (hK : ∀ e ∈ v.trace, SparesDoomed e) (hi : InStep v) :
    InStep { v with reg := r, ghost := g } := by
  cases h with
  | add p graph hbuild hf _ _ ho _ hd hseen => exact inStep_add hbuild hf ho hd (hK _ hseen) hi
  | rollback saved hs hd => exact inStep_rollback hs hd hb hi
  | drop n hn hs => exact inStep_drop hn hs hi
  | rebuilt graph hs hbuild =>
    refine ⟨⟨_, hbuild, by simp [Registry.nodes]⟩, fun n c hn hs' => ?_, fun n hn => ?_, by simp,
      by simp [hs]⟩
    · exact hi.noDependents hbuild (List.Subset.refl _) (hi.condemned n c hn hs')
    · exact hi.noDependents hbuild (List.Subset.refl _) (hi.deleting n hn)
  | stale e hbuild =>
    obtain ⟨graph, hok⟩ := hi.rebuilds
    cases hbuild.symm.trans hok
  | swap config hw hc hg =>
    have hready := hb.reload config hc
    refine .of_build hready.built (fun n c hn hs => ?_) ?_ ?_ ?_
    · obtain ⟨p, hp, rfl⟩ := Registry.core_eq_some.1 hn
      cases (hready.fresh p (Registry.mem_of_find hp)).2.2.2.2.2.symm.trans hs
    · rw [hg]
    · rw [hg]
    · rw [hg]
  | spawnAll hf _ hg =>
    obtain ⟨configs, hbuild, hnodes⟩ := hi.built
    have hsame : v.reg.spawnAll.nodes = v.reg.nodes := by
      rw [Registry.nodes, Registry.spawnAll, List.map_map]
      rfl
    refine ⟨⟨configs, hbuild, hsame.trans hnodes⟩, fun n c hn hs => ?_, hi.deleting, hi.dropped, ?_⟩
    · obtain ⟨c₀, -, rfl⟩ := Registry.core_spawnAll hn
      cases hs
    · rw [hg]
      simp
  | _ => exact ⟨hi.built, hi.condemned, hi.deleting, hi.dropped, hi.saved⟩

theorem inStep_move (h : Move v v') (hb : Base v) (hK : ∀ e ∈ v'.trace, SparesDoomed e)
    (hi : InStep v) : InStep v' := by
  cases h with
  | prog hf hp h => exact inStep_prog hf hp h hi
  | runtime h => exact ⟨hi.built, hi.condemned, hi.deleting, hi.dropped, hi.saved⟩
  | ghost h => exact inStep_ghost h hi
  | registry h => exact inStep_registry h hb hK hi
  | log call h => exact ⟨hi.built, hi.condemned, hi.deleting, hi.dropped, hi.saved⟩

theorem inStep_loaded (h : Server.Loaded v) : InStep v := by
  refine .of_build h.built (fun n c hn hs => ?_) ?_ ?_ ?_
  · cases (h.fresh n c hn).2.2.2.2.2.symm.trans hs
  · rw [h.ghost]
  · rw [h.ghost]
  · rw [h.ghost]

/-- The graph names the registered programs, each once, and all they depend on is registered. -/
theorem registry_matches_graph (h : Server.Reachable ω s)
    (hK : ∀ e ∈ s.history, SparesDoomed e) :
    s.dependencyGraph.names = s.pmTinyProgs.map (·.name) ∧ s.dependencyGraph.names.Nodup ∧
      ∀ p ∈ s.pmTinyProgs, ∀ d ∈ p.dependsOn, d ∈ s.pmTinyProgs.map (·.name) := by
  have hstep : InStep s.boundary := h.invariant (fun _ _ hm hb hK hi => inStep_move hm hb hK hi)
    (fun _ => inStep_loaded) hK
  obtain ⟨configs, hb, hnodes⟩ := hstep.built
  have hall : s.toRegistry.nodes = configs := by
    rw [show s.toRegistry.nodes = _ from hnodes]
    simp [Server.boundary, Server.view]
  have hnames : configs.map (·.name) = s.pmTinyProgs.map (·.name) := by
    rw [← hall, Registry.nodes, List.map_map]
    rfl
  refine ⟨(DependencyGraph.build_names hb).trans hnames, s.dependencyGraph.names_nodup, ?_⟩
  intro p hp d hd
  have hmem : p.dependencyNode ∈ configs := hall ▸ List.mem_map_of_mem hp
  rw [← hnames]
  exact (DependencyGraph.valid_of_build hb).registered _ hmem d hd

theorem registry_matches_graph_create : ∃ s,
    Server.Reachable (simpleSystem [{ name := "q" }] []) s ∧ (∀ e ∈ s.history, SparesDoomed e) ∧
      s.pmTinyProgs.map (·.name) = ["q", "r"] ∧
      s.dependencyGraph.names = s.pmTinyProgs.map (·.name) ∧ s.dependencyGraph.names.Nodup ∧
      ∀ p ∈ s.pmTinyProgs, ∀ d ∈ p.dependsOn, d ∈ s.pmTinyProgs.map (·.name) := by
  obtain ⟨s, hreach, hs⟩ := Server.runFrom_any (ω := simpleSystem [{ name := "q" }] [])
    [.connect 1 (some ⟨7, 0, 0⟩),
      .request 1 0 1 (.start ⟨.create, "r", { name := "r", dependsOn := ["q"] }, false⟩)]
    (fun s => s.pmTinyProgs.map (·.name) = ["q", "r"] && s.history.all fun e =>
      e.reg.pmTinyProgs.all fun p => p.state ≠ .requestDelete)
    (by decide +kernel)
  rw [Bool.and_eq_true, List.all_eq_true] at hs
  have hK : ∀ e ∈ s.history, SparesDoomed e := by
    rintro ⟨call, r⟩ he
    have hprogs := List.all_eq_true.1 (hs.2 _ he)
    cases call with
    | create name dependsOn =>
      intro d _ q hq
      exact of_decide_eq_true (hprogs q (Registry.mem_of_find hq))
    | _ => trivial
  exact ⟨s, hreach, hK, of_decide_eq_true hs.1, registry_matches_graph hreach hK⟩

/-- A program is created on top of one whose deletion has been accepted, and then the deletion
takes place. -/
theorem deleted_under_dependent : ∃ s,
    Server.Reachable (simpleSystem [{ name := "q" }] []) s ∧
      s.dependencyGraph.names = ["q", "r"] ∧ s.pmTinyProgs.map (·.name) = ["r"] ∧
      ∃ p ∈ s.pmTinyProgs, "q" ∈ p.dependsOn := by
  obtain ⟨s, hreach, hs⟩ := Server.runFrom_any (ω := simpleSystem [{ name := "q" }] [])
    [.connect 1 (some ⟨7, 0, 0⟩), .request 1 0 1 (.remove "q"),
      .request 1 0 2 (.start ⟨.create, "r", { name := "r", dependsOn := ["q"] }, false⟩),
      .maintenance false (some [(101, 0)])]
    (fun s => s.dependencyGraph.names = ["q", "r"] && s.pmTinyProgs.map (·.name) = ["r"] &&
      s.pmTinyProgs.any fun p => "q" ∈ p.dependsOn)
    (by decide +kernel)
  rw [Bool.and_eq_true, Bool.and_eq_true, List.any_eq_true] at hs
  obtain ⟨⟨hnames, hprogs⟩, p, hp, hdep⟩ := hs
  exact ⟨s, hreach, of_decide_eq_true hnames, of_decide_eq_true hprogs, p, hp,
    of_decide_eq_true hdep⟩

end PmTiny
