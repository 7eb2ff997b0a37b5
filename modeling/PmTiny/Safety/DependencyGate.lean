import PmTiny.Trace.Runs

namespace PmTiny
set_option autoImplicit true

/-- No start request and no report of readiness comes while a direct dependency of a program that it
releases is being stopped or deleted, an exit is not reported as readiness, and a failure does not
reach a running program. -/
def GateKept (e : Event) : Prop :=
  (∀ n, e.Releases n → ∀ d ∈ e.reg.dependencyGraph.dependencyNames n, ∀ q,
    e.reg.findProg d = some q → q.state.terminating = false) ∧
  match e.call with
  | .spawn1 _ .reaper => False
  | .blocked m => ∀ p, e.reg.findProg m = some p → p.state ≠ .runing
  | _ => True

/-- A program that the runtime may call ready: it runs, or its termination is under way. -/
def Core.Up (c : Core) : Prop := c.live ∧ (c.state = .runing ∨ c.state.terminating = true)

structure Gate (v : View) : Prop where
  ready : ∀ n, v.rtState n = .ready → ∃ c, v.core n = some c ∧ c.Up
  accepted : ∀ n ∈ v.ghost.accepted, ∀ c, v.core n = some c → c.state = .runing
  deleting : ∀ n ∈ v.ghost.deleting, v.rtState n ≠ .ready ∧ n ∉ v.ghost.accepted ∧
    ∀ c, v.core n = some c → c.state ≠ .runing
  saved : ∀ saved, v.ghost.saved = some saved → v.rtState saved.name ≠ .ready ∧
    ∀ m, saved.runtime.state saved.graph m = .ready → m ≠ saved.name ∧ ∃ c, v.core m = some c

theorem Gate.of_idle (hr : ∀ n, v.rtState n ≠ .ready) (ha : v.ghost.accepted = [])
    (hd : v.ghost.deleting = []) (hs : v.ghost.saved = none) : Gate v :=
  ⟨fun n h => absurd h (hr n), by simp [ha], by simp [hd], by simp [hs]⟩

theorem Base.not_ready_of_unrequested (hb : Base v) (h : v.requested n = false) :
    v.rtState n ≠ .ready := by
  intro hr
  have hreq : v.requested n = true := by
    rw [View.requested, Registry.requested, hb.flags.requested_iff]
    rw [View.rtState, Registry.runtimeState] at hr
    simp [hr]
  simp [h] at hreq

theorem Core.Up.prog (hu : Core.Up c) (h : ProgMove v n c c' g) (ha : v.Active)
    (hr : v.rtState n = .ready) (hreq : v.requested n = true) : c'.Up := by
  obtain ⟨hl, hs⟩ := hu
  have hpid : c.pid ≠ none := Option.isSome_iff_ne_none.1 hl
  have hgone : ¬c.Gone := fun h => hpid h.1
  have hx : ¬v.reg.serverExit = true := by simp [ha.1]
  cases h with
  | touch => exact ⟨hl, hs⟩
  | observe => exact ⟨hl, hs⟩
  | reset => exact ⟨hl, hs⟩
  | kill => exact ⟨hl, .inr rfl⟩
  | requestDelete => exact ⟨hl, .inr rfl⟩
  | enqueue => exact ⟨hl, hs⟩
  | reapDrain job extra _ _ hoff => cases hoff.symm.trans hreq
  | reapStopped _ hoff => cases hoff.symm.trans hreq
  | reapExited state pending _ hoff => cases hoff.symm.trans hreq
  | spawned site pid hp => exact absurd hp hpid
  | aborted site hp => exact absurd hp hpid
  | startupFail h =>
    rcases h with ⟨hp, -⟩ | ⟨-, -, -, hg | ⟨-, hx', -⟩⟩
    · exact absurd hp hpid
    · exact absurd hg hgone
    · exact absurd hx' hx
  | block _ _ hne => exact absurd hr hne
  | waiting _ hp => cases hp.symm.trans hr
  | run => exact ⟨hl, .inl rfl⟩
  | accept => exact ⟨hl, .inl rfl⟩
  | plan t state pending _ _ _ hg =>
    rcases hg with hg | ⟨hx', -⟩
    · exact absurd hg hgone
    · exact absurd hx' hx
  | clearPendding => exact ⟨hl, hs⟩
  | clearRunning => exact ⟨hl, hs⟩
  | poll => exact ⟨hl, hs⟩
  | cleaned => exact ⟨hl, hs⟩
  | stoped _ hp => exact absurd hp hpid
  | noRun hx' => exact absurd hx' hx

theorem ProgMove.accepted_running (h : ProgMove v n c c' g) (hc : v.core n = some c)
    (ha : v.Active) (hK : ∀ e ∈ v.trace, GateKept e) (hn : n ∈ v.ghost.accepted) (hl : c.live)
    (hs : c.state = .runing) : c'.state = .runing := by
  have hpid : c.pid ≠ none := Option.isSome_iff_ne_none.1 hl
  have hgone : ¬c.Gone := fun h => hpid h.1
  have hx : ¬v.reg.serverExit = true := by simp [ha.1]
  have hne : v.ghost.accepted ≠ [] := List.ne_nil_of_mem hn
  obtain ⟨p, hp, rfl⟩ := Registry.core_eq_some.1 hc
  cases h with
  | kill job _ _ hna => exact absurd hn hna
  | requestDelete _ _ hs' => cases hs'.symm.trans hs
  | reapDrain job extra _ _ _ _ hnil => exact absurd hnil hne
  | reapStopped _ _ _ hnil => exact absurd hnil hne
  | reapExited state pending _ _ _ hnil => exact absurd hnil hne
  | spawned site pid hp' => exact absurd hp' hpid
  | startupFail h =>
    rcases h with ⟨hp', -⟩ | ⟨-, -, -, hg | ⟨-, hx', -⟩⟩
    · exact absurd hp' hpid
    · exact absurd hg hgone
    · exact absurd hx' hx
  | block hseen => exact absurd hs ((hK _ hseen).2 p hp)
  | waiting _ _ _ ho => exact absurd ho.accepted hne
  | run => rfl
  | accept => rfl
  | plan t state pending _ _ _ hg =>
    rcases hg with hg | ⟨hx', -⟩
    · exact absurd hg hgone
    · exact absurd hx' hx
  | stoped _ hp' => exact absurd hp' hpid
  | noRun hx' => exact absurd hx' hx
  | _ => exact hs

theorem ProgMove.newly_accepted (h : ProgMove v n c c' g) (hn : n ∈ g.accepted)
    (hne : n ∉ v.ghost.accepted) : c'.state = .runing := by
  cases h with
  | accept => rfl
  | _ => exact absurd hn hne

theorem ProgMove.deleting_idle (h : ProgMove v n c c' g) (hn : n ∈ g.deleting) :
    n ∈ v.ghost.deleting ∧ g.accepted = v.ghost.accepted ∧
      (c'.state = .runing → c.state = .runing) ∨
      v.requested n = false ∧ g.accepted = [] ∧ c'.state ≠ .runing := by
  cases h with
  | reapStopped _ hr _ ha =>
    refine .inr ⟨hr, ha, ?_⟩
    dsimp only
    split <;> simp
  | reapExited state pending _ _ _ _ _ hst =>
    refine .inl ⟨hn, rfl, fun hs => ?_⟩
    rcases hst with rfl | rfl | rfl <;> cases hs
  | run _ _ ho =>
    rw [ho.deleting] at hn
    cases hn
  | accept _ _ _ hd =>
    have hn' : n ∈ v.ghost.deleting := hn
    rw [hd] at hn'
    cases hn'
  | plan t state pending _ hp =>
    refine .inl ⟨hn, rfl, fun hs => ?_⟩
    dsimp only at hs
    subst state
    cases t <;> simp [Plans] at hp
    exact hp.1.symm
  | _ => exact .inl ⟨hn, rfl, fun hs => by first | exact hs | cases hs⟩

theorem gate_prog (hf : Keeps f) (hp : v.reg.findProg n = some p)
    (h : ProgMove v n p.core (f p).core g) (hb : Base v) (ha : v.Active)
    (hK : ∀ e ∈ v.trace, GateKept e) (hi : Gate v) :
    Gate { v with reg := v.reg.setProg n f, ghost := g } := by
  have hc := Registry.core_of_find hp
  refine ⟨fun m hm => ?_, fun m hm c hmc => ?_, fun m hm => ?_, fun saved hs => ?_⟩
  · obtain ⟨c, hmc, hu⟩ := hi.ready m hm
    by_cases hmn : m = n
    · subst m
      cases hc.symm.trans hmc
      refine ⟨_, Registry.core_setProg_self hf hp, hu.prog h ha hm ?_⟩
      by_contra hoff
      exact hb.not_ready_of_unrequested (Bool.eq_false_iff.2 hoff) hm
    · exact ⟨c, (Registry.core_setProg_ne hf hmn).trans hmc, hu⟩
  · rcases Registry.core_setProg hf hp hmc with ⟨rfl, rfl⟩ | ⟨hmn, hmc⟩
    · by_cases hold : m ∈ v.ghost.accepted
      · obtain ⟨c, hc', hl⟩ := hb.accepted m hold
        cases hc.symm.trans hc'
        exact h.accepted_running hc ha hK hold hl (hi.accepted m hold _ hc)
      · exact h.newly_accepted hm hold
    · exact hi.accepted m ((h.others hmn).2.2.2.1 hm) c hmc
  · by_cases hmn : m = n
    · subst m
      have hcore : ∀ {Q : Core → Prop}, Q (f p).core → ∀ c,
          (v.reg.setProg n f).core n = some c → Q c := by
        intro Q hq c hc'
        cases (Registry.core_setProg_self hf hp).symm.trans hc'
        exact hq
      rcases h.deleting_idle hm with ⟨hm, hacc, hs⟩ | ⟨hr, hacc, hs⟩
      · obtain ⟨hr, hna, hoff⟩ := hi.deleting n hm
        exact ⟨hr, hacc ▸ hna, hcore fun hrun => hoff _ hc (hs hrun)⟩
      · exact ⟨hb.not_ready_of_unrequested hr, by simp [hacc], hcore hs⟩
    · obtain ⟨hr, hna, hoff⟩ := hi.deleting m ((h.others hmn).2.2.1.1 hm)
      refine ⟨hr, fun hacc => hna ((h.others hmn).2.2.2.1 hacc), fun c hc' => ?_⟩
      exact hoff c ((Registry.core_setProg_ne hf hmn).symm.trans hc')
  · obtain ⟨hr, hsv⟩ := hi.saved saved (h.saved ▸ hs)
    refine ⟨hr, fun m hm => ?_⟩
    obtain ⟨hne, c, hmc⟩ := hsv m hm
    refine ⟨hne, ?_⟩
    by_cases hmn : m = n
    · subst m
      exact ⟨_, Registry.core_setProg_self hf hp⟩
    · exact ⟨c, (Registry.core_setProg_ne hf hmn).trans hmc⟩

/-- What a runtime move makes ready is a program that `mark_ready` was called for. -/
theorem RuntimeMove.ready_of (h : RuntimeMove v rt)
    (hr : rt.state v.reg.dependencyGraph m = .ready) : v.rtState m = .ready ∨
      v.ghost.saved = none ∧ ∃ c, v.core m = some c ∧ MayReady v m c := by
  cases h with
  | idle n =>
    rw [DependencyRuntime.state_markIdle] at hr
    split at hr
    · cases hr
    · exact .inl hr
  | ready n hc h hs =>
    rcases DependencyRuntime.ready_markReady.1 hr with hr | ⟨rfl, -⟩
    · exact .inl hr
    · exact .inr ⟨hs, _, hc, h⟩
  | failed n =>
    refine .inl ?_
    by_contra hne
    exact DependencyRuntime.not_ready_markFailed hne hr
  | closure n => exact .inl (((DependencyRuntime.requestClosure_advances _ _ n).ready m).1 hr)

theorem MayReady.running (h : MayReady v n c) (hc : v.core n = some c) (hb : Base v) (hi : Gate v)
    (hK : ∀ e ∈ v.trace, GateKept e) : c.state = .runing ∧ c.live := by
  rcases h with hs | ⟨hn, hl⟩ | ⟨⟨names, r, hr, -⟩, -⟩
  · exact ⟨hs, (hb.progs n c hc).running (.inr hs)⟩
  · exact ⟨hi.accepted n hn c hc, hl⟩
  · exact (hK _ hr).2.elim

theorem gate_runtime (h : RuntimeMove v rt) (hb : Base v) (hK : ∀ e ∈ v.trace, GateKept e)
    (hi : Gate v) : Gate { v with reg := v.reg.setRuntime rt } := by
  refine ⟨fun m hm => ?_, hi.accepted, fun m hm => ?_, fun saved hs => ?_⟩
  · rcases h.ready_of hm with hm | ⟨-, c, hc, hmay⟩
    · exact hi.ready m hm
    · obtain ⟨hs, hl⟩ := hmay.running hc hb hi hK
      exact ⟨c, hc, hl, .inl hs⟩
  · obtain ⟨hr, hna, hoff⟩ := hi.deleting m hm
    refine ⟨fun hm' => ?_, hna, hoff⟩
    rcases h.ready_of hm' with hm' | ⟨-, c, hc, hmay⟩
    · exact hr hm'
    · exact hoff c hc (hmay.running hc hb hi hK).1
  · obtain ⟨hr, hsv⟩ := hi.saved saved hs
    refine ⟨fun hm' => ?_, hsv⟩
    rcases h.ready_of hm' with hm' | ⟨hnone, -⟩
    · exact hr hm'
    · cases hnone.symm.trans hs

theorem gate_ghost (h : GhostMove v g) (hb : Base v) (hi : Gate v) :
    Gate { v with ghost := g } := by
  cases h with
  | forget => exact ⟨hi.ready, by simp, fun n hn => ⟨(hi.deleting n hn).1, by simp,
      (hi.deleting n hn).2.2⟩, hi.saved⟩
  | doom n hc hp ht hq ho =>
    refine ⟨hi.ready, hi.accepted, fun m hm => ?_, hi.saved⟩
    rcases List.mem_cons.1 hm with rfl | hm
    · refine ⟨fun hr => ?_, by simp [ho.accepted], fun c hc' hs => ?_⟩
      · obtain ⟨c, hc', hl, -⟩ := hi.ready m hr
        cases hc.symm.trans hc'
        simp [Core.live, hp] at hl
      · cases hc.symm.trans hc'
        have hl := (hb.progs m _ hc).running (.inr hs)
        simp [Core.live, hp] at hl
    · exact hi.deleting m hm
  | commit => exact ⟨hi.ready, hi.accepted, hi.deleting, by simp⟩
  | boundary mark hg => exact ⟨hi.ready, by simp, by simp, by simp⟩
  | _ => exact ⟨hi.ready, hi.accepted, hi.deleting, hi.saved⟩

theorem runtimeState_reset {r : Registry} (h : r.dependencyRuntime = .reset) (n : String) :
    r.runtimeState n = .idle := by
  rw [Registry.runtimeState, h, DependencyRuntime.state]
  split <;> rfl

theorem gate_add (hb : buildProgDependencyGraph (v.reg.pmTinyProgs ++ [p]) = .ok graph)
    (ho : v.ghost.Outside) (hi : Gate v) :
    Gate { v with
      reg := v.reg.add p graph
      ghost := { v.ghost with
        saved := some ⟨p.name, v.reg.dependencyGraph, v.reg.dependencyRuntime⟩ } } := by
  have hold : ∀ m, (v.reg.add p graph).runtimeState m = .ready → v.rtState m = .ready := by
    intro m hm
    rw [Registry.runtimeState, Registry.add, DependencyRuntime.state_migrate] at hm
    split at hm
    · exact hm
    · cases hm
  have hnew : v.rtState p.name ≠ .ready := by
    intro hr
    obtain ⟨c, hc, -⟩ := hi.ready _ hr
    rw [View.core, Registry.core, Registry.findProg_none_of_build hb] at hc
    cases hc
  refine ⟨fun m hm => ?_, by simp [ho.accepted], by simp [ho.deleting], fun saved hs => ?_⟩
  · obtain ⟨c, hc, hu⟩ := hi.ready m (hold m hm)
    exact ⟨c, Registry.core_add_of_core hb hc, hu⟩
  · cases hs
    refine ⟨fun hr => hnew (hold _ hr), fun m hm => ?_⟩
    obtain ⟨c, hc, -⟩ := hi.ready m hm
    refine ⟨?_, c, Registry.core_add_of_core hb hc⟩
    rintro rfl
    exact hnew hm

theorem gate_rollback (hs : v.ghost.saved = some saved) (ha : v.ghost.accepted = []) (hb : Base v)
    (hi : Gate v) :
    Gate { v with reg := v.reg.rollback saved, ghost := { v.ghost with saved := none } } := by
  obtain ⟨hnew, hsv⟩ := hi.saved saved hs
  have hkept : ∀ m c, m ≠ saved.name → v.core m = some c →
    (v.reg.rollback saved).core m = some c := by
    intro m c hne hc
    rw [Registry.core_rollback]
    exact (Registry.core_dropProg_ne hne).trans hc
  have hold : ∀ m, (v.reg.rollback saved).runtimeState m = .ready →
      m ≠ saved.name ∧ v.rtState m = .ready := by
    intro m hm
    obtain ⟨e, -, h⟩ | ⟨graph, -, h⟩ := v.reg.rollback_cases saved
    · rw [h] at hm
      refine ⟨?_, hm⟩
      rintro rfl
      exact hnew hm
    · rw [h, Registry.runtimeState, DependencyRuntime.state_migrate] at hm
      split at hm
      · obtain ⟨hne, c, hc⟩ := hsv m hm
        exact ⟨hne, (hb.saved saved hs).ready m c hc hm⟩
      · cases hm
  refine ⟨fun m hm => ?_, by simp [ha], fun m hm => ?_, by simp⟩
  · obtain ⟨hne, hr⟩ := hold m hm
    obtain ⟨c, hc, hu⟩ := hi.ready m hr
    exact ⟨c, hkept m c hne hc, hu⟩
  · obtain ⟨hr, hna, hoff⟩ := hi.deleting m hm
    refine ⟨fun hm' => hr (hold m hm').2, hna, fun c hc => hoff c ?_⟩
    rw [View.core, Registry.core_rollback] at hc
    exact (Registry.core_dropProg hc).2

theorem gate_drop (hn : n ∈ v.ghost.deleting) (hs : v.ghost.saved = none)
    (ha : v.ghost.accepted = []) (hi : Gate v) :
    Gate { v with
      reg := v.reg.dropProg n
      ghost := { v.ghost with
        deleting := v.ghost.deleting.erase n, dropped := n :: v.ghost.dropped } } := by
  refine ⟨fun m hm => ?_, by simp [ha], fun m hm => ?_, by simp [hs]⟩
  · obtain ⟨c, hc, hu⟩ := hi.ready m hm
    have hne : m ≠ n := by
      rintro rfl
      exact (hi.deleting m hn).1 hm
    exact ⟨c, (Registry.core_dropProg_ne hne).trans hc, hu⟩
  · obtain ⟨hr, hna, hoff⟩ := hi.deleting m (List.mem_of_mem_erase hm)
    exact ⟨hr, hna, fun c hc => hoff c (Registry.core_dropProg hc).2⟩

theorem gate_registry (h : RegistryMove v r g) (hb : Base v)
    (ha : View.Active { v with reg := r, ghost := g }) (hi : v.Active → Gate v) :
    Gate { v with reg := r, ghost := g } := by
  cases h with
  | add p graph hbuild hf hact hq ho => exact gate_add hbuild ho (hi hact)
  | rollback saved hs hd hacc =>
    have hact : v.Active := ⟨(Registry.rollback_exit saved).1.symm.trans ha.1, ha.2⟩
    exact gate_rollback hs hacc hb (hi hact)
  | drop n hn hs hacc => exact gate_drop hn hs hacc (hi ha)
  | rebuilt graph hs hbuild =>
    have hreset : ∀ n, Registry.runtimeState
        { v.reg with dependencyGraph := graph, dependencyRuntime := .reset } n ≠ .ready := by
      intro n
      rw [runtimeState_reset rfl]
      simp
    exact ⟨fun n hn => absurd hn (hreset n), (hi ha).accepted, fun n hn =>
      ⟨hreset n, ((hi ha).deleting n hn).2⟩, by simp [hs]⟩
  | stale => exact ⟨(hi ha).ready, (hi ha).accepted, (hi ha).deleting, (hi ha).saved⟩
  | quit => cases ha.1
  | reload config hact =>
    exact ⟨(hi hact).ready, (hi hact).accepted, (hi hact).deleting, (hi hact).saved⟩
  | beginSwap => cases ha.2.1
  | swap config hw hc hg =>
    refine .of_idle (fun n => ?_) ?_ ?_ ?_
    · rw [View.rtState, runtimeState_reset rfl]
      simp
    · rw [hg]
    · rw [hg]
    · rw [hg]
  | spawnAll hf hact hg hrt =>
    refine .of_idle (fun n => ?_) ?_ ?_ ?_
    · exact DependencyRuntime.requestAll_ready (by simp [DependencyRuntime.reset]) n
    · rw [hg]
    · rw [hg]
    · rw [hg]

structure Gated (v : View) : Prop where
  gate : v.Active → Gate v
  spawns : ∀ names r, ⟨.spawn0 names, r⟩ ∈ v.trace → ∀ n ∈ names, ∀ p, r.findProg n = some p →
    ∀ d ∈ p.dependsOn, ∃ q, r.findProg d = some q ∧ q.state = .runing ∧ q.inst.pid ≠ none

theorem gated_log (hi : Gated v) (hf : Fits v call) (hb : Base v)
    (hK : ∀ e ∈ v.trace, GateKept e) : Gated { v with trace := ⟨call, v.reg⟩ :: v.trace } := by
  refine ⟨fun ha => ?_, fun names r he n hn p hp d hd => ?_⟩
  · have hg := hi.gate ha
    exact ⟨hg.ready, hg.accepted, hg.deleting, hg.saved⟩
  · rcases List.mem_cons.1 he with he | he
    · cases he
      rw [← (hb.node_of_find hp).2] at hd
      obtain ⟨-, hready, hreleased⟩ := hf.2 n hn
      obtain ⟨c, hc, hl, hs⟩ := (hi.gate hf.1).ready d (hready d hd)
      obtain ⟨q, hq, rfl⟩ := Registry.core_eq_some.1 hc
      -- The dependency is as the event saw it that released the program.
      obtain hnil | ⟨e, he, hrel, hgraph, hsame⟩ := hreleased
      · rw [hnil] at hd
        cases hd
      · have hrun := (hK e he).1 n hrel d (hgraph ▸ hd) q ((hsame d hd).trans hq)
        exact ⟨q, hq, hs.resolve_right (Bool.eq_false_iff.1 hrun), Option.isSome_iff_ne_none.1 hl⟩
    · exact hi.spawns names r he n hn p hp d hd

theorem gated_move (h : Move v v') (hb : Base v) (hK : ∀ e ∈ v'.trace, GateKept e)
    (hi : Gated v) : Gated v' := by
  cases h with
  | prog hf hp h =>
    exact ⟨fun ha => gate_prog hf hp h hb (h.active ha) hK (hi.gate (h.active ha)), hi.spawns⟩
  | runtime h => exact ⟨fun ha => gate_runtime h hb hK (hi.gate ha), hi.spawns⟩
  | ghost h => exact ⟨fun ha => gate_ghost h hb (hi.gate (h.active ha)), hi.spawns⟩
  | registry h => exact ⟨fun ha => gate_registry h hb ha hi.gate, hi.spawns⟩
  | log call h => exact gated_log hi h hb fun e he => hK e (List.mem_cons_of_mem _ he)

theorem gated_loaded (h : Server.Loaded v) : Gated v := by
  refine ⟨fun _ => .of_idle (fun n => ?_) ?_ ?_ ?_, by simp [h.trace]⟩
  · rw [View.rtState, runtimeState_reset h.runtime]
    simp
  · rw [h.ghost]
  · rw [h.ghost]
  · rw [h.ghost]

/-- Every direct dependency of a program that is handed to `spawn0` is running. -/
theorem dependencies_running (h : Server.Reachable ω s) (hK : ∀ e ∈ s.history, GateKept e)
    (he : ⟨.spawn0 names, r⟩ ∈ s.history) (hn : n ∈ names) (hp : r.findProg n = some p)
    (hd : d ∈ p.dependsOn) :
    ∃ q, r.findProg d = some q ∧ q.state = .runing ∧ q.inst.pid ≠ none := by
  have hgated : Gated s.boundary := h.invariant (fun _ _ hm hb hK hi => gated_move hm hb hK hi)
    (fun _ => gated_loaded) hK
  exact hgated.spawns names r he n hn p hp d hd

theorem dependencies_running_ready : ∃ s r p,
    Server.Reachable (simpleSystem
        [{ name := "p", startTimeout := 60 }, { name := "q", dependsOn := ["p"] }] [101]) s ∧
      (∀ e ∈ s.history, GateKept e) ∧ ⟨.spawn0 ["q"], r⟩ ∈ s.history ∧
      r.findProg "q" = some p ∧ "p" ∈ p.dependsOn ∧
      ∃ q, r.findProg "p" = some q ∧ q.state = .runing ∧ q.inst.pid ≠ none := by
  obtain ⟨s, hreach, hs⟩ := Server.runFrom_any (ω := simpleSystem
      [{ name := "p", startTimeout := 60 }, { name := "q", dependsOn := ["p"] }] [101])
    [.connect 1 (some ⟨101, 0, 0⟩), .request 1 0 1 (.appReady "p")]
    (fun s => (s.history.any fun e => e.call = .spawn0 ["q"] &&
        (e.reg.findProg "q").any fun p => "p" ∈ p.dependsOn) &&
      s.history.all fun e => (match e.call with
        | .spawn1 _ .reaper | .blocked _ => false
        | _ => true) && e.reg.pmTinyProgs.all fun p => !p.state.terminating)
    (by decide +kernel)
  rw [Bool.and_eq_true, List.any_eq_true, List.all_eq_true] at hs
  obtain ⟨⟨⟨call, r⟩, he, hspawn⟩, hall⟩ := hs
  rw [Bool.and_eq_true, Option.any_eq_true] at hspawn
  obtain ⟨hcall, p, hp, hdep⟩ := hspawn
  cases of_decide_eq_true hcall
  have hK : ∀ e ∈ s.history, GateKept e := by
    rintro ⟨call', r'⟩ he'
    have h := hall _ he'
    rw [Bool.and_eq_true, List.all_eq_true] at h
    obtain ⟨hcall', hprogs⟩ := h
    refine ⟨fun n _ d _ q hq => by simpa using hprogs q (Registry.mem_of_find hq), ?_⟩
    cases call' with
    | spawn1 names site =>
      cases site with
      | reaper => cases hcall'
      | _ => trivial
    | blocked => cases hcall'
    | _ => trivial
  have hdep' : "p" ∈ p.dependsOn := of_decide_eq_true hdep
  exact ⟨s, r, p, hreach, hK, he, hp, hdep',
    dependencies_running hreach hK he List.mem_cons_self hp hdep'⟩

/-- A dependency that exits while it is starting, and is not restarted, unlocks its dependent. -/
theorem unlocked_by_exit : ∃ s r p q,
    Server.Reachable (simpleSystem
        [{ name := "p", daemon := false, startTimeout := 60 },
          { name := "q", dependsOn := ["p"] }] []) s ∧
      ⟨.spawn0 ["q"], r⟩ ∈ s.history ∧ r.findProg "q" = some p ∧ "p" ∈ p.dependsOn ∧
      r.findProg "p" = some q ∧ q.state = .exit ∧ q.inst.pid = none := by
  obtain ⟨s, hreach, hs⟩ := Server.runFrom_any (ω := simpleSystem
      [{ name := "p", daemon := false, startTimeout := 60 },
        { name := "q", dependsOn := ["p"] }] [])
    [.maintenance false (some [(101, 0)])]
    (fun s => s.history.any fun e => e.call = .spawn0 ["q"] &&
      (e.reg.findProg "q").any (fun p => "p" ∈ p.dependsOn) &&
      (e.reg.findProg "p").any fun q => q.state = .exit ∧ q.inst.pid = none)
    (by decide +kernel)
  obtain ⟨⟨call, r⟩, he, hspawn⟩ := List.any_eq_true.1 hs
  rw [Bool.and_eq_true, Bool.and_eq_true, Option.any_eq_true, Option.any_eq_true] at hspawn
  obtain ⟨⟨hcall, p, hp, hdep⟩, q, hq, hexit⟩ := hspawn
  cases of_decide_eq_true hcall
  exact ⟨s, r, p, q, hreach, he, hp, of_decide_eq_true hdep, hq, of_decide_eq_true hexit⟩

/-- The process tree of `p` lives on, and that of `q` ends with its root. -/
def stoppedDependency : System :=
  { simpleSystem [{ name := "p", startTimeout := 60 }, { name := "q", dependsOn := ["p"] }] [] with
    members := fun _ name => if name = "p" then [101] else [] }

/-- A dependency that is being stopped is still ready for the runtime, and a start request hands out
its dependent. -/
theorem unlocked_while_stopping : ∃ s r p q, Server.Reachable stoppedDependency s ∧
    ⟨.spawn0 ["q"], r⟩ ∈ s.history ∧ r.findProg "q" = some p ∧ "p" ∈ p.dependsOn ∧
    r.findProg "p" = some q ∧ q.state = .requestStop := by
  obtain ⟨s, hreach, hs⟩ := Server.runFrom_any (ω := stoppedDependency)
    [.connect 1 (some ⟨101, 0, 0⟩), .request 1 0 1 (.appReady "p"),
      .maintenance false (some [(104, 0)]), .connect 2 none, .request 2 0 1 (.stop "q"),
      .request 2 0 2 (.stop "p"), .request 2 0 3 (.start ⟨.existing, "q", { name := "q" }, false⟩)]
    (fun s => s.history.any fun e => e.call = .spawn0 ["q"] &&
      (e.reg.findProg "q").any (fun p => "p" ∈ p.dependsOn) &&
      (e.reg.findProg "p").any fun q => q.state = .requestStop)
    (by decide +kernel)
  obtain ⟨⟨call, r⟩, he, hspawn⟩ := List.any_eq_true.1 hs
  rw [Bool.and_eq_true, Bool.and_eq_true, Option.any_eq_true, Option.any_eq_true] at hspawn
  obtain ⟨⟨hcall, p, hp, hdep⟩, q, hq, hstop⟩ := hspawn
  cases of_decide_eq_true hcall
  exact ⟨s, r, p, q, hreach, he, hp, of_decide_eq_true hdep, hq, of_decide_eq_true hstop⟩

def restartedOnce : ProgCfg where
  name := "d"
  startTimeout := 1
  failureAction := .restart
  restart := { delayMs := 0, windowMs := 100000, maxAttempts := 1, resetAfterMs := 0 }

/-- The second start of `d` times out, and the last of its tree goes when `p` is accepted. -/
def failedDependency : System :=
  { simpleSystem [restartedOnce, { name := "p", dependsOn := ["d"], startTimeout := 50 },
      { name := "q", dependsOn := ["p"] }] [] with
    clock := fun n => if n < 11 then 0 else if n < 22 then 10000 else 60000
    members := fun n name => if name = "p" then [104] else if n < 3 then [101] else
      if n < 10 ∨ 23 ≤ n then [] else [7] }

/-- A failure sets a program blocked that was accepted in the same tick, and the program then
unlocks its dependent. -/
theorem unlocked_by_blocked : ∃ s r p q, Server.Reachable failedDependency s ∧
    ⟨.spawn0 ["q"], r⟩ ∈ s.history ∧ r.findProg "q" = some p ∧ "p" ∈ p.dependsOn ∧
    r.findProg "p" = some q ∧ q.state = .blocked := by
  obtain ⟨s, hreach, hs⟩ := Server.runFrom_any (ω := failedDependency)
    [.connect 1 (some ⟨101, 0, 0⟩), .request 1 0 1 (.appReady "d"),
      .maintenance false (some [(101, 0)]), .maintenance false none,
      .maintenance false (some [(109, 0)]), .maintenance false none]
    (fun s => s.history.any fun e => e.call = .spawn0 ["q"] &&
      (e.reg.findProg "q").any (fun p => "p" ∈ p.dependsOn) &&
      (e.reg.findProg "p").any fun q => q.state = .blocked)
    (by decide +kernel)
  obtain ⟨⟨call, r⟩, he, hspawn⟩ := List.any_eq_true.1 hs
  rw [Bool.and_eq_true, Bool.and_eq_true, Option.any_eq_true, Option.any_eq_true] at hspawn
  obtain ⟨⟨hcall, p, hp, hdep⟩, q, hq, hblocked⟩ := hspawn
  cases of_decide_eq_true hcall
  exact ⟨s, r, p, q, hreach, he, hp, of_decide_eq_true hdep, hq, of_decide_eq_true hblocked⟩

end PmTiny
