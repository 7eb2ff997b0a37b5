import PmTiny.Trace.View

namespace PmTiny
set_option autoImplicit true
open DependencyRuntime (Advances)

namespace Registry

variable {r : Registry}

theorem core_eq_some : r.core n = some c ↔ ∃ p, r.findProg n = some p ∧ p.core = c := by
  simp [core]

theorem core_of_find (h : r.findProg n = some p) : r.core n = some p.core := by
  rw [core, h]
  rfl

theorem name_of_find (h : r.findProg n = some p) : p.name = n := Keyed.key_of_find h

theorem mem_of_find (h : r.findProg n = some p) : p ∈ r.pmTinyProgs := Keyed.mem_of_find h

theorem findProg_setProg_self (hf : Keeps f) (hp : r.findProg n = some p) :
    (r.setProg n f).findProg n = some (f p) := by
  rw [findProg, setProg, Keyed.find_update_self fun a ha => (hf a).1.trans (Keyed.key_of_find ha)]
  rw [findProg] at hp
  rw [hp]
  rfl

theorem findProg_setProg_ne (hf : Keeps f) (hm : m ≠ n) :
    (r.setProg n f).findProg m = r.findProg m :=
  Keyed.find_update_ne hm fun a => (hf a).1

theorem setProg_absent (h : r.findProg n = none) : r.setProg n f = r := by
  have hu : Keyed.update ProgInfo.name n f r.pmTinyProgs = r.pmTinyProgs := by
    rw [Keyed.update]
    conv_rhs => rw [← List.map_id r.pmTinyProgs]
    apply List.map_congr_left
    intro p hp
    rw [if_neg (Keyed.find_eq_none.1 h p hp)]
    rfl
  rw [setProg, hu]

theorem core_setProg (hf : Keeps f) (hp : r.findProg n = some p)
    (h : (r.setProg n f).core m = some c) : m = n ∧ c = (f p).core ∨ m ≠ n ∧ r.core m = some c := by
  by_cases hm : m = n
  · subst m
    rw [core, findProg_setProg_self hf hp] at h
    exact .inl ⟨rfl, (Option.some.inj h).symm⟩
  · rw [core, findProg_setProg_ne hf hm] at h
    exact .inr ⟨hm, h⟩

theorem core_setProg_self (hf : Keeps f) (hp : r.findProg n = some p) :
    (r.setProg n f).core n = some (f p).core := by
  rw [core, findProg_setProg_self hf hp]
  rfl

theorem core_setProg_ne (hf : Keeps f) (hm : m ≠ n) : (r.setProg n f).core m = r.core m := by
  rw [core, findProg_setProg_ne hf hm, core]

theorem core_dropProg (h : (r.dropProg n).core m = some c) : m ≠ n ∧ r.core m = some c := by
  by_cases hm : m = n
  · subst m
    rw [core, findProg, dropProg, Keyed.find_remove_self] at h
    cases h
  · rw [core, findProg, dropProg, Keyed.find_remove_ne hm] at h
    exact ⟨hm, h⟩

theorem core_dropProg_ne (hm : m ≠ n) : (r.dropProg n).core m = r.core m := by
  rw [core, findProg, dropProg, Keyed.find_remove_ne hm, core, findProg]

/-- The program is taken out again, and the graph is the one of the others unless it cannot be
built. -/
theorem rollback_cases (r : Registry) (saved : Saved) :
    (∃ e, buildProgDependencyGraph (r.dropProg saved.name).pmTinyProgs = .error e ∧
      r.rollback saved = r.dropProg saved.name) ∨
    ∃ graph, buildProgDependencyGraph (r.dropProg saved.name).pmTinyProgs = .ok graph ∧
      r.rollback saved = { r.dropProg saved.name with
        dependencyGraph := graph
        dependencyRuntime := .migrate graph (saved.runtime.snapshot saved.graph) } := by
  unfold rollback
  dsimp only
  split
  · rename_i e hbuild
    exact .inl ⟨e, hbuild, rfl⟩
  · rename_i graph hbuild
    exact .inr ⟨graph, hbuild, rfl⟩

theorem rollback_progs (saved : Saved) :
    (r.rollback saved).pmTinyProgs = (r.dropProg saved.name).pmTinyProgs := by
  obtain ⟨e, -, h⟩ | ⟨graph, -, h⟩ := r.rollback_cases saved <;> rw [h]

theorem core_rollback (saved : Saved) : (r.rollback saved).core = (r.dropProg saved.name).core := by
  obtain ⟨e, -, h⟩ | ⟨graph, -, h⟩ := r.rollback_cases saved
  · rw [h]
  · rw [h]
    rfl

theorem rollback_exit (saved : Saved) :
    (r.rollback saved).serverExit = r.serverExit ∧
      (r.rollback saved).reloadConfig = r.reloadConfig := by
  obtain ⟨e, -, h⟩ | ⟨graph, -, h⟩ := r.rollback_cases saved
  · rw [h]
    exact ⟨rfl, rfl⟩
  · rw [h]
    exact ⟨rfl, rfl⟩

theorem build_names (h : buildProgDependencyGraph progs = .ok graph) :
    graph.names = progs.map (·.name) := by
  rw [DependencyGraph.build_names h, List.map_map]
  rfl

theorem findProg_none_of_build (h : buildProgDependencyGraph (r.pmTinyProgs ++ [p]) = .ok graph) :
    r.findProg p.name = none := by
  have hn := graph.names_nodup
  rw [build_names h, List.map_append] at hn
  refine Keyed.find_eq_none.2 fun q hq he => ?_
  exact List.disjoint_of_nodup_append hn (List.mem_map_of_mem hq) (by simp [he])

theorem core_add (h : buildProgDependencyGraph (r.pmTinyProgs ++ [p]) = .ok graph)
    (hc : (r.add p graph).core m = some c) :
    m = p.name ∧ c = p.core ∨ m ≠ p.name ∧ r.core m = some c := by
  have hn := findProg_none_of_build h
  rw [core, findProg, add, Keyed.find_append_singleton hn] at hc
  by_cases hm : p.name = m
  · rw [if_pos hm] at hc
    exact .inl ⟨hm.symm, (Option.some.inj hc).symm⟩
  · rw [if_neg hm] at hc
    exact .inr ⟨fun he => hm he.symm, hc⟩

theorem core_add_of_core (h : buildProgDependencyGraph (r.pmTinyProgs ++ [p]) = .ok graph)
    (hc : r.core m = some c) : (r.add p graph).core m = some c := by
  have hn := findProg_none_of_build h
  obtain ⟨q, hq, rfl⟩ := core_eq_some.1 hc
  refine core_of_find ?_
  rw [findProg, add, Keyed.find_append_singleton hn, if_neg]
  · exact hq
  · rintro rfl
    rw [hn] at hq
    cases hq

theorem mem_names_of_core (h : r.core n = some c) : n ∈ r.pmTinyProgs.map (·.name) := by
  obtain ⟨p, hp, -⟩ := core_eq_some.1 h
  exact List.mem_map.2 ⟨p, mem_of_find hp, name_of_find hp⟩

theorem core_spawnAll (h : r.spawnAll.core m = some c) :
    ∃ c₀, r.core m = some c₀ ∧ c = { c₀ with state := .waitingStart } := by
  have hfind : r.spawnAll.findProg m = (r.findProg m).map fun p => p.setState .waitingStart := by
    rw [findProg, spawnAll, findProg, Keyed.find, Keyed.find, List.find?_map]
    rfl
  rw [core, hfind] at h
  cases hp : r.findProg m with
  | none => simp [hp] at h
  | some p =>
    rw [hp] at h
    exact ⟨p.core, core_of_find hp, (Option.some.inj h).symm⟩

theorem names_setProg (hf : Keeps f) :
    (r.setProg n f).pmTinyProgs.map (·.name) = r.pmTinyProgs.map (·.name) :=
  Keyed.map_key_update fun a => (hf a).1

theorem nodes_setProg (hf : Keeps f) : (r.setProg n f).pmTinyProgs.map ProgInfo.dependencyNode =
    r.pmTinyProgs.map ProgInfo.dependencyNode := by
  rw [setProg, Keyed.update, List.map_map]
  apply List.map_congr_left
  intro p _
  dsimp only [Function.comp_apply]
  split
  · rw [ProgInfo.dependencyNode, (hf p).1, (hf p).2, ProgInfo.dependencyNode]
  · rfl

end Registry

structure ProgOk (c : Core) : Prop where
  running : c.state = .starting ∨ c.state = .runing → c.live
  gens : ∀ t ∈ c.tasks, t.generation ≤ c.gen
  busy : c.live → ∀ t, c.Queued t → c.state ≠ .starting ∧ c.state ≠ .runing

/-- What the runtime said before a create request still holds. -/
structure SavedLe (v : View) (saved : Saved) : Prop where
  requested : ∀ m c, v.core m = some c →
    saved.runtime.isRequested saved.graph m = true → v.requested m = true
  ready : ∀ m c, v.core m = some c →
    saved.runtime.state saved.graph m = .ready → v.rtState m = .ready
  flags : saved.runtime.Consistent

structure Base (v : View) : Prop where
  nodup : (v.reg.pmTinyProgs.map (·.name)).Nodup
  progs : ∀ n c, v.core n = some c → ProgOk c
  starting : v.reg.serverExit = true → ∀ n c, v.core n = some c → c.state = .starting →
    n ∈ v.ghost.stopping
  reload : ∀ config, v.reg.reloadConfig = some config → config.Ready
  graph : ∃ nodes, DependencyGraph.build nodes = .ok v.reg.dependencyGraph ∧
    ∀ p ∈ v.reg.pmTinyProgs, p.dependencyNode ∈ nodes
  saved : ∀ saved, v.ghost.saved = some saved → SavedLe v saved
  accepted : ∀ n ∈ v.ghost.accepted, ∃ c, v.core n = some c ∧ c.live
  flags : v.reg.dependencyRuntime.Consistent

theorem SavedLe.same {v v' : View} (h : SavedLe v saved) (hc : v'.core = v.core)
    (hr : v'.requested = v.requested) (hs : v'.rtState = v.rtState) : SavedLe v' saved := by
  refine ⟨?_, ?_, h.flags⟩
  · rw [hc, hr]
    exact h.requested
  · rw [hc, hs]
    exact h.ready

theorem Core.Unqueued.next (h : ProgOk c) :
    ∀ t, (⟨c.gen + 1, t⟩ : GenerationTask) ∉ c.tasks := by
  intro t ht
  have := h.gens _ ht
  dsimp only at this
  omega

theorem ProgOk.fresh (h : c.Fresh) : ProgOk c := by
  obtain ⟨hp, -, -, ht, -, hs⟩ := h
  exact ⟨by simp [hs], by simp [ht], by simp [Core.Queued, ht]⟩

theorem ProgMove.ok (h : ProgMove v n c c' g) (hc : ProgOk c) : ProgOk c' := by
  have hrun := hc.running
  have hgens := hc.gens
  have hbusy := hc.busy
  cases h with
  | touch => exact hc
  | observe => exact ⟨hrun, hgens, hbusy⟩
  | reset => exact ⟨hrun, hgens, hbusy⟩
  | kill job hl => exact ⟨by simp, hgens, by simp⟩
  | requestDelete => exact ⟨by simp, hgens, by simp⟩
  | enqueue t hl hq hs ht =>
    refine ⟨hrun, ?_, ?_⟩
    · intro t' ht'
      rcases List.mem_append.1 ht' with h | h
      · exact hgens t' h
      · rw [List.mem_singleton.1 h]
    · intro _ _ _
      rcases ProgState.terminating_eq_true.1 hs with he | he <;> simp [he]
  | reapDrain job extra hl ht hr hs ha hn he =>
    refine ⟨by simp, ?_, by simp⟩
    intro t' ht'
    rcases List.mem_append.1 ht' with h | h
    · exact hgens t' h
    · rcases he with rfl | ⟨-, a, b, rfl⟩
      · simp at h
      · rw [List.mem_singleton.1 h]
  | reapStopped => exact ⟨by dsimp only; split <;> simp, hgens, by simp [Core.live]⟩
  | reapExited state pending hl hr hs ha ht hst =>
    refine ⟨?_, hgens, by simp [Core.live]⟩
    rcases hst with rfl | rfl | rfl <;> simp
  | spawned site pid =>
    refine ⟨fun _ => rfl, fun t ht => ?_, fun _ t ht => ?_⟩
    · have := hgens t ht
      dsimp only
      omega
    · exact absurd ht (Core.Unqueued.next hc t)
  | aborted site hp =>
    refine ⟨fun hs => absurd (hrun hs) (by simp [Core.live, hp]), fun t ht =>
      ?_, by simp [Core.live]⟩
    have := hgens t ht
    dsimp only
    omega
  | startupFail => exact ⟨by simp, hgens, by simp⟩
  | block => exact ⟨by simp, hgens, by simp⟩
  | waiting => exact ⟨by simp, hgens, by simp⟩
  | run hs => exact ⟨fun _ => hrun (.inl hs), hgens, fun hl t ht => absurd hs (hbusy hl t ht).1⟩
  | accept hl hq hs => exact ⟨fun _ => hl, hgens, fun _ t ht => absurd ht (hq t)⟩
  | plan t state pending ht hp =>
    cases t with
    | planRestart =>
      rcases hp with ⟨rfl, -⟩ | ⟨rfl, -⟩
      · exact ⟨by simp, hgens, by simp⟩
      · exact ⟨by simp, hgens, by simp⟩
    | timeoutRestart =>
      rcases hp with ⟨rfl, -⟩ | ⟨rfl, -⟩
      · exact ⟨by simp, hgens, by simp⟩
      · exact ⟨hrun, hgens, hbusy⟩
    | stopProc => exact hp.elim
    | deleteProg => exact hp.elim
    | startProg => exact hp.elim
  | clearPendding => exact ⟨hrun, by simp, by simp [Core.Queued]⟩
  | clearRunning => exact ⟨hrun, by simp, by simp [Core.Queued]⟩
  | poll => exact ⟨hrun, hgens, hbusy⟩
  | cleaned => exact ⟨hrun, hgens, hbusy⟩
  | stoped => exact ⟨by simp, hgens, by simp⟩
  | noRun => exact ⟨by simp, hgens, by simp⟩

theorem ProgMove.starting (h : ProgMove v n c c' g) (hs : c'.state = .starting) :
    c.state = .starting ∨ v.Active := by
  cases h with
  | spawned _ _ _ ha => exact .inr ha
  | reapStopped =>
    dsimp only at hs
    split at hs <;> cases hs
  | reapExited state pending hl hr hs' ha ht hst =>
    dsimp only at hs
    subst state
    simp at hst
  | plan t state pending ht hp =>
    dsimp only at hs
    subst state
    cases t <;> simp [Plans] at hp
    exact .inl hp.1.symm
  | _ => first | exact .inl hs | cases hs

theorem ProgMove.stopping (h : ProgMove v n c c' g) : g.stopping = v.ghost.stopping := by
  cases h <;> rfl

theorem ProgMove.saved (h : ProgMove v n c c' g) : g.saved = v.ghost.saved := by
  cases h <;> rfl

theorem ProgMove.settling (h : ProgMove v n c c' g) : g.settling = v.ghost.settling := by
  cases h <;> rfl

theorem ProgMove.swapping (h : ProgMove v n c c' g) : g.swapping = v.ghost.swapping := by
  cases h <;> rfl

theorem ProgMove.acking (h : ProgMove v n c c' g) : g.acking = v.ghost.acking := by
  cases h <;> rfl

theorem ProgMove.active (h : ProgMove v n c c' g)
    (ha : View.Active { v with reg := v.reg.setProg n f, ghost := g }) : v.Active :=
  ⟨ha.1, h.swapping.symm.trans ha.2.1, h.acking.symm.trans ha.2.2⟩

theorem GhostMove.active (h : GhostMove v g) (ha : View.Active { v with ghost := g }) :
    v.Active := by
  obtain ⟨hx, hw, hack⟩ := ha
  cases h with
  | ack => cases hack
  | acked hx' => cases hx'.symm.trans hx
  | boundary mark hg =>
    refine ⟨hx, ?_, ?_⟩
    · rw [hg]
    · rw [hg]
  | _ => exact ⟨hx, hw, hack⟩

theorem ProgMove.others (h : ProgMove v n c c' g) (hm : m ≠ n) :
    (m ∈ g.pendding ↔ m ∈ v.ghost.pendding) ∧ (m ∈ g.running ↔ m ∈ v.ghost.running) ∧
      (m ∈ g.deleting ↔ m ∈ v.ghost.deleting) ∧ (m ∈ g.accepted ↔ m ∈ v.ghost.accepted) := by
  cases h with
  | reapStopped =>
    refine ⟨by simp [hm], Iff.rfl, ?_, Iff.rfl⟩
    dsimp only
    split <;> simp [hm]
  | accept => exact ⟨Iff.rfl, Iff.rfl, Iff.rfl, by simp [hm]⟩
  | clearPendding => exact ⟨List.mem_erase_of_ne hm, Iff.rfl, Iff.rfl, Iff.rfl⟩
  | clearRunning => exact ⟨Iff.rfl, List.mem_erase_of_ne hm, Iff.rfl, Iff.rfl⟩
  | _ => exact ⟨Iff.rfl, Iff.rfl, Iff.rfl, Iff.rfl⟩

theorem ProgMove.accepted (h : ProgMove v n c c' g) :
    (∀ m ∈ g.accepted, m ∈ v.ghost.accepted ∨ m = n ∧ c.live) ∧
      (n ∈ g.accepted → c.live → c'.live) := by
  cases h with
  | accept hl => exact ⟨fun m hm => by simp_all [List.mem_append], fun _ _ => hl⟩
  | reapDrain job extra hl ht hr hs ha => exact ⟨fun m hm => .inl hm, by simp [ha]⟩
  | reapStopped hl hr hs ha => exact ⟨fun m hm => .inl hm, by simp [ha]⟩
  | reapExited state pending hl hr hs ha => exact ⟨fun m hm => .inl hm, by simp [ha]⟩
  | spawned => exact ⟨fun m hm => .inl hm, fun _ _ => rfl⟩
  | aborted site hp => exact ⟨fun m hm => .inl hm, fun _ hl => absurd hl (by simp [Core.live, hp])⟩
  | _ => exact ⟨fun m hm => .inl hm, fun _ hl => hl⟩

theorem Base.prog (hb : Base v) (hf : Keeps f) (hp : v.reg.findProg n = some p)
    (h : ProgMove v n p.core (f p).core g) :
    Base { v with reg := v.reg.setProg n f, ghost := g } where
  nodup := by
    show ((v.reg.setProg n f).pmTinyProgs.map (·.name)).Nodup
    rw [Registry.names_setProg hf]
    exact hb.nodup
  progs := fun m c hm => by
    rcases Registry.core_setProg hf hp hm with ⟨rfl, rfl⟩ | ⟨-, hm⟩
    · exact h.ok (hb.progs _ _ (Registry.core_of_find hp))
    · exact hb.progs m c hm
  starting := fun hx m c hm hs => by
    show m ∈ g.stopping
    rw [h.stopping]
    rcases Registry.core_setProg hf hp hm with ⟨rfl, rfl⟩ | ⟨-, hm⟩
    · rcases h.starting hs with hs | ha
      · exact hb.starting hx _ _ (Registry.core_of_find hp) hs
      · exact absurd (show v.reg.serverExit = true from hx) (by simp [ha.1])
    · exact hb.starting hx m c hm hs
  reload := hb.reload
  graph := by
    obtain ⟨nodes, hn, hmem⟩ := hb.graph
    refine ⟨nodes, hn, fun q hq => ?_⟩
    have hq' : q.dependencyNode ∈ (v.reg.setProg n f).pmTinyProgs.map ProgInfo.dependencyNode :=
      List.mem_map_of_mem hq
    rw [Registry.nodes_setProg hf] at hq'
    obtain ⟨q', hq'', he⟩ := List.mem_map.1 hq'
    exact he ▸ hmem q' hq''
  saved := fun saved hs => by
    have hs' : v.ghost.saved = some saved := h.saved ▸ hs
    have hle := hb.saved saved hs'
    have hreg : ∀ m c, (v.reg.setProg n f).core m = some c → ∃ c', v.core m = some c' := by
      intro m c hm
      rcases Registry.core_setProg hf hp hm with ⟨rfl, -⟩ | ⟨-, hm⟩
      · exact ⟨_, Registry.core_of_find hp⟩
      · exact ⟨c, hm⟩
    refine ⟨?_, ?_, hle.flags⟩
    · intro m c hm hr
      obtain ⟨c', hc'⟩ := hreg m c hm
      exact hle.requested m c' hc' hr
    · intro m c hm hr
      obtain ⟨c', hc'⟩ := hreg m c hm
      exact hle.ready m c' hc' hr
  flags := hb.flags
  accepted := fun m hm => by
    have hmc : ∃ c, v.core m = some c ∧ c.live := by
      rcases h.accepted.1 m hm with hm' | ⟨rfl, hl⟩
      · exact hb.accepted m hm'
      · exact ⟨_, Registry.core_of_find hp, hl⟩
    obtain ⟨c, hc, hl⟩ := hmc
    by_cases hmn : m = n
    · subst m
      have he := (Registry.core_of_find hp).symm.trans hc
      cases he
      exact ⟨_, Registry.core_setProg_self hf hp, h.accepted.2 hm hl⟩
    · exact ⟨c, (Registry.core_setProg_ne hf hmn).trans hc, hl⟩

theorem Plans.gone {v : View} (h : Plans c t state pending)
    (hg : c.Gone ∨ v.reg.serverExit = true ∧ ∃ r, ⟨.runTask n t .quit, r⟩ ∈ v.trace)
    (hK : ∀ r, ⟨.runTask n t .quit, r⟩ ∈ v.trace → ¬(Call.runTask n t .quit).PlansEarly) :
    c.Gone := by
  rcases hg with hg | ⟨-, r, hr⟩
  · exact hg
  · cases t with
    | planRestart => exact absurd trivial (hK r hr)
    | timeoutRestart => exact absurd trivial (hK r hr)
    | _ => exact h.elim

theorem Flags.not_ready (h : Flags v n c) (hs : v.ghost.saved = some saved) :
    v.rtState n ≠ .ready := by
  rcases h with ⟨-, ⟨-, hr⟩ | ⟨-, -, hn⟩, -⟩ | ⟨-, -, hn, -⟩
  · exact hr
  · simp [hn] at hs
  · simp [hn] at hs

theorem RuntimeMove.flags (h : RuntimeMove v rt) (hc : v.reg.dependencyRuntime.Consistent) :
    rt.Consistent := by
  cases h with
  | idle n => exact hc.markIdle _ n
  | ready n => exact hc.markReady _ n
  | failed n => exact hc.markFailed _ n
  | closure n => exact hc.requestClosure _ n

theorem RuntimeMove.savedLe (h : RuntimeMove v rt) (hs : v.ghost.saved = some saved)
    (hle : SavedLe v saved) : SavedLe { v with reg := v.reg.setRuntime rt } saved := by
  have hreq : ∀ m c, v.core m = some c → saved.runtime.isRequested saved.graph m = true →
      rt.isRequested v.reg.dependencyGraph m = true := by
    intro m c hm hr
    have hv := hle.requested m c hm hr
    cases h with
    | idle n hn => simp [hn] at hs
    | ready n => exact DependencyRuntime.requested_markReady.2 (.inl hv)
    | failed n => exact DependencyRuntime.isRequested_markFailed.2 (.inl hv)
    | closure n => exact (DependencyRuntime.requestClosure_advances _ _ n).requested m hv
  have hready : ∀ m c, v.core m = some c → saved.runtime.state saved.graph m = .ready →
      rt.state v.reg.dependencyGraph m = .ready := by
    intro m c hm hr
    have hv := hle.ready m c hm hr
    cases h with
    | idle n hn => simp [hn] at hs
    | ready n => exact DependencyRuntime.ready_markReady.2 (.inl hv)
    | failed n hc hf =>
      by_cases hn : n ∈ v.reg.dependencyGraph.names
      · exact (DependencyRuntime.ready_markFailed hn).2
          ⟨hv, fun he => hf.not_ready hs (he ▸ hv)⟩
      · have hnone : v.reg.dependencyGraph.find n = none := by
          cases hfind : v.reg.dependencyGraph.find n with
          | none => rfl
          | some id => exact absurd (DependencyGraph.find_isSome.1 ⟨id, hfind⟩) hn
        rw [DependencyRuntime.markFailed, hnone]
        exact hv
    | closure n => exact ((DependencyRuntime.requestClosure_advances _ _ n).ready m).2 hv
  exact ⟨hreq, hready, hle.flags⟩

theorem Base.runtime (hb : Base v) (h : RuntimeMove v rt) :
    Base { v with reg := v.reg.setRuntime rt } :=
  ⟨hb.nodup, hb.progs, hb.starting, hb.reload, hb.graph,
    fun _ hs => h.savedLe hs (hb.saved _ hs), hb.accepted, h.flags hb.flags⟩

theorem Base.ghost (hb : Base v) (h : GhostMove v g) : Base { v with ghost := g } := by
  refine ⟨hb.nodup, hb.progs, ?_, hb.reload, hb.graph, ?_, ?_, hb.flags⟩
  · intro hx n c hc hs
    have hn := hb.starting hx n c hc hs
    cases h with
    | visited m hm =>
      refine (List.mem_erase_of_ne ?_).2 hn
      rintro rfl
      exact hm c hc hs
    | boundary mark hg =>
      rw [hg] at hn
      simp at hn
    | _ => exact hn
  · intro saved hs
    have hle : v.ghost.saved = some saved → SavedLe v saved := hb.saved saved
    cases h with
    | commit => simp at hs
    | boundary => simp at hs
    | _ => exact (hle hs).same rfl rfl rfl
  · intro n hn
    cases h with
    | forget => simp at hn
    | boundary => simp at hn
    | _ => exact hb.accepted n hn

theorem Base.node_of_find (hb : Base v) (hp : v.reg.findProg n = some p) :
    n ∈ v.reg.dependencyGraph.names ∧
      v.reg.dependencyGraph.dependencyNames n = p.dependsOn := by
  obtain ⟨nodes, hn, hmem⟩ := hb.graph
  have hnode := hmem p (Registry.mem_of_find hp)
  have hname := Registry.name_of_find hp
  constructor
  · rw [DependencyGraph.build_names hn]
    exact List.mem_map.2 ⟨_, hnode, hname⟩
  · have := DependencyGraph.build_dependencyNames hn hnode
    rwa [ProgInfo.dependencyNode, hname] at this

theorem savedLe_add {v : View} (h : buildProgDependencyGraph (v.reg.pmTinyProgs ++ [p]) = .ok graph)
    (hc : v.reg.dependencyRuntime.Consistent) :
    SavedLe { v with reg := v.reg.add p graph, ghost := g }
      ⟨p.name, v.reg.dependencyGraph, v.reg.dependencyRuntime⟩ := by
  have hmem : ∀ m c, (v.reg.add p graph).core m = some c → m ∈ graph.names := by
    intro m c hm
    rw [Registry.build_names h]
    exact Registry.mem_names_of_core hm
  refine ⟨?_, ?_, hc⟩
  · intro m c hm hr
    show DependencyRuntime.isRequested graph (.migrate graph _) m = true
    rw [DependencyRuntime.isRequested_migrate, if_pos (hmem m c hm)]
    exact hr
  · intro m c hm hr
    show DependencyRuntime.state graph (.migrate graph _) m = .ready
    rw [DependencyRuntime.state_migrate, if_pos (hmem m c hm)]
    exact hr

theorem nodes_of_build {progs : List ProgInfo} (h : buildProgDependencyGraph progs = .ok graph) :
    ∃ nodes, DependencyGraph.build nodes = .ok graph ∧ ∀ p ∈ progs, p.dependencyNode ∈ nodes :=
  ⟨_, h, fun _ hp => List.mem_map_of_mem hp⟩

theorem Registry.nodup_dropProg {r : Registry} (h : (r.pmTinyProgs.map (·.name)).Nodup) :
    ((r.dropProg n).pmTinyProgs.map (·.name)).Nodup := by
  rw [dropProg, Keyed.map_key_remove]
  exact h.filter _

theorem Registry.mem_dropProg {r : Registry} (h : p ∈ (r.dropProg n).pmTinyProgs) :
    p ∈ r.pmTinyProgs := List.mem_of_mem_filter h

theorem Base.add (hb : Base v) {p : ProgInfo} {graph : DependencyGraph}
    (hbuild : buildProgDependencyGraph (v.reg.pmTinyProgs ++ [p]) = .ok graph)
    (hfresh : p.core.Fresh) (ha : v.Active) :
    Base { v with
      reg := v.reg.add p graph
      ghost := { v.ghost with
        saved := some ⟨p.name, v.reg.dependencyGraph, v.reg.dependencyRuntime⟩ } } := by
  refine ⟨?_, ?_, ?_, hb.reload, nodes_of_build hbuild, ?_, ?_, hb.flags.migrate _ _⟩
  · show ((v.reg.pmTinyProgs ++ [p]).map (·.name)).Nodup
    rw [← Registry.build_names hbuild]
    exact graph.names_nodup
  · intro m c hm
    rcases Registry.core_add hbuild hm with ⟨-, rfl⟩ | ⟨-, hm⟩
    · exact .fresh hfresh
    · exact hb.progs m c hm
  · intro hx
    exact absurd (show v.reg.serverExit = true from hx) (by simp [ha.1])
  · intro saved hs'
    cases hs'
    exact savedLe_add hbuild hb.flags
  · intro m hm
    obtain ⟨c, hc, hl⟩ := hb.accepted m hm
    exact ⟨c, Registry.core_add_of_core hbuild hc, hl⟩

theorem Base.rollback (hb : Base v) {saved : Saved} (hs : v.ghost.saved = some saved)
    (ha : v.ghost.accepted = []) :
    Base { v with reg := v.reg.rollback saved, ghost := { v.ghost with saved := none } } := by
  have hcore : ∀ m c, (v.reg.rollback saved).core m = some c → v.core m = some c := by
    intro m c hm
    rw [Registry.core_rollback] at hm
    exact (Registry.core_dropProg hm).2
  have hprogs := Registry.rollback_progs (r := v.reg) saved
  obtain ⟨hexit, hreload⟩ := Registry.rollback_exit (r := v.reg) saved
  refine ⟨?_, fun m c hm => hb.progs m c (hcore m c hm), ?_, ?_, ?_, by simp, by simp [ha], ?_⟩
  · show ((v.reg.rollback saved).pmTinyProgs.map (·.name)).Nodup
    rw [hprogs]
    exact Registry.nodup_dropProg hb.nodup
  · intro hx m c hm
    exact hb.starting (hexit ▸ hx) m c (hcore m c hm)
  · intro config hcfg
    exact hb.reload config (hreload ▸ hcfg)
  · obtain ⟨nodes, hn, hmem⟩ := hb.graph
    show ∃ nodes, _ = Except.ok (v.reg.rollback saved).dependencyGraph ∧ _
    simp only [hprogs]
    obtain ⟨e, -, h⟩ | ⟨graph, hbuild, h⟩ := v.reg.rollback_cases saved
    · rw [h]
      exact ⟨nodes, hn, fun q hq => hmem q (Registry.mem_dropProg hq)⟩
    · rw [h]
      exact nodes_of_build hbuild
  · show (v.reg.rollback saved).dependencyRuntime.Consistent
    obtain ⟨e, -, h⟩ | ⟨graph, -, h⟩ := v.reg.rollback_cases saved
    · rw [h]
      exact hb.flags
    · rw [h]
      exact (hb.saved saved hs).flags.migrate _ _

theorem Base.drop (hb : Base v) (n : String) (hs : v.ghost.saved = none)
    (ha : v.ghost.accepted = []) :
    Base { v with
      reg := v.reg.dropProg n
      ghost := { v.ghost with
        deleting := v.ghost.deleting.erase n, dropped := n :: v.ghost.dropped } } := by
  obtain ⟨nodes, hnodes, hmem⟩ := hb.graph
  refine ⟨Registry.nodup_dropProg hb.nodup, ?_, ?_, hb.reload,
    ⟨nodes, hnodes, fun q hq => hmem q (Registry.mem_dropProg hq)⟩, by simp [hs], by simp [ha],
    hb.flags⟩
  · intro m c hm
    exact hb.progs m c (Registry.core_dropProg hm).2
  · intro hx m c hm
    exact hb.starting hx m c (Registry.core_dropProg hm).2

theorem Base.swap (hb : Base v) {config : ReloadConfig} (hc : v.reg.reloadConfig = some config)
    (hg : v.ghost = { swapping := true, mark := v.ghost.mark }) :
    Base { v with
      reg := { v.reg with
        pmTinyProgs := config.pl, dependencyGraph := config.graph, dependencyRuntime := .reset,
        reloadConfig := none }
      ghost := { v.ghost with swapping := false } } := by
  have hr := hb.reload config hc
  have hsaved : v.ghost.saved = none := by rw [hg]
  have hacc : v.ghost.accepted = [] := by rw [hg]
  have hfresh : ∀ n c, Registry.core { v.reg with
      pmTinyProgs := config.pl, dependencyGraph := config.graph, dependencyRuntime := .reset,
      reloadConfig := none } n = some c → c.Fresh := by
    intro n c hn
    obtain ⟨p, hp, rfl⟩ := Registry.core_eq_some.1 hn
    exact hr.fresh p (Registry.mem_of_find hp)
  refine ⟨?_, fun n c hn => .fresh (hfresh n c hn), ?_, by simp, nodes_of_build hr.built,
    by simp [hsaved], by simp [hacc], DependencyRuntime.consistent_reset⟩
  · show (config.pl.map (·.name)).Nodup
    rw [← Registry.build_names hr.built]
    exact config.graph.names_nodup
  · intro _ n c hn hstart
    have hidle := (hfresh n c hn).2.2.2.2.2
    rw [hidle] at hstart
    cases hstart

theorem Base.spawnAll (hb : Base v) (hf : ∀ n c, v.core n = some c → c.Fresh) (ha : v.Active)
    (hg : v.ghost = { mark := v.ghost.mark }) : Base { v with reg := v.reg.spawnAll } := by
  have hsaved : v.ghost.saved = none := by rw [hg]
  have hacc : v.ghost.accepted = [] := by rw [hg]
  have hnames : v.reg.spawnAll.pmTinyProgs.map (·.name) = v.reg.pmTinyProgs.map (·.name) := by
    simp [Registry.spawnAll, ProgInfo.setState]
  obtain ⟨nodes, hnodes, hmem⟩ := hb.graph
  refine ⟨?_, ?_, ?_, hb.reload, ⟨nodes, hnodes, ?_⟩, by simp [hsaved], by simp [hacc],
    DependencyRuntime.consistent_requestAll _ _⟩
  · show (v.reg.spawnAll.pmTinyProgs.map (·.name)).Nodup
    rw [hnames]
    exact hb.nodup
  · intro n c hn
    obtain ⟨c₀, hc₀, rfl⟩ := Registry.core_spawnAll hn
    obtain ⟨hp, -, -, ht, -, -⟩ := hf n c₀ hc₀
    exact ⟨by simp, by simp [ht], by simp [Core.live, hp]⟩
  · intro hx
    exact absurd (show v.reg.serverExit = true from hx) (by simp [ha.1])
  · intro q hq
    obtain ⟨q', hq', rfl⟩ := List.mem_map.1 hq
    exact hmem q' hq'

theorem Base.registry (hb : Base v) (h : RegistryMove v r g) :
    Base { v with reg := r, ghost := g } := by
  cases h with
  | add p graph hbuild hf ha hq ho hs hd hc => exact hb.add hbuild hf ha
  | rollback saved hs hd ha => exact hb.rollback hs ha
  | drop n hn hs ha => exact hb.drop n hs ha
  | rebuilt graph hs hbuild =>
    exact ⟨hb.nodup, hb.progs, hb.starting, hb.reload, nodes_of_build hbuild, by simp [hs],
      hb.accepted, DependencyRuntime.consistent_reset⟩
  | stale e hbuild =>
    exact ⟨hb.nodup, hb.progs, hb.starting, hb.reload, hb.graph,
      fun saved hs => (hb.saved saved hs).same rfl rfl rfl, hb.accepted,
      hb.flags⟩
  | quit names hn hx hq hs =>
    exact ⟨hb.nodup, hb.progs, fun _ n c hc _ => hn n c hc, hb.reload, hb.graph, by simp [hs],
      hb.accepted, hb.flags⟩
  | reload config ha hc =>
    refine ⟨hb.nodup, hb.progs, hb.starting, ?_, hb.graph,
      fun saved hs => (hb.saved saved hs).same rfl rfl rfl, hb.accepted,
      hb.flags⟩
    intro config' h'
    cases h'
    exact hc
  | beginSwap config hx hc hs =>
    exact ⟨hb.nodup, hb.progs, by simp, hb.reload, hb.graph,
      fun saved hs => (hb.saved saved hs).same rfl rfl rfl, hb.accepted,
      hb.flags⟩
  | swap config hw hc hg ht => exact hb.swap hc hg
  | spawnAll hf ha hg hrt => exact hb.spawnAll hf ha hg

theorem RegistryMove.core (h : RegistryMove v r g) (hb : Base v) (hc : r.core n = some c) :
    v.core n = some c ∨ c.Pristine := by
  cases h with
  | add p graph hbuild hf =>
    rcases Registry.core_add hbuild hc with ⟨-, rfl⟩ | ⟨-, hc⟩
    · exact .inr hf.pristine
    · exact .inl hc
  | rollback saved =>
    rw [Registry.core_rollback] at hc
    exact .inl (Registry.core_dropProg hc).2
  | drop => exact .inl (Registry.core_dropProg hc).2
  | swap config hw hcfg =>
    obtain ⟨p, hp, rfl⟩ := Registry.core_eq_some.1 hc
    exact .inr ((hb.reload config hcfg).fresh p (Registry.mem_of_find hp)).pristine
  | spawnAll hf =>
    obtain ⟨c₀, hc₀, rfl⟩ := Registry.core_spawnAll hc
    have hp := (hf n c₀ hc₀).pristine
    exact .inr ⟨hp.pid, hp.tree, hp.job, hp.tasks, hp.pending, .inr rfl⟩
  | _ => exact .inl hc

theorem RegistryMove.requested (h : RegistryMove v r g) (hb : Base v) (hc : r.core m = some c)
    (hr : r.requested m = true) : v.requested m = true ∨ c.Pristine := by
  cases h with
  | add p graph hbuild hf =>
    refine .inl ?_
    rw [Registry.requested, Registry.add, DependencyRuntime.isRequested_migrate] at hr
    split at hr
    · exact hr
    · cases hr
  | rollback saved hs =>
    refine .inl ?_
    have hm : v.core m = some c := by
      rw [Registry.core_rollback] at hc
      exact (Registry.core_dropProg hc).2
    unfold Registry.rollback at hr
    dsimp only at hr
    split at hr
    · exact hr
    · rw [Registry.requested, DependencyRuntime.isRequested_migrate] at hr
      split at hr
      · exact (hb.saved saved hs).requested m c hm hr
      · cases hr
  | drop => exact .inl hr
  | rebuilt =>
    rw [Registry.requested, DependencyRuntime.isRequested] at hr
    split at hr <;> cases hr
  | swap config hw hcfg =>
    rw [Registry.requested, DependencyRuntime.isRequested] at hr
    split at hr <;> cases hr
  | spawnAll hf =>
    obtain ⟨c₀, hc₀, rfl⟩ := Registry.core_spawnAll hc
    have hp := (hf m c₀ hc₀).pristine
    exact .inr ⟨hp.pid, hp.tree, hp.job, hp.tasks, hp.pending, .inr rfl⟩
  | _ => exact .inl hr

theorem RegistryMove.loops (h : RegistryMove v r g) : g.pendding = v.ghost.pendding ∧
    g.running = v.ghost.running ∧ g.settling = v.ghost.settling ∧
    g.accepted = v.ghost.accepted ∧ g.mark = v.ghost.mark := by
  cases h <;> exact ⟨rfl, rfl, rfl, rfl, rfl⟩

theorem Base.move (hb : Base v) (h : Move v v') : Base v' := by
  cases h with
  | prog hf hp h => exact hb.prog hf hp h
  | runtime h => exact hb.runtime h
  | ghost h => exact hb.ghost h
  | registry h => exact hb.registry h
  | log call h =>
    exact ⟨hb.nodup, hb.progs, hb.starting, hb.reload, hb.graph,
      fun saved hs => (hb.saved saved hs).same rfl rfl rfl, hb.accepted,
      hb.flags⟩

theorem Moves.trans (h : Moves v v') (h' : Moves v' v'') : Moves v v'' :=
  Relation.ReflTransGen.trans h h'

theorem Move.moves (h : Move v v') : Moves v v' := .single h

theorem Base.moves (hb : Base v) (h : Moves v v') : Base v' := by
  induction h with
  | refl => exact hb
  | tail _ h ih => exact ih.move h

theorem Move.trace_subset (h : Move v v') : v.trace ⊆ v'.trace := by
  cases h with
  | log => exact List.subset_cons_of_subset _ (List.Subset.refl _)
  | _ => exact List.Subset.refl _

theorem Moves.trace_subset (h : Moves v v') : v.trace ⊆ v'.trace := by
  induction h with
  | refl => exact List.Subset.refl _
  | tail _ h ih => exact List.Subset.trans ih h.trace_subset

theorem Moves.invariant {K : Event → Prop} {Inv : View → Prop}
    (hstep : ∀ v v', Move v v' → Base v → (∀ e ∈ v'.trace, K e) → Inv v → Inv v')
    (h : Moves v v') (hb : Base v) (hK : ∀ e ∈ v'.trace, K e) (hi : Inv v) : Inv v' := by
  induction h with
  | refl => exact hi
  | tail h hm ih =>
    exact hstep _ _ hm (hb.moves h) hK (ih fun e he => hK e (hm.trace_subset he))

end PmTiny
