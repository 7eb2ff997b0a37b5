import PmTiny.Trace.Ticks

namespace PmTiny
set_option autoImplicit true

namespace Server

variable {s s' s'' : Server} {ω : System} {g g' : Ghost} {id : Nat}

theorem timely_of_plan (hb : Base (s.view g))
    (he : event ∈ (planLifecycleTick nowMs (s.pmTinyProgs.mapIdx fun i p => p.observation i)
      busy).timeouts) : ∃ n p, (s.pmTinyProgs.map (·.name))[event.processIndex]? = some n ∧
        s.findProg n = some p ∧ p.inst.generation = event.generation ∧ p.live = true ∧
        p.core.Unqueued ∧ p.state.terminating = false := by
  rw [planLifecycleTick_timeouts] at he
  obtain ⟨process, hprocess, hevent⟩ := List.mem_flatMap.1 he
  obtain ⟨i, hi⟩ := List.mem_iff_getElem?.1 hprocess
  rw [List.getElem?_mapIdx] at hi
  obtain ⟨p, hp, rfl⟩ := Option.map_eq_some_iff.1 hi
  obtain ⟨hidx, hgen, hl, ht, hs⟩ := timeoutEvents_of_mem hevent
  have hmem := List.mem_of_getElem? hp
  have hfind : s.findProg p.name = some p := Keyed.find_of_mem hb.nodup hmem
  have hok := hb.progs p.name p.core (Registry.core_of_find hfind)
  refine ⟨p.name, p, ?_, hfind, hgen.symm, hl, fun t hq => ?_, ht⟩
  · rw [hidx, List.getElem?_map, show (p.observation i).processIndex = i from rfl, hp]
    rfl
  · obtain ⟨h₁, h₂⟩ := hok.busy hl t hq
    rcases hs with hs | hs
    · exact h₁ (of_decide_eq_true hs)
    · exact h₂ (of_decide_eq_true hs)

theorem plan_indices (nowMs : Int) (progs : List ProgInfo) (busy : Bool) :
    ((planLifecycleTick nowMs (progs.mapIdx fun i p => p.observation i) busy).timeouts.map
      (·.processIndex)).Nodup := by
  rw [planLifecycleTick_timeouts]
  refine (timeouts_indices nowMs _).nodup ?_
  have hrange : (progs.mapIdx fun i p => p.observation i).map (·.processIndex) =
      List.range progs.length := by
    refine List.ext_getElem? fun i => ?_
    rw [List.getElem?_map, List.getElem?_mapIdx]
    by_cases hi : i < progs.length
    · rw [List.getElem?_eq_getElem hi, List.getElem?_range hi]
      rfl
    · simp [hi]
  rw [hrange]
  exact List.nodup_range

theorem checkDelayedChldSig_moves (children : Option (List (Nat × Nat)))
    (hb : Base (s.view { mark := mark }))
    (hq : (s.view { mark := mark }).Quiet) :
    Moves (s.view { mark := mark }) ((s.checkDelayedChldSig ω children).view { mark := mark }) := by
  unfold checkDelayedChldSig
  extract_lets s₁ nowMs s₂ ordered plan s₃ timeouts s₄
  have hreap : Moves (s.view { mark := mark }) (s₂.view { mark := mark }) := by
    show Moves _
      ((Option.elim children s fun children => s.reapAll ω children).view { mark := mark })
    cases children with
    | none => exact .refl
    | some children => exact reapAll_moves hb hq
  have hb₂ := hb.moves hreap
  have hdue : Calm (s₂.view { mark := mark }) (s₃.view { mark := mark }) ∧
      ∀ m, (∃ p, s₂.findProg m = some p ∧ p.live = true) →
        Spared s₂.toRegistry s₃.toRegistry m := by
    show Calm _ ((ite _ _ _ : Server).view _) ∧ ∀ m, _ → Spared _ (ite _ _ _ : Server).toRegistry m
    split
    · exact ⟨.refl _, fun _ _ => .of_find rfl⟩
    · rename_i hx
      exact dueRestarts_calm _ (Bool.not_eq_true _ ▸ hx)
  have htimely : ∀ e ∈ plan.timeouts, Timely s₃ ordered e := by
    intro e he
    obtain ⟨n, p, hn, hp, hgen, hl, hunq, hnt⟩ := timely_of_plan hb₂ he
    intro m q hm hq _ _
    cases hn.symm.trans hm
    obtain ⟨q', hq', hproc, hs⟩ := hdue.2 n ⟨p, hp, hl⟩ p hp
    cases hq'.symm.trans hq
    obtain ⟨hg, -, -, htasks⟩ := Core.proc_inj hproc
    refine ⟨fun t ht => hunq t ?_, ?_⟩
    · rwa [Core.Queued, hg, htasks] at ht
    · rcases hs with hs | hs
      · rw [hs]
        exact hnt
      · rw [hs]
        rfl
  obtain ⟨htime, hexit⟩ := handleTimeouts_calm (ω := ω) (s := s₃) plan.timeouts [] hb₂.nodup
    (plan_indices nowMs s₂.pmTinyProgs s₂.persistence.busy) (by simp) htimely
  have hpoll : Steady (timeouts.2.2.view { accepted := timeouts.2.1, mark := mark })
      (s₄.view { accepted := timeouts.2.1, mark := mark }) := pollFold_steady _ rfl rfl rfl rfl
  have hsteady := (hdue.1.trans htime).toSteady.trans hpoll
  have hforget (s' : Server) : Move (s'.view { accepted := timeouts.2.1, mark := mark })
      (s'.view { mark := mark }) :=
    .ghost (v := s'.view { accepted := timeouts.2.1, mark := mark }) .forget
  split
  · rename_i hready
    have hx : s₄.serverExit = false := by
      refine (htime.toSteady.trans hpoll).exit.trans (Bool.eq_false_iff.2 fun hx => ?_)
      exact hready.2 (hexit hx)
    have hspawn : Calm (s₄.view { accepted := timeouts.2.1, mark := mark })
        ((s₄.spawn1 ω timeouts.2.1 .timeout).view { accepted := timeouts.2.1, mark := mark }) := by
      refine spawn1_calm ⟨hx, rfl, rfl⟩ rfl fun n hn => ?_
      obtain ⟨c, hc, hl⟩ := (hsteady.base hb₂).accepted n hn
      obtain ⟨p, hp, rfl⟩ := Registry.core_eq_some.1 hc
      exact ⟨p, hp, .inr (.inl ⟨hn, hl⟩), .inl hl⟩
    exact (hreap.trans (hsteady.moves.trans hspawn.moves)).trans (hforget _).moves
  · exact (hreap.trans hsteady.moves).trans (hforget _).moves

theorem checkDelayedExitSig_moves (exitSignal : Bool) (hb : Base (s.view { mark := mark }))
    (hq : (s.view { mark := mark }).Quiet) :
    Moves (s.view { mark := mark }) ((s.checkDelayedExitSig ω exitSignal).view { mark := mark }) ∧
      ((s.checkDelayedExitSig ω exitSignal).view { mark := mark }).Quiet := by
  unfold checkDelayedExitSig
  split
  · have hack : Calm (s.view { mark := mark }) (s.view { acking := true, mark := mark }) :=
      Calm.ghost (v := s.view { mark := mark }) (.ack hq) rfl
    have hrec : Calm (s.view { acking := true, mark := mark })
        ((s.record .exitSignal).view { acking := true, mark := mark }) :=
      calm_record rfl fun h => h
    have hcalm := hack.trans hrec
    obtain ⟨hmoves, hquiet, -⟩ := requestQuit_moves (ω := ω) (hcalm.base hb) (hcalm.quiet hq)
    exact ⟨hcalm.moves.trans hmoves, hquiet⟩
  · exact ⟨.refl, hq⟩

theorem talks_pollSaveProcToCfg : Talks s (s.pollSaveProcToCfg ω) := by
  unfold pollSaveProcToCfg
  split
  · extract_lets reply s₁
    have h₀ : Talks s { s with persistence := .idle } := .of_eq rfl rfl
    have h₁ : Talks { s with persistence := .idle } s₁ :=
      talks_answerAll (show Plain .save _ from trivial)
    have h₂ : Talks s₁ { s₁ with waitSaveSessions := [] } := .of_eq rfl rfl
    exact (h₀.trans h₁).trans h₂
  · exact .refl s

theorem anyLiving_calm : Calm (s.view g) ((s.anyLiving ω).2.view g) := by
  have hfold : ∀ (names : List String) (acc : Bool × Server), Calm (acc.2.view g)
      ((names.foldl (fun acc name =>
        if (acc.2.findProg name).any (·.live) then (true, acc.2)
        else
          let tree := acc.2.isTreeEmpty ω name
          (acc.1 || !tree.1, tree.2)) acc).2.view g) := by
    intro names
    induction names with
    | nil => exact fun _ => .refl _
    | cons n names ih =>
      intro acc
      rw [List.foldl_cons]
      split
      · exact ih (true, acc.2)
      · exact (calm_isTreeEmpty (ω := ω) (n := n)).trans
          (ih (acc.1 || !(acc.2.isTreeEmpty ω n).1, (acc.2.isTreeEmpty ω n).2))
  exact hfold _ (false, s)

theorem swap_moves (hb : Base (s.view { mark := mark })) (hx : s.serverExit = true)
    (hc : s.reloadConfig = some config) (reply : Reply) (ids : List Nat) (names : List String) :
    Moves (s.view { mark := mark })
      (((names.foldl (fun (s : Server) name => s.detachSessions ω name)
        ({ { s with serverExit := false }.answerAll ω .reload reply ids with
          waitReloadSessions := [] }.swapReloadConfig config)).spawn ω).view { mark := mark }) := by
  have hready := hb.reload config hc
  let s₀ : Server := { s with serverExit := false }
  let s₁ : Server := { s₀.answerAll ω .reload reply ids with waitReloadSessions := [] }
  have hbegin : Move (s.view { mark := mark }) (s₀.view { swapping := true, mark := mark }) :=
    .registry (v := s.view { mark := mark }) (.beginSwap config hx hc rfl)
  have hreply : Talks s₀ (s₀.answerAll ω .reload reply ids) :=
    talks_answerAll (show Plain .reload _ from trivial)
  have htalks : Talks s₀ s₁ := hreply.trans (.of_eq rfl rfl)
  have hc₁ : s₁.reloadConfig = some config := by
    rw [htalks.reg]
    exact hc
  have hrec : Calm (s₁.view { swapping := true, mark := mark })
      ((s₁.record .swapReloadConfig).view { swapping := true, mark := mark }) := by
    refine calm_record (fun hnone => ?_) fun h => h
    cases hc₁.symm.trans hnone
  have hswap : Move ((s₁.record .swapReloadConfig).view { swapping := true, mark := mark })
      ((s₁.swapReloadConfig config).view { mark := mark }) :=
    .registry (v := (s₁.record .swapReloadConfig).view { swapping := true, mark := mark })
      (.swap config rfl hc₁ rfl ⟨_, _, rfl⟩)
  let s₂ := names.foldl (fun s name => s.detachSessions ω name) (s₁.swapReloadConfig config)
  have hdetach : Talks (s₁.swapReloadConfig config) s₂ :=
    .foldl _ (fun _ _ _ => talks_detachSessions) _
  have hspawn : Moves (s₂.view { mark := mark }) ((s₂.spawn ω).view { mark := mark }) := by
    refine spawn_moves (fun n c hn => ?_) ?_ ?_
    · rw [hdetach.reg] at hn
      obtain ⟨p, hp, rfl⟩ := Registry.core_eq_some.1 hn
      exact hready.fresh p (Registry.mem_of_find hp)
    · rw [hdetach.reg]
      show s₁.serverExit = false
      rw [htalks.reg]
    · rw [hdetach.reg]
      rfl
  exact (hbegin.moves.trans ((htalks.calm _).moves.trans hrec.moves)).trans
    (hswap.moves.trans ((hdetach.calm _).moves.trans hspawn))

theorem checkQuitOrReload_moves (hb : Base (s.view { mark := mark })) :
    Moves (s.view { mark := mark }) ((s.checkQuitOrReload ω).view { mark := mark }) := by
  unfold checkQuitOrReload
  dsimp only
  have hliving : Calm (s.view { mark := mark })
      (((s.pollSaveProcToCfg ω).anyLiving ω).2.view { mark := mark }) :=
    (talks_pollSaveProcToCfg.calm _).trans anyLiving_calm
  have hb₁ := hliving.base hb
  split
  · exact hliving.moves
  · rename_i hcond
    simp only [not_or, Bool.not_eq_true, Bool.not_eq_false'] at hcond
    split
    · have hrec : Calm (((s.pollSaveProcToCfg ω).anyLiving ω).2.view { mark := mark })
          ((((s.pollSaveProcToCfg ω).anyLiving ω).2.record .loopExit).view { mark := mark }) :=
        calm_record trivial fun h => h
      exact hliving.moves.trans hrec.moves
    · rename_i config hc
      have hvalid := (hb₁.reload config hc).valid
      simp only [hvalid, Bool.not_true, Bool.false_eq_true, if_false]
      exact hliving.moves.trans (swap_moves hb₁ hcond.1 hc _ _ _)

theorem maintenance_moves (hb : Base (s.view { mark := mark }))
    (hq : (s.view { mark := mark }).Quiet) :
    Moves (s.view { mark := mark })
      ((s.maintenance ω exitSignal children).view { mark := mark }) := by
  obtain ⟨hexit, hquiet⟩ := checkDelayedExitSig_moves (ω := ω) exitSignal hb hq
  have hb₁ := hb.moves hexit
  have hchld := checkDelayedChldSig_moves (ω := ω) children hb₁ hquiet
  exact (hexit.trans hchld).trans (checkQuitOrReload_moves (hb₁.moves hchld))

theorem step_moves (input : Input) (hb : Base (s.view { mark := s.history.length })) :
    Moves (s.view { mark := s.history.length })
      ((s.step ω input).view { mark := s.history.length }) := by
  have hq : (s.view { mark := s.history.length }).Quiet := View.quiet_boundary rfl
  unfold step
  split
  · exact .refl
  · split
    · unfold acceptSession
      split <;> exact .refl
    · unfold dispatchMessage
      split
      · exact handleFrame_moves (s := s.setSession _ _) hb hq _
      · exact .refl
    · exact (talks_closeSession.calm _).moves
    · exact maintenance_moves hb hq
    · exact calm_observe.moves
    · split <;> exact .refl

def boundary (s : Server) : View := s.view { mark := s.history.length }

theorem boundary_moves (mark : Nat)
    (h : Moves (s.view { mark := mark }) (s'.view { mark := mark })) :
    Moves (s.view { mark := mark }) s'.boundary :=
  h.tail (.ghost (v := s'.view { mark := mark }) (.boundary mark rfl))

/-- The view of a loaded configuration before anything is started. -/
structure Loaded (v : View) : Prop where
  base : Base v
  fresh : ∀ n c, v.core n = some c → c.Fresh
  ghost : v.ghost = {}
  trace : v.trace = []
  runtime : v.reg.dependencyRuntime = .reset
  exit : v.reg.serverExit = false
  reload : v.reg.reloadConfig = none
  built : buildProgDependencyGraph v.reg.pmTinyProgs = .ok v.reg.dependencyGraph

theorem boot_moves (h : boot ω = some s) : ∃ v, Loaded v ∧ Moves v s.boundary := by
  unfold boot at h
  split at h
  · cases h
  · rename_i programs hload
    dsimp only at h
    split at h
    · cases h
    · rename_i graph hbuild
      cases h
      let s₀ : Server := { pmTinyProgs := parseCfg programs, dependencyGraph := graph, ticks := 1 }
      have hfresh : ∀ n c, (s₀.view {}).core n = some c → c.Fresh := by
        intro n c hn
        obtain ⟨p, hp, rfl⟩ := Registry.core_eq_some.1 hn
        exact fresh_parseCfg programs p (Registry.mem_of_find hp)
      refine ⟨s₀.view {}, ⟨⟨?_, ?_, ?_, ?_, nodes_of_build hbuild, ?_, ?_,
        DependencyRuntime.consistent_reset⟩, hfresh, rfl, rfl, rfl,
        rfl, rfl, hbuild⟩, ?_⟩
      · show ((parseCfg programs).map (·.name)).Nodup
        rw [← Registry.build_names hbuild]
        exact graph.names_nodup
      · exact fun n c hc => .fresh (hfresh n c hc)
      · intro hx
        cases hx
      · intro config hc
        cases hc
      · intro saved hs
        cases hs
      · intro n hn
        cases hn
      · exact boundary_moves (s := s₀) 0 (spawn_moves hfresh rfl rfl)

theorem Reachable.moves (h : Reachable ω s) : ∃ v, Loaded v ∧ Moves v s.boundary := by
  induction h with
  | boot h => exact boot_moves h
  | step input _ ih =>
    obtain ⟨v, hv, hmoves⟩ := ih
    exact ⟨v, hv, hmoves.trans (boundary_moves _ (step_moves input (hv.base.moves hmoves)))⟩

theorem Reachable.base (h : Reachable ω s) : Base s.boundary := by
  obtain ⟨v, hv, hmoves⟩ := h.moves
  exact hv.base.moves hmoves

theorem Reachable.invariant {K : Event → Prop} {Inv : View → Prop}
    (hstep : ∀ v v', Move v v' → Base v → (∀ e ∈ v'.trace, K e) → Inv v → Inv v')
    (hload : ∀ v, Loaded v → Inv v) (h : Reachable ω s) (hK : ∀ e ∈ s.history, K e) :
    Inv s.boundary := by
  obtain ⟨v, hv, hmoves⟩ := h.moves
  exact Moves.invariant hstep hmoves hv.base hK (hload v hv)

def runFrom (ω : System) (inputs : List Input) : Option Server :=
  (boot ω).map fun s => s.run ω inputs

theorem runFrom_any (inputs : List Input) (P : Server → Bool)
    (h : (runFrom ω inputs).any P = true) :
    ∃ s, Reachable ω s ∧ P s = true := by
  unfold runFrom at h
  cases hboot : boot ω with
  | none => simp [hboot] at h
  | some s => exact ⟨s.run ω inputs, (Reachable.boot hboot).run inputs, by simpa [hboot] using h⟩

end Server

/-- A system on which every spawn succeeds and every tree that is looked at has the same members. -/
def simpleSystem (programs : List ProgCfg) (members : List Nat) : System where
  clock n := n * 10
  unixTime n := n
  members _ _ := members
  spawn n _ := .started (100 + n)
  send _ := true
  loadProgCfg _ := .ok programs
  userFromUid _ uid := .ok ⟨"user", uid, uid⟩
  uidFromUsername _ name := .ok ⟨name, 0, 0⟩
  euid := 0
  egid := 0
  pid := 1
  strerror _ := "error"

end PmTiny
