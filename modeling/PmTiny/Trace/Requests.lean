import PmTiny.Trace.Tasks

namespace PmTiny
set_option autoImplicit true

theorem fresh_createProg (h : createProg config source = some prog) : prog.core.Fresh := by
  unfold createProg at h
  split at h
  · cases h
  · split at h
    · cases h
    · cases h
      exact ⟨rfl, rfl, rfl, rfl, rfl, rfl⟩

theorem fresh_parseCfg (programs : List ProgCfg) : ∀ p ∈ parseCfg programs, p.core.Fresh := by
  rw [parseCfg]
  apply List.foldlRecOn (motive := fun progs : List ProgInfo => ∀ p ∈ progs, p.core.Fresh)
  · simp
  · intro progs h config _
    split
    · exact h
    · split
      · exact h
      · rename_i prog hprog
        intro p hp
        rcases List.mem_append.1 hp with hp | hp
        · exact h p hp
        · rw [List.mem_singleton.1 hp]
          exact fresh_createProg hprog

theorem ready_parseCfg2 (h : (parseCfg2 loaded).valid = true) : (parseCfg2 loaded).Ready := by
  unfold parseCfg2 at h ⊢
  split
  · simp at h
  · dsimp only at h ⊢
    split
    · rename_i hb
      rw [hb] at h
      cases h
    · rename_i hb
      exact ⟨rfl, hb, fresh_parseCfg _⟩

namespace Server

variable {s s' s'' : Server} {ω : System} {g g' : Ghost} {id : Nat}

theorem outside_mark : Ghost.Outside { mark := mark } := ⟨rfl, rfl, rfl, rfl⟩

theorem active_mark (hx : s.serverExit = false) : (s.view { mark := mark }).Active := ⟨hx, rfl, rfl⟩

theorem noDependents_of_dependencyDependents (h : s.dependencyDependents n = []) :
    (s.view g).NoDependents n := by
  intro m hm
  have hdep : n ∈ s.dependencyGraph.dependencyNames m := hm
  unfold DependencyGraph.dependencyNames at hdep
  split at hdep
  · simp at hdep
  · rename_i i hi
    obtain ⟨d, hd, rfl⟩ := List.mem_map.1 hdep
    have hlt := s.dependencyGraph.deps_lt i d hd
    rw [dependencyDependents, DependencyGraph.find_name hlt] at h
    have hi' := DependencyGraph.mem_dependents.2 ⟨(DependencyGraph.find_eq_some.1 hi).1, hd⟩
    simp only [List.map_eq_nil_iff] at h
    rw [h] at hi'
    simp at hi'

theorem keeps_resetRestartPolicy : Keeps fun p => p.resetRestartPolicy := fun _ => ⟨rfl, rfl⟩

theorem keeps_enqueueAfterTermination (t : Task) : Keeps fun p => p.enqueueAfterTermination t :=
  fun _ => ⟨rfl, rfl⟩

theorem reset_calm : Calm (s.view g) ((s.setProg n (·.resetRestartPolicy)).view g) :=
  calm_setProg keeps_resetRestartPolicy fun _ _ => .reset

theorem killEnqueue_calm (t : Task) (hp : s.findProg n = some p) (hl : p.live = true)
    (hq : p.core.Unqueued) (ha : n ∉ g.accepted) (hn : g.pendding = [])
    (ht : Enqueues ((s.asyncKillProg ω n).view g) (p.asyncKillProg (ω.clock s.ticks)).2.core t) :
    Calm (s.view g) (((s.asyncKillProg ω n).setProg n (·.enqueueAfterTermination t)).view g) := by
  refine (asyncKillProg_calm hp hl (.inl hq) ha).trans
    (calm_setProg (keeps_enqueueAfterTermination t) ?_)
  intro q hq'
  cases (findProg_asyncKillProg hp).symm.trans hq'
  exact .enqueue t hl hq rfl ht hn

theorem unqueued_nil {c : Core} (h : c.tasks = []) : c.Unqueued := by
  intro t ht
  rw [Core.Queued, h] at ht
  simp at ht

theorem requested_markDependencyStopped :
    (s.markDependencyStopped n).requested m = (s.requested m && decide (m ≠ n)) :=
  DependencyRuntime.isRequested_markIdle

theorem stopIdle_moves (hp : s.findProg n = some p) (hx : s.serverExit = false)
    (hpid : p.inst.pid = none) (htasks : p.killPendingtasks = [])
    (hpend : p.restartPending = false) :
    Moves (s.view { mark := mark })
      (((((s.record (.stopIdle n)).setProg n
        (·.setState .stoped)).markDependencyStopped n).writeFrame
        ω id (.stop n) success).view { mark := mark }) := by
  have hrec : Calm (s.view { mark := mark }) ((s.record (.stopIdle n)).view { mark := mark }) :=
    calm_record trivial fun h => h
  let s₁ := (s.record (.stopIdle n)).setProg n (·.setState .stoped)
  have hstop :
    Calm ((s.record (.stopIdle n)).view { mark := mark }) (s₁.view { mark := mark }) := by
    refine calm_setProg (keeps_setState _) fun q hq => ?_
    cases hp.symm.trans hq
    exact .stoped (List.mem_cons_self ..) hpid htasks
  have hp₁ : s₁.findProg n = some (p.setState .stoped) := findProg_setProg (keeps_setState _) hp
  have hidle : Calm (s₁.view { mark := mark })
      ((s₁.markDependencyStopped n).view { mark := mark }) :=
    Calm.runtime (v := s₁.view { mark := mark }) (.idle n rfl)
  have hall := (hrec.trans hstop).trans hidle
  refine hall.moves.trans (writeFrame_moves ?_).moves
  intro type rid _
  refine ⟨active_mark (hall.exit.trans hx), rfl, rfl, _, Registry.core_of_find hp₁, .inr ⟨hpid, ?_⟩⟩
  refine ⟨_, _, List.mem_cons_self .., hp, rfl, rfl, htasks, hpend, ?_, by simp [view]⟩
  exact (requested_markDependencyStopped (s := s₁)).trans (by simp)

theorem handleStop_moves :
    Moves (s.view { mark := mark }) ((s.handleStop ω id n).view { mark := mark }) := by
  unfold handleStop
  dsimp only
  split
  · exact ((talks_writeFrame (.of_status (by simp))).calm _).moves
  · rename_i p hp
    split
    · exact ((talks_writeFrame (.of_status (by simp))).calm _).moves
    · rename_i htasks
      have htasks : p.killPendingtasks = [] := not_not.1 htasks
      cases hx : s.serverExit with
      | true =>
        rw [if_pos (serverExiting_fst.trans hx)]
        exact (talks_serverExiting.calm _).moves
      | false =>
        rw [serverExiting_of_running hx, if_neg (by simp)]
        let s₁ := s.setProg n (·.resetRestartPolicy)
        let s₂ := s₁.failPendingLogSessions ω n "log wait canceled by stop"
        have htalks : Talks s₁ s₂ := talks_failPendingLogSessions
        have hcalm : Calm (s.view { mark := mark }) (s₂.view { mark := mark }) :=
          reset_calm.trans (htalks.calm _)
        have hp₂ : s₂.findProg n = some p.resetRestartPolicy :=
          htalks.find.trans (findProg_setProg keeps_resetRestartPolicy hp)
        have hx₂ : s₂.serverExit = false := hcalm.exit.trans hx
        split
        · rename_i hl
          have hunq : p.resetRestartPolicy.core.Unqueued := unqueued_nil htasks
          have hkill :=
            asyncKillProg_calm (ω := ω) (g := { mark := mark }) hp₂ hl (.inl hunq) (by simp)
          refine (hcalm.trans (killEnqueue_calm _ hp₂ hl hunq (by simp) rfl ?_)).moves
          exact ⟨htasks, Active.of_calm hkill (active_mark hx₂) rfl, rfl, rfl⟩
        · rename_i hl
          have hpid : p.inst.pid = none := by simpa [ProgInfo.live] using hl
          exact hcalm.moves.trans (stopIdle_moves hp₂ hx₂ hpid htasks rfl)

/-- A delete request for a live program: it is signalled and will be removed once it is gone. -/
theorem removeLive_moves (hp : s.findProg n = some p) (hx : s.serverExit = false)
    (hl : p.live = true) (htasks : p.killPendingtasks = [])
    (hd : (s.view { mark := mark }).NoDependents n) :
    Moves (s.view { mark := mark })
      ((((s.asyncKillProg ω n).setProg n (·.setState .requestDelete)).setProg n
        (·.enqueueAfterTermination (.deleteProg id))).view { mark := mark }) := by
  have hkill := asyncKillProg_calm (ω := ω) (g := { mark := mark }) hp hl
    (.inl (unqueued_nil htasks)) (by simp)
  have hp₁ := findProg_asyncKillProg (ω := ω) hp
  have ha : ((s.asyncKillProg ω n).view { mark := mark }).Active :=
    active_mark (hkill.exit.trans hx)
  have hdel : Calm ((s.asyncKillProg ω n).view { mark := mark })
      (((s.asyncKillProg ω n).setProg n (·.setState .requestDelete)).view { mark := mark }) := by
    refine calm_setProg (keeps_setState _) fun q hq => ?_
    cases hp₁.symm.trans hq
    refine .requestDelete hl htasks rfl ha fun m hm => hd m ?_
    rwa [show ((s.asyncKillProg ω n).view { mark := mark }).reg.dependencyGraph = _ from
      hkill.graph] at hm
  refine ((hkill.trans hdel).trans (calm_setProg (keeps_enqueueAfterTermination _) ?_)).moves
  intro q hq
  cases (findProg_setProg (keeps_setState _) hp₁).symm.trans hq
  exact .enqueue _ hl (unqueued_nil htasks) rfl ⟨htasks, ha, rfl⟩ rfl

theorem removeIdle_moves (hb : Base (s.view { mark := mark }))
    (hq : (s.view { mark := mark }).Quiet)
    (hp : s.findProg n = some p) (hpid : p.inst.pid = none)
    (htasks : p.killPendingtasks = []) (hd : (s.view { mark := mark }).NoDependents n) :
    Moves (s.view { mark := mark })
      (((((s.record (.removeIdle n)).triggerDAGTraversalNextNode n).answerSuccess ω id
        (.remove n)).removeProg ω n).view { mark := mark }) := by
  let s₁ := (s.record (.removeIdle n)).triggerDAGTraversalNextNode n
  have hrec : Calm (s.view { mark := mark }) ((s.record (.removeIdle n)).view { mark := mark }) :=
    calm_record trivial fun h => h
  have htrig : Calm ((s.record (.removeIdle n)).view { mark := mark }) (s₁.view { mark := mark }) ∧
      s₁.findProg n = some p ∧ s₁.history = (s.record (.removeIdle n)).history := by
    show Calm _ (view (triggerDAGTraversalNextNode _ _) _) ∧
      (triggerDAGTraversalNextNode _ _).findProg n = _ ∧
      (triggerDAGTraversalNextNode _ _).history = _
    unfold triggerDAGTraversalNextNode
    split
    · exact ⟨Calm.runtime (v := (s.record (.removeIdle n)).view { mark := mark })
        (.idle n rfl), hp, rfl⟩
    · exact ⟨.refl _, hp, rfl⟩
  obtain ⟨htrig, hp₁, hhist⟩ := htrig
  have hcalm := hrec.trans htrig
  let g : Ghost := { deleting := [n], mark := mark }
  have hdoom : Calm (s₁.view { mark := mark }) (s₁.view g) := by
    refine Calm.ghost (v := s₁.view { mark := mark })
      (.doom n (Registry.core_of_find hp₁) hpid htasks (hcalm.quiet hq) outside_mark
        fun m hm => hd m ?_) rfl
    rwa [hcalm.graph] at hm
  have hanswer : Steady (s₁.view g) ((s₁.answerSuccess ω id (.remove n)).view g) := by
    refine answerSuccess_steady fun hx₁ type rid _ => ?_
    refine ⟨⟨hx₁, rfl, rfl⟩, rfl, rfl, _, Registry.core_of_find hp₁, .inr ⟨hpid, ?_⟩⟩
    refine ⟨s.toRegistry, p, ?_, hp, rfl, List.mem_singleton_self n⟩
    show _ ∈ s₁.history
    rw [hhist]
    exact List.mem_cons_self ..
  have hbase := hanswer.base (hdoom.base (hcalm.base hb))
  have hremove := removeProg_moves (ω := ω) (n := n) hbase (List.mem_singleton_self n) rfl rfl
  refine (hcalm.trans hdoom).moves.trans (hanswer.moves.trans ?_)
  simpa [g] using hremove

theorem handleRemove_moves (hb : Base (s.view { mark := mark }))
    (hq : (s.view { mark := mark }).Quiet) :
    Moves (s.view { mark := mark }) ((s.handleRemove ω id n).view { mark := mark }) := by
  unfold handleRemove
  dsimp only
  split
  · exact ((talks_writeFrame (.of_status (by simp))).calm _).moves
  · rename_i p hp
    split
    · exact ((talks_writeFrame (.of_status (by simp))).calm _).moves
    · rename_i hdep
      have hd := noDependents_of_dependencyDependents (g := { mark := mark }) (not_not.1 hdep)
      split
      · exact ((talks_writeFrame (.of_status (by simp))).calm _).moves
      · rename_i htasks
        have htasks : p.killPendingtasks = [] := not_not.1 htasks
        cases hx : s.serverExit with
        | true =>
          rw [if_pos (serverExiting_fst.trans hx)]
          exact (talks_serverExiting.calm _).moves
        | false =>
          rw [serverExiting_of_running hx, if_neg (by simp)]
          split
          · exact removeLive_moves hp hx ‹_› htasks hd
          · rename_i hl
            exact removeIdle_moves hb hq hp (by simpa [ProgInfo.live] using hl) htasks hd

theorem handleRestart_moves (hq : (s.view { mark := mark }).Quiet) :
    Moves (s.view { mark := mark }) ((s.handleRestart ω id n showLog).view { mark := mark }) := by
  unfold handleRestart
  dsimp only
  split
  · exact ((talks_writeFrame (.of_status (by simp))).calm _).moves
  · rename_i p hp
    have hreset := reset_calm (s := s) (n := n) (g := { mark := mark })
    have hp₁ : (s.setProg n (·.resetRestartPolicy)).findProg n = some p.resetRestartPolicy :=
      findProg_setProg keeps_resetRestartPolicy hp
    split
    · exact hreset.moves.trans ((talks_writeFrame (.of_status (by simp))).calm _).moves
    · rename_i htasks
      have htasks : p.killPendingtasks = [] := not_not.1 htasks
      split
      · exact hreset.moves.trans
          (killEnqueue_calm (.startProg id showLog) hp₁ ‹_› (unqueued_nil htasks) (by simp)
            rfl ⟨htasks, rfl⟩).moves
      · rename_i hl
        have hpid : p.inst.pid = none := by simpa [ProgInfo.live] using hl
        have hrec : Calm ((s.setProg n (·.resetRestartPolicy)).view { mark := mark })
            (((s.setProg n (·.resetRestartPolicy)).record (.restartIdle n)).view
              { mark := mark }) :=
          calm_record trivial fun h => h
        have hstart : ∃ p', Ran ((s.setProg n (·.resetRestartPolicy)).record (.restartIdle n))
            (((s.setProg n (·.resetRestartPolicy)).record (.restartIdle n)).startProgTask ω n id
              showLog .restart) { mark := mark } n p.resetRestartPolicy p' :=
          startProgTask_ran .restart hp₁ fun hx =>
            ⟨hpid, active_mark hx, List.mem_cons_self .., rfl, (hreset.trans hrec).quiet hq⟩
        obtain ⟨p', hran⟩ := hstart
        exact (hreset.trans hrec).moves.trans hran.steady.moves

theorem talks_finishStart (id : Nat) (request : StartRequest) :
    Talks s (s.finishStart id request).2 := by
  unfold finishStart
  dsimp only
  split
  · exact .of_eq rfl rfl
  · exact .refl s

theorem handleStartExisting_moves (hb : Base (s.view { mark := mark }))
    (hq : (s.view { mark := mark }).Quiet) (hx : s.serverExit = false) :
    Moves (s.view { mark := mark })
      ((s.handleStartExisting ω id request).2.view { mark := mark }) := by
  unfold handleStartExisting
  split
  · exact .refl
  · split
    · exact .refl
    · have hreset := reset_calm (s := s) (n := request.name) (g := { mark := mark })
      have hstart := requestStart_calm (ω := ω) (n := request.name) (hreset.base hb)
        (hreset.quiet hq) (active_mark (hreset.exit.trans hx)) rfl outside_mark
      dsimp only
      split
      · exact (hreset.trans hstart).moves.trans ((talks_finishStart id request).calm _).moves
      · exact (hreset.trans hstart).moves

theorem handleStartCreate_moves (hb : Base (s.view { mark := mark }))
    (hq : (s.view { mark := mark }).Quiet) (hx : s.serverExit = false) :
    Moves (s.view { mark := mark })
      ((s.handleStartCreate ω id request).2.view { mark := mark }) := by
  unfold handleStartCreate
  split
  · exact .refl
  · split
    · exact .refl
    · split
      · exact .refl
      · rename_i prog hprog
        split
        · exact .refl
        · have hadd := startAndAddProg_moves (ω := ω) (s := s.tick) (g := { mark := mark })
            hb (fresh_createProg hprog) hq (active_mark hx) outside_mark rfl rfl
          dsimp only
          split
          · exact hadd.trans ((talks_finishStart id request).calm _).moves
          · exact hadd

theorem heartbeatPeerMatches_calm (id : Nat) (hp : s.findProg n = some p) :
    Calm (s.view g) ((s.heartbeatPeerMatches ω id p).2.view g) ∧
      (s.heartbeatPeerMatches ω id p).2.findProg n =
        some (p.observe (ω.members s.ticks n)) := by
  have hn := Registry.name_of_find hp
  have hobs := calm_observe (s := s) (n := n) (ω := ω) (g := g)
  have hfound := findProg_observe (ω := ω) hp
  unfold heartbeatPeerMatches
  rw [hn]
  dsimp only
  split
  · exact ⟨hobs, hfound⟩
  · exact ⟨hobs.trans (talks_closeSession.calm g), talks_closeSession.find.trans hfound⟩

theorem running_of_starting (hb : Base (s.view { mark := mark })) (hp : s.findProg n = some p)
    (hs : p.state = .starting) : s.serverExit = false := by
  by_contra hx
  have := hb.starting (Bool.eq_true_of_not_eq_false hx) n p.core (Registry.core_of_find hp) hs
  simp [view] at this

theorem handleAppReady_moves (hb : Base (s.view { mark := mark }))
    (hq : (s.view { mark := mark }).Quiet) :
    Moves (s.view { mark := mark }) ((s.handleAppReady ω id n).view { mark := mark }) := by
  unfold handleAppReady
  split
  · exact (talks_closeSession.calm _).moves
  · rename_i p hp
    obtain ⟨hpeer, hfound⟩ := heartbeatPeerMatches_calm (ω := ω) (g := { mark := mark }) id hp
    dsimp only
    split
    · exact hpeer.moves
    · split
      · rename_i hs
        let s₁ := (s.heartbeatPeerMatches ω id p).2
        let f : ProgInfo → ProgInfo := fun p => { p with
          state := .runing, lastTickTimepoint := ω.clock s₁.ticks, heartbeatActionDueMs := 0 }
        have hf : Keeps f := fun _ => ⟨rfl, rfl⟩
        have hx := hpeer.exit.trans (running_of_starting hb hp hs)
        have hrun :
          Calm (s₁.view { mark := mark }) ((s₁.setProg n f).tick.view { mark := mark }) := by
          refine calm_setProg hf fun q hq' => ?_
          cases hfound.symm.trans hq'
          exact .run hs (hpeer.quiet hq) outside_mark
        have hfound₂ :
          (s₁.setProg n f).tick.findProg n = some (f (p.observe (ω.members s.ticks n))) :=
          findProg_setProg hf hfound
        have hlive := (hb.progs n p.core (Registry.core_of_find hp)).running (.inl hs)
        have hspawn : Calm ((s₁.setProg n f).tick.view { mark := mark })
            (((s₁.setProg n f).tick.spawn1 ω [n] .appReady).view { mark := mark }) := by
          refine spawn1_calm (active_mark hx) rfl fun m hm => ?_
          cases List.mem_singleton.1 hm
          exact ⟨_, hfound₂, .inl rfl, .inl hlive⟩
        exact (hpeer.trans hrun).moves.trans hspawn.moves
      · exact hpeer.moves

theorem handleAppTick_moves :
    Moves (s.view { mark := mark }) ((s.handleAppTick ω id n).view { mark := mark }) := by
  unfold handleAppTick
  split
  · exact (talks_closeSession.calm _).moves
  · rename_i p hp
    obtain ⟨hpeer, -⟩ := heartbeatPeerMatches_calm (ω := ω) (g := { mark := mark }) id hp
    dsimp only
    split
    · refine hpeer.moves.trans (Steady.moves (Calm.toSteady ?_))
      exact calm_touch (fun _ => ⟨rfl, rfl⟩) fun _ => rfl
    · exact hpeer.moves

theorem talks_handleLog : Talks s (s.handleLog ω id n mode) := by
  have hplain : ∀ reply, Plain (.log n mode) reply := fun _ => trivial
  unfold handleLog
  dsimp only
  split
  · exact talks_writeFrame (hplain _)
  · split
    · split
      · exact .of_eq rfl rfl
      · exact talks_writeFrame (hplain _)
    · split
      · exact talks_writeFrame (hplain _)
      · split
        · exact talks_writeFrame (hplain _)
        · refine Talks.trans ?_ (talks_writeFrame (hplain _))
          split
          · exact .of_eq rfl rfl
          · exact .refl s

theorem talks_handleSave : Talks s (s.handleSave ω id) := by
  unfold handleSave
  split
  · exact talks_writeFrame trivial
  · exact .of_eq rfl rfl

theorem talks_handleInspect : Talks s (s.handleInspect ω id n) := by
  unfold handleInspect
  split
  · exact talks_writeFrame trivial
  · exact talks_writeFrame trivial

theorem handleQuit_moves (hb : Base (s.view { mark := mark }))
    (hq : (s.view { mark := mark }).Quiet) :
    Moves (s.view { mark := mark }) ((s.handleQuit ω id).view { mark := mark }) := by
  have hack : Calm (s.view { mark := mark }) (s.view { acking := true, mark := mark }) :=
    Calm.ghost (v := s.view { mark := mark }) (.ack hq) rfl
  have hframe : Calm (s.view { acking := true, mark := mark })
      ((s.writeFrame ω id .quit { success with body := .pid ω.pid }).view
        { acking := true, mark := mark }) :=
    writeFrame_calm (fun _ _ _ => rfl) fun _ _ h => h
  have hcalm := hack.trans hframe
  exact hcalm.moves.trans (requestQuit_moves (hcalm.base hb) (hcalm.quiet hq)).1

theorem handleReload_moves (hb : Base (s.view { mark := mark }))
    (hq : (s.view { mark := mark }).Quiet) :
    Moves (s.view { mark := mark }) ((s.handleReload ω id).view { mark := mark }) := by
  have hplain : ∀ reply, Plain .reload reply := fun _ => trivial
  unfold handleReload
  dsimp only
  cases hx : s.serverExit with
  | true =>
    rw [if_pos (serverExiting_fst.trans hx)]
    exact (talks_serverExiting.calm _).moves
  | false =>
    rw [serverExiting_of_running hx, if_neg (by simp)]
    split
    · exact ((talks_writeFrame (hplain _)).calm _).moves
    · split
      · have htick : Talks s s.tick := .of_eq rfl rfl
        exact ((htick.trans (talks_writeFrame (hplain _))).calm _).moves
      · rename_i hvalid
        have hready : (parseCfg2 (ω.loadProgCfg s.ticks)).Ready :=
          ready_parseCfg2 (by simpa using hvalid)
        let s₁ : Server := { s.tick with reloadConfig := some (parseCfg2 (ω.loadProgCfg s.ticks)) }
        have hreload : Move (s.view { mark := mark }) (s₁.view { mark := mark }) :=
          .registry (v := s.view { mark := mark }) (.reload _ (active_mark hx) hready)
        have hquit := requestQuit_moves (ω := ω) (s := s₁) (hb.move hreload) (hq.of_fresh rfl rfl)
        exact hreload.moves.trans hquit.1

theorem handleFrame_moves (hb : Base (s.view { mark := mark }))
    (hq : (s.view { mark := mark }).Quiet) (request : Request) :
    Moves (s.view { mark := mark }) ((s.handleFrame ω id request).view { mark := mark }) := by
  cases request with
  | list => exact ((talks_writeFrame (show Plain .list _ from trivial)).calm _).moves
  | info => exact ((talks_writeFrame (show Plain .info _ from trivial)).calm _).moves
  | version => exact ((talks_writeFrame (show Plain .version _ from trivial)).calm _).moves
  | save => exact (talks_handleSave.calm _).moves
  | reload => exact handleReload_moves hb hq
  | quit => exact handleQuit_moves hb hq
  | stop name => exact handleStop_moves
  | start request =>
    have hplain : ∀ reply, Plain (.start request) reply := fun _ => trivial
    unfold handleFrame
    dsimp only
    cases hx : s.serverExit with
    | true =>
      rw [if_pos (serverExiting_fst.trans hx)]
      exact (talks_serverExiting.calm _).moves
    | false =>
      rw [serverExiting_of_running hx, if_neg (by simp)]
      refine Moves.trans ?_ ((talks_writeFrame (hplain _)).calm _).moves
      unfold handleCmdStart
      split
      · exact handleStartExisting_moves hb hq hx
      · exact handleStartCreate_moves hb hq hx
  | remove name => exact handleRemove_moves hb hq
  | restart name showLog => exact handleRestart_moves hq
  | log name mode => exact (talks_handleLog.calm _).moves
  | appReady name => exact handleAppReady_moves hb hq
  | appTick name => exact handleAppTick_moves
  | inspect name => exact (talks_handleInspect.calm _).moves
  | malformed error =>
    exact ((talks_writeFrame (show Plain (.malformed error) _ from trivial)).calm _).moves

end Server
end PmTiny
