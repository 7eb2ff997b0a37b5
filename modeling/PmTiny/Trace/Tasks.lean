import PmTiny.Trace.Starting

namespace PmTiny
set_option autoImplicit true

namespace Server

variable {s s' s'' : Server} {ω : System} {g g' : Ghost} {id : Nat}

theorem Plain.of_status (h : reply.status ≠ 0) : Plain request reply := by
  cases request <;> simp_all [Plain]

theorem serverExiting_fst : (s.serverExiting ω id request).1 = s.serverExit := by
  unfold serverExiting Registry.isReloading
  cases s.serverExit <;> cases s.reloadConfig.isSome <;> rfl

theorem talks_serverExiting : Talks s (s.serverExiting ω id request).2 := by
  unfold serverExiting
  split
  · exact talks_writeFrame (.of_status (by decide))
  · split
    · exact talks_writeFrame (.of_status (by decide))
    · exact .refl s

theorem serverExiting_of_running (h : s.serverExit = false) :
    s.serverExiting ω id request = (false, s) := by
  unfold serverExiting Registry.isReloading
  simp [h]

theorem keeps_asyncKillProg (nowMs : Int) : Keeps fun p => (p.asyncKillProg nowMs).2 :=
  fun _ => ⟨rfl, rfl⟩

theorem toRegistry_asyncKillProg (hp : s.findProg n = some p) :
    (s.asyncKillProg ω n).toRegistry =
      s.toRegistry.setProg n fun p => (p.asyncKillProg (ω.clock s.ticks)).2 := by
  unfold asyncKillProg
  rw [hp]
  dsimp only
  split <;> rfl

theorem asyncKillProg_calm (hp : s.findProg n = some p) (hl : p.live = true)
    (hq : p.core.Unqueued ∨ s.serverExit = true) (ha : n ∉ g.accepted) :
    Calm (s.view g) ((s.asyncKillProg ω n).view g) := by
  have hkill : Calm (s.view g)
      ((s.setProg n fun p => (p.asyncKillProg (ω.clock s.ticks)).2).tick.view g) := by
    refine calm_setProg (keeps_asyncKillProg _) fun q hq' => ?_
    cases hp.symm.trans hq'
    exact .kill _ hl hq ha
  unfold asyncKillProg
  rw [hp]
  dsimp only
  split
  · refine hkill.trans (show Calm _ ((signalTree _ n .term).view g) from ?_)
    exact calm_record trivial id
  · exact hkill

theorem findProg_asyncKillProg (hp : s.findProg n = some p) :
    (s.asyncKillProg ω n).findProg n = some (p.asyncKillProg (ω.clock s.ticks)).2 := by
  rw [toRegistry_asyncKillProg hp]
  exact Registry.findProg_setProg_self (keeps_asyncKillProg _) hp

structure Owns (g : Ghost) (n : String) : Prop where
  owner : n ∈ g.pendding ∨ n ∈ g.running
  saved : g.saved = none
  settling : g.settling = []
  swapping : g.swapping = false
  acking : g.acking = false

/-- A task about to be run for a program. -/
structure Runs (s : Server) (g : Ghost) (n : String) (p : ProgInfo) (t : Task) : Prop
    extends Owns g n where
  found : s.findProg n = some p
  queued : p.core.Queued t
  done : p.core.Gone ∧ (∃ site, (s.view g).Seen (.runTask n t site) ∧ site ≠ .quit ∧
      (site = .reaper → n ∈ g.pendding)) ∨
    s.serverExit = true ∧ p.core.live ∧ ∃ r, ⟨.runTask n t .quit, r⟩ ∈ s.history

theorem Runs.gone (h : Runs s g n p t) (hx : s.serverExit = false) : p.core.Gone := by
  rcases h.done with hd | hd
  · exact hd.1
  · cases hd.1.symm.trans hx

theorem Runs.active (h : Runs s g n p t) (hx : s.serverExit = false) : (s.view g).Active :=
  ⟨hx, h.swapping, h.acking⟩

structure Ran (s s' : Server) (g : Ghost) (n : String) (p p' : ProgInfo) : Prop where
  steady : Steady (s.view g) (s'.view g)
  quiet : s.serverExit = true → (s.view g).Quiet → (s'.view g).Quiet
  found : s'.findProg n = some p'
  tasks : p'.killPendingtasks = p.killPendingtasks
  gen : p.inst.generation ≤ p'.inst.generation
  gone : p'.inst.generation = p.inst.generation → p.core.Gone → p'.core.Gone
  live : s.serverExit = true → p'.live = p.live
  state : s.serverExit = true → p.state ≠ .starting → p'.state ≠ .starting
  spared : ∀ m ≠ n, Spared s.toRegistry s'.toRegistry m

theorem Ran.of_reg (hp : s.findProg n = some p) (hs : Steady (s.view g) (s'.view g))
    (hq : s.serverExit = true → (s.view g).Quiet → (s'.view g).Quiet)
    (hr : s'.toRegistry = s.toRegistry) : Ran s s' g n p p where
  steady := hs
  quiet := hq
  found := hr ▸ hp
  tasks := rfl
  gen := le_rfl
  gone := fun _ h => h
  live := fun _ => rfl
  state := fun _ h => h
  spared := fun _ _ => .of_find (by rw [hr])

theorem planRestart_ran (h : Runs s g n p (.planRestart nowMs lifeTime)) :
    ∃ p', Ran s (s.planRestart n nowMs lifeTime) g n p p' := by
  let f : ProgInfo → ProgInfo := fun p =>
    let plan := p.planAutomaticRestart nowMs lifeTime
    plan.2.setState (if plan.1.restart then .waitingStart else .stoped)
  have hf : Keeps f := fun _ => ⟨rfl, rfl⟩
  have hcalm : Calm (s.view g) ((s.setProg n f).view g) := by
    refine calm_setProg hf fun q hq => ?_
    cases h.found.symm.trans hq
    refine .plan (.planRestart nowMs lifeTime) _ _ h.queued ?_ h.owner ?_
    · by_cases hr : (p.planAutomaticRestart nowMs lifeTime).1.restart = true
      · exact .inl ⟨if_pos hr, hr⟩
      · exact .inr ⟨if_neg hr, Bool.eq_false_iff.2 hr⟩
    · exact h.done.imp (·.1) fun hd => ⟨hd.1, hd.2.2⟩
  refine ⟨f p, hcalm.toSteady, fun _ => hcalm.quiet, findProg_setProg hf h.found, rfl,
    le_rfl, fun _ hg => hg, fun _ => rfl, fun _ _ => ?_, fun m hm =>
      .of_find (findProg_setProg_ne hf hm)⟩
  show (if _ then ProgState.waitingStart else ProgState.stoped) ≠ .starting
  split <;> simp

theorem timeoutRestart_ran (h : Runs s g n p .timeoutRestart) :
    ∃ p', Ran s (s.timeoutRestart ω n) g n p p' := by
  unfold timeoutRestart
  extract_lets nowMs plan restart s₁
  have hrestart : restart = (plan p).1.restart := by
    show (s.findProg n).any _ = _
    rw [h.found]
    rfl
  let f : ProgInfo → ProgInfo := fun p =>
    if (plan p).1.restart then
      { (plan p).2 with deadCount := (plan p).2.deadCount + 1, state := .waitingStart }
    else (plan p).2
  have hf : Keeps f := by
    intro q
    show (ite _ _ _ : ProgInfo).name = _ ∧ (ite _ _ _ : ProgInfo).dependsOn = _
    split <;> exact ⟨rfl, rfl⟩
  have hfound : s₁.findProg n = some (f p) := findProg_setProg hf h.found
  have hcore : (f p).core = if restart then { p.core with state := .waitingStart, pending := true }
      else { p.core with pending := false } := by
    show (ite _ _ _ : ProgInfo).core = _
    rw [hrestart]
    split
    · rename_i hr
      rw [ProgInfo.core]
      simp only [plan, ProgInfo.planAutomaticRestart] at hr ⊢
      rw [hr]
      rfl
    · rename_i hr
      rw [ProgInfo.core]
      simp only [plan, ProgInfo.planAutomaticRestart] at hr ⊢
      rw [Bool.eq_false_iff.2 hr]
      rfl
  have hcalm : Calm (s.view g) (s₁.view g) := by
    refine calm_setProg hf fun q hq => ?_
    cases h.found.symm.trans hq
    have hdone : p.core.Gone ∨ (s.view g).reg.serverExit = true ∧
        ∃ r, ⟨.runTask n .timeoutRestart .quit, r⟩ ∈ (s.view g).trace :=
      h.done.imp (·.1) fun hd => ⟨hd.1, hd.2.2⟩
    show ProgMove _ _ _ (f p).core _
    rw [hcore]
    split
    · exact .plan .timeoutRestart _ _ h.queued (.inl ⟨rfl, rfl⟩) h.owner hdone
    · exact .plan .timeoutRestart p.core.state _ h.queued (.inr ⟨rfl, rfl⟩) h.owner hdone
  have hspared : ∀ m ≠ n, Spared s.toRegistry s₁.toRegistry m := fun m hm =>
    .of_find (findProg_setProg_ne hf hm)
  cases hr : restart with
  | true =>
    rw [hr, if_pos rfl] at hcore
    refine ⟨f p, hcalm.toSteady, fun _ => hcalm.quiet, hfound, ?_, ?_, ?_, ?_, ?_, hspared⟩
    · exact congrArg Core.tasks hcore
    · exact (congrArg Core.gen hcore).ge
    · intro _ hg
      rw [hcore]
      exact hg
    · intro _
      exact congrArg (fun c => c.pid.isSome) hcore
    · intro _ _ hs
      have : (f p).state = .waitingStart := congrArg Core.state hcore
      rw [this] at hs
      cases hs
  | false =>
    rw [hr, if_neg (by simp)] at hcore
    obtain ⟨hsp, hflag⟩ := flagStartupFail_rest hfound
    have hflags : Flags (s₁.view g) n (f p).core := by
      rw [hcore]
      refine .inr ⟨h.queued, h.owner, h.saved, ?_⟩
      rcases h.done with hd | ⟨hx, hl, r, hmem⟩
      · exact .inl hd.1
      · exact .inr ⟨hl, hx, r, hcalm.moves.trace_subset hmem⟩
    have hfail := hcalm.trans (flagStartupFail_calm hfound hflags)
    refine ⟨_, hfail.toSteady, fun _ => hfail.quiet, hflag, ?_, ?_, ?_, ?_, ?_,
      fun m hm => (hspared m hm).trans (hsp m hm)⟩
    · exact congrArg Core.tasks hcore
    · exact (congrArg Core.gen hcore).ge
    · intro _ hg
      have : (f p).core.Gone := by
        rw [hcore]
        exact hg
      exact this
    · intro _
      exact congrArg (fun c => c.pid.isSome) hcore
    · intro _ _ hs
      cases hs

theorem answerSuccess_steady
    (hfit : s.serverExit = false →
      ∀ type rid, Fits (s.view g) (.answer ⟨id, type, rid, request, success⟩)) :
    Steady (s.view g) ((s.answerSuccess ω id request).view g) := by
  unfold answerSuccess
  split
  · dsimp only
    rw [serverExiting_fst]
    split
    · exact (talks_serverExiting.calm g).toSteady
    · rename_i hx
      rw [serverExiting_of_running (Bool.not_eq_true _ ▸ hx)]
      exact writeFrame_moves (hfit (Bool.not_eq_true _ ▸ hx))
  · exact .refl _

theorem answerSuccess_rest : (s.answerSuccess ω id request).toRegistry = s.toRegistry ∧
    (s.serverExit = true → Talks s (s.answerSuccess ω id request)) := by
  unfold answerSuccess
  split
  · dsimp only
    rw [serverExiting_fst]
    split
    · exact ⟨talks_serverExiting.reg, fun _ => talks_serverExiting⟩
    · rename_i hx
      exact ⟨toRegistry_writeFrame.trans talks_serverExiting.reg, fun h => absurd h hx⟩
  · exact ⟨rfl, fun _ => .refl s⟩

theorem answerSuccess_ran (h : Runs s g n p t)
    (hfit : s.serverExit = false →
      ∀ type rid, Fits (s.view g) (.answer ⟨id, type, rid, request, success⟩)) :
    ∃ p', Ran s (s.answerSuccess ω id request) g n p p' :=
  ⟨p, .of_reg h.found (answerSuccess_steady hfit)
    (fun hx => ((answerSuccess_rest.2 hx).calm g).quiet) answerSuccess_rest.1⟩

theorem realSpawnProg_ran (hp : s.findProg n = some p) (hpid : p.inst.pid = none)
    (ha : (s.view g).Active) (hg : SpawnGuard (s.view g) n p.core site) :
    ∃ p', Ran s (s.realSpawnProg ω n site).2 g n p p' := by
  have hcalm := realSpawnProg_calm (ω := ω) site hp hpid ha hg
  have hx (h : s.serverExit = true) : False := by cases h.symm.trans ha.1
  have hspared : ∀ m ≠ n, Spared s.toRegistry (s.realSpawnProg ω n site).2.toRegistry m :=
    fun m hm => .of_find (realSpawnProg_find_ne hm)
  cases hres : (s.realSpawnProg ω n site).1 with
  | true =>
    obtain ⟨p', hp', hgen, -, htasks⟩ := realSpawnProg_true hp hres
    refine ⟨p', hcalm.toSteady, fun _ => hcalm.quiet, hp', htasks, by omega, fun he => ?_,
      fun h => (hx h).elim, fun h => (hx h).elim, hspared⟩
    omega
  | false =>
    obtain ⟨p', hp', hns⟩ := realSpawnProg_false hp hpid hres
    exact ⟨p', hcalm.toSteady, fun _ => hcalm.quiet, hp', hns.tasks, hns.gen, fun _ => hns.gone,
      fun h => (hx h).elim, fun h => (hx h).elim, hspared⟩

theorem Ran.then (h : Ran s s' g n p p') (hc : Calm (s'.view g) (s''.view g)) (hf : Keeps f)
    (hcore : ∀ p, (f p).core = p.core) (hr : s''.toRegistry = s'.toRegistry.setProg n f) :
    Ran s s'' g n p (f p') where
  steady := h.steady.trans hc.toSteady
  quiet := fun hx hq => hc.quiet (h.quiet hx hq)
  found := by
    rw [hr]
    exact Registry.findProg_setProg_self hf h.found
  tasks := (congrArg Core.tasks (hcore p')).trans h.tasks
  gen := h.gen.trans (congrArg Core.gen (hcore p')).ge
  gone := fun he hg => hcore p' ▸ h.gone ((congrArg Core.gen (hcore p')).symm.trans he) hg
  live := fun hx => (congrArg (fun c : Core => c.pid.isSome) (hcore p')).trans (h.live hx)
  state := fun hx hs => by
    have := h.state hx hs
    rwa [← show (f p').state = p'.state from congrArg Core.state (hcore p')] at this
  spared := fun m hm => (h.spared m hm).trans (.of_find (by
    rw [hr]
    exact Registry.findProg_setProg_ne hf hm))

theorem Ran.touch (h : Ran s s' g n p p') (f : ProgInfo → ProgInfo) (hf : Keeps f)
    (hcore : ∀ p, (f p).core = p.core) : Ran s (s'.setProg n f) g n p (f p') :=
  h.then (calm_touch hf hcore) hf hcore rfl

theorem Registry.setProg_id {r : Registry} : r.setProg n (fun p => p) = r := by
  rw [Registry.setProg, Keyed.update]
  simp

theorem Ran.talks (h : Ran s s' g n p p') (ht : Talks s' s'') : Ran s s'' g n p p' :=
  h.then (ht.calm g) (fun _ => ⟨rfl, rfl⟩) (fun _ => rfl) (ht.reg.trans Registry.setProg_id.symm)

theorem startProgTask_ran (site : SpawnSite) (hp : s.findProg n = some p)
    (h : s.serverExit = false → p.inst.pid = none ∧ (s.view g).Active ∧
      SpawnGuard (s.view g) n p.core site) :
    ∃ p', Ran s (s.startProgTask ω n id showLog site) g n p p' := by
  have hplain : ∀ reply, Plain (.restart n showLog) reply := fun _ => trivial
  unfold startProgTask
  dsimp only
  split
  · rw [serverExiting_fst]
    split
    · exact ⟨p, .of_reg hp (talks_serverExiting.calm g).toSteady
        (fun _ => (talks_serverExiting.calm g).quiet) talks_serverExiting.reg⟩
    · rename_i hx
      have hrun : s.serverExit = false := Bool.not_eq_true _ ▸ hx
      obtain ⟨hpid, ha, hguard⟩ := h hrun
      rw [serverExiting_of_running hrun]
      obtain ⟨hres, htalk⟩ := startProg_eq (ω := ω) site hp hpid
      obtain ⟨p', hran⟩ := realSpawnProg_ran (ω := ω) hp hpid ha hguard
      have hstart := hran.talks htalk
      split
      · exact ⟨p', hstart.talks (talks_writeFrame (hplain _))⟩
      · have hcount := hstart.touch (fun p => { p with deadCount := p.deadCount + 1 })
          (fun _ => ⟨rfl, rfl⟩) fun _ => rfl
        split
        · refine ⟨_, (hcount.talks ?_).talks (talks_writeFrame (hplain _))⟩
          exact .of_eq rfl rfl
        · exact ⟨_, hcount.talks (talks_writeFrame (hplain _))⟩
  · exact ⟨p, .of_reg hp (.refl _) (fun _ hq => hq) rfl⟩

theorem runTask_ran (h : Runs s g n p t) : ∃ p', Ran s (s.runTask ω n t) g n p p' := by
  have hanswer (hx : s.serverExit = false) : ∃ site, (s.view g).Seen (.runTask n t site) ∧
      p.core.Queued t ∧ site ≠ .quit ∧ (site = .reaper → n ∈ (s.view g).ghost.pendding) := by
    rcases h.done with ⟨-, site, hseen, hsite⟩ | hd
    · exact ⟨site, hseen, h.queued, hsite⟩
    · cases hd.1.symm.trans hx
  have hcore : (s.view g).core n = some p.core := Registry.core_of_find h.found
  cases t with
  | planRestart nowMs lifeTime => exact planRestart_ran h
  | timeoutRestart => exact timeoutRestart_ran h
  | stopProc id =>
    exact answerSuccess_ran h fun hx type rid _ =>
      ⟨h.active hx, h.saved, h.settling, p.core, hcore, .inl (hanswer hx)⟩
  | deleteProg id =>
    exact answerSuccess_ran h fun hx type rid _ =>
      ⟨h.active hx, h.saved, h.settling, p.core, hcore, .inl (hanswer hx)⟩
  | startProg id showLog =>
    refine startProgTask_ran .task h.found fun hx =>
      ⟨(h.gone hx).1, h.active hx, (h.gone hx).2, ?_, h.owner⟩
    exact ⟨id, showLog, h.queued⟩

theorem Ran.trans (h : Ran s s' g n p p') (h' : Ran s' s'' g n p' p'') : Ran s s'' g n p p'' where
  steady := h.steady.trans h'.steady
  quiet := fun hx hq => h'.quiet (h.steady.exit.trans hx) (h.quiet hx hq)
  found := h'.found
  tasks := h'.tasks.trans h.tasks
  gen := h.gen.trans h'.gen
  gone := fun he hg => by
    have h₁ := h.gen
    have h₂ := h'.gen
    exact h'.gone (by omega) (h.gone (by omega) hg)
  live := fun hx => (h'.live (h.steady.exit.trans hx)).trans (h.live hx)
  state := fun hx hs => h'.state (h.steady.exit.trans hx) (h.state hx hs)
  spared := fun m hm => (h.spared m hm).trans (h'.spared m hm)

def MayDrain (s : Server) (g : Ghost) (n : String) (p : ProgInfo) (site : TaskSite) : Prop :=
  p.core.Gone ∧ site ≠ .quit ∧ (site = .reaper → n ∈ g.pendding) ∨
    site = .quit ∧ s.serverExit = true ∧ p.live = true

theorem MayDrain.runs (h : MayDrain s g n p site) (ho : Owns g n) (hp : s.findProg n = some p)
    (hq : p.core.Queued t) : Runs (s.record (.runTask n t site)) g n p t := by
  refine ⟨ho, hp, hq, ?_⟩
  rcases h with ⟨hg, hsite⟩ | ⟨rfl, hx, hl⟩
  · exact .inl ⟨hg, site, List.mem_cons_self .., hsite⟩
  · exact .inr ⟨hx, hl, _, List.mem_cons_self ..⟩

theorem MayDrain.ran (h : MayDrain s g n p site) (hr : Ran s s' g n p p')
    (he : p'.inst.generation = p.inst.generation) : MayDrain s' g n p' site := by
  rcases h with ⟨hg, hsite⟩ | ⟨rfl, hx, hl⟩
  · exact .inl ⟨hr.gone he hg, hsite⟩
  · exact .inr ⟨rfl, hr.steady.exit.trans hx, (hr.live hx).trans hl⟩

/-- The loop of `execute_penddingtasks`; a task that spawns ends the completed generation. -/
theorem runFold_ran (l : List GenerationTask) (hl : ∀ t ∈ l, t ∈ p.killPendingtasks)
    (ho : Owns g n) (hp : s.findProg n = some p) (hgen : completed ≤ p.inst.generation)
    (hd : p.inst.generation = completed → (∃ t, p.core.Queued t) → MayDrain s g n p site) :
    ∃ p', Ran s (l.foldl (runPending ω n site completed) s) g n p p' := by
  induction l generalizing s p with
  | nil => exact ⟨p, .of_reg hp (.refl _) (fun _ hq => hq) rfl⟩
  | cons t l ih =>
    have hrest : ∀ t' ∈ l, t' ∈ p.killPendingtasks := fun t' ht => hl t' (by simp [ht])
    rw [List.foldl_cons]
    by_cases hrun : t.isFor completed ∧ (s.findProg n).any (·.inst.generation = completed)
    · have hcur : p.inst.generation = completed := by
        simpa [hp] using hrun.2
      have hqueued : p.core.Queued t.task := by
        have ht := hl t (by simp)
        have hfor : t.generation = completed := by simpa [GenerationTask.isFor] using hrun.1
        show (⟨p.inst.generation, t.task⟩ : GenerationTask) ∈ p.killPendingtasks
        rw [hcur, ← hfor]
        exact ht
      have hdrain := hd hcur ⟨_, hqueued⟩
      have hrec : Ran s (s.record (.runTask n t.task site)) g n p p :=
        have hcalm : Calm (s.view g) ((s.record (.runTask n t.task site)).view g) :=
          calm_record trivial fun h => h
        .of_reg hp hcalm.toSteady (fun _ => hcalm.quiet) rfl
      obtain ⟨p₁, hp₁⟩ := runTask_ran (ω := ω) (hdrain.runs ho hp hqueued)
      have hran := hrec.trans hp₁
      obtain ⟨p₂, hp₂⟩ := ih (fun t' ht => hran.tasks ▸ hrest t' ht) hran.found
        (hgen.trans hran.gen) fun he _ => hdrain.ran hran (he.trans hcur.symm)
      refine ⟨p₂, ?_⟩
      rw [runPending, if_pos hrun]
      exact hran.trans hp₂
    · rw [runPending, if_neg hrun]
      exact ih hrest hp hgen hd

structure Drained (s s' : Server) (g g' : Ghost) (n : String) (p p' : ProgInfo) : Prop where
  steady : Steady (s.view g) (s'.view g')
  quiet : s.serverExit = true → (s.view g).Quiet → (s'.view g').Quiet
  found : s'.findProg n = some p'
  tasks : p'.killPendingtasks = []
  state : s.serverExit = true → p.state ≠ .starting → p'.state ≠ .starting
  spared : ∀ m ≠ n, Spared s.toRegistry s'.toRegistry m

theorem executePenddingtasks_drained (site : TaskSite) (ho : Owns g n) (hp : s.findProg n = some p)
    (hd : (∃ t, p.core.Queued t) → MayDrain s g n p site)
    (hclear : ∀ (v : View) c, v.ghost = g → ProgMove v n c { c with tasks := [] } g') :
    ∃ p', Drained s (s.executePenddingtasks ω n site) g g' n p p' := by
  unfold executePenddingtasks
  rw [hp]
  dsimp only
  split
  · rename_i hnil
    have hcore : { p.core with tasks := [] } = p.core := by
      rw [ProgInfo.core, hnil]
    have hmove := hclear (s.view g) p.core rfl
    rw [hcore] at hmove
    have hcalm := Calm.prog (f := fun p => p) (fun _ => ⟨rfl, rfl⟩) hp hmove
    rw [Registry.setProg_id] at hcalm
    exact ⟨p, hcalm.toSteady, fun _ => hcalm.quiet, hp, hnil, fun _ h => h, fun _ _ => .of_find rfl⟩
  · obtain ⟨p₁, hran⟩ := runFold_ran (ω := ω) p.killPendingtasks (fun _ ht => ht) ho hp le_rfl
      fun _ => hd
    have hmove :=
      hclear ((p.killPendingtasks.foldl (runPending ω n site p.inst.generation) s).view g)
      p₁.core rfl
    have hf : Keeps fun p : ProgInfo => { p with killPendingtasks := [] } := fun _ => ⟨rfl, rfl⟩
    have hcalm := Calm.prog hf hran.found hmove
    exact ⟨_, hran.steady.trans hcalm.toSteady, fun hx hq => hcalm.quiet (hran.quiet hx hq),
      findProg_setProg hf hran.found, rfl, hran.state,
      fun m hm => (hran.spared m hm).trans (.of_find (findProg_setProg_ne hf hm))⟩

theorem quitKill_calm (hp : s.findProg n = some p) (hl : p.live = true) (hx : s.serverExit = true) :
    Calm (s.view { stopping := stopping, mark := mark })
        (((s.asyncKillProg ω n).executePenddingtasks ω n .quit).view
          { stopping := stopping, mark := mark }) ∧
      ∃ p', ((s.asyncKillProg ω n).executePenddingtasks ω n .quit).findProg n = some p' ∧
        p'.state ≠ .starting := by
  let g : Ghost := { stopping := stopping, mark := mark }
  let g₁ : Ghost := { stopping := stopping, running := [n], mark := mark }
  have hkill : Calm (s.view g) ((s.asyncKillProg ω n).view g) :=
    asyncKillProg_calm hp hl (.inr hx) (by simp [g])
  have hp₁ := findProg_asyncKillProg (ω := ω) hp
  have hexit : (s.asyncKillProg ω n).serverExit = true := hkill.exit.trans hx
  have henter : Calm ((s.asyncKillProg ω n).view g) ((s.asyncKillProg ω n).view g₁) := by
    refine Calm.ghost (v := (s.asyncKillProg ω n).view g) (.enter n fun c hc => ?_) rfl
    cases (Registry.core_of_find hp₁).symm.trans hc
    exact .inl rfl
  have hclear : ∀ (v : View) c, v.ghost = g₁ → ProgMove v n c { c with tasks := [] } g := by
    intro v c hv
    have hmove : ProgMove v n c _ _ := .clearRunning (by simp [hv, g₁])
    rw [hv] at hmove
    simpa [g, g₁] using hmove
  obtain ⟨p', hd⟩ := executePenddingtasks_drained (ω := ω) (g := g₁) .quit
    ⟨.inr (by simp [g₁]), rfl, rfl, rfl, rfl⟩ hp₁ (fun _ => .inr ⟨rfl, hexit, hl⟩) hclear
  refine ⟨(hkill.trans henter).trans ⟨hd.steady, hd.quiet hexit⟩, p', hd.found, ?_⟩
  exact hd.state hexit (by simp [ProgInfo.asyncKillProg, ProgInfo.setState])

theorem quitProg_calm (hb : Base (s.view { stopping := stopping, mark := mark }))
    (hx : s.serverExit = true) :
    Calm (s.view { stopping := stopping, mark := mark })
      ((quitProg ω s n).view { stopping := stopping.erase n, mark := mark }) := by
  unfold quitProg
  extract_lets s₁ s₂
  let g : Ghost := { stopping := stopping, mark := mark }
  have hreset : Calm (s.view g) (s₁.view g) :=
    calm_setProg (fun _ => ⟨rfl, rfl⟩) fun _ _ => .reset
  have hb₁ := hreset.base hb
  have hkill : Calm (s₁.view g) (s₂.view g) ∧
      ∀ p, s₂.findProg n = some p → p.state ≠ .starting := by
    show Calm (s₁.view g) ((ite _ _ s₁ : Server).view g) ∧
      ∀ p, (ite _ _ s₁ : Server).findProg n = some p → _
    split
    · rename_i hl
      cases hp : s₁.findProg n with
      | none => simp [hp] at hl
      | some p =>
        obtain ⟨hcalm, p', hp', hs'⟩ := quitKill_calm (ω := ω) hp (by simpa [hp] using hl)
          (hreset.exit.trans hx)
        refine ⟨hcalm, fun q hq => ?_⟩
        cases hp'.symm.trans hq
        exact hs'
    · rename_i hl
      refine ⟨.refl _, fun q hq hstart => hl ?_⟩
      rw [hq]
      exact (hb₁.progs n q.core (Registry.core_of_find hq)).running (.inl hstart)
  have hcalm := hreset.trans hkill.1
  have hexit : s₂.serverExit = true := hcalm.exit.trans hx
  have hvisit (s' : Server) (h : ∀ p, s'.findProg n = some p → p.state ≠ .starting) :
      Calm (s'.view g) (s'.view { stopping := stopping.erase n, mark := mark }) := by
    refine Calm.ghost (v := s'.view g) (.visited n fun c hc => ?_) rfl
    obtain ⟨p, hp, rfl⟩ := Registry.core_eq_some.1 hc
    exact h p hp
  split
  · rename_i hwait
    have hoff : Calm (s₂.view g) ((s₂.setProg n (·.setState .noRun)).view g) := by
      refine calm_setProg (keeps_setState _) fun q hq => .noRun hexit ?_
      rw [hq] at hwait
      exact of_decide_eq_true hwait
    refine (hcalm.trans hoff).trans (hvisit _ fun q hq => ?_)
    cases hp : s₂.findProg n with
    | none => simp [hp] at hwait
    | some p =>
      rw [findProg_setProg (keeps_setState _) hp] at hq
      cases hq
      simp [ProgInfo.setState]
  · exact hcalm.trans (hvisit _ hkill.2)

theorem quitFold_calm (names : List String) (hb : Base (s.view { stopping := names, mark := mark }))
    (hx : s.serverExit = true) :
    Calm (s.view { stopping := names, mark := mark })
      ((names.foldl (quitProg ω) s).view { mark := mark }) := by
  induction names generalizing s with
  | nil => exact .refl _
  | cons n names ih =>
    have hcalm := quitProg_calm (ω := ω) (n := n) hb hx
    simp only [List.erase_cons_head] at hcalm
    exact hcalm.trans (ih (hcalm.base hb) (hcalm.exit.trans hx))

theorem mem_stopOrder (hp : s.findProg n = some p) : n ∈ s.stopOrder := by
  unfold stopOrder
  extract_lets ordered
  by_cases h : n ∈ ordered
  · exact List.mem_append_left _ h
  · refine List.mem_append_right _ (List.mem_filter.2 ⟨?_, by simpa using h⟩)
    exact List.mem_map.2 ⟨p, Registry.mem_of_find hp, Registry.name_of_find hp⟩

theorem requestQuit_moves (hb : Base (s.view { acking := acking, mark := mark }))
    (hq : (s.view { acking := acking, mark := mark }).Quiet) :
    Moves (s.view { acking := acking, mark := mark }) ((s.requestQuit ω).view { mark := mark }) ∧
      ((s.requestQuit ω).view { mark := mark }).Quiet ∧ (s.requestQuit ω).serverExit = true := by
  unfold requestQuit
  split
  · rename_i hx
    exact ⟨.single (.ghost (v := s.view _) (.acked hx)), hq.of_fresh rfl rfl, hx⟩
  · rename_i hx
    extract_lets s₁
    let s₀ : Server := { s with serverExit := true }
    have hquit : Move (s.view { acking := acking, mark := mark })
        (s₀.view { stopping := s₁.stopOrder, mark := mark }) := by
      refine .registry (v := s.view { acking := acking, mark := mark })
        (.quit s₁.stopOrder (fun n c hc => ?_) (Bool.not_eq_true _ ▸ hx) hq rfl)
      obtain ⟨p, hp, -⟩ := Registry.core_eq_some.1 hc
      exact mem_stopOrder (s := s₁) hp
    have hrec : Calm (s₀.view { stopping := s₁.stopOrder, mark := mark })
        (s₁.view { stopping := s₁.stopOrder, mark := mark }) :=
      calm_record (s := s₀) rfl fun h => h
    have hfold := quitFold_calm (ω := ω) s₁.stopOrder (hrec.base (hb.move hquit)) rfl
    have hcalm := hrec.trans hfold
    exact ⟨hquit.moves.trans hcalm.moves, hcalm.quiet (hq.of_fresh rfl rfl), hfold.exit⟩

end Server
end PmTiny
