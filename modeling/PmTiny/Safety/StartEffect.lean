import PmTiny.Trace.Runs

namespace PmTiny
set_option autoImplicit true

namespace Server

variable {s : Server} {ω : System} {id : Nat}

/-- How often `real_spawn_prog` has been entered for a program. -/
def spawnAttempts (s : Server) (n : String) : Nat :=
  s.history.countP fun e => match e.call with
    | .realSpawnProg m _ => m = n
    | _ => false

theorem attempts_record (h : ∀ site, call ≠ .realSpawnProg n site) :
    (s.record call).spawnAttempts n = s.spawnAttempts n := by
  refine List.countP_cons_of_neg ?_
  cases call with
  | realSpawnProg m site =>
    have hm : m ≠ n := by
      rintro rfl
      exact h site rfl
    simpa using hm
  | _ => simp

theorem attempts_record_self (n : String) (site : SpawnSite) :
    (s.record (.realSpawnProg n site)).spawnAttempts n = s.spawnAttempts n + 1 :=
  List.countP_cons_of_pos (by simp)

theorem attempts_writeFrame :
    (s.writeFrame ω id request reply).spawnAttempts n = s.spawnAttempts n := by
  unfold writeFrame
  split
  · rfl
  · split
    · rfl
    · dsimp only
      split
      · exact attempts_record (by simp)
      · unfold closeSession
        split
        · exact attempts_record (by simp)
        · split
          · exact attempts_record (by simp)
          · dsimp only
            split <;> exact attempts_record (by simp)

theorem attempts_blockAll (names : List String) :
    (names.foldl blockProg s).spawnAttempts n = s.spawnAttempts n := by
  induction names generalizing s with
  | nil => rfl
  | cons m names ih =>
    refine (ih (s := s.blockProg m)).trans ?_
    unfold blockProg
    split
    · rfl
    · exact attempts_record (by simp)

theorem attempts_flagStartupFail : (s.flagStartupFail m).spawnAttempts n = s.spawnAttempts n :=
  attempts_blockAll _

theorem attempts_realSpawnProg (h : m ≠ n) :
    (s.realSpawnProg ω m site).2.spawnAttempts n = s.spawnAttempts n := by
  have hrec : (s.record (.realSpawnProg m site)).spawnAttempts n = s.spawnAttempts n := by
    apply attempts_record
    intro site' he
    exact h (Call.realSpawnProg.inj he).1
  rw [spawnAttempts, history_realSpawnProg]
  exact hrec

theorem attempts_realSpawnProg_self (n : String) :
    (s.realSpawnProg ω n site).2.spawnAttempts n = s.spawnAttempts n + 1 := by
  rw [spawnAttempts, history_realSpawnProg]
  exact attempts_record_self n site

theorem attempts_spawnOne {acc : List String × Server} (h : m ≠ n) :
    (spawnOne ω acc m).2.spawnAttempts n = acc.2.spawnAttempts n := by
  have hends := spawnOne_ends ω acc m
  generalize spawnOne ω acc m = result at hends ⊢
  cases hends with
  | skipped => rfl
  | spawned => exact attempts_realSpawnProg h
  | failed => exact attempts_flagStartupFail.trans (attempts_realSpawnProg h)

theorem attempts_spawnOne_self {acc : List String × Server} (hp : acc.2.findProg n = some p)
    (hpid : p.inst.pid = none) :
    (spawnOne ω acc n).2.spawnAttempts n = acc.2.spawnAttempts n + 1 := by
  have hends := spawnOne_ends ω acc n
  generalize spawnOne ω acc n = result at hends ⊢
  cases hends with
  | skipped hskip => exact absurd (hskip p hp) (not_live hpid)
  | spawned => exact attempts_realSpawnProg_self n
  | failed => exact attempts_flagStartupFail.trans (attempts_realSpawnProg_self n)

theorem attempts_spawnFold_le (names : List String) (acc : List String × Server) :
    acc.2.spawnAttempts n ≤ (names.foldl (spawnOne ω) acc).2.spawnAttempts n := by
  induction names generalizing acc with
  | nil => exact Nat.le_refl _
  | cons m names ih =>
    refine Nat.le_trans ?_ (ih (spawnOne ω acc m))
    by_cases hm : m = n
    · subst m
      have hends := spawnOne_ends ω acc n
      generalize spawnOne ω acc n = result at hends ⊢
      cases hends with
      | skipped => exact Nat.le_refl _
      | spawned => exact Nat.le.intro (attempts_realSpawnProg_self n).symm
      | failed =>
        exact Nat.le.intro (attempts_flagStartupFail.trans (attempts_realSpawnProg_self n)).symm
    · exact (attempts_spawnOne hm).ge

/-- `spawn0` tries each program that it is asked for and that has no root process. -/
theorem attempts_spawn0 (names : List String) (hp : s.findProg n = some p)
    (hpid : p.inst.pid = none) :
    s.spawnAttempts n < (s.spawn0 ω names).2.spawnAttempts n ↔ n ∈ names := by
  have hfold : ∀ (names : List String) (acc : List String × Server),
      (∃ p, acc.2.findProg n = some p ∧ p.inst.pid = none) →
      (acc.2.spawnAttempts n < (names.foldl (spawnOne ω) acc).2.spawnAttempts n ↔ n ∈ names) := by
    intro names
    induction names with
    | nil => simp
    | cons m names ih =>
      rintro acc ⟨p, hp, hpid⟩
      rw [List.foldl_cons, List.mem_cons]
      by_cases hm : m = n
      · subst m
        have hself := attempts_spawnOne_self (ω := ω) hp hpid
        have hle := attempts_spawnFold_le (ω := ω) (n := n) names (spawnOne ω acc n)
        simp only [true_or, iff_true]
        omega
      · obtain ⟨p', hp', hproc, -⟩ := spawnOne_spared (ω := ω) (n := m) (.inl (Ne.symm hm)) p hp
        have hrest := ih (spawnOne ω acc m) ⟨p', hp', (Core.proc_inj hproc).2.1.trans hpid⟩
        rw [attempts_spawnOne hm] at hrest
        rw [hrest]
        simp [Ne.symm hm]
  have hrec : (s.record (.spawn0 names)).spawnAttempts n = s.spawnAttempts n :=
    attempts_record (by simp)
  rw [← hrec]
  exact hfold names ([], s.record (.spawn0 names)) ⟨p, hp, hpid⟩

theorem attempts_markWaiting : s.markWaiting.spawnAttempts n = s.spawnAttempts n := by
  have hfold : ∀ (names : List String) (s : Server),
      (names.foldl waitOne s).spawnAttempts n = s.spawnAttempts n := by
    intro names
    induction names with
    | nil => exact fun _ => rfl
    | cons m names ih =>
      intro s
      refine (ih (s.waitOne m)).trans ?_
      unfold waitOne
      split
      · exact attempts_record (by simp)
      · rfl
  exact hfold _ s

end Server

open Server

/-- Only programs with dependencies wait or are blocked, up to a create request in progress. -/
structure Patient (v : View) : Prop where
  waits : ∀ m p, v.reg.findProg m = some p →
    (∃ saved, v.ghost.saved = some saved ∧ m = saved.name) ∨
    DependencyRuntime.Waits v.reg.dependencyGraph v.reg.dependencyRuntime m
  saved : ∀ saved, v.ghost.saved = some saved → ∀ m p, v.reg.findProg m = some p → m ≠ saved.name →
    (saved.runtime.state saved.graph m = .pending ∨ saved.runtime.state saved.graph m = .blocked) →
      p.dependsOn ≠ []

theorem Patient.of_waits (hs : v.ghost.saved = none) (hw : ∀ m,
    DependencyRuntime.Waits v.reg.dependencyGraph v.reg.dependencyRuntime m) : Patient v :=
  ⟨fun m _ _ => .inr (hw m), by simp [hs]⟩

theorem waits_reset {r : Registry} (h : r.dependencyRuntime = .reset) (m : String) :
    DependencyRuntime.Waits r.dependencyGraph r.dependencyRuntime m := by
  apply DependencyRuntime.waits_of_idle
  rw [h, DependencyRuntime.state]
  split <;> rfl

theorem patient_prog (hf : Keeps f) (hp : v.reg.findProg n = some p)
    (h : ProgMove v n p.core (f p).core g) (hi : Patient v) :
    Patient { v with reg := v.reg.setProg n f, ghost := g } := by
  have hold : ∀ m q, (v.reg.setProg n f).findProg m = some q →
      ∃ q', v.reg.findProg m = some q' ∧ q'.dependsOn = q.dependsOn := by
    intro m q hq
    by_cases hm : m = n
    · subst m
      cases (Registry.findProg_setProg_self hf hp).symm.trans hq
      exact ⟨p, hp, (hf p).2.symm⟩
    · exact ⟨q, (Registry.findProg_setProg_ne hf hm).symm.trans hq, rfl⟩
  constructor
  · intro m q hq
    obtain ⟨q', hq', -⟩ := hold m q hq
    show (∃ saved, g.saved = some saved ∧ _) ∨ _
    rw [h.saved]
    exact hi.waits m q' hq'
  · intro saved hs m q hq hne hw
    obtain ⟨q', hq', hdep⟩ := hold m q hq
    exact hdep ▸ hi.saved saved (h.saved ▸ hs) m q' hq' hne hw

theorem RuntimeMove.waits (h : RuntimeMove v rt) (hc : v.reg.dependencyRuntime.Consistent)
    (hw : DependencyRuntime.Waits v.reg.dependencyGraph v.reg.dependencyRuntime m) :
    DependencyRuntime.Waits v.reg.dependencyGraph rt m := by
  cases h with
  | idle n => exact DependencyRuntime.waits_markIdle hw n
  | ready n => exact DependencyRuntime.waits_markReady hc hw n
  | failed n => exact DependencyRuntime.waits_markFailed hw n
  | closure n => exact DependencyRuntime.waits_requestClosure hc (.inr hw)

theorem patient_ghost (h : GhostMove v g) (hi : Patient v) : Patient { v with ghost := g } := by
  cases h with
  | commit hw =>
    refine ⟨fun m p hp => .inr ?_, by simp⟩
    rcases hi.waits m p hp with ⟨saved, hs, rfl⟩ | h
    · exact hw saved hs
    · exact h
  | boundary mark hg =>
    refine ⟨fun m p hp => .inr ?_, by simp⟩
    have h := hi.waits m p hp
    rw [hg] at h
    exact h.resolve_left (by simp)
  | _ => exact ⟨hi.waits, hi.saved⟩

theorem findProg_add {r : Registry}
    (h : buildProgDependencyGraph (r.pmTinyProgs ++ [p]) = .ok graph)
    (hq : (r.add p graph).findProg m = some q) :
    m = p.name ∨ m ≠ p.name ∧ r.findProg m = some q := by
  rw [Registry.findProg, Registry.add,
    Keyed.find_append_singleton (Registry.findProg_none_of_build h)] at hq
  split at hq
  · rename_i hm
    exact .inl hm.symm
  · rename_i hm
    exact .inr ⟨Ne.symm hm, hq⟩

theorem patient_add (hbuild : buildProgDependencyGraph (v.reg.pmTinyProgs ++ [p]) = .ok graph)
    (hs : v.ghost.saved = none) (hb : Base v)
    (hb' : Base { v with
      reg := v.reg.add p graph
      ghost := { v.ghost with
        saved := some ⟨p.name, v.reg.dependencyGraph, v.reg.dependencyRuntime⟩ } })
    (hi : Patient v) : Patient { v with
      reg := v.reg.add p graph
      ghost := { v.ghost with
        saved := some ⟨p.name, v.reg.dependencyGraph, v.reg.dependencyRuntime⟩ } } := by
  have hold : ∀ m q, v.reg.findProg m = some q →
      DependencyRuntime.Waits v.reg.dependencyGraph v.reg.dependencyRuntime m :=
    fun m q hq => (hi.waits m q hq).resolve_left (by simp [hs])
  constructor
  · intro m q hq
    rcases findProg_add hbuild hq with rfl | ⟨-, hq'⟩
    · exact .inl ⟨_, rfl, rfl⟩
    · refine .inr fun hw => ?_
      have hnew := (hb'.node_of_find hq).2
      have hstate : DependencyRuntime.state graph (.migrate graph
          (v.reg.dependencyRuntime.snapshot v.reg.dependencyGraph)) m = _ :=
        DependencyRuntime.state_migrate v.reg.dependencyGraph v.reg.dependencyRuntime m
      rw [if_pos (show m ∈ graph.names from (hb'.node_of_find hq).1)] at hstate
      rw [hnew, ← (hb.node_of_find hq').2]
      apply hold m q hq'
      rw [← hstate]
      exact hw
  · intro saved hsaved m q hq hne hw
    cases hsaved
    obtain ⟨-, hq'⟩ := (findProg_add hbuild hq).resolve_left hne
    rw [← (hb.node_of_find hq').2]
    exact hold m q hq' hw

theorem patient_rollback (hs : v.ghost.saved = some saved) (hi : Patient v) :
    Patient { v with reg := v.reg.rollback saved, ghost := { v.ghost with saved := none } } := by
  refine ⟨fun m p hp => .inr ?_, by simp⟩
  have hfind : (v.reg.dropProg saved.name).findProg m = some p := by
    rw [Registry.findProg, ← Registry.rollback_progs]
    exact hp
  have hne : m ≠ saved.name := (Registry.core_dropProg (Registry.core_of_find hfind)).1
  have hp' : v.reg.findProg m = some p := by
    rw [Registry.findProg, Registry.dropProg, Keyed.find_remove_ne hne] at hfind
    exact hfind
  obtain ⟨e, -, h⟩ | ⟨graph, hbuild, h⟩ := v.reg.rollback_cases saved
  · rw [h]
    rcases hi.waits m p hp' with ⟨saved', hs', rfl⟩ | hw
    · cases hs.symm.trans hs'
      exact absurd rfl hne
    · exact hw
  · rw [h]
    intro hw
    rw [DependencyRuntime.state_migrate] at hw
    have hmem : p ∈ (v.reg.dropProg saved.name).pmTinyProgs := Registry.mem_of_find hfind
    have hdep := DependencyGraph.build_dependencyNames hbuild (List.mem_map_of_mem hmem)
    rw [ProgInfo.dependencyNode, Registry.name_of_find hfind] at hdep
    rw [hdep]
    split at hw
    · exact hi.saved saved hs m p hp' hne hw
    · simp at hw

theorem patient_registry (h : RegistryMove v r g) (hb : Base v) (hi : Patient v) :
    Patient { v with reg := r, ghost := g } := by
  have hb' := hb.registry h
  cases h with
  | add p graph hbuild _ _ _ _ hs => exact patient_add hbuild hs hb hb' hi
  | rollback saved hs => exact patient_rollback hs hi
  | drop n hn hs =>
    refine ⟨fun m p hp => .inr ?_, by simp [hs]⟩
    obtain ⟨q, hq, -⟩ :=
      Registry.core_eq_some.1 (Registry.core_dropProg (Registry.core_of_find hp)).2
    exact (hi.waits m q hq).resolve_left (by simp [hs])
  | rebuilt graph hs => exact .of_waits hs fun m => waits_reset rfl m
  | swap config hw hc hg => exact .of_waits (by rw [hg]) fun m => waits_reset rfl m
  | spawnAll hf ha hg hrt =>
    exact .of_waits (by rw [hg]) fun m => DependencyRuntime.waits_requestAll _ _ m
  | _ => exact ⟨hi.waits, hi.saved⟩

theorem patient_move (h : Move v v') (hb : Base v) (hi : Patient v) : Patient v' := by
  cases h with
  | prog hf hp h => exact patient_prog hf hp h hi
  | runtime h =>
    exact ⟨fun m p hp => (hi.waits m p hp).imp_right (h.waits hb.flags), hi.saved⟩
  | ghost h => exact patient_ghost h hi
  | registry h => exact patient_registry h hb hi
  | log call h => exact ⟨hi.waits, hi.saved⟩

theorem Server.Reachable.waiting (h : Reachable ω s) (hp : s.findProg n = some p) :
    s.Waiting n := by
  have hpatient : Patient s.boundary := h.invariant (K := fun _ => True)
    (fun _ _ hm hb _ hi => patient_move hm hb hi)
    (fun v hv => .of_waits (by rw [hv.ghost]) fun m => waits_reset hv.runtime m)
    (fun _ _ => trivial)
  exact (hpatient.waits n p hp).resolve_left (by simp [boundary, view])

/-- A start hands the program to `spawn0` exactly when the runtime takes it for idle or failed. -/
theorem requestStart_attempts {s : Server} (hb : Base (s.view g)) (hw : s.Waiting n)
    (hp : s.findProg n = some p) (hpid : p.inst.pid = none)
    (hd : ∀ d ∈ p.dependsOn, ∃ q, s.findProg d = some q ∧ q.state = .runing) :
    s.spawnAttempts n < (s.requestStart ω n).2.spawnAttempts n ↔
      s.runtimeState n = .idle ∨ s.runtimeState n = .failed := by
  have hnode := hb.node_of_find hp
  let rt := s.dependencyRuntime.markAllReady s.dependencyGraph s.running
  have hc : rt.Consistent := DependencyRuntime.Consistent.markAllReady hb.flags _ _
  have hnr : n ∉ s.running := by
    rw [mem_running hb.nodup hp]
    intro hrun
    have hl := (hb.progs n p.core (Registry.core_of_find hp)).running (.inr hrun)
    simp [Core.live, ProgInfo.core, hpid] at hl
  have hmem : ∀ d ∈ s.dependencyGraph.dependencyNames n,
      d ∈ s.running ∧ d ∈ s.dependencyGraph.names := by
    intro d hdm
    rw [show s.dependencyGraph.dependencyNames n = _ from hnode.2] at hdm
    obtain ⟨q, hq, hrun⟩ := hd d hdm
    exact ⟨(mem_running hb.nodup hq).2 hrun, (hb.node_of_find hq).1⟩
  have hready : ∀ d ∈ s.dependencyGraph.dependencyNames n, rt.state s.dependencyGraph d = .ready :=
    fun d hdm => DependencyRuntime.ready_markAllReady.2 (.inr (hmem d hdm))
  have hcases : rt.state s.dependencyGraph n ≠ .pending ∧ rt.state s.dependencyGraph n ≠ .blocked ∧
      ((rt.state s.dependencyGraph n = .idle ∨ rt.state s.dependencyGraph n = .failed) ↔
        s.runtimeState n = .idle ∨ s.runtimeState n = .failed) := by
    by_cases hstuck : s.runtimeState n = .pending ∨ s.runtimeState n = .blocked
    · obtain ⟨d, hdm⟩ := List.exists_mem_of_ne_nil _ (hw hstuck)
      have hunlock := DependencyRuntime.unlocks_markAllReady (m := n) hb.flags
        (.inl ⟨d, (hmem d hdm).1, hdm⟩) hready
      refine ⟨hunlock.1, hunlock.2, iff_of_false ?_ ?_⟩
      · have hreq : s.requested n = true := by
          rw [Registry.requested, (show s.dependencyRuntime.Consistent from hb.flags).requested_iff]
          intro hidle
          rw [show s.runtimeState n = _ from hidle] at hstuck
          simp at hstuck
        rintro (hidle | hfail)
        · exact (hc.requested_iff _ n).1
            (DependencyRuntime.requested_markAllReady.2 (.inl hreq)) hidle
        · rw [show s.runtimeState n = _ from DependencyRuntime.failed_markAllReady hfail] at hstuck
          simp at hstuck
      · rcases hstuck with h | h <;> simp [h]
    · rw [not_or] at hstuck
      have hsame : rt.state s.dependencyGraph n = s.runtimeState n :=
        DependencyRuntime.state_markAllReady hnr hstuck
      rw [hsame]
      exact ⟨hstuck.1, hstuck.2, Iff.rfl⟩
  have hclosure : n ∈ (rt.requestClosure s.dependencyGraph n).2 ↔
      rt.state s.dependencyGraph n = .idle ∨ rt.state s.dependencyGraph n = .failed :=
    DependencyRuntime.mem_requestClosure hc hnode.1 hready ⟨hcases.1, hcases.2.1⟩
  let s₁ := (s.markRunning.requestClosure n).2
  have hs₁ : s₁.spawnAttempts n = s.spawnAttempts n := by
    have hrec : (s.markRunning.record (.requestClosure n)).spawnAttempts n =
        s.markRunning.spawnAttempts n := attempts_record (by simp)
    refine hrec.trans ?_
    rw [markRunning_eq]
    rfl
  have hfind : ∃ p', s₁.markWaiting.findProg n = some p' ∧ p'.inst.pid = none := by
    have hp₁ : s₁.findProg n = some p := by
      show s.markRunning.findProg n = some p
      rw [markRunning_eq]
      exact hp
    obtain ⟨p', hp', hproc⟩ := markWaiting_find hp₁
    exact ⟨p', hp', (Core.proc_inj hproc).2.1.trans hpid⟩
  obtain ⟨p', hp', hpid'⟩ := hfind
  have hattempt := attempts_spawn0 (ω := ω)
    (s₁.markWaiting.progsFromNames (s.markRunning.requestClosure n).1) hp' hpid'
  rw [attempts_markWaiting, hs₁] at hattempt
  refine hattempt.trans ?_
  have hfilter : n ∈ s₁.markWaiting.progsFromNames (s.markRunning.requestClosure n).1 ↔
      n ∈ (rt.requestClosure s.dependencyGraph n).2 := by
    rw [progsFromNames, List.mem_filter, hp']
    simp only [Option.isSome_some, and_true]
    rw [requestClosure, markRunning_eq]
    rfl
  rw [hfilter, hclosure]
  exact hcases.2.2

/-- The event loop runs and takes messages from the session. -/
def Server.Receives (s : Server) (id : Nat) : Prop :=
  s.stopped = false ∧
    (s.findSession id).any (fun session => !session.closed && !session.markedClose) = true

theorem attempts_handleStartExisting (id : Nat) (request : StartRequest) {s : Server}
    (hb : Base (s.view { mark := mark }))
    (hw : s.Waiting request.name) (hp : s.findProg request.name = some p) (hpid : p.inst.pid = none)
    (hd : ∀ d ∈ p.dependsOn, ∃ q, s.findProg d = some q ∧ q.state = .runing) :
    s.spawnAttempts request.name <
        (s.handleStartExisting ω id request).2.spawnAttempts request.name ↔
      s.runtimeState request.name = .idle ∨ s.runtimeState request.name = .failed := by
  let s₁ := s.setProg request.name (·.resetRestartPolicy)
  have hb₁ : Base (s₁.view { mark := mark }) := reset_calm.base hb
  have hp₁ : s₁.findProg request.name = some p.resetRestartPolicy :=
    findProg_setProg keeps_resetRestartPolicy hp
  have hd₁ : ∀ d ∈ p.dependsOn, ∃ q, s₁.findProg d = some q ∧ q.state = .runing := by
    intro d hdm
    obtain ⟨q, hq, hrun⟩ := hd d hdm
    by_cases hdn : d = request.name
    · subst d
      exact ⟨_, findProg_setProg keeps_resetRestartPolicy hq, hrun⟩
    · exact ⟨q, (findProg_setProg_ne keeps_resetRestartPolicy hdn).trans hq, hrun⟩
  have hstart := requestStart_attempts (ω := ω) hb₁ hw hp₁ hpid hd₁
  refine Iff.trans (Eq.to_iff (congrArg (s.spawnAttempts request.name < ·) ?_)) hstart
  unfold handleStartExisting
  rw [hp]
  dsimp only
  rw [if_neg (by simp [ProgInfo.live, hpid])]
  split
  · unfold finishStart
    dsimp only
    split <;> rfl
  · rfl

/-- A start request for a program whose dependencies run attempts to spawn it exactly when the
runtime takes the program for idle or failed. -/
theorem start_effective_iff {id : Nat} (h : Reachable ω s) (hr : s.Receives id)
    (hx : s.serverExit = false)
    (hp : s.findProg n = some p) (hpid : p.inst.pid = none)
    (hd : ∀ d ∈ p.dependsOn, ∃ q, s.findProg d = some q ∧ q.state = .runing ∧ q.inst.pid ≠ none) :
    s.spawnAttempts n <
        (s.step ω (.request id type rid (.start ⟨.existing, n, config, showLog⟩))).spawnAttempts n ↔
      s.runtimeState n = .idle ∨ s.runtimeState n = .failed := by
  let s₀ := s.setSession id fun session => { session with
    currentMessageType := type, currentRequestId := rid }
  have hrun : ∀ d ∈ p.dependsOn, ∃ q, s₀.findProg d = some q ∧ q.state = .runing := by
    intro d hdm
    obtain ⟨q, hq, hrun, -⟩ := hd d hdm
    exact ⟨q, hq, hrun⟩
  have hstart := attempts_handleStartExisting (ω := ω) id ⟨.existing, n, config, showLog⟩ (s := s₀)
    h.base (h.waiting hp) hp hpid hrun
  refine Iff.trans (Eq.to_iff (congrArg (s.spawnAttempts n < ·) ?_)) hstart
  unfold step
  rw [if_neg (by simp [hr.1])]
  dsimp only
  rw [dispatchMessage, if_pos hr.2]
  show (s₀.handleFrame ω id _).spawnAttempts n = _
  rw [handleFrame, serverExiting_of_running (s := s₀) hx, if_neg (by simp)]
  exact attempts_writeFrame

theorem start_effective_stopped : ∃ s,
    Reachable (simpleSystem [{ name := "p" }] []) s ∧ s.runtimeState "p" = .idle ∧
      s.spawnAttempts "p" < (s.step (simpleSystem [{ name := "p" }] [])
        (.request 1 0 2 (.start ⟨.existing, "p", { name := "p" }, false⟩))).spawnAttempts "p" := by
  obtain ⟨s, hreach, hs⟩ := runFrom_any (ω := simpleSystem [{ name := "p" }] [])
    [.connect 1 none, .request 1 0 1 (.stop "p"), .maintenance false (some [(101, 0)])]
    (fun s => (s.findProg "p").any (fun p => p.inst.pid = none ∧ p.dependsOn = []) &&
      (s.findSession 1).any (fun session => !session.closed && !session.markedClose) &&
      decide (s.stopped = false ∧ s.serverExit = false ∧ s.runtimeState "p" = .idle))
    (by decide +kernel)
  rw [Bool.and_eq_true, Bool.and_eq_true, Option.any_eq_true] at hs
  obtain ⟨⟨⟨p, hp, hcond⟩, hsess⟩, hrest⟩ := hs
  obtain ⟨hpid, hdep⟩ := of_decide_eq_true hcond
  obtain ⟨hstop, hx, hidle⟩ := of_decide_eq_true hrest
  refine ⟨s, hreach, hidle,
    (start_effective_iff hreach ⟨hstop, hsess⟩ hx hp hpid ?_).2 (.inl hidle)⟩
  simp [hdep]

/-- A program that exits while it is starting stays ready for the runtime, and starting it again
has no effect. -/
theorem start_without_spawn : ∃ s p,
    Reachable (simpleSystem [{ name := "p", daemon := false, startTimeout := 60 }] []) s ∧
      s.Receives 1 ∧ s.serverExit = false ∧ s.findProg "p" = some p ∧ p.inst.pid = none ∧
      p.inst.tree.isEmpty = true ∧ p.killPendingtasks = [] ∧ p.dependsOn = [] ∧
      (s.step (simpleSystem [{ name := "p", daemon := false, startTimeout := 60 }] [])
        (.request 1 0 1 (.start ⟨.existing, "p", { name := "p" }, false⟩))).spawnAttempts "p" =
          s.spawnAttempts "p" := by
  obtain ⟨s, hreach, hs⟩ := runFrom_any
    (ω := simpleSystem [{ name := "p", daemon := false, startTimeout := 60 }] [])
    [.connect 1 none, .maintenance false (some [(101, 0)])]
    (fun s => (s.findProg "p").any (fun p => p.inst.pid = none ∧ p.inst.tree.isEmpty = true ∧
        p.killPendingtasks = [] ∧ p.dependsOn = []) &&
      (s.findSession 1).any (fun session => !session.closed && !session.markedClose) &&
      decide (s.stopped = false ∧ s.serverExit = false ∧
        (s.step (simpleSystem [{ name := "p", daemon := false, startTimeout := 60 }] [])
          (.request 1 0 1 (.start ⟨.existing, "p", { name := "p" }, false⟩))).spawnAttempts "p" =
            s.spawnAttempts "p"))
    (by decide +kernel)
  rw [Bool.and_eq_true, Bool.and_eq_true, Option.any_eq_true] at hs
  obtain ⟨⟨⟨p, hp, hcond⟩, hsess⟩, hrest⟩ := hs
  obtain ⟨hpid, htree, htasks, hdep⟩ := of_decide_eq_true hcond
  obtain ⟨hstop, hx, hsame⟩ := of_decide_eq_true hrest
  exact ⟨s, p, hreach, ⟨hstop, hsess⟩, hx, hp, hpid, htree, htasks, hdep, hsame⟩

end PmTiny
