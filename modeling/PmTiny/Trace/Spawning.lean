import PmTiny.Trace.Calm

namespace PmTiny
set_option autoImplicit true

/-- The part of a program that only its own operations write. -/
def Core.proc (c : Core) : Nat × Option Nat × ProcessTreeHandle × List GenerationTask :=
  (c.gen, c.pid, c.tree, c.tasks)

/-- An operation on other programs: at most the state changed, to blocked. -/
def Spared (r r' : Registry) (n : String) : Prop :=
  ∀ p, r.findProg n = some p → ∃ p', r'.findProg n = some p' ∧ p'.core.proc = p.core.proc ∧
    (p'.state = p.state ∨ p'.state = .blocked)

theorem Spared.of_find {r r' : Registry} (h : r'.findProg n = r.findProg n) : Spared r r' n :=
  fun p hp => ⟨p, h.trans hp, rfl, .inl rfl⟩

theorem Spared.trans (h : Spared r r' n) (h' : Spared r' r'' n) : Spared r r'' n := by
  intro p hp
  obtain ⟨p', hp', he, hs⟩ := h p hp
  obtain ⟨p'', hp'', he', hs'⟩ := h' p' hp'
  refine ⟨p'', hp'', he'.trans he, ?_⟩
  rcases hs' with hs' | hs'
  · exact hs.imp (hs'.trans ·) (hs'.trans ·)
  · exact .inr hs'

theorem Core.proc_inj {c c' : Core} (h : c'.proc = c.proc) :
    c'.gen = c.gen ∧ c'.pid = c.pid ∧ c'.tree = c.tree ∧ c'.tasks = c.tasks := by
  simpa [proc] using h

theorem Spared.live (h : Spared r r' n) (hl : ∃ p, r.findProg n = some p ∧ p.live = true) :
    ∃ p', r'.findProg n = some p' ∧ p'.live = true := by
  obtain ⟨p, hp, hlive⟩ := hl
  obtain ⟨p', hp', hproc, -⟩ := h p hp
  refine ⟨p', hp', ?_⟩
  unfold ProgInfo.live at hlive ⊢
  rw [show p'.inst.pid = p.inst.pid from (Core.proc_inj hproc).2.1]
  exact hlive

/-- What a caller of `real_spawn_prog` has checked. -/
def SpawnGuard (v : View) (n : String) (c : Core) : SpawnSite → Prop
  | .runtime => v.requested n = true
  | .task => c.tree.isEmpty = true ∧ (∃ id showLog, c.Queued (.startProg id showLog)) ∧
      (n ∈ v.ghost.pendding ∨ n ∈ v.ghost.running)
  | .scheduled => c.tree.isEmpty = true ∧ n ∈ v.ghost.settling
  | .restart => v.Seen (.restartIdle n) ∧ c.pending = false ∧ v.Quiet

theorem SpawnGuard.fits (h : SpawnGuard v n c site) (ha : v.Active) (hc : v.core n = some c)
    (hp : c.pid = none) : Fits v (.realSpawnProg n site) := by
  refine ⟨ha, c, hc, hp, ?_⟩
  cases site with
  | runtime => exact h
  | task => exact h.1
  | scheduled => exact h.1
  | restart => exact h.1

theorem Flags.markFailed (h : Flags v n c) : Flags { v with
    reg := v.reg.setRuntime
      (v.reg.dependencyRuntime.markFailed v.reg.dependencyGraph n).1 } n c := by
  rcases h with ⟨hp, hr, hsp⟩ | h
  · refine .inl ⟨hp, hr.imp (fun ⟨hr, hs⟩ => ⟨?_, ?_⟩) id, hsp⟩
    · exact DependencyRuntime.isRequested_markFailed.2 (.inl hr)
    · exact DependencyRuntime.not_ready_markFailed hs
  · exact .inr h

/-- The program after a child that was given up before it was executed. -/
def ProgInfo.spawnAborted (p : ProgInfo) (pid : Nat) : ProgInfo :=
  { p with inst := (p.inst.start pid).resetFailedStart }

def ProgInfo.spawnStarted (p : ProgInfo) (pid : Nat) (now : Int) : ProgInfo :=
  { p with
    inst := { p.inst.start pid with tree := { active := true, members := [pid] } }
    lastStartupMs := now
    heartbeatActionDueMs := 0
    state := .starting }

theorem keeps_spawnAborted (pid : Nat) : Keeps (·.spawnAborted pid) := fun _ => ⟨rfl, rfl⟩

theorem keeps_spawnStarted (pid : Nat) (now : Int) : Keeps (·.spawnStarted pid now) :=
  fun _ => ⟨rfl, rfl⟩

namespace Server

variable {s s' s'' : Server} {ω : System} {g g' : Ghost} {id : Nat}

/-- How a call of `real_spawn_prog` ends. -/
inductive SpawnEnds (ω : System) (s : Server) (n : String) (site : SpawnSite) :
    Bool × Server → Prop
  | unknown (hp : s.findProg n = none) :
      SpawnEnds ω s n site (false, s.record (.realSpawnProg n site))
  | refused (p : ProgInfo) (errno : Nat) (hp : s.findProg n = some p)
      (hanswer : ω.spawn s.ticks p = .refused errno) :
      SpawnEnds ω s n site (false, ((s.record (.realSpawnProg n site)).setErrno errno).tick)
  | aborted (p : ProgInfo) (pid errno : Nat) (hp : s.findProg n = some p)
      (hanswer : ω.spawn s.ticks p = .aborted pid errno) :
      SpawnEnds ω s n site (false, (((s.record (.realSpawnProg n site)).setProg n
        (·.spawnAborted pid)).setErrno errno).tick)
  | started (p : ProgInfo) (pid : Nat) (hp : s.findProg n = some p)
      (hanswer : ω.spawn s.ticks p = .started pid) :
      SpawnEnds ω s n site (true, ((s.record (.realSpawnProg n site)).setProg n
        (·.spawnStarted pid (ω.clock s.ticks))).tick)

theorem realSpawnProg_ends (ω : System) (s : Server) (n : String) (site : SpawnSite) :
    SpawnEnds ω s n site (s.realSpawnProg ω n site) := by
  unfold realSpawnProg
  dsimp only
  split
  · rename_i hp
    exact .unknown hp
  · rename_i p hp
    split
    · rename_i errno hanswer
      exact .refused p errno hp hanswer
    · rename_i pid errno hanswer
      exact .aborted p pid errno hp hanswer
    · rename_i pid hanswer
      exact .started p pid hp hanswer

theorem realSpawnProg_calm (site : SpawnSite) (hp : s.findProg n = some p)
    (hpid : p.inst.pid = none)
    (ha : (s.view g).Active) (hg : SpawnGuard (s.view g) n p.core site) :
    Calm (s.view g) ((s.realSpawnProg ω n site).2.view g) := by
  have hc := Registry.core_of_find hp
  have hrec : Calm (s.view g) ((s.record (.realSpawnProg n site)).view g) :=
    calm_record (hg.fits ha hc hpid) id
  refine hrec.trans ?_
  have hends := realSpawnProg_ends ω s n site
  generalize s.realSpawnProg ω n site = result at hends ⊢
  cases hends with
  | unknown hnone => cases hp.symm.trans hnone
  | refused => exact .refl _
  | aborted p' pid errno =>
    refine calm_setProg (keeps_spawnAborted pid) fun q hq => ?_
    cases hp.symm.trans hq
    exact .aborted site hpid (List.mem_cons_self ..)
  | started p' pid =>
    refine calm_setProg (keeps_spawnStarted pid _) fun q hq => ?_
    cases hp.symm.trans hq
    refine .spawned site _ hpid ha (List.mem_cons_self ..) ?_ ?_ ?_ ?_
    · rintro rfl
      exact hg
    · rintro rfl
      exact hg.2
    · rintro rfl
      exact hg.2
    · rintro rfl
      exact ⟨hg.2.1, hrec.quiet hg.2.2⟩

theorem realSpawnProg_runtime :
    (s.realSpawnProg ω n site).2.dependencyRuntime = s.dependencyRuntime ∧
      (s.realSpawnProg ω n site).2.dependencyGraph = s.dependencyGraph := by
  have hends := realSpawnProg_ends ω s n site
  generalize s.realSpawnProg ω n site = result at hends ⊢
  cases hends <;> exact ⟨rfl, rfl⟩

theorem realSpawnProg_find_ne (hm : m ≠ n) :
    (s.realSpawnProg ω n site).2.findProg m = s.findProg m := by
  have hends := realSpawnProg_ends ω s n site
  generalize s.realSpawnProg ω n site = result at hends ⊢
  cases hends with
  | unknown => rfl
  | refused => rfl
  | aborted p pid errno =>
    exact findProg_setProg_ne (s := s.record (.realSpawnProg n site)) (keeps_spawnAborted pid) hm
  | started p pid =>
    exact findProg_setProg_ne (s := s.record (.realSpawnProg n site)) (keeps_spawnStarted pid _) hm

theorem history_realSpawnProg (ω : System) (s : Server) (name : String) (site : SpawnSite) :
    (s.realSpawnProg ω name site).2.history =
      ⟨.realSpawnProg name site, s.toRegistry⟩ :: s.history := by
  have hends := realSpawnProg_ends ω s name site
  generalize s.realSpawnProg ω name site = result at hends ⊢
  cases hends <;> rfl

/-- A program after a spawn that did not start it. -/
structure NotSpawned (p p' : ProgInfo) : Prop where
  gen : p.inst.generation ≤ p'.inst.generation
  pid : p'.inst.pid = none
  tree : p'.inst.tree = p.inst.tree ∨ p'.inst.tree = {}
  job : p'.inst.job = p.inst.job ∨ p'.inst.job = {}
  tasks : p'.killPendingtasks = p.killPendingtasks
  pending : p'.restartPending = p.restartPending

theorem NotSpawned.terminating (h : NotSpawned p p') (ht : p'.core.Terminating) :
    p.core.Terminating := by
  rcases ht with ht | ⟨ha, he⟩
  · exact .inl fun he => ht (h.tasks.trans he)
  · rcases h.tree with h' | h'
    · rcases h.job with h'' | h''
      · refine .inr ⟨?_, ?_⟩
        · rwa [ProgInfo.core, h''] at ha
        · rwa [ProgInfo.core, h'] at he
      · rw [ProgInfo.core, h''] at ha
        cases ha
    · rw [ProgInfo.core, h'] at he
      cases he

theorem NotSpawned.gone (h : NotSpawned p p') (hg : p.core.Gone) : p'.core.Gone := by
  refine ⟨h.pid, ?_⟩
  show p'.inst.tree.isEmpty = true
  rcases h.tree with h' | h'
  · rw [h']
    exact hg.2
  · rw [h']
    rfl

theorem realSpawnProg_false (hp : s.findProg n = some p) (hpid : p.inst.pid = none)
    (h : (s.realSpawnProg ω n site).1 = false) :
    ∃ p', (s.realSpawnProg ω n site).2.findProg n = some p' ∧ NotSpawned p p' := by
  have hends := realSpawnProg_ends ω s n site
  generalize s.realSpawnProg ω n site = result at h hends ⊢
  cases hends with
  | unknown hnone => cases hp.symm.trans hnone
  | refused => exact ⟨p, hp, le_rfl, hpid, .inl rfl, .inl rfl, rfl, rfl⟩
  | aborted p' pid errno =>
    exact ⟨_, findProg_setProg (s := s.record (.realSpawnProg n site)) (keeps_spawnAborted pid) hp,
      Nat.le_succ _, rfl, .inr rfl, .inr rfl, rfl, rfl⟩
  | started => cases h

theorem realSpawnProg_true (hp : s.findProg n = some p)
    (h : (s.realSpawnProg ω n site).1 = true) :
    ∃ p', (s.realSpawnProg ω n site).2.findProg n = some p' ∧
      p'.inst.generation = p.inst.generation + 1 ∧ p'.live = true ∧
      p'.killPendingtasks = p.killPendingtasks := by
  have hends := realSpawnProg_ends ω s n site
  generalize s.realSpawnProg ω n site = result at h hends ⊢
  cases hends with
  | unknown => cases h
  | refused => cases h
  | aborted => cases h
  | started p' pid =>
    exact ⟨_,
      findProg_setProg (s := s.record (.realSpawnProg n site)) (keeps_spawnStarted pid _) hp,
      rfl, rfl, rfl⟩

theorem realSpawnProg_seen :
    ⟨.realSpawnProg n site, s.toRegistry⟩ ∈ (s.realSpawnProg ω n site).2.history := by
  rw [history_realSpawnProg]
  exact List.mem_cons_self

theorem keeps_setState (state : ProgState) : Keeps fun p => p.setState state :=
  fun _ => ⟨rfl, rfl⟩

theorem blockProg_calm (hr : s.requested n = true) (hs : s.runtimeState n ≠ .ready) :
    Calm (s.view g) ((s.blockProg n).view g) := by
  unfold blockProg
  split
  · exact .refl _
  · have hrec : Calm (s.view g) ((s.record (.blocked n)).view g) := calm_record trivial id
    refine hrec.trans (calm_setProg (keeps_setState _) fun p _ => ?_)
    exact .block (List.mem_cons_self ..) hr hs

theorem blockProg_find_ne (hm : m ≠ n) : (s.blockProg n).findProg m = s.findProg m := by
  unfold blockProg
  split
  · rfl
  · exact findProg_setProg_ne (s := s.record (.blocked n)) (keeps_setState _) hm

theorem blockProg_spared (m : String) : Spared s.toRegistry (s.blockProg n).toRegistry m := by
  by_cases hm : m = n
  · subst m
    unfold blockProg
    split
    · exact .of_find rfl
    · intro p hp
      exact ⟨_, findProg_setProg (s := s.record (.blocked n)) (keeps_setState _) hp, rfl, .inr rfl⟩
  · exact .of_find (blockProg_find_ne hm)

theorem blockProg_runtime : (s.blockProg n).dependencyRuntime = s.dependencyRuntime ∧
    (s.blockProg n).dependencyGraph = s.dependencyGraph := by
  unfold blockProg
  split <;> exact ⟨rfl, rfl⟩

theorem blockAll_calm (names : List String)
    (h : ∀ m ∈ names, s.requested m = true ∧ s.runtimeState m ≠ .ready) :
    Calm (s.view g) ((names.foldl blockProg s).view g) := by
  induction names generalizing s with
  | nil => exact .refl _
  | cons m names ih =>
    obtain ⟨hr, hs⟩ := h m (by simp)
    refine (blockProg_calm hr hs).trans (ih fun k hk => ?_)
    obtain ⟨hrt, hgr⟩ := blockProg_runtime (s := s) (n := m)
    unfold Registry.requested Registry.runtimeState
    rw [hrt, hgr]
    exact h k (by simp [hk])

theorem blockAll_rest (names : List String) :
    (names.foldl blockProg s).dependencyRuntime = s.dependencyRuntime ∧
    (names.foldl blockProg s).dependencyGraph = s.dependencyGraph ∧
    (∀ m, Spared s.toRegistry (names.foldl blockProg s).toRegistry m) ∧
    ∀ m ∉ names, (names.foldl blockProg s).findProg m = s.findProg m := by
  induction names generalizing s with
  | nil => exact ⟨rfl, rfl, fun m => .of_find rfl, fun m _ => rfl⟩
  | cons k names ih =>
    obtain ⟨hrt, hgr, hsp, hfind⟩ := ih (s := s.blockProg k)
    obtain ⟨hrt', hgr'⟩ := blockProg_runtime (s := s) (n := k)
    refine ⟨hrt.trans hrt', hgr.trans hgr', fun m => (blockProg_spared m).trans (hsp m),
      fun m hm => ?_⟩
    rw [List.mem_cons, not_or] at hm
    exact (hfind m hm.2).trans (blockProg_find_ne hm.1)

theorem flagStartupFail_calm (hp : s.findProg n = some p) (h : Flags (s.view g) n p.core) :
    Calm (s.view g) ((s.flagStartupFail n).view g) := by
  unfold flagStartupFail
  extract_lets failure s₁
  have hrt : Calm (s.view g) ((s.setRuntime failure.1).view g) :=
    Calm.runtime (v := s.view g) (.failed n (Registry.core_of_find hp) h)
  have hset : Calm ((s.setRuntime failure.1).view g) (s₁.view g) := by
    refine calm_setProg (fun _ => ⟨rfl, rfl⟩) fun q hq => ?_
    cases hp.symm.trans hq
    exact .startupFail (Flags.markFailed h)
  refine (hrt.trans hset).trans (blockAll_calm _ fun m hm => ?_)
  obtain ⟨-, hreq, hs, -⟩ := DependencyRuntime.blocked_markFailed hm
  exact ⟨DependencyRuntime.isRequested_markFailed.2 (.inl hreq),
    DependencyRuntime.not_ready_markFailed hs⟩

theorem flagStartupFail_graph : (s.flagStartupFail n).dependencyGraph = s.dependencyGraph := by
  unfold flagStartupFail
  extract_lets failure s₁
  exact (blockAll_rest (s := s₁) failure.2.blocked).2.1

theorem flagStartupFail_runtime : (s.flagStartupFail n).dependencyRuntime =
    (s.dependencyRuntime.markFailed s.dependencyGraph n).1 := by
  unfold flagStartupFail
  extract_lets failure s₁
  exact (blockAll_rest (s := s₁) failure.2.blocked).1

theorem flagStartupFail_rest (hp : s.findProg n = some p) :
    (∀ m ≠ n, Spared s.toRegistry (s.flagStartupFail n).toRegistry m) ∧
      (s.flagStartupFail n).findProg n = some (p.setState .startupFail) := by
  unfold flagStartupFail
  extract_lets failure s₁
  obtain ⟨-, -, hsp, hfind⟩ := blockAll_rest (s := s₁) failure.2.blocked
  refine ⟨fun m hm => ?_, ?_⟩
  · have h₁ : s₁.findProg m = s.findProg m :=
      findProg_setProg_ne (s := s.setRuntime failure.1) (keeps_setState _) hm
    exact (Spared.of_find h₁).trans (hsp m)
  · have hn : n ∉ failure.2.blocked := fun hn =>
      (DependencyRuntime.blocked_markFailed hn).1 rfl
    rw [hfind n hn]
    exact findProg_setProg (s := s.setRuntime failure.1) (keeps_setState _) hp

/-- A program that `spawn0` may be asked for. -/
def Wanted (r : Registry) (n : String) : Prop :=
  r.requested n = true ∧
    (r.runtimeState n = .ready → ∃ p, r.findProg n = some p ∧ p.live = true)

theorem Wanted.not_ready {r : Registry} (h : Wanted r n) (hp : r.findProg n = some p)
    (hl : ¬p.live = true) : r.runtimeState n ≠ .ready := by
  intro hr
  obtain ⟨q, hq, hlive⟩ := h.2 hr
  cases hp.symm.trans hq
  exact hl hlive

theorem Wanted.of_runtime {r r' : Registry} (h : Wanted r n)
    (hrt : r'.dependencyRuntime = r.dependencyRuntime)
    (hgr : r'.dependencyGraph = r.dependencyGraph)
    (hf : ∀ p, r.findProg n = some p → p.live = true →
      ∃ p', r'.findProg n = some p' ∧ p'.live = true) : Wanted r' n := by
  unfold Wanted Registry.requested Registry.runtimeState
  rw [hrt, hgr]
  refine ⟨h.1, fun hr => ?_⟩
  obtain ⟨p, hp, hl⟩ := h.2 hr
  exact hf p hp hl

theorem Wanted.markFailed {r r' : Registry} (h : Wanted r n)
    (hrt : r'.dependencyRuntime = (r.dependencyRuntime.markFailed r.dependencyGraph m).1)
    (hgr : r'.dependencyGraph = r.dependencyGraph)
    (hf : n ≠ m → Spared r r' n) (hm : n = m → r.runtimeState m ≠ .ready) : Wanted r' n := by
  have hreq : r'.requested n = true := by
    unfold Registry.requested
    rw [hrt, hgr]
    exact DependencyRuntime.isRequested_markFailed.2 (.inl h.1)
  refine ⟨hreq, fun hr => ?_⟩
  have hr' : r.runtimeState n = .ready := by
    by_contra hne
    unfold Registry.runtimeState at hr
    rw [hrt, hgr] at hr
    exact DependencyRuntime.not_ready_markFailed hne hr
  exact (hf fun he => hm he (he ▸ hr')).live (h.2 hr')

/-- How one turn of `spawn0` ends. -/
inductive SpawnOneEnds (ω : System) (acc : List String × Server) (n : String) :
    List String × Server → Prop
  | skipped (hskip : ∀ p, acc.2.findProg n = some p → p.live = true) : SpawnOneEnds ω acc n acc
  | spawned (p : ProgInfo) (hp : acc.2.findProg n = some p) (hpid : p.inst.pid = none)
      (htrue : (acc.2.realSpawnProg ω n .runtime).1 = true) :
      SpawnOneEnds ω acc n (acc.1, (acc.2.realSpawnProg ω n .runtime).2)
  | failed (p : ProgInfo) (hp : acc.2.findProg n = some p) (hpid : p.inst.pid = none)
      (hfalse : (acc.2.realSpawnProg ω n .runtime).1 = false) :
      SpawnOneEnds ω acc n
        (acc.1 ++ [n], (acc.2.realSpawnProg ω n .runtime).2.flagStartupFail n)

theorem spawnOne_ends (ω : System) (acc : List String × Server) (n : String) :
    SpawnOneEnds ω acc n (spawnOne ω acc n) := by
  unfold spawnOne
  split
  · rename_i hnone
    exact .skipped fun p hp => by cases hnone.symm.trans hp
  · rename_i p hp
    split
    · rename_i hl
      refine .skipped fun q hq => ?_
      cases hp.symm.trans hq
      exact hl
    · rename_i hl
      have hpid : p.inst.pid = none := by simpa [ProgInfo.live] using hl
      dsimp only
      split
      · rename_i htrue
        exact .spawned p hp hpid htrue
      · rename_i hfalse
        exact .failed p hp hpid (Bool.not_eq_true _ ▸ hfalse)

theorem not_live {p : ProgInfo} (hpid : p.inst.pid = none) : ¬p.live = true := by
  simp [ProgInfo.live, hpid]

theorem spawnOne_calm {acc : List String × Server} (ha : (acc.2.view g).Active)
    (hw : Wanted acc.2.toRegistry n) :
    Calm (acc.2.view g) ((spawnOne ω acc n).2.view g) := by
  have hends := spawnOne_ends ω acc n
  generalize spawnOne ω acc n = result at hends ⊢
  cases hends with
  | skipped => exact .refl _
  | spawned p hp hpid => exact realSpawnProg_calm .runtime hp hpid ha hw.1
  | failed p hp hpid hfalse =>
    have hcalm := realSpawnProg_calm (ω := ω) .runtime hp hpid ha hw.1
    obtain ⟨p', hp', hns⟩ := realSpawnProg_false hp hpid hfalse
    refine hcalm.trans (flagStartupFail_calm hp' (.inl ⟨hns.pid, .inl ⟨?_, ?_⟩, ?_⟩))
    · unfold view View.requested Registry.requested
      rw [realSpawnProg_runtime.1, realSpawnProg_runtime.2]
      exact hw.1
    · unfold view View.rtState Registry.runtimeState
      rw [realSpawnProg_runtime.1, realSpawnProg_runtime.2]
      exact hw.not_ready hp (not_live hpid)
    · exact ⟨.runtime, acc.2.toRegistry, p, by simp, realSpawnProg_seen, hp, hns.terminating⟩

theorem spawnOne_wanted {acc : List String × Server} (hw : Wanted acc.2.toRegistry n)
    (hm : Wanted acc.2.toRegistry m) : Wanted (spawnOne ω acc n).2.toRegistry m := by
  have hlive : ∀ {p : ProgInfo}, acc.2.findProg n = some p → p.inst.pid = none →
      Wanted (acc.2.realSpawnProg ω n .runtime).2.toRegistry m := by
    intro p hp hpid
    refine hm.of_runtime realSpawnProg_runtime.1 realSpawnProg_runtime.2 fun q hq hlq => ?_
    refine ⟨q, ?_, hlq⟩
    rw [realSpawnProg_find_ne]
    · exact hq
    · rintro rfl
      cases hp.symm.trans hq
      exact not_live hpid hlq
  have hends := spawnOne_ends ω acc n
  generalize spawnOne ω acc n = result at hends ⊢
  cases hends with
  | skipped => exact hm
  | spawned p hp hpid => exact hlive hp hpid
  | failed p hp hpid hfalse =>
    obtain ⟨p', hp', hns⟩ := realSpawnProg_false hp hpid hfalse
    obtain ⟨hsp, -⟩ := flagStartupFail_rest hp'
    refine (hlive hp hpid).markFailed flagStartupFail_runtime flagStartupFail_graph
      (fun hne => hsp m hne) ?_
    rintro rfl
    unfold Registry.runtimeState
    rw [realSpawnProg_runtime.1, realSpawnProg_runtime.2]
    exact hw.not_ready hp (not_live hpid)

/-- `spawn0` leaves alone what it is not asked for and what has a root process. -/
theorem spawnOne_spared {acc : List String × Server}
    (h : m ≠ n ∨ ∃ q, acc.2.findProg m = some q ∧ q.live = true) :
    Spared acc.2.toRegistry (spawnOne ω acc n).2.toRegistry m := by
  have hne : ∀ {p : ProgInfo}, acc.2.findProg n = some p → p.inst.pid = none → m ≠ n := by
    intro p hp hpid
    rcases h with h | ⟨q, hm, hl⟩
    · exact h
    · rintro rfl
      cases hm.symm.trans hp
      exact not_live hpid hl
  have hends := spawnOne_ends ω acc n
  generalize spawnOne ω acc n = result at hends ⊢
  cases hends with
  | skipped => exact .of_find rfl
  | spawned p hp hpid => exact .of_find (realSpawnProg_find_ne (hne hp hpid))
  | failed p hp hpid hfalse =>
    obtain ⟨p', hp', -⟩ := realSpawnProg_false hp hpid hfalse
    have hspawn : Spared acc.2.toRegistry (acc.2.realSpawnProg ω n .runtime).2.toRegistry m :=
      .of_find (realSpawnProg_find_ne (hne hp hpid))
    exact hspawn.trans ((flagStartupFail_rest hp').1 m (hne hp hpid))

theorem Active.of_calm {v v' : View} (h : Calm v v') (ha : v.Active) (hg : v'.ghost = v.ghost) :
    v'.Active := by
  unfold View.Active
  rw [h.exit, hg]
  exact ha

theorem spawnFold_calm (names : List String) (acc : List String × Server)
    (ha : (acc.2.view g).Active) (hw : ∀ n ∈ names, Wanted acc.2.toRegistry n) :
    Calm (acc.2.view g) ((names.foldl (spawnOne ω) acc).2.view g) := by
  induction names generalizing acc with
  | nil => exact .refl _
  | cons n names ih =>
    have hn := hw n (by simp)
    have hcalm := spawnOne_calm (ω := ω) ha hn
    exact hcalm.trans (ih _ (Active.of_calm hcalm ha rfl) fun m hm =>
      spawnOne_wanted hn (hw m (by simp [hm])))

theorem spawnFold_spared (names : List String) (acc : List String × Server)
    (h : m ∉ names ∨ ∃ q, acc.2.findProg m = some q ∧ q.live = true) :
    Spared acc.2.toRegistry (names.foldl (spawnOne ω) acc).2.toRegistry m := by
  induction names generalizing acc with
  | nil => exact .of_find rfl
  | cons n names ih =>
    have hn := spawnOne_spared (ω := ω) (n := n) (h.imp_left fun hm => List.ne_of_not_mem_cons hm)
    exact hn.trans (ih _ (h.imp (fun hm => List.not_mem_of_not_mem_cons hm) hn.live))

structure Unlocked (r : Registry) (n : String) : Prop where
  wanted : Wanted r n
  registered : ∃ p, r.findProg n = some p
  ready : ∀ d ∈ r.dependencyGraph.dependencyNames n, r.runtimeState d = .ready

theorem spawn0_calm (ha : (s.view g).Active) (h : ∀ n ∈ names, Unlocked s.toRegistry n)
    (hr : ∀ n ∈ names, (s.view g).Released n) :
    Calm (s.view g) ((s.spawn0 ω names).2.view g) := by
  have hrec : Calm (s.view g) ((s.record (.spawn0 names)).view g) := by
    refine calm_record ⟨ha, fun n hn => ⟨?_, (h n hn).ready, hr n hn⟩⟩ id
    obtain ⟨p, hp⟩ := (h n hn).registered
    exact ⟨_, Registry.core_of_find hp⟩
  exact hrec.trans (spawnFold_calm names ([], s.record (.spawn0 names)) ha
    fun n hn => (h n hn).wanted)

theorem spawn0_spared (h : m ∉ names ∨ ∃ q, s.findProg m = some q ∧ q.live = true) :
    Spared s.toRegistry (s.spawn0 ω names).2.toRegistry m :=
  spawnFold_spared names ([], s.record (.spawn0 names)) h

def Waiting (s : Server) (n : String) : Prop :=
  DependencyRuntime.Waits s.dependencyGraph s.dependencyRuntime n

theorem spawnOne_waiting {acc : List String × Server} (h : acc.2.Waiting m) :
    (spawnOne ω acc n).2.Waiting m := by
  have hspawn : (acc.2.realSpawnProg ω n .runtime).2.Waiting m := by
    rw [Waiting, realSpawnProg_runtime.1, realSpawnProg_runtime.2]
    exact h
  have hends := spawnOne_ends ω acc n
  generalize spawnOne ω acc n = result at hends ⊢
  cases hends with
  | skipped => exact h
  | spawned => exact hspawn
  | failed =>
    rw [Waiting, flagStartupFail_runtime, flagStartupFail_graph]
    exact DependencyRuntime.waits_markFailed hspawn n

theorem spawn0_waiting (names : List String) (h : s.Waiting m) :
    (s.spawn0 ω names).2.Waiting m := by
  have hfold : ∀ (names : List String) (acc : List String × Server), acc.2.Waiting m →
      (names.foldl (spawnOne ω) acc).2.Waiting m := by
    intro names
    induction names with
    | nil => exact fun _ h => h
    | cons n names ih => exact fun acc h => ih _ (spawnOne_waiting h)
  exact hfold names ([], s.record (.spawn0 names)) h

end Server
end PmTiny
