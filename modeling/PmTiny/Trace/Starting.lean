import PmTiny.Trace.Spawning

namespace PmTiny
set_option autoImplicit true

namespace Server

variable {s s' s'' : Server} {ω : System} {g g' : Ghost} {id : Nat}

theorem markReady_calm (hp : s.findProg n = some p) (h : MayReady (s.view g) n p.core)
    (hs : g.saved = none) : Calm (s.view g) ((s.markReady n).2.view g) :=
  Calm.runtime (v := s.view g) (.ready n (Registry.core_of_find hp) h hs)

def reportOne (acc : List String × Server) (name : String) : List String × Server :=
  let unlocked := acc.2.markReady name
  (acc.1 ++ unlocked.1, unlocked.2)

/-- What the reporting loop of `spawn1` keeps. -/
structure Reports (names : List String) (acc : List String × Server) : Prop where
  unlocked : ∀ n ∈ acc.1, Wanted acc.2.toRegistry n ∧
    ∀ d ∈ acc.2.dependencyGraph.dependencyNames n, acc.2.runtimeState d = .ready
  reported : ∀ n ∈ names, (∃ p, acc.2.findProg n = some p ∧ p.live = true) ∨
    acc.2.requested n = false ∨ acc.2.runtimeState n = .ready

theorem requested_markReady :
    (s.markReady n).2.requested m = true ↔
      s.requested m = true ∨ m = n ∧ n ∈ s.dependencyGraph.names :=
  DependencyRuntime.requested_markReady

theorem ready_markReady :
    (s.markReady n).2.runtimeState m = .ready ↔
      s.runtimeState m = .ready ∨ m = n ∧ n ∈ s.dependencyGraph.names :=
  DependencyRuntime.ready_markReady

theorem Reports.step {acc : List String × Server} (h : Reports names acc) (hm : m ∈ names) :
    Reports names (reportOne acc m) := by
  constructor
  · intro n hn
    rcases List.mem_append.1 hn with hn | hn
    · obtain ⟨⟨hr, hl⟩, hd⟩ := h.unlocked n hn
      refine ⟨⟨requested_markReady.2 (.inl hr), fun hready => ?_⟩,
        fun d hd' => ready_markReady.2 (.inl (hd d hd'))⟩
      rcases ready_markReady.1 hready with hready | ⟨rfl, -⟩
      · exact hl hready
      · rcases h.reported n hm with hlive | hreq | hready
        · exact hlive
        · rw [hreq] at hr
          cases hr
        · exact hl hready
    · obtain ⟨hr, hs, hd⟩ := DependencyRuntime.markReady_handed hn
      refine ⟨⟨hr, fun hready => ?_⟩, hd⟩
      have := hs.symm.trans hready
      cases this
  · intro n hn
    rcases h.reported n hn with hlive | hreq | hready
    · exact .inl hlive
    · by_cases hnm : n = m ∧ m ∈ acc.2.dependencyGraph.names
      · exact .inr (.inr (ready_markReady.2 (.inr hnm)))
      · refine .inr (.inl (Bool.eq_false_iff.2 fun hr => ?_))
        rcases requested_markReady.1 hr with hr | hr
        · rw [hreq] at hr
          cases hr
        · exact hnm hr
    · exact .inr (.inr (ready_markReady.2 (.inl hready)))

theorem Reports.foldl {all : List String} (names : List String) (hsub : ∀ n ∈ names, n ∈ all)
    {acc : List String × Server} (h : Reports all acc) :
    Reports all (names.foldl reportOne acc) := by
  induction names generalizing acc with
  | nil => exact h
  | cons m names ih =>
    exact ih (fun n hn => hsub n (by simp [hn])) (h.step (hsub m (by simp)))

theorem reportFold_calm (names : List String) (acc : List String × Server) (hs : g.saved = none)
    (h : ∀ n ∈ names, ∃ p, acc.2.findProg n = some p ∧ MayReady (acc.2.view g) n p.core) :
    Calm (acc.2.view g) ((names.foldl reportOne acc).2.view g) := by
  induction names generalizing acc with
  | nil => exact .refl _
  | cons m names ih =>
    obtain ⟨p, hp, hr⟩ := h m (by simp)
    exact (markReady_calm hp hr hs).trans (ih (reportOne acc m) fun n hn => h n (by simp [hn]))

theorem reportFold_rest (names : List String) (acc : List String × Server) :
    (∀ m, (names.foldl reportOne acc).2.findProg m = acc.2.findProg m) ∧
      (∀ m ∉ names, acc.2.requested m = false →
        (names.foldl reportOne acc).2.requested m = false) := by
  induction names generalizing acc with
  | nil => exact ⟨fun m => rfl, fun m _ h => h⟩
  | cons n names ih =>
    obtain ⟨hfind, hreq⟩ := ih (reportOne acc n)
    refine ⟨fun m => hfind m, fun m hm hr => ?_⟩
    rw [List.mem_cons, not_or] at hm
    refine hreq m hm.2 (Bool.eq_false_iff.2 fun h => ?_)
    rcases requested_markReady.1 h with h | h
    · rw [hr] at h
      cases h
    · exact hm.1 h.1

/-- A program that waits, or that is blocked above a reported one. -/
def Held (r : Registry) (names : List String) (m : String) : Prop :=
  r.runtimeState m = .pending ∨ r.runtimeState m = .blocked ∧
    ∃ n ∈ names, DependencyRuntime.Below r.dependencyGraph n m

/-- How far the reporting loop of `spawn1` is from the registry that it started with. -/
structure ReportsFrom (r : Registry) (names : List String) (acc : List String × Server) : Prop where
  progs : acc.2.pmTinyProgs = r.pmTinyProgs
  graph : acc.2.dependencyGraph = r.dependencyGraph
  ready : ∀ d, acc.2.runtimeState d = .ready → r.runtimeState d = .ready ∨ d ∈ names
  pending : ∀ m, acc.2.runtimeState m = .pending → Held r names m
  blocked : ∀ m, acc.2.runtimeState m = .blocked → r.runtimeState m = .blocked
  handed : ∀ m ∈ acc.1, Held r names m

theorem ReportsFrom.step {r : Registry} {acc : List String × Server} (h : ReportsFrom r names acc)
    (hn : n ∈ names) : ReportsFrom r names (reportOne acc n) := by
  have hheld : ∀ m, m ∈ (acc.2.markReady n).1 ∨ (acc.2.markReady n).2.runtimeState m = .pending →
      Held r names m := by
    intro m hm
    rcases DependencyRuntime.waiting_of_markReady hm with hm | ⟨hm, hbelow⟩
    · exact h.pending m hm
    · rw [h.graph] at hbelow
      exact .inr ⟨h.blocked m hm, n, hn, hbelow⟩
  refine ⟨h.progs, h.graph, fun d hd => ?_, fun m hm => hheld m (.inr hm), fun m hm => ?_,
    fun m hm => ?_⟩
  · rcases ready_markReady.1 hd with hd | ⟨rfl, -⟩
    · exact h.ready d hd
    · exact .inr hn
  · exact h.blocked m (DependencyRuntime.blocked_of_markReady hm)
  · rcases List.mem_append.1 hm with hm | hm
    · exact h.handed m hm
    · exact hheld m (.inl hm)

theorem ReportsFrom.foldl {r : Registry} (names : List String) (hsub : ∀ n ∈ names, n ∈ all)
    {acc : List String × Server} (h : ReportsFrom r all acc) :
    ReportsFrom r all (names.foldl reportOne acc) := by
  induction names generalizing acc with
  | nil => exact h
  | cons m names ih =>
    exact ih (fun n hn => hsub n (by simp [hn])) (h.step (hsub m (by simp)))

theorem reportFold_history (names : List String) (acc : List String × Server) :
    (names.foldl reportOne acc).2.history = acc.2.history := by
  induction names generalizing acc with
  | nil => rfl
  | cons n names ih => exact ih (reportOne acc n)

theorem ReportsFrom.released {acc : List String × Server} (h : ReportsFrom s.toRegistry names acc)
    (hh : acc.2.history = (s.record (.spawn1 names site)).history) (hm : m ∈ acc.1)
    (hd : ∀ d ∈ acc.2.dependencyGraph.dependencyNames m, acc.2.runtimeState d = .ready) :
    (acc.2.view g).Released m := by
  refine .inr ⟨⟨.spawn1 names site, s.toRegistry⟩, ?_,
    ⟨h.handed m hm, fun d hd' => ?_⟩, h.graph.symm,
    fun d _ => ?_⟩
  · rw [view, hh]
    exact List.mem_cons_self
  · exact h.ready d (hd d (h.graph ▸ hd'))
  · rw [view, Registry.findProg, Registry.findProg, h.progs]

/-- A program that may be reported to `spawn1`. -/
structure Reportable (v : View) (n : String) (p : ProgInfo) : Prop where
  found : v.reg.findProg n = some p
  ready : MayReady v n p.core
  settled : p.live = true ∨ v.requested n = false

theorem spawn1_calm (ha : (s.view g).Active) (hs : g.saved = none)
    (h : ∀ n ∈ names, ∃ p, Reportable ((s.record (.spawn1 names site)).view g) n p) :
    Calm (s.view g) ((s.spawn1 ω names site).view g) := by
  have hrec : Calm (s.view g) ((s.record (.spawn1 names site)).view g) := calm_record trivial id
  unfold spawn1
  extract_lets s₁ acc startProgs
  have hfold : Calm (s₁.view g) (acc.2.view g) := by
    refine reportFold_calm names ([], s₁) hs fun n hn => ?_
    obtain ⟨p, hp⟩ := h n hn
    exact ⟨p, hp.found, hp.ready⟩
  have hreports : Reports names acc := by
    refine Reports.foldl names (fun _ hn => hn) ⟨by simp, fun n hn => ?_⟩
    obtain ⟨p, hp⟩ := h n hn
    exact hp.settled.imp (fun hl => ⟨p, hp.found, hl⟩) .inl
  split
  · exact hrec.trans hfold
  · refine (hrec.trans hfold).trans (spawn0_calm (Active.of_calm (hrec.trans hfold) ha rfl)
      (fun n hn => ?_) fun n hn => ?_)
    · obtain ⟨hmem, hfound⟩ := List.mem_filter.1 hn
      obtain ⟨hw, hd⟩ := hreports.unlocked n hmem
      exact ⟨hw, Option.isSome_iff_exists.1 hfound, hd⟩
    · have hmem := (List.mem_filter.1 hn).1
      have hfrom : ReportsFrom s.toRegistry names acc :=
        .foldl names (fun _ hn => hn) ⟨rfl, rfl, fun _ => .inl, fun _ => .inl, fun _ => id, by simp⟩
      exact hfrom.released (reportFold_history names ([], s₁)) hmem (hreports.unlocked n hmem).2

theorem spawn1_spared
    (h : ∀ n ∈ names, ∃ p, Reportable ((s.record (.spawn1 names site)).view g) n p)
    (hm : m ∉ names) (hr : s.requested m = false) :
    Spared s.toRegistry (s.spawn1 ω names site).toRegistry m := by
  unfold spawn1
  extract_lets s₁ acc startProgs
  obtain ⟨hfind, hreq⟩ := reportFold_rest names ([], s₁)
  have hfold : Spared s.toRegistry acc.2.toRegistry m := .of_find (hfind m)
  have hreports : Reports names acc := by
    refine Reports.foldl names (fun _ hn => hn) ⟨by simp, fun n hn => ?_⟩
    obtain ⟨p, hp⟩ := h n hn
    exact hp.settled.imp (fun hl => ⟨p, hp.found, hl⟩) .inl
  split
  · exact hfold
  · refine hfold.trans (spawn0_spared (.inl fun hn => ?_))
    have hw := (hreports.unlocked m (List.mem_filter.1 hn).1).1.1
    cases hw.symm.trans (hreq m hm hr)

theorem startProg_eq (site : SpawnSite) (hp : s.findProg n = some p) (hpid : p.inst.pid = none) :
    (s.startProg ω n site).1 = some (s.realSpawnProg ω n site).1 ∧
      Talks (s.realSpawnProg ω n site).2 (s.startProg ω n site).2 := by
  have hl : ¬(s.findProg n).any (·.live) = true := by
    rw [hp]
    simp [ProgInfo.live, hpid]
  unfold startProg
  rw [if_neg hl]
  refine ⟨rfl, ?_⟩
  dsimp only
  split
  · exact talks_activatePendingLogSessions
  · exact .refl _

def waitOne (s : Server) (name : String) : Server :=
  if s.runtimeState name = .pending then
    (s.record (.waitingStart name)).setProg name (·.setState .waitingStart)
  else s

theorem waitOne_calm (hq : (s.view g).Quiet) (ho : g.Outside) :
    Calm (s.view g) ((s.waitOne n).view g) := by
  unfold waitOne
  split
  · rename_i hpend
    have hrec : Calm (s.view g) ((s.record (.waitingStart n)).view g) := calm_record trivial id
    refine hrec.trans (calm_setProg (keeps_setState _) fun p _ => ?_)
    exact .waiting (List.mem_cons_self ..) hpend (hrec.quiet hq) ho
  · exact .refl _

theorem waitFold_calm (names : List String) (hq : (s.view g).Quiet) (ho : g.Outside) :
    Calm (s.view g) ((names.foldl waitOne s).view g) := by
  induction names generalizing s with
  | nil => exact .refl _
  | cons n names ih =>
    have hcalm := waitOne_calm (n := n) hq ho
    exact hcalm.trans (ih (hcalm.quiet hq))

theorem waitFold_runtime (names : List String) :
    (names.foldl waitOne s).dependencyRuntime = s.dependencyRuntime ∧
      (names.foldl waitOne s).dependencyGraph = s.dependencyGraph := by
  induction names generalizing s with
  | nil => exact ⟨rfl, rfl⟩
  | cons n names ih =>
    have hone : (s.waitOne n).dependencyRuntime = s.dependencyRuntime ∧
        (s.waitOne n).dependencyGraph = s.dependencyGraph := by
      unfold waitOne
      split <;> exact ⟨rfl, rfl⟩
    exact ⟨(ih (s := s.waitOne n)).1.trans hone.1, (ih (s := s.waitOne n)).2.trans hone.2⟩

theorem markWaiting_calm (hq : (s.view g).Quiet) (ho : g.Outside) :
    Calm (s.view g) (s.markWaiting.view g) := waitFold_calm _ hq ho

theorem markWaiting_runtime : s.markWaiting.dependencyRuntime = s.dependencyRuntime :=
  (waitFold_runtime _).1

theorem markWaiting_graph : s.markWaiting.dependencyGraph = s.dependencyGraph :=
  (waitFold_runtime _).2

theorem markWaiting_find (hp : s.findProg n = some p) :
    ∃ p', s.markWaiting.findProg n = some p' ∧ p'.core.proc = p.core.proc := by
  have hfold : ∀ (names : List String) (s : Server) (p : ProgInfo), s.findProg n = some p →
      ∃ p', (names.foldl waitOne s).findProg n = some p' ∧ p'.core.proc = p.core.proc := by
    intro names
    induction names with
    | nil => exact fun _ p hp => ⟨p, hp, rfl⟩
    | cons m names ih =>
      intro s p hp
      have hone : ∃ p', (s.waitOne m).findProg n = some p' ∧ p'.core.proc = p.core.proc := by
        unfold waitOne
        split
        · by_cases hm : n = m
          · subst m
            exact ⟨_, findProg_setProg (s := s.record (.waitingStart n)) (keeps_setState _) hp, rfl⟩
          · refine ⟨p, ?_, rfl⟩
            rw [findProg_setProg_ne (keeps_setState _) hm]
            exact hp
        · exact ⟨p, hp, rfl⟩
      obtain ⟨p', hp', hproc⟩ := hone
      obtain ⟨p'', hp'', hproc'⟩ := ih (s.waitOne m) p' hp'
      exact ⟨p'', hp'', hproc'.trans hproc⟩
  exact hfold _ s p hp

theorem markWaiting_same (hd : s.runtimeState d ≠ .pending) :
    s.markWaiting.findProg d = s.findProg d := by
  have hfold : ∀ (names : List String) (s : Server), s.runtimeState d ≠ .pending →
      (names.foldl waitOne s).findProg d = s.findProg d := by
    intro names
    induction names with
    | nil => exact fun _ _ => rfl
    | cons n names ih =>
      intro s hd
      have hone : (s.waitOne n).findProg d = s.findProg d ∧
          (s.waitOne n).runtimeState d = s.runtimeState d := by
        unfold waitOne
        split
        · rename_i hpend
          refine ⟨findProg_setProg_ne (s := s.record _) (keeps_setState _) ?_, rfl⟩
          rintro rfl
          exact hd hpend
        · exact ⟨rfl, rfl⟩
      exact (ih (s.waitOne n) (by rwa [hone.2])).trans hone.1
  exact hfold _ s hd

theorem markWaiting_history (he : e ∈ s.history) : e ∈ s.markWaiting.history := by
  have hfold : ∀ (names : List String) (s : Server), e ∈ s.history →
      e ∈ (names.foldl waitOne s).history := by
    intro names
    induction names with
    | nil => exact fun _ he => he
    | cons n names ih =>
      intro s he
      refine ih (s.waitOne n) ?_
      unfold waitOne
      split
      · exact List.mem_cons_of_mem _ he
      · exact he
  exact hfold _ s he

theorem requestClosure_calm (hq : (s.view g).Quiet) (ha : (s.view g).Active) (ho : g.Outside) :
    Calm (s.view g) ((s.requestClosure n).2.view g) := by
  have hrec : Calm (s.view g) ((s.record (.requestClosure n)).view g) := calm_record trivial id
  exact hrec.trans (Calm.runtime (v := (s.record (.requestClosure n)).view g)
    (.closure n (List.mem_cons_self ..) (hrec.quiet hq) ha ho))

theorem unlocked_of_handed
    (h : ∀ n ∈ names, DependencyRuntime.Handed s.dependencyGraph s.dependencyRuntime n)
    (hn : n ∈ s.progsFromNames names) : Unlocked s.toRegistry n := by
  obtain ⟨hmem, hfound⟩ := List.mem_filter.1 hn
  obtain ⟨hr, hs, hd⟩ := h n hmem
  refine ⟨⟨hr, fun hready => ?_⟩, Option.isSome_iff_exists.1 hfound, hd⟩
  have := hs.symm.trans hready
  cases this

theorem released_of_closure (hm : m ∈ (s.requestClosure n).1) :
    ((s.requestClosure n).2.markWaiting.view g).Released m := by
  obtain ⟨-, -, hd⟩ := DependencyRuntime.requestClosure_handed hm
  have hready : ∀ d ∈ s.dependencyGraph.dependencyNames m, s.runtimeState d = .ready := fun d hd' =>
    ((DependencyRuntime.requestClosure_advances _ _ n).ready d).1 (hd d hd')
  have hgraph : (s.requestClosure n).2.markWaiting.dependencyGraph = s.dependencyGraph :=
    markWaiting_graph
  refine .inr ⟨⟨.requestClosure n, s.toRegistry⟩, markWaiting_history List.mem_cons_self,
    ⟨DependencyRuntime.entered_of_requestClosure hm, hready⟩, hgraph.symm, fun d hd' => ?_⟩
  rw [view, hgraph] at hd'
  refine (markWaiting_same (s := (s.requestClosure n).2) ?_).symm
  rw [show (s.requestClosure n).2.runtimeState d = .ready from hd d hd']
  decide

theorem closure_calm (hq : (s.view g).Quiet) (ha : (s.view g).Active) (ho : g.Outside) :
    Calm (s.view g) (((s.requestClosure n).2.markWaiting.spawn0 ω
      ((s.requestClosure n).2.markWaiting.progsFromNames (s.requestClosure n).1)).2.view g) := by
  have hclosure := requestClosure_calm (n := n) hq ha ho
  have hwait := markWaiting_calm (hclosure.quiet hq) ho
  have hcalm := hclosure.trans hwait
  refine hcalm.trans (spawn0_calm (Active.of_calm hcalm ha rfl) (fun m hm => ?_) fun m hm => ?_)
  · refine unlocked_of_handed (fun k hk => ?_) hm
    rw [markWaiting_runtime, show (s.requestClosure n).2.markWaiting.dependencyGraph = _ from
      hwait.graph]
    exact DependencyRuntime.requestClosure_handed hk
  · exact released_of_closure (List.mem_filter.1 hm).1

/-- The names of the running programs. -/
def running (s : Server) : List String := (s.pmTinyProgs.filter (·.state = .runing)).map (·.name)

theorem markRunning_eq : s.markRunning =
    s.setRuntime (s.dependencyRuntime.markAllReady s.dependencyGraph s.running) := by
  have hfold : ∀ (l : List ProgInfo) (s : Server),
      l.foldl (fun s existing =>
        if existing.state = .runing then (s.markReady existing.name).2 else s) s =
      s.setRuntime (s.dependencyRuntime.markAllReady s.dependencyGraph
        ((l.filter (·.state = .runing)).map (·.name))) := by
    intro l
    induction l with
    | nil => exact fun _ => rfl
    | cons p l ih =>
      intro s
      rw [List.foldl_cons, List.filter_cons]
      split
      · rename_i hrun
        rw [if_pos (decide_eq_true hrun)]
        exact ih (s.markReady p.name).2
      · rename_i hrun
        rw [if_neg (by simpa using hrun)]
        exact ih s
  exact hfold s.pmTinyProgs s

theorem mem_running (hn : (s.pmTinyProgs.map (·.name)).Nodup) (hp : s.findProg m = some p) :
    m ∈ s.running ↔ p.state = .runing := by
  constructor
  · intro hm
    obtain ⟨q, hq, rfl⟩ := List.mem_map.1 hm
    obtain ⟨hmem, hrun⟩ := List.mem_filter.1 hq
    cases hp.symm.trans (Keyed.find_of_mem hn hmem)
    exact of_decide_eq_true hrun
  · intro hrun
    refine List.mem_map.2 ⟨p, List.mem_filter.2 ⟨Keyed.mem_of_find hp, decide_eq_true hrun⟩, ?_⟩
    exact Keyed.key_of_find hp

theorem markRunning_calm (hn : (s.pmTinyProgs.map (·.name)).Nodup) (hs : g.saved = none) :
    Calm (s.view g) (s.markRunning.view g) := by
  have hfold : ∀ (l : List ProgInfo) (s' : Server), (∀ p ∈ l, p ∈ s.pmTinyProgs) →
      s'.pmTinyProgs = s.pmTinyProgs →
      Calm (s'.view g) ((l.foldl (fun s existing =>
        if existing.state = .runing then (s.markReady existing.name).2 else s) s').view g) := by
    intro l
    induction l with
    | nil => exact fun s' _ _ => .refl _
    | cons p l ih =>
      intro s' hsub he
      have hsub' : ∀ q ∈ l, q ∈ s.pmTinyProgs := fun q hq => hsub q (by simp [hq])
      rw [List.foldl_cons]
      split
      · rename_i hrun
        have hp : s'.findProg p.name = some p := by
          unfold Registry.findProg
          rw [he]
          exact Keyed.find_of_mem hn (hsub p (by simp))
        exact (markReady_calm hp (.inl hrun) hs).trans (ih _ hsub' he)
      · exact ih s' hsub' he
  exact hfold _ s (fun _ hp => hp) rfl

theorem requestStart_calm (hb : Base (s.view g)) (hq : (s.view g).Quiet) (ha : (s.view g).Active)
    (hs : g.saved = none) (ho : g.Outside) :
    Calm (s.view g) ((s.requestStart ω n).2.view g) := by
  have hrun := markRunning_calm (s := s) (g := g) hb.nodup hs
  exact hrun.trans (closure_calm (hrun.quiet hq) (Active.of_calm hrun ha rfl) ho)

theorem rebuildDependencyGraph_moves (hb : Base (s.view g)) (hs : g.saved = none) :
    Moves (s.view g) (s.rebuildDependencyGraph.view { g with dropped := [] }) := by
  unfold rebuildDependencyGraph
  split
  · rename_i e hbuild
    exact .single (.registry (v := s.view g) (.stale e hbuild))
  · rename_i graph hbuild
    have hmove : Move (s.view g) (view { s with
        dependencyGraph := graph, dependencyRuntime := .reset } { g with dropped := [] }) :=
      .registry (v := s.view g) (.rebuilt graph hs hbuild)
    exact hmove.moves.trans (markRunning_calm (s := { s with
      dependencyGraph := graph, dependencyRuntime := .reset }) (g := { g with dropped :=
        [] }) (hb.move hmove).nodup hs).moves

theorem removeProg_moves (hb : Base (s.view g)) (hn : n ∈ g.deleting) (hs : g.saved = none)
    (ha : g.accepted = []) :
    Moves (s.view g) ((s.removeProg ω n).view
      { g with deleting := g.deleting.erase n, dropped := [] }) := by
  unfold removeProg
  extract_lets s₁
  have hdrop : Move (s.view g) (s₁.view
      { g with deleting := g.deleting.erase n, dropped := n :: g.dropped }) :=
    .registry (v := s.view g) (.drop n hn hs ha)
  have htalks : Talks s₁ (s₁.detachSessions ω n) := talks_detachSessions
  have hdetach := htalks.calm { g with deleting := g.deleting.erase n, dropped := n :: g.dropped }
  have hb' := hdetach.base (hb.move hdrop)
  exact (hdrop.moves.trans hdetach.moves).trans (rebuildDependencyGraph_moves hb' hs)

theorem spawn_moves (hf : ∀ n c, s.toRegistry.core n = some c → c.Fresh) (hx : s.serverExit = false)
    (hrt : s.dependencyRuntime = .reset) :
    Moves (s.view { mark := mark }) ((s.spawn ω).view { mark := mark }) := by
  unfold spawn
  extract_lets s₁ all s₂
  have hall : Move (s.view { mark := mark }) (s₂.view { mark := mark }) :=
    .registry (v := s.view { mark := mark }) (.spawnAll hf ⟨hx, rfl, rfl⟩ rfl hrt)
  have ha : (s₂.view { mark := mark }).Active := ⟨hx, rfl, rfl⟩
  refine hall.moves.trans (spawn0_calm ha (fun n hn => ?_) fun n hn => .inl ?_).moves
  · exact unlocked_of_handed (fun m hm => DependencyRuntime.requestAll_handed hm) hn
  · -- Nothing is ready at the first start, so what is handed out has no dependencies.
    obtain ⟨-, -, hd⟩ := DependencyRuntime.requestAll_handed (List.mem_filter.1 hn).1
    refine List.eq_nil_iff_forall_not_mem.2 fun d hdep => ?_
    exact DependencyRuntime.requestAll_ready (by simp [DependencyRuntime.reset]) d (hd d hdep)

theorem startAndAddProg_moves (hb : Base (s.view g)) (hf : prog.core.Fresh) (hq : (s.view g).Quiet)
    (ha : (s.view g).Active) (ho : g.Outside) (hs : g.saved = none) (hd : g.dropped = []) :
    Moves (s.view g) ((s.startAndAddProg ω prog).2.view g) := by
  unfold startAndAddProg
  extract_lets s₁ runtimeSnapshot
  have hrec : Calm (s.view g) (s₁.view g) := calm_record trivial id
  split
  · exact hrec.moves
  · rename_i graph hbuild
    extract_lets s₂ names s₃ result s₄ spawnErrno s₅ s₆
    have hadd : Move (s₁.view g) (s₂.view { g with
        saved := some ⟨prog.name, s₁.dependencyGraph, s₁.dependencyRuntime⟩ }) :=
      .registry (v := s₁.view g)
        (.add prog graph hbuild hf ha (hrec.quiet hq) ho hs hd (List.mem_cons_self ..))
    have hadded := hrec.moves.trans hadd.moves
    have hquiet : (s₂.view { g with
        saved := some ⟨prog.name, s₁.dependencyGraph, s₁.dependencyRuntime⟩ }).Quiet :=
      (hrec.quiet hq).of_fresh rfl rfl
    have hstart := closure_calm (ω := ω) (n := prog.name) hquiet ha
      ⟨ho.pendding, ho.deleting, ho.accepted, ho.settling⟩
    have hdone := hadded.trans hstart.moves
    have hnone : { g with saved := none } = g := by rw [← hs]
    split
    · have hwaits : s₄.Waiting prog.name := by
        have hc : s₂.dependencyRuntime.Consistent :=
          (show s₁.dependencyRuntime.Consistent from hb.flags).migrate _ _
        refine spawn0_waiting _ ?_
        rw [Waiting, markWaiting_runtime, markWaiting_graph]
        exact DependencyRuntime.waits_requestClosure hc (.inl rfl)
      have hcommit : Move (s₄.view { g with
            saved := some ⟨prog.name, s₁.dependencyGraph, s₁.dependencyRuntime⟩ })
          (s₄.view { g with saved := none }) := by
        refine .ghost (v := s₄.view _) (.commit fun saved hsaved => ?_)
        cases hsaved
        exact hwaits
      rw [hnone] at hcommit
      exact hdone.trans hcommit.moves
    · have hroll : Move (s₄.view { g with
            saved := some ⟨prog.name, s₁.dependencyGraph, s₁.dependencyRuntime⟩ })
          ⟨s₄.toRegistry.rollback ⟨prog.name, s₁.dependencyGraph, s₁.dependencyRuntime⟩,
            { g with saved := none }, s₄.history⟩ :=
        .registry (v := s₄.view _) (.rollback _ rfl hd ho.accepted)
      have hsame : s₆.toRegistry =
            s₄.toRegistry.rollback ⟨prog.name, s₁.dependencyGraph, s₁.dependencyRuntime⟩ ∧
          s₆.history = s₄.history := by
        unfold Registry.rollback s₆
        dsimp only
        split <;> rename_i hb <;> simp only [Registry.dropProg] <;> rw [hb] <;> exact ⟨rfl, rfl⟩
      rw [hnone, ← hsame.1, ← hsame.2] at hroll
      exact hdone.trans hroll.moves

end Server
end PmTiny
