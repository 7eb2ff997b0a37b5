import PmTiny.Core.FailurePropagation
import PmTiny.Safety.RegistryGraph

namespace PmTiny
set_option autoImplicit true

def Registry.seen (r : Registry) (n : String) : Option (ProgState × Option Nat) :=
  (r.findProg n).map fun p => (p.state, p.inst.pid)

def Registry.pidOf (r : Registry) (n : String) : Option (Option Nat) := (r.seen n).map Prod.snd

/-- A registry after a failed create is like the one before it. -/
structure Registry.Restored (r r' : Registry) : Prop where
  names : r'.pmTinyProgs.map (·.name) = r.pmTinyProgs.map (·.name)
  graph : r'.dependencyGraph = r.dependencyGraph
  runtime : ∀ n ∈ r.pmTinyProgs.map (·.name),
    r'.runtimeState n = r.runtimeState n ∧ r'.requested n = r.requested n
  programs : ∀ n ∈ r.pmTinyProgs.map (·.name), r'.seen n = r.seen n

namespace Server

variable {s : Server} {ω : System} {n m k : String} {acc : List String × Server}

theorem seen_of_find (hp : s.findProg n = some p) : s.seen n = some (p.state, p.inst.pid) := by
  rw [Registry.seen, hp]
  rfl

theorem find_of_seen (h : s.seen n = some e) :
    ∃ p, s.findProg n = some p ∧ p.state = e.1 ∧ p.inst.pid = e.2 := by
  obtain ⟨p, hp, rfl⟩ := Option.map_eq_some_iff.1 h
  exact ⟨p, hp, rfl, rfl⟩

theorem seen_setProg_ne (hf : Keeps f) (hm : m ≠ n) : (s.setProg n f).seen m = s.seen m := by
  rw [Registry.seen, findProg_setProg_ne hf hm, Registry.seen]

theorem seen_setProg (hf : Keeps f) (hp : s.findProg n = some p) :
    (s.setProg n f).seen n = some ((f p).state, (f p).inst.pid) :=
  seen_of_find (findProg_setProg hf hp)

theorem seen_setState (s : Server) (n m : String) (state : ProgState) :
    (s.setProg n (·.setState state)).seen m =
      if m = n then (s.seen m).map fun e => (state, e.2) else s.seen m := by
  by_cases hm : m = n
  · subst hm
    rw [if_pos rfl]
    cases hp : s.findProg m with
    | none =>
      have hsame : (s.setProg m (·.setState state)).toRegistry = s.toRegistry :=
        Registry.setProg_absent hp
      rw [hsame, Registry.seen, hp]
      rfl
    | some p =>
      rw [seen_setProg (keeps_setState state) hp, seen_of_find hp]
      rfl
  · rw [if_neg hm, seen_setProg_ne (keeps_setState state) hm]

theorem seen_foldl {f : Server → String → Server} {P : Server → Prop} [DecidablePred P]
    (state : ProgState) (hP : ∀ s n, P (f s n) ↔ P s)
    (hone : ∀ s n, (f s n).seen m =
      if m = n ∧ P s then (s.seen m).map fun e => (state, e.2) else s.seen m)
    (names : List String) (s : Server) : (names.foldl f s).seen m =
      if m ∈ names ∧ P s then (s.seen m).map fun e => (state, e.2) else s.seen m := by
  induction names generalizing s with
  | nil => simp
  | cons n names ih =>
    rw [List.foldl_cons, ih, hone]
    simp only [hP]
    by_cases hs : P s
    · by_cases hm : m = n
      · by_cases hmem : m ∈ names
        · rw [if_pos ⟨hmem, hs⟩, if_pos ⟨hm, hs⟩, if_pos ⟨List.mem_cons_of_mem n hmem, hs⟩]
          cases s.seen m <;> rfl
        · rw [if_neg fun h => hmem h.1, if_pos ⟨hm, hs⟩, if_pos ⟨hm ▸ List.mem_cons_self, hs⟩]
      · simp [hm, hs]
    · simp [hs]

theorem waitOne_seen (s : Server) (n m : String) : (s.waitOne n).seen m =
    if m = n ∧ s.runtimeState m = .pending then (s.seen m).map fun e => (.waitingStart, e.2)
    else s.seen m := by
  unfold waitOne
  split
  · rename_i hpending
    rw [seen_setState]
    by_cases hm : m = n
    · subst hm
      rw [if_pos rfl, if_pos ⟨rfl, hpending⟩]
      rfl
    · rw [if_neg hm, if_neg fun h => hm h.1]
      rfl
  · rename_i hpending
    rw [if_neg]
    rintro ⟨rfl, h⟩
    exact hpending h

theorem markWaiting_seen (s : Server) (m : String) : s.markWaiting.seen m =
    if s.runtimeState m = .pending then (s.seen m).map fun e => (.waitingStart, e.2)
    else s.seen m := by
  have hfold := seen_foldl (m := m) (f := waitOne) (P := fun s => s.runtimeState m = .pending)
    .waitingStart (fun s n => by
      have hone := waitFold_runtime (s := s) [n]
      rw [Registry.runtimeState, Registry.runtimeState]
      rw [show (s.waitOne n).dependencyRuntime = _ from hone.1,
        show (s.waitOne n).dependencyGraph = _ from hone.2])
    (fun s n => waitOne_seen s n m) (s.pmTinyProgs.map (·.name)) s
  rw [show s.markWaiting = (s.pmTinyProgs.map (·.name)).foldl waitOne s from rfl, hfold]
  by_cases hmem : m ∈ s.pmTinyProgs.map (·.name)
  · simp only [hmem, true_and]
  · have hnone : s.seen m = none := by
      rw [Registry.seen, Registry.findProg, Keyed.find_eq_none.2]
      · rfl
      · rintro p hp rfl
        exact hmem (List.mem_map_of_mem hp)
    simp [hnone]

theorem blockProg_seen (s : Server) (n m : String) : (s.blockProg n).seen m =
    if m = n then (s.seen m).map fun e => (.blocked, e.2) else s.seen m := by
  unfold blockProg
  split
  · rename_i hnone
    by_cases hm : m = n
    · subst hm
      rw [if_pos rfl, Registry.seen, hnone]
      rfl
    · rw [if_neg hm]
  · exact seen_setState (s.record (.blocked n)) n m .blocked

theorem blockAll_seen (names : List String) (m : String) (s : Server) :
    (names.foldl blockProg s).seen m =
      if m ∈ names then (s.seen m).map fun e => (.blocked, e.2) else s.seen m := by
  have hfold := seen_foldl (m := m) (f := blockProg) (P := fun _ => True) .blocked
    (fun _ _ => .rfl) (fun s n => by simpa using blockProg_seen s n m) names s
  simpa using hfold

def failureBlocks (s : Server) (n : String) : List String :=
  (s.dependencyRuntime.markFailed s.dependencyGraph n).2.blocked

theorem flagStartupFail_seen (s : Server) (n m : String) :
    (s.flagStartupFail n).seen m =
      if m ∈ s.failureBlocks n then (s.seen m).map fun e => (.blocked, e.2)
      else if m = n then (s.seen m).map fun e => (.startupFail, e.2) else s.seen m := by
  unfold flagStartupFail
  extract_lets failure s₁
  have hset : s₁.seen m = if m = n then (s.seen m).map fun e => (.startupFail, e.2) else s.seen m :=
    seen_setState (s.setRuntime failure.1) n m .startupFail
  have hall : (failure.2.blocked.foldl blockProg s₁).seen m = if m ∈ s.failureBlocks n then
      (s₁.seen m).map fun e => (.blocked, e.2) else s₁.seen m := blockAll_seen _ m s₁
  rw [hall, hset]
  by_cases hmem : m ∈ s.failureBlocks n
  · rw [if_pos hmem, if_pos hmem]
    by_cases hm : m = n
    · rw [if_pos hm]
      cases s.seen m <;> rfl
    · rw [if_neg hm]
  · rw [if_neg hmem, if_neg hmem]

theorem realSpawnProg_failed (hp : s.findProg n = some p) (hpid : p.inst.pid = none)
    (h : (s.realSpawnProg ω n site).1 = false) :
    (∀ pid, ω.spawn s.ticks p ≠ .started pid) ∧
      ∀ m, (s.realSpawnProg ω n site).2.seen m = s.seen m := by
  have hends := realSpawnProg_ends ω s n site
  generalize s.realSpawnProg ω n site = result at h hends ⊢
  cases hends with
  | unknown hnone => cases hp.symm.trans hnone
  | refused p' errno hp' hanswer =>
    cases hp.symm.trans hp'
    exact ⟨fun pid he => (by cases hanswer.symm.trans he), fun m => rfl⟩
  | aborted p' pid errno hp' hanswer =>
    cases hp.symm.trans hp'
    refine ⟨fun pid he => (by cases hanswer.symm.trans he), fun m => ?_⟩
    by_cases hm : m = n
    · subst hm
      rw [seen_of_find hp, hpid]
      exact seen_setProg (s := s.record (.realSpawnProg m site)) (keeps_spawnAborted pid) hp
    · exact seen_setProg_ne (s := s.record (.realSpawnProg n site)) (keeps_spawnAborted pid) hm
  | started => cases h

theorem realSpawnProg_started (hp : s.findProg n = some p)
    (h : (s.realSpawnProg ω n site).1 = true) :
    ∃ pid, ω.spawn s.ticks p = .started pid ∧
      (s.realSpawnProg ω n site).2.seen n = some (.starting, some pid) ∧
      ∀ m, m ≠ n → (s.realSpawnProg ω n site).2.seen m = s.seen m := by
  refine (?_ : ∃ pid, _ ∧ _).imp fun pid h => ⟨h.1, h.2, fun m hm => ?_⟩
  · have hends := realSpawnProg_ends ω s n site
    generalize s.realSpawnProg ω n site = result at h hends ⊢
    cases hends with
    | unknown => cases h
    | refused => cases h
    | aborted => cases h
    | started p' pid hp' hanswer =>
      cases hp.symm.trans hp'
      exact ⟨pid, hanswer,
        seen_setProg (s := s.record (.realSpawnProg n site)) (keeps_spawnStarted pid _) hp⟩
  · rw [Registry.seen, realSpawnProg_find_ne hm, Registry.seen]

/-- The three things that one turn of `spawn0` can do. -/
inductive Turn (ω : System) (acc : List String × Server) (n : String) : Prop
  | skipped (hskip : acc.2.pidOf n ≠ some none) (h : spawnOne ω acc n = acc)
  | spawned (hidle : acc.2.pidOf n = some none) (pid : Nat)
      (hanswer : ∃ t p, p.name = n ∧ ω.spawn t p = .started pid)
      (hpid : (spawnOne ω acc n).2.pidOf n = some (some pid))
      (hrest : ∀ m, m ≠ n → (spawnOne ω acc n).2.seen m = acc.2.seen m)
      (hfails : (spawnOne ω acc n).1 = acc.1)
  | failed (hidle : acc.2.pidOf n = some none)
      (hanswer : ∃ t p, p.name = n ∧ ∀ pid, ω.spawn t p ≠ .started pid)
      (hseen : ∀ m, (spawnOne ω acc n).2.seen m =
        if m ∈ acc.2.failureBlocks n then (acc.2.seen m).map fun e => (.blocked, e.2)
        else if m = n then (acc.2.seen m).map fun e => (.startupFail, e.2) else acc.2.seen m)
      (hfails : (spawnOne ω acc n).1 = acc.1 ++ [n])

theorem pidOf_of_find (hp : s.findProg n = some p) : s.pidOf n = some p.inst.pid := by
  rw [Registry.pidOf, seen_of_find hp]
  rfl

theorem turn (ω : System) (acc : List String × Server) (n : String) : Turn ω acc n := by
  have hends := spawnOne_ends ω acc n
  generalize hone : spawnOne ω acc n = result at hends
  cases hends with
  | skipped hskip =>
    refine .skipped (fun hidle => ?_) hone
    cases hp : acc.2.findProg n with
    | none =>
      rw [Registry.pidOf, Registry.seen, hp] at hidle
      cases hidle
    | some p =>
      rw [pidOf_of_find hp] at hidle
      exact not_live (Option.some.inj hidle) (hskip p hp)
  | spawned p hp hpid htrue =>
    obtain ⟨pid, hanswer, hpid', hrest⟩ := realSpawnProg_started hp htrue
    refine .spawned (by rw [pidOf_of_find hp, hpid]) pid
      ⟨_, p, Registry.name_of_find hp, hanswer⟩ ?_
      (by rw [hone]; exact hrest) (by rw [hone])
    rw [hone, Registry.pidOf, hpid']
    rfl
  | failed p hp hpid hfalse =>
    obtain ⟨hanswer, hrest⟩ := realSpawnProg_failed hp hpid hfalse
    refine .failed (by rw [pidOf_of_find hp, hpid]) ⟨_, p, Registry.name_of_find hp, hanswer⟩
      (fun m => ?_) (by rw [hone])
    have hblocks : (acc.2.realSpawnProg ω n .runtime).2.failureBlocks n =
        acc.2.failureBlocks n := by
      rw [failureBlocks, realSpawnProg_runtime.1, realSpawnProg_runtime.2, failureBlocks]
    rw [hone, flagStartupFail_seen, hblocks, hrest]

/-- A turn changes no pid but that of its own program, and that only from none. -/
theorem turn_pidOf (h : m ≠ n ∨ acc.2.pidOf m ≠ some none) :
    (spawnOne ω acc n).2.pidOf m = acc.2.pidOf m := by
  cases turn ω acc n with
  | skipped _ hsame => rw [hsame]
  | spawned hidle _ _ _ hrest _ =>
    have hm : m ≠ n := by
      rcases h with h | h
      · exact h
      · rintro rfl
        exact h hidle
    rw [Registry.pidOf, hrest m hm, Registry.pidOf]
  | failed hidle _ hseen _ =>
    rw [Registry.pidOf, hseen, Registry.pidOf]
    split_ifs <;> cases acc.2.seen m <;> rfl

theorem turns_fails (names : List String) (acc : List String × Server) (hk : k ∈ acc.1) :
    k ∈ (names.foldl (spawnOne ω) acc).1 := by
  induction names generalizing acc with
  | nil => exact hk
  | cons n names ih =>
    refine ih _ ?_
    cases turn ω acc n with
    | skipped _ hsame => rwa [hsame]
    | spawned _ _ _ _ _ hfails => rwa [hfails]
    | failed _ _ _ hfails =>
      rw [hfails]
      exact List.mem_append_left _ hk

theorem turns_pidOf (names : List String) (acc : List String × Server)
    (h : acc.2.pidOf m ≠ some none) :
    (names.foldl (spawnOne ω) acc).2.pidOf m = acc.2.pidOf m := by
  induction names generalizing acc with
  | nil => rfl
  | cons n names ih =>
    have hone := turn_pidOf (ω := ω) (n := n) (.inr h)
    exact (ih _ (hone ▸ h)).trans hone

theorem turns_skip (names : List String) (acc : List String × Server)
    (h : ∀ n ∈ names, acc.2.pidOf n ≠ some none) : names.foldl (spawnOne ω) acc = acc := by
  induction names generalizing acc with
  | nil => rfl
  | cons n names ih =>
    have hn := h n List.mem_cons_self
    have hone : spawnOne ω acc n = acc := by
      cases turn ω acc n with
      | skipped _ hsame => exact hsame
      | spawned hidle _ _ _ _ _ => exact absurd hidle hn
      | failed hidle _ _ _ => exact absurd hidle hn
    rw [List.foldl_cons, hone]
    exact ih acc fun m hm => h m (List.mem_cons_of_mem n hm)

theorem turns_refused (hω : ∀ t p, p.name = k → ∀ pid, ω.spawn t p ≠ .started pid)
    (names : List String) (acc : List String × Server) (hk : k ∈ names)
    (hidle : acc.2.pidOf k = some none) : k ∈ (names.foldl (spawnOne ω) acc).1 := by
  induction names generalizing acc with
  | nil => cases hk
  | cons n names ih =>
    rw [List.foldl_cons]
    by_cases hn : k = n
    · subst hn
      apply turns_fails
      cases turn ω acc k with
      | skipped hskip _ => exact absurd hidle hskip
      | spawned _ pid hanswer _ _ _ =>
        obtain ⟨t, p, hp, hanswer⟩ := hanswer
        exact absurd hanswer (hω t p hp pid)
      | failed _ _ _ hfails =>
        rw [hfails]
        exact List.mem_append_right _ List.mem_cons_self
    · exact ih _ ((List.mem_cons.1 hk).resolve_left hn) ((turn_pidOf (.inl hn)).trans hidle)

theorem turns_started {pid : Nat} (hω : ∀ t p, p.name = k → ω.spawn t p = .started pid)
    (names : List String) (acc : List String × Server) (hk : k ∈ names)
    (hidle : acc.2.pidOf k = some none) :
    (names.foldl (spawnOne ω) acc).2.pidOf k = some (some pid) := by
  induction names generalizing acc with
  | nil => cases hk
  | cons n names ih =>
    rw [List.foldl_cons]
    by_cases hn : k = n
    · subst hn
      have hone : (spawnOne ω acc k).2.pidOf k = some (some pid) := by
        cases turn ω acc k with
        | skipped hskip _ => exact absurd hidle hskip
        | spawned _ pid' hanswer hpid _ _ =>
          obtain ⟨t, p, hp, hanswer⟩ := hanswer
          cases hanswer.symm.trans (hω t p hp)
          exact hpid
        | failed _ hanswer _ _ =>
          obtain ⟨t, p, hp, hanswer⟩ := hanswer
          exact absurd (hω t p hp) (hanswer pid)
      rw [turns_pidOf _ _ (by rw [hone]; exact nofun), hone]
    · exact ih _ ((List.mem_cons.1 hk).resolve_left hn) ((turn_pidOf (.inl hn)).trans hidle)

theorem turns_single {before after : List String} (acc : List String × Server)
    (hbefore : ∀ n ∈ before, acc.2.pidOf n ≠ some none)
    (hafter : ∀ n ∈ after, acc.2.pidOf n ≠ some none) :
    (before ++ k :: after).foldl (spawnOne ω) acc = spawnOne ω acc k := by
  rw [List.foldl_append, turns_skip before acc hbefore, List.foldl_cons, turns_skip]
  intro n hn
  rw [turn_pidOf (.inr (hafter n hn))]
  exact hafter n hn

theorem nodes_setState (s : Server) (n : String) (state : ProgState) :
    (s.setProg n (·.setState state)).nodes = s.nodes :=
    Registry.nodes_setProg (keeps_setState state)

theorem nodes_foldl {f : Server → String → Server} (hf : ∀ s n, (f s n).nodes = s.nodes)
    (names : List String) (s : Server) : (names.foldl f s).nodes = s.nodes := by
  induction names generalizing s with
  | nil => rfl
  | cons n names ih => exact (ih (f s n)).trans (hf s n)

theorem nodes_markWaiting (s : Server) : s.markWaiting.nodes = s.nodes := by
  refine nodes_foldl (f := waitOne) (fun s n => ?_) _ s
  unfold waitOne
  split
  · exact nodes_setState (s.record (.waitingStart n)) n .waitingStart
  · rfl

theorem nodes_flagStartupFail (s : Server) (n : String) :
    (s.flagStartupFail n).nodes = s.nodes := by
  unfold flagStartupFail
  extract_lets failure s₁
  refine (nodes_foldl (f := blockProg) (fun s n => ?_) _ s₁).trans
    (nodes_setState (s.setRuntime failure.1) n .startupFail)
  unfold blockProg
  split
  · rfl
  · exact nodes_setState (s.record (.blocked n)) n .blocked

theorem nodes_realSpawnProg : (s.realSpawnProg ω n site).2.nodes = s.nodes := by
  have hends := realSpawnProg_ends ω s n site
  generalize s.realSpawnProg ω n site = result at hends ⊢
  cases hends with
  | unknown => rfl
  | refused => rfl
  | aborted p pid errno => exact Registry.nodes_setProg (keeps_spawnAborted pid)
  | started p pid => exact Registry.nodes_setProg (keeps_spawnStarted pid _)

theorem turn_rest (acc : List String × Server) (n : String) :
    (spawnOne ω acc n).2.nodes = acc.2.nodes ∧
      (spawnOne ω acc n).2.dependencyGraph = acc.2.dependencyGraph ∧
      ((spawnOne ω acc n).1 = acc.1 ++ [n] → (spawnOne ω acc n).2.dependencyRuntime =
        (acc.2.dependencyRuntime.markFailed acc.2.dependencyGraph n).1) := by
  have hends := spawnOne_ends ω acc n
  generalize spawnOne ω acc n = result at hends ⊢
  cases hends with
  | skipped => exact ⟨rfl, rfl, fun h => absurd h (by simp)⟩
  | spawned =>
    exact ⟨nodes_realSpawnProg, realSpawnProg_runtime.2, fun h => absurd h (by simp)⟩
  | failed =>
    refine ⟨(nodes_flagStartupFail _ n).trans nodes_realSpawnProg,
      flagStartupFail_graph.trans realSpawnProg_runtime.2, fun _ => ?_⟩
    rw [flagStartupFail_runtime, realSpawnProg_runtime.1, realSpawnProg_runtime.2]

theorem turns_rest (names : List String) (acc : List String × Server) :
    (names.foldl (spawnOne ω) acc).2.nodes = acc.2.nodes ∧
      (names.foldl (spawnOne ω) acc).2.dependencyGraph = acc.2.dependencyGraph := by
  induction names generalizing acc with
  | nil => exact ⟨rfl, rfl⟩
  | cons n names ih =>
    obtain ⟨hnodes, hgraph, -⟩ := turn_rest (ω := ω) acc n
    exact ⟨(ih _).1.trans hnodes, (ih _).2.trans hgraph⟩

end Server

namespace Registry

variable {r : Registry} {prog : ProgInfo} {graph : DependencyGraph} {k n : String}

/-- The runtime after the new program and its closure were requested, with the names it hands
out. -/
def askFor (r : Registry) (prog : ProgInfo) (graph : DependencyGraph) :
    DependencyRuntime × List String :=
  DependencyRuntime.requestClosure graph (r.add prog graph).dependencyRuntime prog.name

/-- The programs that the create has to start: handed out and without a root process. -/
def toSpawn (r : Registry) (prog : ProgInfo) (graph : DependencyGraph) : List String :=
  (r.askFor prog graph).2.filter fun n => (r.add prog graph).pidOf n = some none

/-- The programs that a failed start of `k` blocks. -/
def blocks (r : Registry) (prog : ProgInfo) (graph : DependencyGraph) (k : String) : List String :=
  ((r.askFor prog graph).1.markFailed graph k).2.blocked

/-- A failed start of `k`, the only program to start, leaves no trace on the registered programs. -/
structure Traceless (r : Registry) (prog : ProgInfo) (graph : DependencyGraph) (k : String) :
    Prop where
  failed : ∀ p, r.findProg k = some p → p.state = .startupFail
  blocked : ∀ n ∈ r.blocks prog graph k, ∀ p, r.findProg n = some p → p.state = .blocked
  waiting : ∀ n p, r.findProg n = some p → (r.askFor prog graph).1.state graph n = .pending →
    n ∉ r.blocks prog graph k → p.state = .waitingStart
  graph : (∃ rebuilt, buildProgDependencyGraph r.pmTinyProgs = .ok rebuilt) ∨
    graph = r.dependencyGraph ∧ ∀ n ∈ r.pmTinyProgs.map (·.name),
      ((r.askFor prog graph).1.markFailed graph k).1.state graph n = r.runtimeState n ∧
      ((r.askFor prog graph).1.markFailed graph k).1.isRequested graph n = r.requested n

theorem mem_names_of_find (h : r.findProg n = some p) : n ∈ r.pmTinyProgs.map (·.name) :=
  Keyed.find_isSome.1 ⟨p, h⟩

theorem nodes_add (r : Registry) (prog : ProgInfo) (graph : DependencyGraph) :
    (r.add prog graph).nodes = r.nodes ++ [prog.dependencyNode] := by
  rw [nodes, add, List.map_append]
  rfl

theorem names_eq_nodes (r : Registry) : r.pmTinyProgs.map (·.name) = r.nodes.map (·.name) := by
  rw [nodes, List.map_map]
  rfl

theorem seen_add (hnew : r.findProg prog.name = none) (n : String) :
    (r.add prog graph).seen n =
      if n = prog.name then some (prog.state, prog.inst.pid) else r.seen n := by
  rw [seen, findProg, add, Keyed.find_append_singleton hnew]
  by_cases hn : prog.name = n
  · rw [if_pos hn, if_pos hn.symm]
    rfl
  · rw [if_neg hn, if_neg fun h => hn h.symm]
    rfl

/-- What a rollback leaves of the registry `t` that the new program was started in. -/
theorem rollback_rest {t : Registry} (saved : Saved) (hnew : r.findProg saved.name = none)
    (hnodes : t.nodes = r.nodes ++ [⟨saved.name, deps⟩]) :
    (t.rollback saved).nodes = r.nodes ∧
    (∀ n, n ≠ saved.name → (t.rollback saved).seen n = t.seen n) ∧
      (∀ e, buildProgDependencyGraph r.pmTinyProgs = .error e →
        (t.rollback saved).dependencyGraph = t.dependencyGraph ∧
        (t.rollback saved).dependencyRuntime = t.dependencyRuntime) ∧
      ∀ rebuilt, buildProgDependencyGraph r.pmTinyProgs = .ok rebuilt →
        (t.rollback saved).dependencyGraph = rebuilt ∧ (t.rollback saved).dependencyRuntime =
          .migrate rebuilt (saved.runtime.snapshot saved.graph) := by
  have hdrop : (t.dropProg saved.name).nodes = r.nodes := by
    rw [nodes_dropProg, hnodes, List.filter_append, List.filter_eq_self.2, List.filter_cons,
      if_neg (by simp)]
    · simp
    · intro config hc
      obtain ⟨p, hp, rfl⟩ := List.mem_map.1 hc
      exact decide_eq_true (Keyed.find_eq_none.1 hnew p hp)
  have hprogs : (t.rollback saved).pmTinyProgs = (t.dropProg saved.name).pmTinyProgs := by
    unfold rollback
    dsimp only
    split <;> rfl
  have hbuild : buildProgDependencyGraph (t.dropProg saved.name).pmTinyProgs =
      buildProgDependencyGraph r.pmTinyProgs :=
    congrArg DependencyGraph.build hdrop
  refine ⟨(congrArg (List.map ProgInfo.dependencyNode) hprogs).trans hdrop, fun n hn => ?_,
    fun e he => ?_, fun rebuilt hok => ?_⟩
  · rw [seen, findProg, hprogs, seen, findProg]
    exact congrArg (Option.map _) (Keyed.find_remove_ne hn)
  · unfold rollback
    dsimp only
    rw [hbuild, he]
    exact ⟨rfl, rfl⟩
  · unfold rollback
    dsimp only
    rw [hbuild, hok]
    exact ⟨rfl, rfl⟩

/-- A graph that the rolled back programs form is the one before the create. -/
def InStepIfBuilt (r : Registry) : Prop :=
  ∀ graph, buildProgDependencyGraph r.pmTinyProgs = .ok graph → graph = r.dependencyGraph

theorem restored_graph {t : Registry} (hstep : r.InStepIfBuilt) (hnew : r.findProg prog.name = none)
    (hnodes : t.nodes = r.nodes ++ [prog.dependencyNode]) (hgraph : t.dependencyGraph = graph)
    (hruntime : t.dependencyRuntime = ((r.askFor prog graph).1.markFailed graph k).1) :
    ((t.rollback ⟨prog.name, r.dependencyGraph, r.dependencyRuntime⟩).dependencyGraph =
        r.dependencyGraph ∧ ∀ n ∈ r.pmTinyProgs.map (·.name),
      (t.rollback ⟨prog.name, r.dependencyGraph, r.dependencyRuntime⟩).runtimeState n =
        r.runtimeState n ∧
      (t.rollback ⟨prog.name, r.dependencyGraph, r.dependencyRuntime⟩).requested n =
        r.requested n) ↔
      (∃ rebuilt, buildProgDependencyGraph r.pmTinyProgs = .ok rebuilt) ∨
        graph = r.dependencyGraph ∧ ∀ n ∈ r.pmTinyProgs.map (·.name),
          ((r.askFor prog graph).1.markFailed graph k).1.state graph n = r.runtimeState n ∧
          ((r.askFor prog graph).1.markFailed graph k).1.isRequested graph n = r.requested n := by
  obtain ⟨-, -, herror, hok⟩ := rollback_rest (r := r) (t := t)
    ⟨prog.name, r.dependencyGraph, r.dependencyRuntime⟩ hnew hnodes
  cases hbuild : buildProgDependencyGraph r.pmTinyProgs with
  | error e =>
    obtain ⟨hg, hrt⟩ := herror e hbuild
    simp only [runtimeState, requested, hg, hrt, hgraph, hruntime, reduceCtorEq, exists_false,
      false_or]
  | ok rebuilt =>
    obtain ⟨hg, hrt⟩ := hok rebuilt hbuild
    obtain rfl := hstep rebuilt hbuild
    refine iff_of_true ⟨hg, fun n hn => ?_⟩ (.inl ⟨_, rfl⟩)
    have hmem : n ∈ r.dependencyGraph.names := by
      rw [build_names hbuild]
      exact hn
    rw [runtimeState, requested, hg, hrt, DependencyRuntime.state_migrate,
      DependencyRuntime.isRequested_migrate, if_pos hmem, if_pos hmem]
    exact ⟨rfl, rfl⟩

/-- The states that a failed start of `k` leaves are the old ones exactly when it leaves no trace
on them. -/
theorem seen_iff (hk : k ∈ (r.askFor prog graph).2) {t : Registry}
    (hseen : ∀ n, r.findProg n ≠ none → t.seen n =
      if n ∈ r.blocks prog graph k then (r.seen n).map fun e => (.blocked, e.2)
      else if n = k then (r.seen n).map fun e => (.startupFail, e.2)
      else if (r.askFor prog graph).1.state graph n = .pending then
        (r.seen n).map fun e => (.waitingStart, e.2)
      else r.seen n) :
    (∀ n ∈ r.pmTinyProgs.map (·.name), t.seen n = r.seen n) ↔
      (∀ p, r.findProg k = some p → p.state = .startupFail) ∧
      (∀ n ∈ r.blocks prog graph k, ∀ p, r.findProg n = some p → p.state = .blocked) ∧
      ∀ n p, r.findProg n = some p → (r.askFor prog graph).1.state graph n = .pending →
        n ∉ r.blocks prog graph k → p.state = .waitingStart := by
  have hstarting : (r.askFor prog graph).1.state graph k = .starting :=
    (DependencyRuntime.requestClosure_handed hk).2.1
  have hself : k ∉ r.blocks prog graph k := fun h => (DependencyRuntime.blocked_markFailed h).1 rfl
  have hfound : ∀ n p, r.findProg n = some p → r.seen n = some (p.state, p.inst.pid) := by
    intro n p hp
    rw [seen, hp]
    rfl
  constructor
  · intro h
    have hall : ∀ n p, r.findProg n = some p → t.seen n = some (p.state, p.inst.pid) := by
      intro n p hp
      rw [h n (mem_names_of_find hp), hfound n p hp]
    refine ⟨fun p hp => ?_, fun n hn p hp => ?_, fun n p hp hpending hn => ?_⟩
    · have hk' := hseen k (by rw [hp]; exact nofun)
      rw [hall k p hp, if_neg hself, if_pos rfl, hfound k p hp] at hk'
      exact congrArg Prod.fst (Option.some.inj hk')
    · have hn' := hseen n (by rw [hp]; exact nofun)
      rw [hall n p hp, if_pos hn, hfound n p hp] at hn'
      exact congrArg Prod.fst (Option.some.inj hn')
    · have hne : n ≠ k := by
        rintro rfl
        exact absurd (hpending.symm.trans hstarting) (by decide)
      have hn' := hseen n (by rw [hp]; exact nofun)
      rw [hall n p hp, if_neg hn, if_neg hne, if_pos hpending, hfound n p hp] at hn'
      exact congrArg Prod.fst (Option.some.inj hn')
  · rintro ⟨hfailed, hblocked, hwaiting⟩ n hn
    obtain ⟨p, hp⟩ := Keyed.find_isSome.2 hn
    rw [hseen n (by rw [show r.findProg n = _ from hp]; exact nofun), hfound n p hp]
    split_ifs with hmem hk' hpending
    · rw [← hblocked n hmem p hp]
      rfl
    · subst hk'
      rw [← hfailed p hp]
      rfl
    · rw [← hwaiting n p hp hpending hmem]
      rfl
    · rfl

theorem askFor_nodup (r : Registry) (prog : ProgInfo) (graph : DependencyGraph) :
    (r.askFor prog graph).2.Nodup := by
  unfold askFor DependencyRuntime.requestClosure
  split
  · exact List.nodup_nil
  · rename_i id hid
    rw [DependencyRuntime.collectStartable, DependencyRuntime.foldl_collectNode _ graph.order_nodup,
      List.nil_append]
    refine List.Nodup.map_on ?_ (graph.order_nodup.filter _)
    intro i hi j hj he
    have hi' := DependencyGraph.find_name (DependencyGraph.mem_order.1 (List.mem_filter.1 hi).1)
    have hj' := DependencyGraph.find_name (DependencyGraph.mem_order.1 (List.mem_filter.1 hj).1)
    rw [he, hj'] at hi'
    exact (Option.some.inj hi').symm

end Registry

namespace Server

variable {s : Server} {ω : System} {prog : ProgInfo} {graph : DependencyGraph} {k n : String}

/-- The server after the new program and its closure were requested. -/
def asked (s : Server) (prog : ProgInfo) (graph : DependencyGraph) : Server :=
  ({ s.record (.create prog.name prog.dependsOn) with
      pmTinyProgs := s.pmTinyProgs ++ [prog]
      dependencyGraph := graph
      dependencyRuntime := .migrate graph (s.dependencyRuntime.snapshot s.dependencyGraph) }
    ).requestClosure prog.name |>.2.markWaiting

/-- The spawns of a create: the names that failed and the server after them. -/
def attempt (ω : System) (s : Server) (prog : ProgInfo) (graph : DependencyGraph) :
    List String × Server :=
  (s.toRegistry.askFor prog graph).2.foldl (spawnOne ω)
    ([], (s.asked prog graph).record (.spawn0 (s.toRegistry.askFor prog graph).2))

theorem asked_graph (s : Server) (prog : ProgInfo) (graph : DependencyGraph) :
    (s.asked prog graph).dependencyGraph = graph := markWaiting_graph

theorem asked_runtime (s : Server) (prog : ProgInfo) (graph : DependencyGraph) :
    (s.asked prog graph).dependencyRuntime = (s.toRegistry.askFor prog graph).1 :=
  markWaiting_runtime

theorem asked_nodes (s : Server) (prog : ProgInfo) (graph : DependencyGraph) :
    (s.asked prog graph).nodes = s.nodes ++ [prog.dependencyNode] :=
  (nodes_markWaiting _).trans (Registry.nodes_add s.toRegistry prog graph)

theorem asked_seen (s : Server) (prog : ProgInfo) (graph : DependencyGraph) (n : String) :
    (s.asked prog graph).seen n =
    if (s.toRegistry.askFor prog graph).1.state graph n = .pending then
      ((s.toRegistry.add prog graph).seen n).map fun e => (.waitingStart, e.2)
    else (s.toRegistry.add prog graph).seen n := markWaiting_seen _ n

theorem asked_pidOf (s : Server) (prog : ProgInfo) (graph : DependencyGraph) (n : String) :
    (s.asked prog graph).pidOf n = (s.toRegistry.add prog graph).pidOf n := by
  rw [Registry.pidOf, asked_seen, Registry.pidOf]
  split_ifs
  · cases (s.toRegistry.add prog graph).seen n <;> rfl
  · rfl

theorem handed_registered
    (hbuild : buildProgDependencyGraph (s.pmTinyProgs ++ [prog]) = .ok graph) :
    (s.asked prog graph).progsFromNames (s.toRegistry.askFor prog graph).2 =
      (s.toRegistry.askFor prog graph).2 := by
  refine List.filter_eq_self.2 fun n hn => ?_
  have hrequested := (DependencyRuntime.requestClosure_handed hn).1
  have hmem : n ∈ graph.names := by
    by_contra hnot
    rw [DependencyRuntime.isRequested_of_not_mem hnot] at hrequested
    cases hrequested
  have hnames : (s.asked prog graph).pmTinyProgs.map (·.name) = graph.names := by
    rw [Registry.names_eq_nodes, asked_nodes, Registry.build_names hbuild, List.map_append,
      List.map_append, ← Registry.names_eq_nodes]
    rfl
  rw [← hnames] at hmem
  obtain ⟨p, hp⟩ := Keyed.find_isSome.2 hmem
  exact Option.isSome_iff_exists.2 ⟨p, hp⟩

theorem startAndAddProg_ok (ω : System)
    (hbuild : buildProgDependencyGraph (s.pmTinyProgs ++ [prog]) = .ok graph) :
    (s.startAndAddProg ω prog).1 = (s.attempt ω prog graph).1.isEmpty ∧
      ((s.startAndAddProg ω prog).1 = false → (s.startAndAddProg ω prog).2.toRegistry =
        (s.attempt ω prog graph).2.toRegistry.rollback
          ⟨prog.name, s.dependencyGraph, s.dependencyRuntime⟩) := by
  have hattempt : s.attempt ω prog graph = (s.asked prog graph).spawn0 ω
      ((s.asked prog graph).progsFromNames (s.toRegistry.askFor prog graph).2) := by
    rw [handed_registered hbuild]
    rfl
  unfold startAndAddProg
  extract_lets s₁ runtimeSnapshot
  split
  · rename_i e herror
    cases hbuild.symm.trans herror
  · rename_i graph' hok
    obtain rfl := Except.ok.inj (hbuild.symm.trans hok)
    extract_lets s₂ names s₃ result s₄ spawnErrno s₅ s₆
    have hresult : result = s.attempt ω prog graph := hattempt.symm
    rw [← hresult]
    split
    · rename_i hempty
      exact ⟨hempty.symm, fun h => by cases h⟩
    · rename_i hempty
      refine ⟨(Bool.not_eq_true _ ▸ hempty).symm, fun _ => ?_⟩
      unfold Registry.rollback s₆
      dsimp only
      split <;> rename_i hb <;> simp only [Registry.dropProg] <;> rw [hb]
      · rfl
      · rfl

theorem attempt_rest (ω : System) (s : Server) (prog : ProgInfo) (graph : DependencyGraph) :
    (s.attempt ω prog graph).2.nodes = s.nodes ++ [prog.dependencyNode] ∧
      (s.attempt ω prog graph).2.dependencyGraph = graph := by
  obtain ⟨hnodes, hgraph⟩ := turns_rest (ω := ω) (s.toRegistry.askFor prog graph).2
    ([], (s.asked prog graph).record (.spawn0 (s.toRegistry.askFor prog graph).2))
  exact ⟨hnodes.trans (asked_nodes s prog graph), hgraph.trans (asked_graph s prog graph)⟩

theorem attempt_none (ω : System) (h : s.toRegistry.toSpawn prog graph = []) :
    (s.attempt ω prog graph).1 = [] := by
  rw [attempt, turns_skip]
  intro n hn hidle
  refine List.filter_eq_nil_iff.1 h n hn (decide_eq_true ?_)
  rw [← asked_pidOf]
  exact hidle

theorem attempt_single (ω : System) (hnew : s.findProg prog.name = none)
    (h : s.toRegistry.toSpawn prog graph = [k]) (hfailed : (s.attempt ω prog graph).1 ≠ []) :
    (s.attempt ω prog graph).2.dependencyRuntime =
        ((s.toRegistry.askFor prog graph).1.markFailed graph k).1 ∧
      ∀ n, s.findProg n ≠ none → (s.attempt ω prog graph).2.seen n =
        if n ∈ s.toRegistry.blocks prog graph k then (s.seen n).map fun e => (.blocked, e.2)
        else if n = k then (s.seen n).map fun e => (.startupFail, e.2)
        else if (s.toRegistry.askFor prog graph).1.state graph n = .pending then
          (s.seen n).map fun e => (.waitingStart, e.2)
        else s.seen n := by
  obtain ⟨before, after, hsplit, hbefore, hk, hafter⟩ := List.filter_eq_cons_iff.1 h
  have hidle : ∀ n, (s.asked prog graph).pidOf n = some none ↔
      (decide ((s.toRegistry.add prog graph).pidOf n = some none)) = true := by
    intro n
    rw [asked_pidOf, decide_eq_true_iff]
  have hattempt : s.attempt ω prog graph = spawnOne ω
      ([], (s.asked prog graph).record (.spawn0 (s.toRegistry.askFor prog graph).2)) k := by
    rw [attempt]
    conv_lhs => rw [hsplit]
    rw [turns_single]
    · rw [hsplit]
    · exact fun n hn hpid => hbefore n hn ((hidle n).1 hpid)
    · exact fun n hn hpid => List.filter_eq_nil_iff.1 hafter n hn ((hidle n).1 hpid)
  have hblocks :
    ((s.asked prog graph).record (.spawn0 (s.toRegistry.askFor prog graph).2)).failureBlocks k =
      s.toRegistry.blocks prog graph k := by
    show (DependencyRuntime.markFailed (s.asked prog graph).dependencyGraph
      (s.asked prog graph).dependencyRuntime k).2.blocked = _
    rw [asked_graph, asked_runtime]
    rfl
  rw [hattempt] at hfailed ⊢
  cases turn ω ([], (s.asked prog graph).record (.spawn0 (s.toRegistry.askFor prog graph).2)) k with
  | skipped _ hsame => exact absurd (by rw [hsame]) hfailed
  | spawned _ _ _ _ _ hfails => exact absurd hfails hfailed
  | failed _ _ hseen hfails =>
    refine ⟨((turn_rest _ k).2.2 hfails).trans ?_, fun n hn => ?_⟩
    · show (DependencyRuntime.markFailed (s.asked prog graph).dependencyGraph
        (s.asked prog graph).dependencyRuntime k).1 = _
      rw [asked_graph, asked_runtime]
    · have hne : n ≠ prog.name := by
        rintro rfl
        exact hn hnew
      have hadd : (s.toRegistry.add prog graph).seen n = s.seen n := by
        rw [Registry.seen_add hnew, if_neg hne]
      have hasked : ((s.asked prog graph).record
          (.spawn0 (s.toRegistry.askFor prog graph).2)).seen n = _ := asked_seen s prog graph n
      rw [hseen, hblocks, hasked, hadd]
      split_ifs <;> cases s.seen n <;> rfl

def answering (answer : String → SpawnOutcome) (ω : System) : System :=
  { ω with spawn := fun _ p => answer p.name }

theorem not_restored_of_two (ω : System)
    (hbuild : buildProgDependencyGraph (s.pmTinyProgs ++ [prog]) = .ok graph) (hne : n ≠ k)
    (hn : n ∈ s.toRegistry.toSpawn prog graph) (hk : k ∈ s.toRegistry.toSpawn prog graph)
    (hold : n ≠ prog.name) : ∃ ω', (s.startAndAddProg ω' prog).1 = false ∧
      ¬s.toRegistry.Restored (s.startAndAddProg ω' prog).2.toRegistry := by
  have hnew : s.findProg prog.name = none := Registry.findProg_none_of_build hbuild
  let ω' := answering (fun m => if m = n then .started 0 else .refused 0) ω
  obtain ⟨hn, hnidle⟩ := List.mem_filter.1 hn
  obtain ⟨hk, hkidle⟩ := List.mem_filter.1 hk
  replace hnidle := (asked_pidOf s prog graph n).trans (of_decide_eq_true hnidle)
  replace hkidle := (asked_pidOf s prog graph k).trans (of_decide_eq_true hkidle)
  obtain ⟨hresult, hrollback⟩ := startAndAddProg_ok ω' hbuild
  have hfailed : k ∈ (s.attempt ω' prog graph).1 := by
    refine turns_refused (fun t p hp pid => ?_) _ _ hk hkidle
    show (if p.name = n then SpawnOutcome.started 0 else .refused 0) ≠ .started pid
    rw [if_neg (hp ▸ hne.symm)]
    exact nofun
  have hstarted : (s.attempt ω' prog graph).2.pidOf n = some (some 0) :=
    turns_started (fun t p hp => if_pos hp) _ _ hn hnidle
  have hfalse : (s.startAndAddProg ω' prog).1 = false := by
    rw [hresult, List.isEmpty_eq_false_iff_exists_mem]
    exact ⟨k, hfailed⟩
  refine ⟨ω', hfalse, fun hrestored => ?_⟩
  rw [hrollback hfalse] at hrestored
  obtain ⟨-, hseen, -⟩ := Registry.rollback_rest (r := s.toRegistry)
    ⟨prog.name, s.dependencyGraph, s.dependencyRuntime⟩ hnew
    (attempt_rest ω' s prog graph).1
  have hpid : s.pidOf n = some none := by
    rw [asked_pidOf, Registry.pidOf, Registry.seen_add hnew, if_neg hold] at hnidle
    exact hnidle
  obtain ⟨e, he, -⟩ := Option.map_eq_some_iff.1 hpid
  obtain ⟨p, hp, -⟩ := find_of_seen he
  have hsame := hrestored.programs n (Registry.mem_names_of_find hp)
  rw [hseen n hold] at hsame
  have := congrArg (Option.map Prod.snd) hsame
  rw [show Option.map Prod.snd (s.seen n) = _ from hpid] at this
  cases hstarted.symm.trans this

/-- One program to start, and it fails: the create is undone exactly when it leaves no trace. -/
theorem restored_single (ω : System) (hstep : s.toRegistry.InStepIfBuilt)
    (hbuild : buildProgDependencyGraph (s.pmTinyProgs ++ [prog]) = .ok graph)
    (h : s.toRegistry.toSpawn prog graph = [k]) (hfailed : (s.startAndAddProg ω prog).1 = false) :
    s.toRegistry.Restored (s.startAndAddProg ω prog).2.toRegistry ↔
      s.toRegistry.Traceless prog graph k := by
  have hnew : s.findProg prog.name = none := Registry.findProg_none_of_build hbuild
  obtain ⟨hresult, hrollback⟩ := startAndAddProg_ok ω hbuild
  have hfails : (s.attempt ω prog graph).1 ≠ [] := by
    intro he
    rw [hresult, he] at hfailed
    cases hfailed
  obtain ⟨hruntime, hseen⟩ := attempt_single ω hnew h hfails
  obtain ⟨hnodes, hgraph⟩ := attempt_rest ω s prog graph
  obtain ⟨hrnodes, hrseen, -⟩ := Registry.rollback_rest (r := s.toRegistry)
    ⟨prog.name, s.dependencyGraph, s.dependencyRuntime⟩ hnew hnodes
  have hk : k ∈ (s.toRegistry.askFor prog graph).2 :=
    List.mem_of_mem_filter (h ▸ List.mem_singleton_self k : k ∈ s.toRegistry.toSpawn prog graph)
  have hprograms := Registry.seen_iff hk
    (t := (s.attempt ω prog graph).2.toRegistry.rollback
      ⟨prog.name, s.dependencyGraph, s.dependencyRuntime⟩) fun n hn => by
        rw [hrseen n fun he => hn (he ▸ hnew)]
        exact hseen n hn
  have hregistry := Registry.restored_graph (k := k) hstep hnew hnodes hgraph hruntime
  rw [hrollback hfailed]
  constructor
  · intro hrestored
    obtain ⟨hf, hb, hw⟩ := hprograms.1 hrestored.programs
    exact ⟨hf, hb, hw, hregistry.1 ⟨hrestored.graph, hrestored.runtime⟩⟩
  · intro htraceless
    obtain ⟨hg, hrt⟩ := hregistry.2 htraceless.graph
    refine ⟨?_, hg, hrt, hprograms.2 ⟨htraceless.failed, htraceless.blocked, htraceless.waiting⟩⟩
    rw [Registry.names_eq_nodes, hrnodes, ← Registry.names_eq_nodes]

/-- A failed create restores everything exactly when the request has nothing to start, or one
program only whose failure leaves no trace. -/
theorem restored_iff (ω : System) (hstep : s.toRegistry.InStepIfBuilt)
    (hbuild : buildProgDependencyGraph (s.pmTinyProgs ++ [prog]) = .ok graph) :
    (∀ ω', (s.startAndAddProg ω' prog).1 = false →
      s.toRegistry.Restored (s.startAndAddProg ω' prog).2.toRegistry) ↔
    s.toRegistry.toSpawn prog graph = [] ∨ ∃ k, s.toRegistry.toSpawn prog graph = [k] ∧
      s.toRegistry.Traceless prog graph k := by
  constructor
  · intro hall
    cases h : s.toRegistry.toSpawn prog graph with
    | nil => exact .inl rfl
    | cons k rest =>
      have hmem : ∀ n ∈ k :: rest, n ∈ s.toRegistry.toSpawn prog graph := fun n hn => h ▸ hn
      cases rest with
      | nil =>
        refine .inr ⟨k, rfl, ?_⟩
        obtain ⟨hk, hidle⟩ := List.mem_filter.1 (hmem k List.mem_cons_self)
        let ω' := answering (fun _ => .refused 0) ω
        have hfails : k ∈ (s.attempt ω' prog graph).1 :=
          turns_refused (fun _ _ _ _ h => by cases h) _ _ hk
            ((asked_pidOf s prog graph k).trans (of_decide_eq_true hidle))
        have hfailed : (s.startAndAddProg ω' prog).1 = false := by
          rw [(startAndAddProg_ok ω' hbuild).1, List.isEmpty_eq_false_iff_exists_mem]
          exact ⟨k, hfails⟩
        exact (restored_single ω' hstep hbuild h hfailed).1 (hall ω' hfailed)
      | cons n rest =>
        exfalso
        have hnodup : (k :: n :: rest).Nodup :=
          h ▸ (Registry.askFor_nodup s.toRegistry prog graph).filter _
        have hne : k ≠ n := fun he => (List.nodup_cons.1 hnodup).1 (he ▸ List.mem_cons_self)
        have hk := hmem k List.mem_cons_self
        have hn := hmem n (List.mem_cons_of_mem k List.mem_cons_self)
        obtain ⟨ω', hfailed, hnot⟩ : ∃ ω', (s.startAndAddProg ω' prog).1 = false ∧
            ¬s.toRegistry.Restored (s.startAndAddProg ω' prog).2.toRegistry := by
          by_cases hold : k = prog.name
          · exact not_restored_of_two ω hbuild hne.symm hn hk fun he => hne (hold.trans he.symm)
          · exact not_restored_of_two ω hbuild hne hk hn hold
        exact hnot (hall ω' hfailed)
  · rintro (hnone | ⟨k, h, htraceless⟩) ω' hfailed
    · rw [(startAndAddProg_ok ω' hbuild).1, attempt_none ω' hnone] at hfailed
      cases hfailed
    · exact (restored_single ω' hstep hbuild h hfailed).2 htraceless

end Server

/-- The graph is the one of the registered programs, whenever they form one. -/
def Built (v : View) : Prop := v.ghost.dropped = [] → v.reg.InStepIfBuilt

theorem instep_of_nodes {r r' : Registry} (hi : r.InStepIfBuilt) (hnodes : r'.nodes = r.nodes)
    (hgraph : r'.dependencyGraph = r.dependencyGraph) : r'.InStepIfBuilt := by
  intro graph hbuild
  have hsame : buildProgDependencyGraph r'.pmTinyProgs = buildProgDependencyGraph r.pmTinyProgs :=
    congrArg DependencyGraph.build hnodes
  rw [hsame] at hbuild
  rw [hgraph]
  exact hi graph hbuild

theorem instep_of_build {r : Registry}
    (hbuild : buildProgDependencyGraph r.pmTinyProgs = .ok r.dependencyGraph) : r.InStepIfBuilt :=
  fun _ hok => Except.ok.inj (hok.symm.trans hbuild)

theorem built_registry (h : RegistryMove v r g) (hb : Base v) (hi : Built v) :
    Built { v with reg := r, ghost := g } := by
  intro hdropped
  cases h with
  | add p graph hbuild => exact instep_of_build hbuild
  | rollback saved =>
    intro graph hok
    obtain ⟨e, herror, h⟩ | ⟨rebuilt, hrebuilt, h⟩ := v.reg.rollback_cases saved
    · rw [h] at hok
      cases herror.symm.trans hok
    · rw [h] at hok ⊢
      exact Except.ok.inj (hok.symm.trans hrebuilt)
  | drop => cases hdropped
  | rebuilt graph _ hbuild => exact instep_of_build hbuild
  | stale e herror => exact fun graph hok => by cases herror.symm.trans hok
  | swap config _ hc => exact instep_of_build (hb.reload config hc).built
  | spawnAll =>
    refine instep_of_nodes (hi hdropped) ?_ rfl
    rw [Registry.nodes, Registry.spawnAll, List.map_map]
    rfl
  | quit => exact hi hdropped
  | reload => exact hi hdropped
  | beginSwap => exact hi hdropped

theorem built_move (h : Move v v') (hb : Base v) (hi : Built v) : Built v' := by
  cases h with
  | prog hf hp h =>
    intro hdropped
    exact instep_of_nodes (hi (h.dropped.symm.trans hdropped)) (Registry.nodes_setProg hf) rfl
  | runtime h => exact hi
  | ghost h =>
    intro hdropped
    cases h with
    | boundary mark hg =>
      refine hi ?_
      rw [hg]
    | _ => exact hi hdropped
  | registry h => exact built_registry h hb hi
  | log call h => exact hi

theorem Server.Reachable.inStepIfBuilt (h : Server.Reachable ω s) : s.toRegistry.InStepIfBuilt :=
  h.invariant (K := fun _ => True) (fun _ _ hm hb _ hi => built_move hm hb hi)
    (fun _ hv _ => instep_of_build hv.built) (fun _ _ => trivial) rfl

/-- Whatever the system answers, a create that fails leaves the registered programs, the graph, the
runtime of the registered programs and their states and pids as they were, exactly when its graph is
rejected, or it has nothing to start, or it has one program to start whose failure leaves no trace:
that program is the new one or has failed to start before, every program it blocks is blocked
already, every other program left pending is waiting already, and the graph is built again without
the new program. -/
theorem failed_create_undone_iff (h : Server.Reachable ω s) (prog : ProgInfo) :
    (∀ ω', (s.tick.startAndAddProg ω' prog).1 = false →
      s.toRegistry.Restored (s.tick.startAndAddProg ω' prog).2.toRegistry) ↔
    ∀ graph, buildProgDependencyGraph (s.pmTinyProgs ++ [prog]) = .ok graph →
      s.toRegistry.toSpawn prog graph = [] ∨ ∃ k, s.toRegistry.toSpawn prog graph = [k] ∧
        s.toRegistry.Traceless prog graph k := by
  constructor
  · intro hall graph hbuild
    exact (Server.restored_iff (s := s.tick) ω h.inStepIfBuilt hbuild).1 hall
  · intro hall ω' hfailed
    cases hbuild : buildProgDependencyGraph (s.pmTinyProgs ++ [prog]) with
    | ok graph =>
      exact (Server.restored_iff (s := s.tick) ω h.inStepIfBuilt hbuild).2 (hall graph hbuild)
        ω' hfailed
    | error e =>
      have hsame : (s.tick.startAndAddProg ω' prog).2.toRegistry = s.toRegistry := by
        unfold Server.startAndAddProg
        extract_lets s₁ runtimeSnapshot
        rw [show buildProgDependencyGraph (s₁.pmTinyProgs ++ [prog]) = .error e from hbuild]
        rfl
      rw [hsame]
      exact ⟨rfl, rfl, fun _ _ => ⟨rfl, rfl⟩, fun _ _ => rfl⟩

/-- A program without dependencies is created next to a running one. -/
theorem failed_create_undone_alone : ∃ s,
    Server.Reachable (simpleSystem [{ name := "q" }] []) s ∧
      s.seen "q" = some (.starting, some 101) ∧
      ∀ ω', (s.tick.startAndAddProg ω' { name := "r" }).1 = false →
        s.toRegistry.Restored (s.tick.startAndAddProg ω' { name := "r" }).2.toRegistry := by
  obtain ⟨s, hreach, hs⟩ := Server.runFrom_any (ω := simpleSystem [{ name := "q" }] [])
    [.connect 1 (some ⟨7, 0, 0⟩)]
    (fun s => (s.seen "q" = some (.starting, some 101)) &&
      (buildProgDependencyGraph (s.pmTinyProgs ++ [{ name := "r" }])).toOption.all fun graph =>
        s.toRegistry.toSpawn { name := "r" } graph = ["r"] &&
        s.toRegistry.blocks { name := "r" } graph "r" = [] &&
        s.pmTinyProgs.all (fun p => p.name ≠ "r" &&
          (s.toRegistry.askFor { name := "r" } graph).1.state graph p.name ≠ .pending) &&
        (buildProgDependencyGraph s.pmTinyProgs).toOption.isSome)
    (by decide +kernel)
  rw [Bool.and_eq_true, decide_eq_true_iff] at hs
  refine ⟨s, hreach, hs.1,
    (failed_create_undone_iff hreach { name := "r" }).2 fun graph hbuild => ?_⟩
  have hcheck := hs.2
  rw [hbuild] at hcheck
  simp only [Except.toOption, Option.all_some, Bool.and_eq_true, decide_eq_true_iff,
    List.all_eq_true] at hcheck
  obtain ⟨⟨⟨hspawn, hblocks⟩, hprogs⟩, hrebuilds⟩ := hcheck
  refine .inr ⟨"r", hspawn, ?_⟩
  have hold : ∀ n p, s.findProg n = some p →
      n ≠ "r" ∧ (s.toRegistry.askFor { name := "r" } graph).1.state graph n ≠ .pending := by
    intro n p hp
    have hp' := hprogs p (Registry.mem_of_find hp)
    rwa [Registry.name_of_find hp] at hp'
  refine ⟨fun p hp => absurd rfl (hold "r" p hp).1, ?_, fun n p hp h =>
    absurd h (hold n p hp).2, ?_⟩
  · rw [hblocks]
    exact nofun
  · cases hrebuilt : buildProgDependencyGraph s.pmTinyProgs with
    | ok rebuilt => exact .inl ⟨rebuilt, rfl⟩
    | error e => simp [hrebuilt] at hrebuilds

/-- A stopped dependency is started for a create, fails, and stays marked as failed. -/
theorem failed_create_marks_dependency :
    ∃ ω s prog, Server.Reachable ω s ∧ s.findProg "r" = none ∧
      createProg { name := "r", dependsOn := ["q"] } "runtime" = some prog ∧
      (s.tick.startAndAddProg ω prog).1 = false ∧
      s.seen "q" = some (.stoped, none) ∧
      (s.tick.startAndAddProg ω prog).2.seen "q" = some (.startupFail, none) ∧
      ¬s.toRegistry.Restored (s.tick.startAndAddProg ω prog).2.toRegistry := by
  let ω : System := { simpleSystem [{ name := "q" }] [] with
    spawn := fun n _ => if n ≤ 1 then .started (100 + n) else .refused 12 }
  obtain ⟨prog, hprog⟩ : ∃ prog, createProg { name := "r", dependsOn := ["q"] } "runtime" =
    some prog := ⟨_, rfl⟩
  obtain ⟨s, hreach, hs⟩ := Server.runFrom_any (ω := ω)
    [.connect 1 (some ⟨7, 0, 0⟩), .request 1 0 1 (.stop "q"), .maintenance false (some [(101, 0)])]
    (fun s => (createProg { name := "r", dependsOn := ["q"] } "runtime").all fun prog =>
      (s.findProg "r").isNone && (s.tick.startAndAddProg ω prog).1 = false &&
      s.seen "q" = some (.stoped, none) &&
      (s.tick.startAndAddProg ω prog).2.seen "q" = some (.startupFail, none))
    (by decide +kernel)
  rw [hprog] at hs
  simp only [Option.all_some, Bool.and_eq_true, decide_eq_true_iff, Option.isNone_iff_eq_none] at hs
  obtain ⟨⟨⟨hnew, hfailed⟩, hbefore⟩, hafter⟩ := hs
  refine ⟨ω, s, prog, hreach, hnew, hprog, hfailed, hbefore, hafter, fun hrestored => ?_⟩
  obtain ⟨p, hp, -, -⟩ := Server.find_of_seen hbefore
  have hsame := hrestored.programs "q" (Registry.mem_names_of_find hp)
  cases hafter.symm.trans (hsame.trans hbefore)

end PmTiny
