import PmTiny.Core.FailurePropagation
import PmTiny.Core.ClosureRequests

namespace PmTiny
set_option autoImplicit true

namespace DependencyGraph

variable {graph : DependencyGraph} {x i d : Nat}

theorem idxOf_dependency (hi : i < graph.size) (hd : d ∈ graph.dependencies i) :
    graph.topologicalOrder.idxOf d < graph.topologicalOrder.idxOf i :=
  graph.order_closed.idxOf_lt (mem_order.2 hi) hd

theorem idxOf_transitiveDependents (hx : x < graph.size) (hi : i ∈ graph.transitiveDependents x) :
    graph.topologicalOrder.idxOf x < graph.topologicalOrder.idxOf i := by
  obtain ⟨-, hpath⟩ := (mem_transitiveDependents hx).1 hi
  clear hi
  induction hpath with
  | single hd =>
    obtain ⟨hlt, hdep⟩ := mem_dependents.1 hd
    exact idxOf_dependency hlt hdep
  | tail _ hd ih =>
    obtain ⟨hlt, hdep⟩ := mem_dependents.1 hd
    exact ih.trans (idxOf_dependency hlt hdep)

theorem transitiveDependents_up (hx : x < graph.size) (hd : d ∈ graph.transitiveDependents x)
    (hi : i < graph.size) (hdep : d ∈ graph.dependencies i) :
    i ∈ graph.transitiveDependents x := by
  have hlt := (idxOf_transitiveDependents hx hd).trans (idxOf_dependency hi hdep)
  refine (mem_transitiveDependents hx).2 ⟨?_, ?_⟩
  · rintro rfl
    omega
  · exact ((mem_transitiveDependents hx).1 hd).2.tail (mem_dependents.2 ⟨hi, hdep⟩)

end DependencyGraph

namespace DependencyRuntime

variable {graph : DependencyGraph} {rt : DependencyRuntime} {x i : Nat}

/-- A node that holds back the nodes that depend on it. -/
def Obstructs (rt : DependencyRuntime) (d : Nat) : Prop :=
  rt.states d = .failed ∨ rt.states d = .blocked

def Reasoned (graph : DependencyGraph) (rt : DependencyRuntime) : Prop :=
  ∀ i < graph.size, rt.states i = .blocked → ∃ d ∈ graph.dependencies i, rt.Obstructs d

/-- What a walk leaves visited, from what was visited before. -/
structure WalkClosed (graph : DependencyGraph) (descend : Nat → Bool) (visited result : List Nat) :
    Prop where
  subset : ∀ v ∈ visited, v ∈ result
  closed : ∀ v ∈ result, v ∉ visited → descend v = true → ∀ d ∈ graph.dependencies v, d ∈ result

theorem WalkClosed.trans (h : WalkClosed graph descend a b) (h' : WalkClosed graph descend b c) :
    WalkClosed graph descend a c where
  subset := fun v hv => h'.subset v (h.subset v hv)
  closed := by
    intro v hv hnew hdesc d hd
    by_cases hb : v ∈ b
    · exact h'.subset d (h.closed v hb hnew hdesc d hd)
    · exact h'.closed v hv hb hdesc d hd

theorem walkClosed_foldl {f : List Nat → Nat → List Nat} (l : List Nat)
    (hf : ∀ visited, ∀ d ∈ l, WalkClosed graph descend visited (f visited d) ∧ d ∈ f visited d)
    (visited : List Nat) : WalkClosed graph descend visited (l.foldl f visited) ∧
      ∀ d ∈ l, d ∈ l.foldl f visited := by
  induction l generalizing visited with
  | nil => exact ⟨⟨fun _ hv => hv, fun v hv hnew => absurd hv hnew⟩, by simp⟩
  | cons e l ih =>
    obtain ⟨hhead, he⟩ := hf visited e List.mem_cons_self
    obtain ⟨htail, hl⟩ := ih (fun visited d hd => hf visited d (List.mem_cons_of_mem e hd))
      (f visited e)
    refine ⟨hhead.trans htail, fun d hd => ?_⟩
    rcases List.mem_cons.1 hd with rfl | hd
    · exact htail.subset d he
    · exact hl d hd

theorem walk_closed (descend : Nat → Bool) (fuel : Nat) (visited : List Nat)
    (hi : i < graph.size) (hf : graph.topologicalOrder.idxOf i < fuel) :
    WalkClosed graph descend visited (walk graph descend fuel visited i) ∧
      ∀ d ∈ graph.dependencies i, d ∈ walk graph descend fuel visited i := by
  induction fuel generalizing visited i with
  | zero => cases hf
  | succ fuel ih =>
    rw [walk]
    refine walkClosed_foldl _ (fun visited d hd => ?_) visited
    have hlt := DependencyGraph.idxOf_dependency hi hd
    split
    · rename_i hm
      exact ⟨⟨fun _ hv => hv, fun v hv hnew => absurd hv hnew⟩, hm⟩
    · split
      · obtain ⟨hwalk, hdeps⟩ := ih (visited ++ [d]) (graph.deps_lt i d hd) (by omega)
        refine ⟨⟨fun v hv => hwalk.subset v (by simp [hv]), fun v hv hnew hdesc e he => ?_⟩,
          hwalk.subset d (by simp)⟩
        by_cases hvd : v = d
        · subst hvd
          exact hdeps e he
        · exact hwalk.closed v hv (by simp [hnew, hvd]) hdesc e he
      · rename_i hstop
        refine ⟨⟨fun v hv => by simp [hv], fun v hv hnew hdesc => ?_⟩, by simp⟩
        have hvd : v = d := by simpa [hnew] using hv
        subst hvd
        exact absurd hdesc hstop

theorem failed_in_walk (h : Reasoned graph rt) {result : List Nat} (hlt : i < graph.size)
    (hclosed : WalkClosed graph (fun i => rt.states i = .blocked) [] result) (hi : i ∈ result)
    (hobs : rt.Obstructs i) : ∃ d ∈ result, rt.states d = .failed := by
  -- the topological order descends along the reasons
  induction hk : graph.topologicalOrder.idxOf i using Nat.strong_induction_on generalizing i with
  | _ k ih =>
    rcases hobs with hfailed | hblocked
    · exact ⟨i, hi, hfailed⟩
    · obtain ⟨d, hd, hobs'⟩ := h i hlt hblocked
      have hmem := hclosed.closed i hi (by simp) (by simpa using hblocked) d hd
      have hidx := DependencyGraph.idxOf_dependency hlt hd
      exact ih _ (by omega) (graph.deps_lt i d hd) hmem hobs' rfl

theorem blockedBy_of_reasoned (h : Reasoned graph rt) (hi : i < graph.size)
    (hb : rt.states i = .blocked) : blockedBy graph rt (graph.name i) ≠ [] := by
  have hidx := List.idxOf_lt_length_of_mem (DependencyGraph.mem_order.2 hi)
  have hlen := graph.order_length
  obtain ⟨hclosed, hdeps⟩ := walk_closed (fun i => rt.states i = .blocked) (graph.size + 1) [] hi
    (by rw [DependencyGraph.size]; omega)
  obtain ⟨d, hd, hobs⟩ := h i hi hb
  obtain ⟨e, he, hfailed⟩ := failed_in_walk h (graph.deps_lt i d hd) hclosed (hdeps d hd) hobs
  rw [blockedBy, DependencyGraph.find_name hi]
  intro hnil
  simp only [sortedNames, List.map_eq_nil_iff] at hnil
  have hmem : e ∈ List.insertionSort (· ≤ ·) ((walk graph (fun i => rt.states i = .blocked)
      (graph.size + 1) [] i).filter fun i => rt.states i = .failed) := by
    rw [List.mem_insertionSort, List.mem_filter]
    exact ⟨he, by simpa using hfailed⟩
  rw [hnil] at hmem
  cases hmem

theorem collectStartable_obstructs (d : Nat) :
    (collectStartable graph rt).1.Obstructs d ↔ rt.Obstructs d := by
  rw [collectStartable, foldl_collectNode _ graph.order_nodup]
  simp only [Obstructs]
  split
  · rename_i hs
    simp [(startable_iff.1 hs.2).2.1]
  · rfl

theorem collectStartable_blocked (i : Nat) :
    (collectStartable graph rt).1.states i = .blocked ↔ rt.states i = .blocked := by
  rw [collectStartable, foldl_collectNode _ graph.order_nodup]
  simp only
  split
  · rename_i hs
    simp [(startable_iff.1 hs.2).2.1]
  · rfl

theorem Reasoned.collect (h : Reasoned graph rt) :
    Reasoned graph (collectStartable graph rt).1 := by
  intro i hi hb
  obtain ⟨d, hd, hobs⟩ := h i hi ((collectStartable_blocked i).1 hb)
  exact ⟨d, hd, (collectStartable_obstructs d).2 hobs⟩

theorem reasoned_reset : Reasoned graph .reset := by
  intro i _ hb
  cases hb

theorem reasoned_requestAll (graph : DependencyGraph) (rt : DependencyRuntime) :
    Reasoned graph (requestAll graph rt).1 := by
  apply Reasoned.collect
  intro i _ hb
  dsimp only at hb
  split at hb
  · cases hb
  · rename_i hne
    exact absurd (.inr hb) hne

theorem unblock_states_ne (graph : DependencyGraph) (rt : DependencyRuntime) (hne : i ≠ x) :
    (unblock graph rt x).states i = rt.states i := by
  rw [unblock]
  split
  · rfl
  · split
    · rfl
    · exact Function.update_of_ne hne _ _

theorem unblock_reason (hreq : rt.requested x = true)
    (hb : (unblock graph rt x).states x = .blocked) :
    ∃ d ∈ graph.dependencies x, (unblock graph rt x).Obstructs d := by
  rw [unblock] at hb ⊢
  split at hb
  · rename_i hskip
    simp [hreq, hb] at hskip
  · split at hb
    · rename_i hskip hany
      rw [if_neg hskip, if_pos hany]
      simpa [Obstructs] using hany
    · simp at hb

/-- The unblocking pass follows the topological order, so that no node it has passed loses its
reason later. -/
theorem reasoned_foldl_unblock (l : List Nat) (hc : Consistent rt)
    (hsorted : l.Pairwise fun left right =>
      graph.topologicalOrder.idxOf left ≤ graph.topologicalOrder.idxOf right)
    (hup : ∀ d ∈ l, ∀ i < graph.size, d ∈ graph.dependencies i → i ∈ l)
    (h : ∀ i < graph.size, i ∉ l → rt.states i = .blocked →
      ∃ d ∈ graph.dependencies i, rt.Obstructs d) :
    Reasoned graph (l.foldl (unblock graph) rt) := by
  induction l generalizing rt with
  | nil => exact fun i hi => h i hi (by simp)
  | cons j l ih =>
    obtain ⟨hj, hsorted⟩ := List.pairwise_cons.1 hsorted
    refine ih (hc.raises (unblock_raises graph rt j)) hsorted (fun d hd i hi hdep => ?_) ?_
    · rcases List.mem_cons.1 (hup d (List.mem_cons_of_mem j hd) i hi hdep) with rfl | hi'
      · have hle := hj d hd
        have hlt := DependencyGraph.idxOf_dependency hi hdep
        omega
      · exact hi'
    · intro i hi hnot hb
      by_cases hij : i = j
      · subst hij
        refine unblock_reason ((hc i).2 ?_) hb
        rcases (unblock_raises graph rt i).states i with he | ⟨-, hp, -⟩
        · rw [← he, hb]
          decide
        · rw [hb] at hp
          cases hp
      · rw [unblock_states_ne graph rt hij] at hb
        have hout : i ∉ j :: l := by simp [hij, hnot]
        obtain ⟨d, hd, hobs⟩ := h i hi hout hb
        have hdj : d ≠ j := by
          rintro rfl
          exact hout (hup d List.mem_cons_self i hi hd)
        refine ⟨d, hd, ?_⟩
        rwa [Obstructs, unblock_states_ne graph rt hdj]

theorem Reasoned.markReady (h : Reasoned graph rt) (hc : Consistent rt) (n : String) :
    Reasoned graph (markReady graph rt n).1 := by
  rw [DependencyRuntime.markReady]
  cases hn : graph.find n with
  | none => exact h
  | some x =>
    have hx := (DependencyGraph.find_eq_some.1 hn).1
    have hset := hc.set x (show true = true ↔ DependencyRuntimeState.ready ≠ .idle by simp)
    apply Reasoned.collect
    refine reasoned_foldl_unblock _ hset (DependencyGraph.transitiveDependents_sorted graph x)
      (fun d hd i hi hdep => DependencyGraph.transitiveDependents_up hx hd hi hdep) ?_
    intro i hi hnot hb
    have hix : i ≠ x := by
      rintro rfl
      simp at hb
    have hb' : rt.states i = .blocked := by simpa [hix] using hb
    obtain ⟨d, hd, hobs⟩ := h i hi hb'
    have hdx : d ≠ x := by
      rintro rfl
      exact hnot (DependencyGraph.dependents_subset_transitive hx
        (DependencyGraph.mem_dependents.2 ⟨hi, hd⟩))
    exact ⟨d, hd, by simpa [Obstructs, hdx] using hobs⟩

/-- Requesting `x` again leaves every other blocked node a reason. -/
def ClosureKeeps (graph : DependencyGraph) (rt : DependencyRuntime) (x : Nat) : Prop :=
  ∀ i < graph.size, rt.states i = .blocked → ¬Visits graph rt [x] i →
    ∃ d ∈ graph.dependencies i, rt.Obstructs d ∧ ¬Visits graph rt [x] d

/-- Each node that a failure of `x` blocks has a dependency that is failed or blocked with it; none
is blocked across ready or unrequested nodes only. -/
def FailureKeeps (graph : DependencyGraph) (rt : DependencyRuntime) (x : Nat) : Prop :=
  ∀ i ∈ graph.transitiveDependents x, rt.requested i = true → rt.states i ≠ .ready →
    ∃ d ∈ graph.dependencies i, d = x ∨ rt.Obstructs d ∨
      d ∈ graph.transitiveDependents x ∧ rt.requested d = true ∧ rt.states d ≠ .ready

/-- No blocked node has `x` as its only reason. -/
def ReleaseKeeps (graph : DependencyGraph) (rt : DependencyRuntime) (x : Nat) : Prop :=
  ∀ i ∈ graph.dependents x, rt.states i = .blocked →
    ∃ d ∈ graph.dependencies i, d ≠ x ∧ rt.Obstructs d

theorem Reasoned.requestClosure (_h : Reasoned graph rt) (n : String)
    (hk : ∀ x, graph.find n = some x → ClosureKeeps graph rt x) :
    Reasoned graph (requestClosure graph rt n).1 := by
  rw [DependencyRuntime.requestClosure]
  cases hn : graph.find n with
  | none => exact _h
  | some x =>
    have hspec := requestClosure_visits rt (DependencyGraph.find_eq_some.1 hn).1
    apply Reasoned.collect
    intro i hi hb
    have hnot : ¬Visits graph rt [x] i := by
      intro hv
      rw [((hspec i).1 hv).2] at hb
      grind
    rw [((hspec i).2 hnot).2] at hb
    obtain ⟨d, hd, hobs, hdnot⟩ := hk x hn i hi hb hnot
    refine ⟨d, hd, ?_⟩
    rwa [Obstructs, ((hspec d).2 hdnot).2]

theorem Reasoned.markFailed (h : Reasoned graph rt) (n : String)
    (hk : ∀ x, graph.find n = some x → FailureKeeps graph rt x) :
    Reasoned graph (markFailed graph rt n).1 := by
  cases hn : graph.find n with
  | none =>
    rw [DependencyRuntime.markFailed, hn]
    exact h
  | some x =>
    obtain ⟨hx, rfl⟩ := DependencyGraph.find_eq_some.1 hn
    have hkept : ∀ d, d = x ∨ rt.Obstructs d ∨ d ∈ graph.transitiveDependents x ∧
        rt.requested d = true ∧ rt.states d ≠ .ready →
        (DependencyRuntime.markFailed graph rt (graph.name x)).1.Obstructs d := by
      intro d hd
      rw [Obstructs, states_markFailed hx]
      simp only [Obstructs] at hd
      grind
    intro i hi hb
    rw [states_markFailed hx] at hb
    split at hb
    · cases hb
    · split at hb
      · rename_i hreach
        obtain ⟨d, hd, hwhy⟩ := hk x hn i hreach.1 hreach.2.1 hreach.2.2
        exact ⟨d, hd, hkept d hwhy⟩
      · obtain ⟨d, hd, hobs⟩ := h i hi hb
        exact ⟨d, hd, hkept d (.inr (.inl hobs))⟩

theorem Reasoned.set (h : Reasoned graph rt) (hk : ReleaseKeeps graph rt x) (b : Bool)
    {st : DependencyRuntimeState} (hst : st ≠ .blocked) :
    Reasoned graph ((rt.setRequested x b).setState x st) := by
  intro i hi hb
  have hix : i ≠ x := by
    rintro rfl
    simp only [setState_states, Function.update_self] at hb
    exact hst hb
  have hb' : rt.states i = .blocked := by simpa [hix] using hb
  have hother : ∃ d ∈ graph.dependencies i, d ≠ x ∧ rt.Obstructs d := by
    obtain ⟨d, hd, hobs⟩ := h i hi hb'
    by_cases hdx : d = x
    · subst hdx
      exact hk i (DependencyGraph.mem_dependents.2 ⟨hi, hd⟩) hb'
    · exact ⟨d, hd, hdx, hobs⟩
  obtain ⟨d, hd, hdx, hobs⟩ := hother
  exact ⟨d, hd, by simpa [Obstructs, hdx] using hobs⟩

end DependencyRuntime

/-- The operations on a runtime over one graph. -/
inductive RuntimeOperation where
  | start (op : StartOperation)
  | note (op : NoteOperation)

namespace RuntimeOperation

open DependencyRuntime

variable {graph : DependencyGraph} {rt : DependencyRuntime}

def apply (graph : DependencyGraph) (rt : DependencyRuntime) : RuntimeOperation → DependencyRuntime
  | .start op => (op.apply graph rt).1
  | .note op => op.apply graph rt

/-- The operation leaves each blocked node a failed or blocked dependency. -/
def KeepsReasons (graph : DependencyGraph) (rt : DependencyRuntime) : RuntimeOperation → Prop
  | .start .requestAll | .start (.markReady _) => True
  | .start (.requestClosure name) => ∀ x, graph.find name = some x → ClosureKeeps graph rt x
  | .note (.markFailed name) => ∀ x, graph.find name = some x → FailureKeeps graph rt x
  | .note (.markStarting name) | .note (.markIdle name) | .note (.markPending name) =>
    ∀ x, graph.find name = some x → ReleaseKeeps graph rt x

theorem apply_consistent (h : Consistent rt) (op : RuntimeOperation) :
    Consistent (op.apply graph rt) := by
  cases op with
  | start op => exact StartOperation.consistent_apply h op
  | note op =>
    cases op with
    | markFailed n => exact h.markFailed graph n
    | markIdle n => exact h.markIdle graph n
    | markStarting n => exact h.markStarting graph n
    | markPending n => exact h.markPending graph n

theorem apply_reasoned (h : Reasoned graph rt) (hc : Consistent rt) (op : RuntimeOperation)
    (hk : op.KeepsReasons graph rt) : Reasoned graph (op.apply graph rt) := by
  cases op with
  | start op =>
    cases op with
    | requestAll => exact reasoned_requestAll graph rt
    | requestClosure n => exact h.requestClosure n hk
    | markReady n => exact h.markReady hc n
  | note op =>
    cases op with
    | markFailed n => exact h.markFailed n hk
    | markIdle n =>
      simp only [apply, NoteOperation.apply, markIdle]
      cases hn : graph.find n with
      | none => exact h
      | some x => exact h.set (hk x hn) false (by simp)
    | markStarting n =>
      simp only [apply, NoteOperation.apply, markStarting]
      cases hn : graph.find n with
      | none => exact h
      | some x => exact h.set (hk x hn) true (by simp)
    | markPending n =>
      simp only [apply, NoteOperation.apply, markPending]
      cases hn : graph.find n with
      | none => exact h
      | some x => exact h.set (hk x hn) true (by simp)

end RuntimeOperation

/-- The runtimes that a reset and a sequence of allowed operations lead to. -/
inductive OperationRun (graph : DependencyGraph)
    (allowed : DependencyRuntime → RuntimeOperation → Prop) : DependencyRuntime → Prop
  | reset (h : DependencyGraph.build configs = .ok graph) : OperationRun graph allowed .reset
  | step (h : OperationRun graph allowed rt) (op : RuntimeOperation) (ha : allowed rt op) :
      OperationRun graph allowed (op.apply graph rt)

theorem OperationRun.consistent (h : OperationRun graph allowed rt) :
    DependencyRuntime.Consistent rt := by
  induction h with
  | reset => exact DependencyRuntime.consistent_reset
  | step _ op _ ih => exact op.apply_consistent ih

theorem OperationRun.reasoned (h : OperationRun graph (RuntimeOperation.KeepsReasons graph) rt) :
    DependencyRuntime.Reasoned graph rt := by
  induction h with
  | reset => exact DependencyRuntime.reasoned_reset
  | step hrun op ha ih => exact op.apply_reasoned ih hrun.consistent ha

namespace DependencyRuntime

variable {graph : DependencyGraph} {rt : DependencyRuntime}

theorem failed_of_mem_blockedBy (h : s ∈ blockedBy graph rt n) : state graph rt s = .failed := by
  rw [blockedBy] at h
  split at h
  · cases h
  · rename_i id _
    obtain ⟨i, hi, rfl⟩ := List.mem_map.1 h
    rw [List.mem_insertionSort, List.mem_filter] at hi
    obtain ⟨-, hlt⟩ := walk_nodup graph (fun i => rt.states i = .blocked) (graph.size + 1) [] id
      List.nodup_nil (by simp)
    rw [state_of_find (DependencyGraph.find_name (hlt i hi.1))]
    simpa using hi.2

/-- While every operation leaves each blocked node a failed or blocked dependency, each blocked
program is explained by failed ones. -/
theorem blocked_for_a_reason (h : OperationRun graph (RuntimeOperation.KeepsReasons graph) rt)
    (n : String) (hb : state graph rt n = .blocked) :
    (∃ d ∈ graph.dependencyNames n, state graph rt d = .failed ∨ state graph rt d = .blocked) ∧
      blockedBy graph rt n ≠ [] ∧ ∀ m ∈ blockedBy graph rt n, state graph rt m = .failed := by
  cases hn : graph.find n with
  | none =>
    rw [state, hn] at hb
    cases hb
  | some i =>
    obtain ⟨hi, rfl⟩ := DependencyGraph.find_eq_some.1 hn
    rw [state_of_find hn] at hb
    obtain ⟨d, hd, hobs⟩ := h.reasoned i hi hb
    have hstate : state graph rt (graph.name d) = rt.states d :=
      state_of_find (DependencyGraph.find_name (graph.deps_lt i d hd))
    refine ⟨⟨graph.name d, ?_, ?_⟩, blockedBy_of_reasoned h.reasoned hi hb,
      fun m hm => failed_of_mem_blockedBy hm⟩
    · rw [DependencyGraph.dependencyNames, hn]
      exact List.mem_map_of_mem hd
    · rw [hstate]
      exact hobs

theorem blocked_for_a_reason_pair :
    ∃ graph, DependencyGraph.build [⟨"a", []⟩, ⟨"b", ["a"]⟩] = .ok graph ∧
      let rt := (markFailed graph (requestAll graph .reset).1 "a").1
      state graph rt "b" = .blocked ∧ blockedBy graph rt "b" ≠ [] := by
  obtain ⟨graph, hg, htest⟩ := DependencyGraph.build_any [⟨"a", []⟩, ⟨"b", ["a"]⟩]
    (fun graph =>
      let rt := (requestAll graph .reset).1
      graph.find "a" = some 0 && graph.transitiveDependents 0 = [1] &&
        graph.dependencies 1 = [0] && state graph (markFailed graph rt "a").1 "b" = .blocked)
    (by decide +kernel)
  simp only [Bool.and_eq_true, decide_eq_true_iff] at htest
  obtain ⟨⟨⟨hfind, htrans⟩, hdeps⟩, hblocked⟩ := htest
  have hkeeps : FailureKeeps graph (requestAll graph .reset).1 0 := by
    intro i hi _ _
    rw [htrans, List.mem_singleton] at hi
    subst hi
    exact ⟨0, by rw [hdeps]; simp, .inl rfl⟩
  have hrun : OperationRun graph (RuntimeOperation.KeepsReasons graph)
      (markFailed graph (requestAll graph .reset).1 "a").1 := by
    refine .step (.step (.reset hg) (.start .requestAll) trivial) (.note (.markFailed "a")) ?_
    intro x hx
    rw [hfind, Option.some.injEq] at hx
    exact hx ▸ hkeeps
  exact ⟨graph, hg, hblocked, (blocked_for_a_reason hrun "b" hblocked).2.1⟩

/-- A failure blocks a starting program across a ready one, and nothing explains it. -/
theorem blocked_across_ready :
    ∃ graph, DependencyGraph.build [⟨"a", []⟩, ⟨"b", ["a"]⟩, ⟨"c", ["b"]⟩] = .ok graph ∧
      ∃ rt, OperationRun graph (fun _ _ => True) rt ∧
        let rt' := (markFailed graph rt "a").1
        OperationRun graph (fun _ _ => True) rt' ∧ state graph rt' "c" = .blocked ∧
          graph.dependencyNames "c" = ["b"] ∧ state graph rt' "b" = .ready ∧
          blockedBy graph rt' "c" = [] := by
  obtain ⟨graph, hg, htest⟩ := DependencyGraph.build_any
    [⟨"a", []⟩, ⟨"b", ["a"]⟩, ⟨"c", ["b"]⟩]
    (fun graph =>
      let rt := (markReady graph (markReady graph (requestAll graph .reset).1 "a").1 "b").1
      let rt' := (markFailed graph rt "a").1
      state graph rt' "c" = .blocked && graph.dependencyNames "c" = ["b"] &&
        state graph rt' "b" = .ready && blockedBy graph rt' "c" = [])
    (by decide +kernel)
  simp only [Bool.and_eq_true, decide_eq_true_iff] at htest
  obtain ⟨⟨⟨hblocked, hdeps⟩, hready⟩, hnone⟩ := htest
  have hrun : OperationRun graph (fun _ _ => True)
      (markReady graph (markReady graph (requestAll graph .reset).1 "a").1 "b").1 :=
    .step (.step (.step (.reset hg) (.start .requestAll) trivial) (.start (.markReady "a")) trivial)
      (.start (.markReady "b")) trivial
  exact ⟨graph, hg, _, hrun, .step hrun (.note (.markFailed "a")) trivial, hblocked, hdeps, hready,
    hnone⟩

end DependencyRuntime
end PmTiny
