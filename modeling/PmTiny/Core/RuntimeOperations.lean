import PmTiny.Core.RuntimeNames

namespace PmTiny
set_option autoImplicit true

namespace DependencyGraph

variable {graph : DependencyGraph}

/-- The names stand as in a listing of all nodes that has every dependency before its dependents. -/
def Topological (graph : DependencyGraph) (names : List String) : Prop :=
  ∃ order : List String, names.Sublist order ∧ order.Perm graph.names ∧
    ∀ pre n post, order = pre ++ n :: post → ∀ d ∈ graph.dependencyNames n, d ∈ pre

theorem names_eq_map (graph : DependencyGraph) :
    graph.names = (List.range graph.size).map graph.name := by
  apply List.ext_getElem
  · simp [size]
  · intro i hi _
    simp [name, List.getElem?_eq_getElem hi]

theorem name_injOn (ha : a < graph.size) (hb : b < graph.size) (h : graph.name a = graph.name b) :
    a = b := by
  have hfind := find_name ha
  rw [h, find_name hb] at hfind
  exact (Option.some.inj hfind).symm

theorem topological_of_sublist {ids : List Nat} (h : ids.Sublist graph.topologicalOrder) :
    graph.Topological (ids.map graph.name) := by
  refine ⟨graph.topologicalOrder.map graph.name, h.map _, ?_, fun pre n post he d hd => ?_⟩
  · rw [names_eq_map]
    apply List.Perm.map
    apply (List.perm_ext_iff_of_nodup graph.order_nodup List.nodup_range).2
    intro id
    rw [mem_order, List.mem_range]
  · obtain ⟨pre', post', horder, rfl, hpost⟩ := List.map_eq_append_iff.1 he
    obtain ⟨id, post'', rfl, rfl, -⟩ := List.map_eq_cons_iff.1 hpost
    have hid : id < graph.size := by
      rw [← mem_order, horder]
      simp
    rw [dependencyNames, find_name hid] at hd
    obtain ⟨i, hi, rfl⟩ := List.mem_map.1 hd
    exact List.mem_map_of_mem (graph.order_closed pre' id post'' horder i hi)

end DependencyGraph

/-- The operations that return programs to start. -/
inductive StartOperation where
  | requestAll
  | requestClosure (name : String)
  | markReady (name : String)

/-- The operations that only record what has happened. -/
inductive NoteOperation where
  | markFailed (name : String)
  | markStarting (name : String)
  | markIdle (name : String)
  | markPending (name : String)

namespace StartOperation

open DependencyRuntime

variable {graph : DependencyGraph} {rt : DependencyRuntime} {op : StartOperation}

def apply (graph : DependencyGraph) (rt : DependencyRuntime) :
    StartOperation → DependencyRuntime × List String
  | .requestAll => DependencyRuntime.requestAll graph rt
  | .requestClosure name => DependencyRuntime.requestClosure graph rt name
  | .markReady name => DependencyRuntime.markReady graph rt name

/-- The name that the operation is about, if any, is a node of the graph. -/
def Names (graph : DependencyGraph) : StartOperation → Prop
  | .requestAll => True
  | .requestClosure name | .markReady name => name ∈ graph.names

/-- The runtime as the operation leaves it for `collect_startable`. -/
def prepare (graph : DependencyGraph) (rt : DependencyRuntime) : StartOperation → DependencyRuntime
  | .requestAll =>
    { requested := fun _ => true
      states := fun id =>
        if rt.states id = .idle ∨ rt.states id = .blocked then .pending else rt.states id }
  | .requestClosure name => match graph.find name with
    | none => rt
    | some id => requestDependencies graph (graph.size + 1) rt id
  | .markReady name => match graph.find name with
    | none => rt
    | some id => (graph.transitiveDependents id).foldl (unblock graph)
        ((rt.setRequested id true).setState id .ready)

theorem apply_eq (h : op.Names graph) :
    op.apply graph rt = collectStartable graph (op.prepare graph rt) := by
  cases op with
  | requestAll => rfl
  | requestClosure name =>
    obtain ⟨id, hid⟩ := DependencyGraph.find_isSome.2 h
    rw [apply, DependencyRuntime.requestClosure, prepare, hid]
  | markReady name =>
    obtain ⟨id, hid⟩ := DependencyGraph.find_isSome.2 h
    rw [apply, DependencyRuntime.markReady, prepare, hid]

theorem apply_unnamed (h : ¬op.Names graph) : op.apply graph rt = (rt, []) := by
  have hnone : ∀ {name}, name ∉ graph.names → graph.find name = none := by
    intro name hn
    cases hf : graph.find name with
    | none => rfl
    | some id => exact absurd (DependencyGraph.find_isSome.1 ⟨id, hf⟩) hn
  cases op with
  | requestAll => exact absurd trivial h
  | requestClosure name => rw [apply, DependencyRuntime.requestClosure, hnone h]
  | markReady name => rw [apply, DependencyRuntime.markReady, hnone h]

theorem consistent_apply (h : Consistent rt) (op : StartOperation) :
    Consistent (op.apply graph rt).1 := by
  cases op with
  | requestAll => exact consistent_requestAll graph rt
  | requestClosure name => exact h.requestClosure graph name
  | markReady name => exact h.markReady graph name

end StartOperation

def NoteOperation.apply (graph : DependencyGraph) (rt : DependencyRuntime) :
    NoteOperation → DependencyRuntime
  | .markFailed name => (DependencyRuntime.markFailed graph rt name).1
  | .markStarting name => DependencyRuntime.markStarting graph rt name
  | .markIdle name => DependencyRuntime.markIdle graph rt name
  | .markPending name => DependencyRuntime.markPending graph rt name

/-- The runtimes that the operations lead to, over graphs that `build` has accepted. -/
inductive RuntimeRun : DependencyGraph → DependencyRuntime → Prop
  | reset (h : DependencyGraph.build configs = .ok graph) : RuntimeRun graph .reset
  | start (op : StartOperation) (h : RuntimeRun graph rt) : RuntimeRun graph (op.apply graph rt).1
  | note (op : NoteOperation) (h : RuntimeRun graph rt) : RuntimeRun graph (op.apply graph rt)
  | migrate (entries : List DependencyRuntimeEntry) (h : RuntimeRun graph rt)
      (hb : DependencyGraph.build configs = .ok graph') :
      RuntimeRun graph' (.migrate graph' entries)

namespace DependencyRuntime

variable {graph : DependencyGraph} {rt : DependencyRuntime}

theorem collectStartable_names (graph : DependencyGraph) (rt : DependencyRuntime) :
    (collectStartable graph rt).2 =
      (graph.topologicalOrder.filter (startable graph rt)).map graph.name := by
  rw [collectStartable, foldl_collectNode _ graph.order_nodup, List.nil_append]

theorem collectStartable_nodup : (collectStartable graph rt).2.Nodup := by
  rw [collectStartable_names]
  refine List.Nodup.map_on (fun a ha b hb he => ?_) (graph.order_nodup.filter _)
  have ha' := DependencyGraph.mem_order.1 (List.mem_of_mem_filter ha)
  have hb' := DependencyGraph.mem_order.1 (List.mem_of_mem_filter hb)
  exact DependencyGraph.name_injOn ha' hb' he

def DependenciesReady (graph : DependencyGraph) (rt : DependencyRuntime) (n : String) : Prop :=
  ∀ d ∈ graph.dependencyNames n, state graph rt d = .ready

theorem dependenciesReady_of_find {id : Nat} (h : graph.find n = some id) :
    DependenciesReady graph rt n ↔ dependenciesReady graph rt id = true := by
  have hstate : ∀ d ∈ graph.dependencies id, state graph rt (graph.name d) = rt.states d :=
    fun d hd => state_of_find (DependencyGraph.find_name (graph.deps_lt id d hd))
  rw [DependenciesReady, DependencyGraph.dependencyNames, h, dependenciesReady_iff]
  simp only [List.mem_map, forall_exists_index, and_imp, forall_apply_eq_imp_iff₂]
  constructor
  · intro hr d hd
    rw [← hstate d hd]
    exact hr d hd
  · intro hr d hd
    rw [hstate d hd]
    exact hr d hd

theorem collected (h : n ∈ (collectStartable graph rt).2) :
    isRequested graph rt n = true ∧ state graph rt n = .pending ∧
      DependenciesReady graph (collectStartable graph rt).1 n ∧
      state graph (collectStartable graph rt).1 n = .starting := by
  obtain ⟨id, hid, hs⟩ := mem_collectStartable.1 h
  obtain ⟨hreq, hpend, -⟩ := startable_iff.1 hs
  refine ⟨(isRequested_of_find hid).trans hreq, (state_of_find hid).trans hpend, ?_, ?_⟩
  · rw [dependenciesReady_of_find hid, dependenciesReady_congr collectStartable_ready]
    simpa [startable, hreq, hpend] using hs
  · rw [state_of_find hid,
      collectStartable_states (DependencyGraph.find_eq_some.1 hid).1, if_pos hs]

/-- One pass over the order is enough: no node that could start is left waiting. -/
theorem none_left (hreq : isRequested graph (collectStartable graph rt).1 n = true)
    (hpend : state graph (collectStartable graph rt).1 n = .pending) :
    ¬DependenciesReady graph (collectStartable graph rt).1 n := by
  intro hready
  cases hid : graph.find n with
  | none =>
    rw [isRequested, hid] at hreq
    cases hreq
  | some id =>
    rw [isRequested_of_find hid, collectStartable_requested] at hreq
    rw [state_of_find hid, collectStartable_states (DependencyGraph.find_eq_some.1 hid).1] at hpend
    rw [dependenciesReady_of_find hid, dependenciesReady_congr collectStartable_ready] at hready
    split at hpend
    · cases hpend
    · rename_i hs
      exact hs (by simp [startable, hreq, hpend, hready])

end DependencyRuntime

open DependencyRuntime in
/-- Programs are handed out for start once, in order, when all they wait for is ready, and none that
could start is left behind. -/
theorem start_gate (_h : RuntimeRun graph rt) (op : StartOperation) :
    let result := op.apply graph rt
    result.2.Nodup ∧ graph.Topological result.2 ∧
      (∀ n ∈ result.2, isRequested graph (op.prepare graph rt) n = true ∧
        state graph (op.prepare graph rt) n = .pending ∧
        (∀ d ∈ graph.dependencyNames n, state graph result.1 d = .ready) ∧
        state graph result.1 n = .starting) ∧
      (op.Names graph → ∀ n, isRequested graph result.1 n = true →
        state graph result.1 n = .pending →
        ∃ d ∈ graph.dependencyNames n, state graph result.1 d ≠ .ready) := by
  intro result
  by_cases hn : op.Names graph
  · have hr : result = collectStartable graph (op.prepare graph rt) := StartOperation.apply_eq hn
    rw [hr]
    refine ⟨collectStartable_nodup, ?_, fun n hmem => collected hmem, fun _ n hreq hpend => ?_⟩
    · rw [collectStartable_names]
      exact DependencyGraph.topological_of_sublist List.filter_sublist
    · have hleft := none_left hreq hpend
      rw [DependenciesReady] at hleft
      push Not at hleft
      exact hleft
  · have hr : result = (rt, []) := StartOperation.apply_unnamed hn
    rw [hr]
    refine ⟨List.nodup_nil, ?_, by simp, fun h => absurd h hn⟩
    exact DependencyGraph.topological_of_sublist (List.nil_sublist _)

open DependencyRuntime in
theorem start_gate_chain : ∃ graph, DependencyGraph.build [⟨"a", []⟩, ⟨"b", ["a"]⟩] = .ok graph ∧
    let rt := (StartOperation.requestAll.apply graph .reset).1
    let result := (StartOperation.markReady "a").apply graph rt
    result.2 = ["b"] ∧ state graph result.1 "b" = .starting := by
  obtain ⟨graph, hg⟩ : ∃ graph, DependencyGraph.build [⟨"a", []⟩, ⟨"b", ["a"]⟩] = .ok graph :=
    DependencyGraph.build_isOk ⟨by decide, by decide, by decide, by decide, by decide,
      fun n => if n = "a" then 0 else 1, by decide⟩
  refine ⟨graph, hg, ?_⟩
  intro rt result
  have hrt : RuntimeRun graph rt := .start .requestAll (.reset hg)
  have hb : result.2 = ["b"] := by
    have hrun : (DependencyGraph.build [⟨"a", []⟩, ⟨"b", ["a"]⟩]).toOption.map (fun g =>
        ((StartOperation.markReady "a").apply g (StartOperation.requestAll.apply g .reset).1).2) =
        some ["b"] := by decide
    rw [hg] at hrun
    exact Option.some.inj hrun
  obtain ⟨-, -, hstarted, -⟩ := start_gate hrt (.markReady "a")
  exact ⟨hb, (hstarted "b" (by rw [hb]; simp)).2.2.2⟩

end PmTiny
