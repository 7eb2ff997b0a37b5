import PmTiny.Core.DependencyGraph

namespace PmTiny
set_option autoImplicit true

inductive DependencyRuntimeState where
  | idle | pending | starting | ready | failed | blocked
  deriving DecidableEq, Repr

structure DependencyFailureResult where
  failed : List String := []
  blocked : List String := []
  deriving DecidableEq, Repr

structure DependencyRuntimeEntry where
  name : String
  state : DependencyRuntimeState := .idle
  requested : Bool := false
  deriving DecidableEq, Repr

/-- The start state of every node; the graph it refers to is passed to each operation. -/
structure DependencyRuntime where
  states : Nat → DependencyRuntimeState
  requested : Nat → Bool

namespace DependencyRuntime

def reset : DependencyRuntime := ⟨fun _ => .idle, fun _ => false⟩

def setState (rt : DependencyRuntime) (id : Nat) (state : DependencyRuntimeState) :
    DependencyRuntime := { rt with states := Function.update rt.states id state }

def setRequested (rt : DependencyRuntime) (id : Nat) (requested : Bool) : DependencyRuntime :=
  { rt with requested := Function.update rt.requested id requested }

def requestNode (rt : DependencyRuntime) (id : Nat) : DependencyRuntime :=
  if rt.states id = .idle ∨ rt.states id = .blocked ∨ rt.states id = .failed then
    (rt.setRequested id true).setState id .pending
  else rt.setRequested id true

/-- Request a node and, unless it was requested before, its dependencies. -/
def requestDependencies (graph : DependencyGraph) :
    Nat → DependencyRuntime → Nat → DependencyRuntime
  | 0, rt, _ => rt
  | fuel + 1, rt, id =>
    if rt.requested id ∧ rt.states id ≠ .failed ∧ rt.states id ≠ .blocked then rt
    else (graph.dependencies id).foldl (requestDependencies graph fuel) (rt.requestNode id)

def dependenciesReady (graph : DependencyGraph) (rt : DependencyRuntime) (id : Nat) : Bool :=
  (graph.dependencies id).all fun dependency => rt.states dependency = .ready

/-- One node of `collect_startable`. -/
def collectNode (graph : DependencyGraph) (acc : DependencyRuntime × List String) (id : Nat) :
    DependencyRuntime × List String :=
  if acc.1.requested id ∧ acc.1.states id = .pending ∧ dependenciesReady graph acc.1 id then
    (acc.1.setState id .starting, acc.2 ++ [graph.name id])
  else acc

def collectStartable (graph : DependencyGraph) (rt : DependencyRuntime) :
    DependencyRuntime × List String :=
  graph.topologicalOrder.foldl (collectNode graph) (rt, [])

def requestAll (graph : DependencyGraph) (rt : DependencyRuntime) :
    DependencyRuntime × List String :=
  collectStartable graph
    { requested := fun _ => true
      states := fun id =>
        if rt.states id = .idle ∨ rt.states id = .blocked then .pending else rt.states id }

def requestClosure (graph : DependencyGraph) (rt : DependencyRuntime) (name : String) :
    DependencyRuntime × List String :=
  match graph.find name with
  | none => (rt, [])
  | some id => collectStartable graph (requestDependencies graph (graph.size + 1) rt id)

/-- A blocked node goes back to pending when none of its dependencies is failed or blocked. -/
def unblock (graph : DependencyGraph) (rt : DependencyRuntime) (dependent : Nat) :
    DependencyRuntime :=
  if !rt.requested dependent || rt.states dependent ≠ .blocked then rt
  else if (graph.dependencies dependent).any fun dependency =>
      rt.states dependency = .failed || rt.states dependency = .blocked then rt
  else rt.setState dependent .pending

def markReady (graph : DependencyGraph) (rt : DependencyRuntime) (name : String) :
    DependencyRuntime × List String :=
  match graph.find name with
  | none => (rt, [])
  | some id =>
    let rt := (rt.setRequested id true).setState id .ready
    collectStartable graph ((graph.transitiveDependents id).foldl (unblock graph) rt)

/-- A requested dependent that is not ready is blocked by the failure. -/
def block (graph : DependencyGraph) (acc : DependencyRuntime × List String) (dependent : Nat) :
    DependencyRuntime × List String :=
  if !acc.1.requested dependent || acc.1.states dependent = .ready then acc
  else
    (acc.1.setState dependent .blocked,
      if acc.1.states dependent ≠ .blocked then acc.2 ++ [graph.name dependent] else acc.2)

def markFailed (graph : DependencyGraph) (rt : DependencyRuntime) (name : String) :
    DependencyRuntime × DependencyFailureResult :=
  match graph.find name with
  | none => (rt, {})
  | some id =>
    let rt := (rt.setRequested id true).setState id .failed
    let acc := (graph.transitiveDependents id).foldl (block graph) (rt, [])
    (acc.1, { failed := [name], blocked := acc.2 })

def markIdle (graph : DependencyGraph) (rt : DependencyRuntime) (name : String) :
    DependencyRuntime :=
  match graph.find name with
  | none => rt
  | some id => (rt.setRequested id false).setState id .idle

def markStarting (graph : DependencyGraph) (rt : DependencyRuntime) (name : String) :
    DependencyRuntime :=
  match graph.find name with
  | none => rt
  | some id => (rt.setRequested id true).setState id .starting

def markPending (graph : DependencyGraph) (rt : DependencyRuntime) (name : String) :
    DependencyRuntime :=
  match graph.find name with
  | none => rt
  | some id => (rt.setRequested id true).setState id .pending

def state (graph : DependencyGraph) (rt : DependencyRuntime) (name : String) :
    DependencyRuntimeState :=
  match graph.find name with
  | none => .idle
  | some id => rt.states id

/-- The nodes that a depth-first walk over the dependencies visits, each once, in its order;
`descend` says below which nodes the walk goes on. -/
def walk (graph : DependencyGraph) (descend : Nat → Bool) :
    Nat → List Nat → Nat → List Nat
  | 0, visited, _ => visited
  | fuel + 1, visited, current =>
    (graph.dependencies current).foldl (fun visited dependency =>
      if dependency ∈ visited then visited
      else if descend dependency then walk graph descend fuel (visited ++ [dependency]) dependency
      else visited ++ [dependency]) visited

/-- Node names in the order of their ids, which is how the source sorts its answers. -/
def sortedNames (graph : DependencyGraph) (ids : List Nat) : List String :=
  (ids.insertionSort (· ≤ ·)).map graph.name

def blockedBy (graph : DependencyGraph) (rt : DependencyRuntime) (name : String) : List String :=
  match graph.find name with
  | none => []
  | some id => sortedNames graph <|
      (walk graph (fun i => rt.states i = .blocked) (graph.size + 1) [] id).filter fun i =>
        rt.states i = .failed

def waitingFor (graph : DependencyGraph) (rt : DependencyRuntime) (name : String) : List String :=
  match graph.find name with
  | none => []
  | some id => sortedNames graph <|
      (walk graph (fun _ => true) (graph.size + 1) [] id).filter fun i => rt.states i ≠ .ready

def snapshot (graph : DependencyGraph) (rt : DependencyRuntime) : List DependencyRuntimeEntry :=
  (List.range graph.size).map fun i => ⟨graph.name i, rt.states i, rt.requested i⟩

def restore (graph : DependencyGraph) (rt : DependencyRuntime) (entry : DependencyRuntimeEntry) :
    DependencyRuntime :=
  match graph.find entry.name with
  | none => rt
  | some id => (rt.setState id entry.state).setRequested id entry.requested

def migrate (graph : DependencyGraph) (entries : List DependencyRuntimeEntry) :
    DependencyRuntime := entries.foldl (restore graph) reset

/-- The requested flag of a name, which `snapshot` reports. -/
def isRequested (graph : DependencyGraph) (rt : DependencyRuntime) (name : String) : Bool :=
  match graph.find name with
  | none => false
  | some id => rt.requested id

variable {graph : DependencyGraph} {rt : DependencyRuntime} {id : Nat}

@[simp] theorem setState_states (rt : DependencyRuntime) (id : Nat) (st : DependencyRuntimeState) :
    (rt.setState id st).states = Function.update rt.states id st := rfl

@[simp] theorem setState_requested (rt : DependencyRuntime) (id : Nat)
    (st : DependencyRuntimeState) : (rt.setState id st).requested = rt.requested := rfl

@[simp] theorem setRequested_states (rt : DependencyRuntime) (id : Nat) (b : Bool) :
    (rt.setRequested id b).states = rt.states := rfl

@[simp] theorem setRequested_requested (rt : DependencyRuntime) (id : Nat) (b : Bool) :
    (rt.setRequested id b).requested = Function.update rt.requested id b := rfl

theorem foldl_visit_nodup {step : List Nat → Nat → List Nat}
    (hstep : ∀ visited dependency, visited.Nodup → (∀ i ∈ visited, i < n) → dependency < n →
      (step visited dependency).Nodup ∧ ∀ i ∈ step visited dependency, i < n)
    (dependencies : List Nat) (hdeps : ∀ i ∈ dependencies, i < n) (visited : List Nat)
    (hn : visited.Nodup) (hlt : ∀ i ∈ visited, i < n) :
    (dependencies.foldl step visited).Nodup ∧ ∀ i ∈ dependencies.foldl step visited, i < n := by
  induction dependencies generalizing visited with
  | nil => exact ⟨hn, hlt⟩
  | cons dependency dependencies ih =>
    obtain ⟨hn', hlt'⟩ := hstep visited dependency hn hlt (hdeps _ List.mem_cons_self)
    exact ih (fun i hi => hdeps i (List.mem_cons_of_mem _ hi)) _ hn' hlt'

theorem walk_nodup (graph : DependencyGraph) (descend : Nat → Bool) (fuel : Nat)
    (visited : List Nat) (current : Nat) (hn : visited.Nodup)
    (hlt : ∀ i ∈ visited, i < graph.size) :
    (walk graph descend fuel visited current).Nodup ∧
      ∀ i ∈ walk graph descend fuel visited current, i < graph.size := by
  induction fuel generalizing visited current with
  | zero => exact ⟨hn, hlt⟩
  | succ fuel ih =>
    rw [walk]
    apply foldl_visit_nodup _ _ (graph.deps_lt current) _ hn hlt
    intro visited dependency hn hlt hdep
    by_cases hmem : dependency ∈ visited
    · rw [if_pos hmem]
      exact ⟨hn, hlt⟩
    · rw [if_neg hmem]
      have hn' : (visited ++ [dependency]).Nodup := by
        rw [List.nodup_append]
        refine ⟨hn, List.nodup_singleton _, ?_⟩
        rintro i hi j hj rfl
        rw [List.mem_singleton] at hj
        exact hmem (hj ▸ hi)
      have hlt' : ∀ i ∈ visited ++ [dependency], i < graph.size := by
        intro i hi
        rcases List.mem_append.1 hi with hi | hi
        · exact hlt i hi
        · rw [List.mem_singleton.1 hi]
          exact hdep
      split
      · exact ih _ _ hn' hlt'
      · exact ⟨hn', hlt'⟩

/-- A node that `collect_startable` moves from pending to starting. -/
def startable (graph : DependencyGraph) (rt : DependencyRuntime) (id : Nat) : Bool :=
  rt.requested id ∧ rt.states id = .pending ∧ dependenciesReady graph rt id

theorem dependenciesReady_iff :
    dependenciesReady graph rt id = true ↔ ∀ d ∈ graph.dependencies id, rt.states d = .ready := by
  simp [dependenciesReady]

theorem startable_iff : startable graph rt id = true ↔ rt.requested id = true ∧
    rt.states id = .pending ∧ ∀ d ∈ graph.dependencies id, rt.states d = .ready := by
  simp [startable, dependenciesReady_iff]

theorem dependenciesReady_congr {rt' : DependencyRuntime}
    (h : ∀ i, rt'.states i = .ready ↔ rt.states i = .ready) (id : Nat) :
    dependenciesReady graph rt' id = dependenciesReady graph rt id := by
  rw [Bool.eq_iff_iff, dependenciesReady_iff, dependenciesReady_iff]
  simp [h]

theorem foldl_collectNode (l : List Nat) (hl : l.Nodup) (acc : DependencyRuntime × List String) :
    l.foldl (collectNode graph) acc =
      ({ acc.1 with states := fun i =>
          if i ∈ l ∧ startable graph acc.1 i = true then .starting else acc.1.states i },
        acc.2 ++ (l.filter (startable graph acc.1)).map graph.name) := by
  induction l generalizing acc with
  | nil => simp
  | cons id l ih =>
    obtain ⟨hid, hl'⟩ := List.nodup_cons.1 hl
    rw [List.foldl_cons, ih hl']
    by_cases hs : startable graph acc.1 id = true
    · have hc : collectNode graph acc id =
          (acc.1.setState id .starting, acc.2 ++ [graph.name id]) := by
        rw [collectNode, if_pos]
        simpa [startable] using hs
      have hready : ∀ i, (acc.1.setState id .starting).states i = .ready ↔
          acc.1.states i = .ready := by
        intro i
        by_cases hi : i = id
        · subst i
          simp [(startable_iff.1 hs).2.1]
        · simp [hi]
      have hst : ∀ i, i ≠ id → startable graph (acc.1.setState id .starting) i =
          startable graph acc.1 i := by
        intro i hi
        simp [startable, hi, dependenciesReady_congr hready]
      have hf : l.filter (startable graph (acc.1.setState id .starting)) =
          l.filter (startable graph acc.1) :=
        List.filter_congr fun i hi => hst i fun he => hid (he ▸ hi)
      rw [hc, hf]
      simp only [List.filter_cons, hs, if_true, List.map_cons, List.append_assoc,
        List.singleton_append, Prod.mk.injEq, and_true]
      congr 1
      funext i
      by_cases hi : i = id
      · subst i
        simp [hid, hs]
      · simp [hi, hst i hi]
    · have hc : collectNode graph acc id = acc := by
        rw [collectNode, if_neg]
        simpa [startable] using hs
      rw [hc]
      simp only [List.filter_cons, hs, Prod.mk.injEq]
      refine ⟨?_, by simp⟩
      congr 1
      funext i
      by_cases hi : i = id
      · subst i
        simp [hs]
      · simp [hi]

theorem collectStartable_states (h : id < graph.size) :
    (collectStartable graph rt).1.states id =
      if startable graph rt id = true then .starting else rt.states id := by
  rw [collectStartable, foldl_collectNode _ graph.order_nodup]
  simp [DependencyGraph.mem_order, h]

theorem collectStartable_requested :
    (collectStartable graph rt).1.requested = rt.requested := by
  rw [collectStartable, foldl_collectNode _ graph.order_nodup]

theorem mem_collectStartable {s : String} : s ∈ (collectStartable graph rt).2 ↔
    ∃ id, graph.find s = some id ∧ startable graph rt id = true := by
  rw [collectStartable, foldl_collectNode _ graph.order_nodup]
  simp only [List.nil_append, List.mem_map, List.mem_filter, DependencyGraph.mem_order,
    DependencyGraph.find_eq_some]
  grind

theorem collectStartable_ready (id : Nat) :
    (collectStartable graph rt).1.states id = .ready ↔ rt.states id = .ready := by
  rw [collectStartable, foldl_collectNode _ graph.order_nodup]
  dsimp only
  split
  · rename_i h
    simp [(startable_iff.1 h.2).2.1]
  · rfl

theorem collectStartable_idle (id : Nat) :
    (collectStartable graph rt).1.states id = .idle ↔ rt.states id = .idle := by
  rw [collectStartable, foldl_collectNode _ graph.order_nodup]
  dsimp only
  split
  · rename_i h
    simp [(startable_iff.1 h.2).2.1]
  · rfl

/-- How requests and unblocking change a runtime: flags only rise, and a node that is waiting,
failed or blocked may go back to pending. -/
structure Raises (rt rt' : DependencyRuntime) : Prop where
  requested : ∀ i, rt.requested i = true → rt'.requested i = true
  states : ∀ i, rt'.states i = rt.states i ∨
    (rt.states i = .idle ∨ rt.states i = .blocked ∨ rt.states i = .failed) ∧
      rt'.states i = .pending ∧ rt'.requested i = true
  fresh : ∀ i, rt'.requested i = true → rt.requested i = true ∨ rt'.states i ≠ .idle

theorem Raises.refl (rt : DependencyRuntime) : Raises rt rt :=
  ⟨fun _ h => h, fun _ => .inl rfl, fun _ h => .inl h⟩

theorem Raises.trans (h : Raises a b) (h' : Raises b c) : Raises a c where
  requested := fun i hi => h'.requested i (h.requested i hi)
  states := fun i => by
    rcases h.states i with he | ⟨hs, hp, hr⟩
    · rcases h'.states i with he' | hs'
      · exact .inl (he'.trans he)
      · rw [he] at hs'
        exact .inr hs'
    · rcases h'.states i with he' | ⟨hs', -, -⟩
      · exact .inr ⟨hs, he'.trans hp, h'.requested i hr⟩
      · simp [hp] at hs'
  fresh := fun i hi => by
    rcases h'.fresh i hi with hb | hne
    · rcases h.fresh i hb with ha | hne
      · exact .inl ha
      · rcases h'.states i with he' | ⟨-, hp, -⟩
        · exact .inr (he' ▸ hne)
        · exact .inr (by simp [hp])
    · exact .inr hne

theorem Raises.foldl {f : DependencyRuntime → Nat → DependencyRuntime}
    (hf : ∀ rt i, Raises rt (f rt i)) (l : List Nat) (rt : DependencyRuntime) :
    Raises rt (l.foldl f rt) := by
  induction l generalizing rt with
  | nil => exact .refl rt
  | cons i l ih => exact (hf rt i).trans (ih _)

theorem Raises.ready (h : Raises rt rt') (i : Nat) :
    rt'.states i = .ready ↔ rt.states i = .ready := by
  rcases h.states i with he | ⟨hs, hp, -⟩
  · rw [he]
  · rw [hp]
    rcases hs with hs | hs | hs <;> simp [hs]

theorem requestNode_raises (rt : DependencyRuntime) (id : Nat) : Raises rt (rt.requestNode id) := by
  unfold requestNode
  constructor
  · intro i hi
    split <;> by_cases he : i = id <;> simp [he, hi]
  · intro i
    split
    · rename_i hs
      by_cases he : i = id
      · subst i
        exact .inr ⟨hs, by simp, by simp⟩
      · exact .inl (by simp [he])
    · exact .inl rfl
  · intro i hi
    by_cases he : i = id
    · subst i
      split
      · exact .inr (by simp)
      · rename_i hs
        exact .inr fun hidle => hs (.inl hidle)
    · refine .inl ?_
      split at hi <;> simpa [he] using hi

theorem requestDependencies_raises (graph : DependencyGraph) (fuel : Nat) (rt : DependencyRuntime)
    (id : Nat) :
    Raises rt (requestDependencies graph fuel rt id) := by
  induction fuel generalizing rt id with
  | zero => exact .refl rt
  | succ fuel ih =>
    rw [requestDependencies]
    split
    · exact .refl rt
    · exact (requestNode_raises rt id).trans (.foldl ih _ _)

theorem requestDependencies_self (fuel : Nat)
    (h : rt.states id = .idle ∧ rt.requested id = false ∨ rt.states id = .blocked ∨
      rt.states id = .failed) :
    (requestDependencies graph (fuel + 1) rt id).states id = .pending ∧
      (requestDependencies graph (fuel + 1) rt id).requested id = true := by
  have hn : ¬(rt.requested id = true ∧ rt.states id ≠ .failed ∧ rt.states id ≠ .blocked) := by
    rcases h with ⟨-, h⟩ | h | h <;> simp [h]
  have hs : rt.states id = .idle ∨ rt.states id = .blocked ∨ rt.states id = .failed := by
    rcases h with ⟨h, -⟩ | h | h <;> simp [h]
  have hr := Raises.foldl (requestDependencies_raises graph fuel)
    (graph.dependencies id) (rt.requestNode id)
  have h₀ : rt.requestNode id = (rt.setRequested id true).setState id .pending := if_pos hs
  rw [requestDependencies, if_neg hn]
  rw [h₀] at hr ⊢
  refine ⟨?_, hr.requested id (by simp)⟩
  rcases hr.states id with he | ⟨-, hp, -⟩
  · simpa using he
  · exact hp

theorem requestDependencies_settled (fuel : Nat) (hr : rt.requested id = true)
    (hs : rt.states id ≠ .failed ∧ rt.states id ≠ .blocked) :
    requestDependencies graph fuel rt id = rt := by
  cases fuel with
  | zero => rfl
  | succ fuel => rw [requestDependencies, if_pos ⟨hr, hs⟩]

theorem unblock_raises (graph : DependencyGraph) (rt : DependencyRuntime) (i : Nat) :
    Raises rt (unblock graph rt i) := by
  rw [unblock]
  split
  · exact .refl rt
  · split
    · exact .refl rt
    · rename_i h _
      simp only [Bool.or_eq_true, Bool.not_eq_true', decide_eq_true_eq, not_or,
        Bool.not_eq_false, not_not] at h
      refine ⟨fun _ hj => hj, fun j => ?_, fun _ hj => .inl hj⟩
      by_cases he : j = i
      · subst j
        exact .inr ⟨.inr (.inl h.2), by simp, by simpa using h.1⟩
      · exact .inl (by simp [he])

/-- The requested flag of a node says that its state is not idle. -/
def Consistent (rt : DependencyRuntime) : Prop :=
  ∀ i, rt.requested i = true ↔ rt.states i ≠ .idle

theorem consistent_reset : Consistent .reset := fun _ => by simp [reset]

theorem Consistent.raises (hc : Consistent rt) (h : Raises rt rt') : Consistent rt' := by
  intro i
  constructor
  · intro hr
    rcases h.fresh i hr with hr | hne
    · rcases h.states i with he | ⟨-, hp, -⟩
      · rw [he]
        exact (hc i).1 hr
      · simp [hp]
    · exact hne
  · intro hne
    rcases h.states i with he | ⟨-, -, hr⟩
    · rw [he] at hne
      exact h.requested i ((hc i).2 hne)
    · exact hr

theorem Consistent.collect (hc : Consistent rt) : Consistent (collectStartable graph rt).1 := by
  intro i
  rw [collectStartable_requested, Ne, collectStartable_idle]
  exact hc i

theorem Consistent.set (hc : Consistent rt) (id : Nat) {b : Bool} {st : DependencyRuntimeState}
    (h : b = true ↔ st ≠ .idle) : Consistent ((rt.setRequested id b).setState id st) := by
  intro i
  by_cases hi : i = id
  · subst i
    simpa using h
  · simpa [hi] using hc i

theorem Consistent.requestClosure (hc : Consistent rt) (graph : DependencyGraph) (n : String) :
    Consistent (requestClosure graph rt n).1 := by
  rw [DependencyRuntime.requestClosure]
  cases graph.find n with
  | none => exact hc
  | some id => exact (hc.raises (requestDependencies_raises graph _ rt id)).collect

theorem Consistent.markReady (hc : Consistent rt) (graph : DependencyGraph) (n : String) :
    Consistent (markReady graph rt n).1 := by
  rw [DependencyRuntime.markReady]
  cases graph.find n with
  | none => exact hc
  | some id =>
    have hset := hc.set id (show true = true ↔ DependencyRuntimeState.ready ≠ .idle by simp)
    exact (hset.raises (.foldl (unblock_raises graph) _ _)).collect

theorem Consistent.block {acc : DependencyRuntime × List String} (hc : Consistent acc.1) (i : Nat) :
    Consistent (block graph acc i).1 := by
  rw [DependencyRuntime.block]
  split
  · exact hc
  · rename_i h
    simp only [Bool.or_eq_true, Bool.not_eq_true', decide_eq_true_eq, not_or] at h
    intro j
    by_cases hj : j = i
    · subst j
      simpa using h.1
    · simpa [hj] using hc j

theorem Consistent.markFailed (hc : Consistent rt) (graph : DependencyGraph) (n : String) :
    Consistent (markFailed graph rt n).1 := by
  rw [DependencyRuntime.markFailed]
  cases graph.find n with
  | none => exact hc
  | some id =>
    have hset := hc.set id (show true = true ↔ DependencyRuntimeState.failed ≠ .idle by simp)
    have hfold : ∀ (l : List Nat) (acc : DependencyRuntime × List String), Consistent acc.1 →
        Consistent (l.foldl (DependencyRuntime.block graph) acc).1 := by
      intro l
      induction l with
      | nil => exact fun _ h => h
      | cons i l ih => exact fun acc h => ih _ (h.block i)
    exact hfold _ _ hset

theorem Consistent.markIdle (hc : Consistent rt) (graph : DependencyGraph) (n : String) :
    Consistent (markIdle graph rt n) := by
  rw [DependencyRuntime.markIdle]
  cases graph.find n with
  | none => exact hc
  | some id => exact hc.set id (by simp)

theorem Consistent.markStarting (hc : Consistent rt) (graph : DependencyGraph) (n : String) :
    Consistent (markStarting graph rt n) := by
  rw [DependencyRuntime.markStarting]
  cases graph.find n with
  | none => exact hc
  | some id => exact hc.set id (by simp)

theorem Consistent.markPending (hc : Consistent rt) (graph : DependencyGraph) (n : String) :
    Consistent (markPending graph rt n) := by
  rw [DependencyRuntime.markPending]
  cases graph.find n with
  | none => exact hc
  | some id => exact hc.set id (by simp)

theorem consistent_all (rt : DependencyRuntime) : Consistent
    { requested := fun _ => true
      states := fun id =>
        if rt.states id = .idle ∨ rt.states id = .blocked then .pending else rt.states id } := by
  intro i
  dsimp only
  split
  · simp
  · rename_i h
    simp only [not_or] at h
    simp [h.1]

theorem consistent_requestAll (graph : DependencyGraph) (rt : DependencyRuntime) :
    Consistent (requestAll graph rt).1 := (consistent_all rt).collect

theorem Consistent.migrate (hc : Consistent rt) (g graph : DependencyGraph) :
    Consistent (migrate graph (snapshot g rt)) := by
  have hfold : ∀ (l : List DependencyRuntimeEntry) (rt : DependencyRuntime),
      (∀ e ∈ l, e.requested = true ↔ e.state ≠ .idle) → Consistent rt →
        Consistent (l.foldl (restore graph) rt) := by
    intro l
    induction l with
    | nil => exact fun _ _ h => h
    | cons e l ih =>
      intro rt hl h
      refine ih _ (fun e' he' => hl e' (List.mem_cons_of_mem _ he')) ?_
      rw [restore]
      cases graph.find e.name with
      | none => exact h
      | some id => exact h.set id (hl e List.mem_cons_self)
  refine hfold _ _ (fun e he => ?_) consistent_reset
  obtain ⟨i, -, rfl⟩ := List.mem_map.1 he
  exact hc i

end DependencyRuntime
end PmTiny
