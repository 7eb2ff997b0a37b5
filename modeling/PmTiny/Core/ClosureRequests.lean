import PmTiny.Core.RuntimeOperations

namespace PmTiny
set_option autoImplicit true

namespace DependencyRuntime

variable {graph : DependencyGraph} {rt : DependencyRuntime} {id : Nat}

/-- A node at which `request_dependencies` turns back. -/
def Settled (rt : DependencyRuntime) (id : Nat) : Prop :=
  rt.requested id = true ∧ rt.states id ≠ .failed ∧ rt.states id ≠ .blocked

/-- The nodes that a request for the listed nodes enters: it goes on below a node that was not
requested before, or that is failed or blocked. -/
inductive Visits (graph : DependencyGraph) (rt : DependencyRuntime) (l : List Nat) : Nat → Prop
  | root (h : i ∈ l) (hs : ¬rt.Settled i) : Visits graph rt l i
  | dependency (h : Visits graph rt l i) (hd : d ∈ graph.dependencies i) (hs : ¬rt.Settled d) :
      Visits graph rt l d

/-- What a request leaves behind when it has entered the nodes of `S`. -/
def RequestedOn (S : Nat → Prop) (rt rt' : DependencyRuntime) : Prop :=
  ∀ i, (S i → rt'.requested i = true ∧ rt'.states i =
      if rt.states i = .idle ∨ rt.states i = .blocked ∨ rt.states i = .failed then .pending
      else rt.states i) ∧
    (¬S i → rt'.requested i = rt.requested i ∧ rt'.states i = rt.states i)

theorem RequestedOn.settled_iff (h : RequestedOn S rt rt') :
    rt'.Settled i ↔ rt.Settled i ∨ S i := by
  by_cases hi : S i
  · obtain ⟨hreq, hstate⟩ := (h i).1 hi
    refine iff_of_true ⟨hreq, ?_⟩ (.inr hi)
    rw [hstate]
    grind
  · obtain ⟨hreq, hstate⟩ := (h i).2 hi
    simp only [Settled, hreq, hstate, hi, or_false]

theorem RequestedOn.trans (h : RequestedOn S a b) (h' : RequestedOn T b c) :
    RequestedOn (fun i => S i ∨ T i) a c := by
  intro i
  have hab := h i
  have hbc := h' i
  by_cases hs : S i <;> by_cases ht : T i <;> grind

theorem requestedOn_congr (h : RequestedOn S rt rt') (he : ∀ i, S i ↔ T i) :
    RequestedOn T rt rt' := by
  intro i
  rw [← he i]
  exact h i

theorem requestedOn_requestNode (rt : DependencyRuntime) (id : Nat) :
    RequestedOn (· = id) rt (rt.requestNode id) := by
  intro i
  rw [requestNode]
  split
  · constructor
    · rintro rfl
      rename_i hs
      simp [hs]
    · intro hi
      simp [hi]
  · constructor
    · rintro rfl
      rename_i hs
      simp [hs]
    · intro hi
      simp [hi]

theorem Visits.split (h : RequestedOn S rt rt') (hroot : ∀ i ∈ l, ¬rt.Settled i → S i ∨ i ∈ l')
    (hclosed : ∀ i, S i → ∀ d ∈ graph.dependencies i, ¬rt.Settled d → S d ∨ d ∈ l')
    (hv : Visits graph rt l i) : S i ∨ Visits graph rt' l' i := by
  have hfresh : ∀ d, ¬rt.Settled d → S d ∨ ¬rt'.Settled d := by
    intro d hd
    rw [h.settled_iff]
    grind
  induction hv with
  | root hi hs =>
    rcases hfresh _ hs with hd | hd
    · exact .inl hd
    · exact (hroot _ hi hs).imp_right fun hm => .root hm hd
  | dependency _ hd hs ih =>
    rcases hfresh _ hs with hS | hS
    · exact .inl hS
    · rcases ih with hi | hi
      · exact (hclosed _ hi _ hd hs).imp_right fun hm => .root hm hS
      · exact .inr (.dependency hi hd hS)

theorem Visits.of_later (h : RequestedOn S rt rt')
    (hroot : ∀ i ∈ l', ¬rt.Settled i → Visits graph rt l i) (hv : Visits graph rt' l' i) :
    Visits graph rt l i := by
  induction hv with
  | root hi hs => exact hroot _ hi fun hset => hs (h.settled_iff.2 (.inl hset))
  | dependency _ hd hs ih => exact .dependency ih hd fun hset => hs (h.settled_iff.2 (.inl hset))

theorem Visits.mono (hl : ∀ i ∈ l, i ∈ l') (h : Visits graph rt l i) : Visits graph rt l' i := by
  induction h with
  | root hi hs => exact .root (hl _ hi) hs
  | dependency _ hd hs ih => exact .dependency ih hd hs

theorem requestedOn_foldl {f : DependencyRuntime → Nat → DependencyRuntime} (l : List Nat)
    (hf : ∀ rt, ∀ i ∈ l, RequestedOn (Visits graph rt [i]) rt (f rt i)) (rt : DependencyRuntime) :
    RequestedOn (Visits graph rt l) rt (l.foldl f rt) := by
  induction l generalizing rt with
  | nil =>
    have hnone : ∀ i, ¬Visits graph rt [] i := by
      intro i hv
      induction hv with
      | root hi => cases hi
      | dependency _ _ _ ih => exact ih
    exact fun i => ⟨fun hv => absurd hv (hnone i), fun _ => ⟨rfl, rfl⟩⟩
  | cons j l ih =>
    have hhead := hf rt j List.mem_cons_self
    have htail := ih (fun rt i hi => hf rt i (List.mem_cons_of_mem j hi)) (f rt j)
    refine requestedOn_congr (hhead.trans htail) fun i => ⟨?_, fun hv => ?_⟩
    · rintro (hv | hv)
      · exact hv.mono (by simp)
      · exact hv.of_later hhead fun d hd hs => .root (List.mem_cons_of_mem j hd) hs
    · refine hv.split hhead (fun d hd hs => ?_) fun d hd e he hs => .inl (.dependency hd he hs)
      rcases List.mem_cons.1 hd with rfl | hd
      · exact .inl (.root List.mem_cons_self hs)
      · exact .inr hd

/-- The recursion enters every node it can, since its depth is bounded by the topological order. -/
theorem requestDependencies_visits (fuel : Nat) (rt : DependencyRuntime) (hid : id < graph.size)
    (hf : graph.topologicalOrder.idxOf id < fuel) :
    RequestedOn (Visits graph rt [id]) rt (requestDependencies graph fuel rt id) := by
  induction fuel generalizing rt id with
  | zero => cases hf
  | succ fuel ih =>
    rw [requestDependencies]
    split
    · rename_i hset
      have hnone : ∀ i, ¬Visits graph rt [id] i := by
        intro i hv
        induction hv with
        | root hi hs =>
          rw [List.mem_singleton.1 hi] at hs
          exact hs hset
        | dependency _ _ _ ih => exact ih
      exact fun i => ⟨fun hv => absurd hv (hnone i), fun _ => ⟨rfl, rfl⟩⟩
    · rename_i hset
      have hroot : Visits graph rt [id] id := .root List.mem_cons_self hset
      have hnode := requestedOn_requestNode rt id
      have hdeps := requestedOn_foldl (graph.dependencies id) (fun rt' d hd =>
        ih rt' (graph.deps_lt id d hd)
          (by have := graph.order_closed.idxOf_lt (DependencyGraph.mem_order.2 hid) hd; omega))
        (rt.requestNode id)
      refine requestedOn_congr (hnode.trans hdeps) fun i => ⟨?_, fun hv => ?_⟩
      · rintro (rfl | hv)
        · exact hroot
        · exact hv.of_later hnode fun d hd hs => .dependency hroot hd hs
      · refine hv.split hnode (fun d hd _ => .inl (List.mem_singleton.1 hd)) fun d hd e he _ => ?_
        subst hd
        exact .inr he

theorem requestClosure_visits (rt : DependencyRuntime) (hid : id < graph.size) :
    RequestedOn (Visits graph rt [id]) rt (requestDependencies graph (graph.size + 1) rt id) := by
  apply requestDependencies_visits _ _ hid
  have hlt := List.idxOf_lt_length_of_mem (DependencyGraph.mem_order.2 hid)
  have hlen := graph.order_length
  rw [DependencyGraph.size]
  omega

def Enters (graph : DependencyGraph) (rt : DependencyRuntime) (n m : String) : Prop :=
  ∃ id i, graph.find n = some id ∧ graph.find m = some i ∧ Visits graph rt [id] i

theorem entered_of_requestClosure (h : m ∈ (requestClosure graph rt n).2) :
    state graph rt m = .pending ∨ Enters graph rt n m := by
  rw [requestClosure] at h
  cases hf : graph.find n with
  | none =>
    rw [hf] at h
    cases h
  | some id =>
    rw [hf] at h
    obtain ⟨i, hm, hs⟩ := mem_collectStartable.1 h
    by_cases hv : Visits graph rt [id] i
    · exact .inr ⟨id, i, hf, hm, hv⟩
    · have hspec := requestClosure_visits rt (DependencyGraph.find_eq_some.1 hf).1
      left
      rw [state_of_find hm, ← ((hspec i).2 hv).2]
      exact (startable_iff.1 hs).2.1

theorem collectStartable_waiting (hid : id < graph.size) :
    ((collectStartable graph rt).1.states id = .pending ∨
      (collectStartable graph rt).1.states id = .starting) ↔
      rt.states id = .pending ∨ rt.states id = .starting := by
  rw [collectStartable_states hid]
  split
  · rename_i hs
    simp [(startable_iff.1 hs).2.1]
  · rfl

/-- The nodes that a node needs through dependencies that are neither ready nor starting. -/
inductive Needs (graph : DependencyGraph) (rt : DependencyRuntime) (n : Nat) : Nat → Prop
  | self : Needs graph rt n n
  | dependency (h : Needs graph rt n i) (hr : rt.states i ≠ .ready) (hs : rt.states i ≠ .starting)
      (hd : d ∈ graph.dependencies i) : Needs graph rt n d

theorem Needs.lt (hn : n < graph.size) (h : Needs graph rt n i) : i < graph.size := by
  induction h with
  | self => exact hn
  | dependency _ _ _ hd => exact graph.deps_lt _ _ hd

/-- A request reaches the whole unmet closure exactly when no node of it that still has to be
requested lies only below nodes that were requested before. -/
theorem closure_reached_iff (graph : DependencyGraph) (rt : DependencyRuntime)
    (n : Fin graph.size) :
    (∀ i, Needs graph rt n i → rt.states i ≠ .ready →
      (requestClosure graph rt (graph.name n)).1.requested i = true ∧
        ((requestClosure graph rt (graph.name n)).1.states i = .pending ∨
          (requestClosure graph rt (graph.name n)).1.states i = .starting)) ↔
      ∀ i, Needs graph rt n i → rt.states i ≠ .ready → Visits graph rt [n.val] i ∨
        rt.requested i = true ∧ (rt.states i = .pending ∨ rt.states i = .starting) := by
  have hspec := requestClosure_visits rt n.isLt
  have hclosure : requestClosure graph rt (graph.name n) = collectStartable graph
      (requestDependencies graph (graph.size + 1) rt n) := by
    rw [requestClosure, DependencyGraph.find_name n.isLt]
  rw [hclosure, collectStartable_requested]
  refine forall_congr' fun i => forall_congr' fun hi => forall_congr' fun hready => ?_
  rw [collectStartable_waiting (hi.lt n.isLt)]
  by_cases hv : Visits graph rt [n.val] i
  · obtain ⟨hreq, hstate⟩ := (hspec i).1 hv
    refine iff_of_true ⟨hreq, ?_⟩ (.inl hv)
    rw [hstate]
    cases hs : rt.states i with
    | ready => exact absurd hs hready
    | idle => simp
    | pending => simp
    | starting => simp
    | failed => simp
    | blocked => simp
  · obtain ⟨hreq, hstate⟩ := (hspec i).2 hv
    rw [hreq, hstate]
    simp [hv]

/-- A dependency that is set idle under a waiting program is not requested again with it. -/
theorem closure_misses_idle :
    ∃ graph, DependencyGraph.build [⟨"a", []⟩, ⟨"b", ["a"]⟩] = .ok graph ∧
      ∃ rt, RuntimeRun graph rt ∧ graph.name 1 = "b" ∧
        rt.states 1 = .pending ∧ Needs graph rt 1 0 ∧ rt.states 0 = .idle ∧
        (requestClosure graph rt "b").1.requested 0 = false ∧
        (requestClosure graph rt "b").1.states 0 = .idle := by
  obtain ⟨graph, hb, htest⟩ := DependencyGraph.build_any [⟨"a", []⟩, ⟨"b", ["a"]⟩]
    (fun graph =>
      let rt := markIdle graph (requestClosure graph .reset "b").1 "a"
      graph.name 1 = "b" && rt.states 1 = .pending && 0 ∈ graph.dependencies 1 &&
        rt.states 0 = .idle && (requestClosure graph rt "b").1.requested 0 = false &&
        (requestClosure graph rt "b").1.states 0 = .idle)
    (by decide +kernel)
  simp only [Bool.and_eq_true, decide_eq_true_iff] at htest
  obtain ⟨⟨⟨⟨⟨hname, hpend⟩, hdep⟩, hidle⟩, hreq⟩, hstill⟩ := htest
  have hrun : RuntimeRun graph (markIdle graph (requestClosure graph .reset "b").1 "a") :=
    .note (.markIdle "a") (.start (.requestClosure "b") (.reset hb))
  have hneeds : Needs graph (markIdle graph (requestClosure graph .reset "b").1 "a") 1 0 :=
    .dependency .self (by rw [hpend]; decide) (by rw [hpend]; decide) hdep
  exact ⟨graph, hb, _, hrun, hname, hpend, hneeds, hidle, hreq, hstill⟩

end DependencyRuntime
end PmTiny
