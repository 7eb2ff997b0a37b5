import PmTiny.Core.RuntimeOperations

namespace PmTiny
set_option autoImplicit true

namespace DependencyGraph

variable {graph : DependencyGraph} {x : Nat}

theorem transitiveDependents_nodup (h : x < graph.size) : (graph.transitiveDependents x).Nodup := by
  rw [transitiveDependents, (List.perm_insertionSort _ _).nodup_iff]
  exact Search.reachable_nodup (fun d i hi => (mem_dependents.1 hi).1) h

theorem idxOf_inj (ha : a < graph.size)
    (h : graph.topologicalOrder.idxOf a = graph.topologicalOrder.idxOf b) : a = b := by
  have hlt := List.idxOf_lt_length_of_mem (mem_order.2 ha)
  rw [← List.getElem_idxOf hlt]
  simp only [h]
  exact List.getElem_idxOf _

theorem transitiveDependents_sorted (graph : DependencyGraph) (x : Nat) :
    (graph.transitiveDependents x).Pairwise fun left right =>
      graph.topologicalOrder.idxOf left ≤ graph.topologicalOrder.idxOf right :=
  List.pairwise_insertionSort _ _

theorem transitiveDependents_eq (h : x < graph.size) :
    graph.transitiveDependents x =
      graph.topologicalOrder.filter fun i => i ∈ graph.transitiveDependents x := by
  have hmem : ∀ i, i ∈ graph.topologicalOrder.filter (fun i => i ∈ graph.transitiveDependents x) ↔
      i ∈ graph.transitiveDependents x := by
    intro i
    rw [List.mem_filter, decide_eq_true_iff, mem_order]
    exact ⟨And.right, fun hi => ⟨lt_of_transitiveDependents h hi, hi⟩⟩
  have hperm := (List.perm_ext_iff_of_nodup (transitiveDependents_nodup h)
    (graph.order_nodup.filter fun i => i ∈ graph.transitiveDependents x)).2 fun i => (hmem i).symm
  have horder : graph.topologicalOrder.Pairwise fun left right =>
      graph.topologicalOrder.idxOf left ≤ graph.topologicalOrder.idxOf right := by
    rw [List.pairwise_iff_getElem]
    intro i j hi hj hij
    rw [graph.order_nodup.idxOf_getElem, graph.order_nodup.idxOf_getElem]
    exact hij.le
  refine hperm.eq_of_pairwise ?_ (transitiveDependents_sorted graph x) (horder.filter _)
  intro a b ha hb hab hba
  exact idxOf_inj (lt_of_transitiveDependents h ha) (Nat.le_antisymm hab hba)

end DependencyGraph

namespace DependencyRuntime

variable {graph : DependencyGraph} {rt : DependencyRuntime} {x i : Nat}

theorem foldl_block_names (l : List Nat) (hl : l.Nodup) (acc : DependencyRuntime × List String) :
    (l.foldl (block graph) acc).2 = acc.2 ++ (l.filter fun i => acc.1.requested i = true ∧
      acc.1.states i ≠ .ready ∧ acc.1.states i ≠ .blocked).map graph.name := by
  induction l generalizing acc with
  | nil => simp
  | cons j l ih =>
    obtain ⟨hj, hl⟩ := List.nodup_cons.1 hl
    rw [List.foldl_cons, ih hl, block]
    split
    · rename_i hskip
      rw [List.filter_cons_of_neg]
      grind
    · rename_i hblock
      have hrest : ∀ i ∈ l, Function.update acc.1.states j .blocked i = acc.1.states i := by
        intro i hi
        rw [Function.update_of_ne]
        rintro rfl
        exact hj hi
      have hfilter : (l.filter fun i => (acc.1.setState j .blocked).requested i = true ∧
          (acc.1.setState j .blocked).states i ≠ .ready ∧
          (acc.1.setState j .blocked).states i ≠ .blocked) = l.filter fun i =>
            acc.1.requested i = true ∧ acc.1.states i ≠ .ready ∧ acc.1.states i ≠ .blocked := by
        refine List.filter_congr fun i hi => ?_
        simp only [setState, hrest i hi]
      rw [hfilter]
      split
      · rename_i hnew
        rw [List.filter_cons_of_pos (by grind), List.map_cons, List.append_assoc]
        rfl
      · rename_i hold
        rw [List.filter_cons_of_neg (by grind)]

theorem states_markFailed (h : x < graph.size) (i : Nat) :
    (markFailed graph rt (graph.name x)).1.states i =
      if i = x then .failed
      else if i ∈ graph.transitiveDependents x ∧ rt.requested i = true ∧ rt.states i ≠ .ready then
        .blocked
      else rt.states i := by
  rw [markFailed, DependencyGraph.find_name h]
  simp only [foldl_block_states, setState, setRequested]
  by_cases hi : i = x
  · subst hi
    have hself : i ∉ graph.transitiveDependents i := fun hm =>
      ((DependencyGraph.mem_transitiveDependents h).1 hm).1 rfl
    simp [hself]
  · simp [hi]

theorem requested_markFailed (h : x < graph.size) (i : Nat) :
    (markFailed graph rt (graph.name x)).1.requested i =
      if i = x then true else rt.requested i := by
  rw [markFailed, DependencyGraph.find_name h]
  simp only [foldl_block_requested, setState, setRequested]
  by_cases hi : i = x
  · simp [hi]
  · simp [hi]

theorem blocked_names_markFailed (h : x < graph.size) :
    (markFailed graph rt (graph.name x)).2.blocked = (graph.topologicalOrder.filter fun i =>
      rt.states i ≠ .blocked ∧
        (markFailed graph rt (graph.name x)).1.states i = .blocked).map graph.name := by
  have hnames : (markFailed graph rt (graph.name x)).2.blocked =
      ((graph.transitiveDependents x).filter fun i =>
        ((rt.setRequested x true).setState x .failed).requested i = true ∧
        ((rt.setRequested x true).setState x .failed).states i ≠ .ready ∧
        ((rt.setRequested x true).setState x .failed).states i ≠ .blocked).map graph.name := by
    rw [markFailed, DependencyGraph.find_name h]
    simp only
    rw [foldl_block_names _ (DependencyGraph.transitiveDependents_nodup h), List.nil_append]
  rw [hnames]
  congr 1
  conv_lhs => rw [DependencyGraph.transitiveDependents_eq h, List.filter_filter]
  refine List.filter_congr fun i _ => ?_
  rw [states_markFailed h]
  by_cases hi : i = x
  · subst hi
    have hself : i ∉ graph.transitiveDependents i := fun hm =>
      ((DependencyGraph.mem_transitiveDependents h).1 hm).1 rfl
    simp [hself]
  · by_cases hm : i ∈ graph.transitiveDependents x
    · simp [setState, setRequested, hi, hm]
      grind
    · simp [hi, hm]

/-- A failure reaches only nodes that have not started exactly when no requested transitive
dependent is starting. -/
theorem failure_reaches_unstarted_iff (graph : DependencyGraph) (rt : DependencyRuntime)
    (x : Fin graph.size) :
    ((∀ i : Fin graph.size, i ≠ x → rt.states i = .ready ∨ rt.states i = .starting →
        (markFailed graph rt (graph.name x)).1.states i = rt.states i) ∧
      (∀ i : Fin graph.size, i ≠ x →
        (markFailed graph rt (graph.name x)).1.requested i = rt.requested i) ∧
      (markFailed graph rt (graph.name x)).2.blocked = (graph.topologicalOrder.filter fun i =>
        rt.states i ≠ .blocked ∧
          (markFailed graph rt (graph.name x)).1.states i = .blocked).map graph.name) ↔
      ∀ i ∈ graph.transitiveDependents x, rt.requested i = true → rt.states i ≠ .starting := by
  have hx := x.isLt
  constructor
  · rintro ⟨hstates, -, -⟩ i hi hreq hstarting
    have hlt := DependencyGraph.lt_of_transitiveDependents hx hi
    have hne : i ≠ x := ((DependencyGraph.mem_transitiveDependents hx).1 hi).1
    have hkept := hstates ⟨i, hlt⟩ (fun he => hne (congrArg Fin.val he)) (.inr hstarting)
    rw [states_markFailed hx, if_neg hne, if_pos ⟨hi, hreq, by rw [hstarting]; decide⟩,
      hstarting] at hkept
    cases hkept
  · intro hnone
    refine ⟨fun i hne hstate => ?_, fun i hne => ?_, blocked_names_markFailed hx⟩
    · have hne' : (i : Nat) ≠ x := fun he => hne (Fin.ext he)
      rw [states_markFailed hx, if_neg hne', if_neg]
      rintro ⟨hi, hreq, hready⟩
      rcases hstate with hstate | hstate
      · exact hready hstate
      · exact hnone i hi hreq hstate
    · have hne' : (i : Nat) ≠ x := fun he => hne (Fin.ext he)
      rw [requested_markFailed hx, if_neg hne']

/-- A dependency that fails while a dependent is starting blocks the dependent. -/
theorem failure_blocks_starting :
    ∃ graph, DependencyGraph.build [⟨"a", []⟩, ⟨"b", ["a"]⟩] = .ok graph ∧
      ∃ rt, RuntimeRun graph rt ∧ graph.name 0 = "a" ∧ rt.states 1 = .starting ∧
        (markFailed graph rt "a").1.states 1 = .blocked := by
  obtain ⟨graph, hb, htest⟩ := DependencyGraph.build_any [⟨"a", []⟩, ⟨"b", ["a"]⟩]
    (fun graph =>
      let rt := (markReady graph (requestAll graph .reset).1 "a").1
      graph.name 0 = "a" && rt.states 1 = .starting &&
        (markFailed graph rt "a").1.states 1 = .blocked)
    (by decide +kernel)
  simp only [Bool.and_eq_true, decide_eq_true_iff] at htest
  exact ⟨graph, hb, _, .start (.markReady "a") (.start .requestAll (.reset hb)),
    htest.1.1, htest.1.2,
    htest.2⟩

end DependencyRuntime
end PmTiny
