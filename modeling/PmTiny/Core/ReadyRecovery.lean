import PmTiny.Core.BlockedReasons

namespace PmTiny
set_option autoImplicit true

namespace DependencyRuntime

variable {graph : DependencyGraph} {rt : DependencyRuntime} {x i : Nat}

instance (rt : DependencyRuntime) (d : Nat) : Decidable (rt.Obstructs d) :=
  inferInstanceAs (Decidable (_ ∨ _))

/-- `a` is a direct dependency of the node `b`. -/
def DependsOn (graph : DependencyGraph) (a b : Nat) : Prop :=
  b < graph.size ∧ a ∈ graph.dependencies b

theorem mem_transitiveDependents_iff (hx : x < graph.size) :
    i ∈ graph.transitiveDependents x ↔ Relation.TransGen (DependsOn graph) x i := by
  have hstep : (fun a b => b ∈ graph.dependents a) = DependsOn graph := by
    funext a b
    exact propext DependencyGraph.mem_dependents
  constructor
  · intro hi
    obtain ⟨-, hpath⟩ := (DependencyGraph.mem_transitiveDependents hx).1 hi
    rw [hstep] at hpath
    exact hpath
  · intro hpath
    induction hpath with
    | single hd =>
      exact DependencyGraph.dependents_subset_transitive hx (DependencyGraph.mem_dependents.2 hd)
    | tail _ hd ih => exact DependencyGraph.transitiveDependents_up hx ih hd.1 hd.2

/-- A pass over nodes in topological order unblocks each requested node of it that no failed or
blocked dependency holds back afterwards. -/
theorem states_foldl_unblock (l : List Nat) (hlt : ∀ i ∈ l, i < graph.size) (hnodup : l.Nodup)
    (hsorted : l.Pairwise fun left right =>
      graph.topologicalOrder.idxOf left ≤ graph.topologicalOrder.idxOf right)
    (rt : DependencyRuntime) (i : Nat) :
    (l.foldl (unblock graph) rt).states i =
      if i ∈ l ∧ rt.requested i = true ∧ rt.states i = .blocked ∧
          ∀ d ∈ graph.dependencies i, ¬(l.foldl (unblock graph) rt).Obstructs d then .pending
      else rt.states i := by
  induction l generalizing rt i with
  | nil => simp
  | cons j l ih =>
    obtain ⟨hj, hsorted⟩ := List.pairwise_cons.1 hsorted
    obtain ⟨hnot, hnodup⟩ := List.nodup_cons.1 hnodup
    have hrest := fun i => ih (fun i hi => hlt i (List.mem_cons_of_mem _ hi)) hnodup hsorted
      (unblock graph rt j) i
    have hrequested : (unblock graph rt j).requested = rt.requested := by
      rw [unblock]
      split
      · rfl
      · split
        · rfl
        · rfl
    rw [List.foldl_cons, hrest i]
    by_cases hij : i = j
    · subst hij
      rw [if_neg (fun h => hnot h.1)]
      -- The later nodes of the pass do not touch the dependencies of this one.
      have hdeps : ∀ d ∈ graph.dependencies i,
          (l.foldl (unblock graph) (unblock graph rt i)).states d = rt.states d := by
        intro d hd
        have hbefore := DependencyGraph.idxOf_dependency (hlt i List.mem_cons_self) hd
        have hdi : d ≠ i := by
          rintro rfl
          omega
        rw [hrest d, if_neg, unblock_states_ne graph rt hdi]
        rintro ⟨hdl, -⟩
        have hafter := hj d hdl
        omega
      have hobs : (∀ d ∈ graph.dependencies i,
          ¬(l.foldl (unblock graph) (unblock graph rt i)).Obstructs d) ↔
            ∀ d ∈ graph.dependencies i, ¬rt.Obstructs d := by
        refine forall₂_congr fun d hd => ?_
        rw [Obstructs, Obstructs, hdeps d hd]
      simp only [hobs, List.mem_cons_self, true_and]
      rw [unblock]
      split
      · rename_i hskip
        rw [if_neg]
        rintro ⟨hreq, hblocked, -⟩
        simp [hreq, hblocked] at hskip
      · rename_i hwaits
        simp only [Bool.or_eq_true, Bool.not_eq_true', decide_eq_true_iff, not_or, not_not,
          Bool.not_eq_false] at hwaits
        split
        · rename_i hany
          rw [if_neg]
          rintro ⟨-, -, hfree⟩
          obtain ⟨d, hd, hheld⟩ := List.any_eq_true.1 hany
          exact hfree d hd (by simpa [Obstructs] using hheld)
        · rename_i hnone
          have hfree : ∀ d ∈ graph.dependencies i, ¬rt.Obstructs d := fun d hd hheld =>
            hnone (List.any_eq_true.2 ⟨d, hd, by simpa [Obstructs] using hheld⟩)
          rw [if_pos ⟨hwaits.1, hwaits.2, hfree⟩, setState_states, Function.update_self]
    · rw [unblock_states_ne graph rt hij, hrequested]
      simp [hij]

/-- Once a program is ready, its blocked dependents are exactly those that another failure still
holds back. -/
theorem ready_recovers_exactly (graph : DependencyGraph) (rt : DependencyRuntime)
    (x : Fin graph.size) :
    (∀ i, Relation.TransGen (DependsOn graph) x i → rt.requested i = true →
      rt.states i = .blocked →
        ((markReady graph rt (graph.name x)).1.states i = .blocked ↔
          ∃ d ∈ graph.dependencies i, (markReady graph rt (graph.name x)).1.Obstructs d) ∧
        ((markReady graph rt (graph.name x)).1.states i = .blocked ∨
          (markReady graph rt (graph.name x)).1.states i = .pending ∨
          (markReady graph rt (graph.name x)).1.states i = .starting)) ∧
      ∀ i < graph.size, i ≠ x → rt.states i = .blocked →
        ¬(Relation.TransGen (DependsOn graph) x i ∧ rt.requested i = true) →
        (markReady graph rt (graph.name x)).1.states i = .blocked := by
  have hx := x.isLt
  obtain ⟨set, hset⟩ : ∃ set, set = (rt.setRequested x true).setState x .ready := ⟨_, rfl⟩
  obtain ⟨passed, hpassed⟩ : ∃ passed,
      passed = (graph.transitiveDependents x).foldl (unblock graph) set := ⟨_, rfl⟩
  have hready : (markReady graph rt (graph.name x)).1 = (collectStartable graph passed).1 := by
    rw [markReady, DependencyGraph.find_name hx, hpassed, hset]
  have hstates := fun i => states_foldl_unblock (graph.transitiveDependents x)
    (fun i hi => DependencyGraph.lt_of_transitiveDependents hx hi)
    (DependencyGraph.transitiveDependents_nodup hx)
    (DependencyGraph.transitiveDependents_sorted graph x) set i
  rw [← hpassed] at hstates
  have hother : ∀ i, i ≠ x.val → set.states i = rt.states i ∧ set.requested i = rt.requested i := by
    intro i hi
    rw [hset]
    simp [hi]
  rw [hready]
  refine ⟨fun i hpath hreq hblocked => ?_, fun i hi hne hblocked hnot => ?_⟩
  · have hmem := (mem_transitiveDependents_iff hx).2 hpath
    have hne := ((DependencyGraph.mem_transitiveDependents hx).1 hmem).1
    have hlt := DependencyGraph.lt_of_transitiveDependents hx hmem
    have hi := hstates i
    rw [(hother i hne).1, (hother i hne).2] at hi
    have hheld : (∃ d ∈ graph.dependencies i, (collectStartable graph passed).1.Obstructs d) ↔
        ∃ d ∈ graph.dependencies i, passed.Obstructs d := by
      simp only [collectStartable_obstructs]
    rw [hheld, collectStartable_blocked]
    by_cases hfree : ∀ d ∈ graph.dependencies i, ¬passed.Obstructs d
    · rw [if_pos ⟨hmem, hreq, hblocked, hfree⟩] at hi
      have hfree' : ¬∃ d ∈ graph.dependencies i, passed.Obstructs d := by
        rintro ⟨d, hd, hobs⟩
        exact hfree d hd hobs
      refine ⟨⟨fun hb => ?_, fun hobs => absurd hobs hfree'⟩, .inr ?_⟩
      · cases hi.symm.trans hb
      · rw [collectStartable_states hlt, hi]
        split
        · exact .inr rfl
        · exact .inl rfl
    · rw [if_neg fun h => hfree h.2.2.2, hblocked] at hi
      push Not at hfree
      exact ⟨⟨fun _ => hfree, fun _ => hi⟩, .inl hi⟩
  · rw [collectStartable_blocked, hstates i, if_neg, (hother i hne).1, hblocked]
    rintro ⟨hmem, hreq, -⟩
    rw [(hother i hne).2] at hreq
    exact hnot ⟨(mem_transitiveDependents_iff hx).1 hmem, hreq⟩

end DependencyRuntime
end PmTiny
