import PmTiny.Core.RuntimeOperations

namespace PmTiny.DependencyRuntime
set_option autoImplicit true

variable {graph : DependencyGraph} {rt : DependencyRuntime} {n m : String} {id : Nat}

/-- Several programs become ready, and what they unlock is dropped. -/
def markAllReady (graph : DependencyGraph) (rt : DependencyRuntime) (names : List String) :
    DependencyRuntime := names.foldl (fun rt name => (markReady graph rt name).1) rt

theorem Consistent.markAllReady (hc : Consistent rt) (graph : DependencyGraph)
    (names : List String) :
    Consistent (markAllReady graph rt names) := by
  induction names generalizing rt with
  | nil => exact hc
  | cons n names ih => exact ih (hc.markReady graph n)

theorem ready_markAllReady {names : List String} :
    state graph (markAllReady graph rt names) m = .ready ↔
      state graph rt m = .ready ∨ m ∈ names ∧ m ∈ graph.names := by
  induction names generalizing rt with
  | nil => simp [markAllReady]
  | cons n names ih =>
    rw [markAllReady, List.foldl_cons]
    refine ih.trans ?_
    rw [ready_markReady, List.mem_cons]
    grind

theorem requested_markAllReady {names : List String} :
    isRequested graph (markAllReady graph rt names) m = true ↔
      isRequested graph rt m = true ∨ m ∈ names ∧ m ∈ graph.names := by
  induction names generalizing rt with
  | nil => simp [markAllReady]
  | cons n names ih =>
    rw [markAllReady, List.foldl_cons]
    refine ih.trans ?_
    rw [requested_markReady, List.mem_cons]
    grind

theorem unblock_states (h : rt.states i ≠ .blocked) :
    (unblock graph rt j).states i = rt.states i := by
  rw [unblock]
  split
  · rfl
  · split
    · rfl
    · rename_i hj _
      simp only [Bool.or_eq_true, decide_eq_true_eq, not_or, not_not] at hj
      have hne : i ≠ j := by
        rintro rfl
        exact h hj.2
      simp [hne]

theorem foldl_unblock_states (l : List Nat) (h : rt.states i ≠ .blocked) :
    (l.foldl (unblock graph) rt).states i = rt.states i := by
  induction l generalizing rt with
  | nil => rfl
  | cons j l ih =>
    rw [List.foldl_cons, ih (by rwa [unblock_states h]), unblock_states h]

/-- What becomes ready and what that unblocks: other nodes keep their states unless they are
blocked. -/
theorem unblocked_states (hf : graph.find n = some id) (hm : graph.find m = some i) (hne : m ≠ n)
    (hb : rt.states i ≠ .blocked) :
    ((graph.transitiveDependents id).foldl (unblock graph)
      ((rt.setRequested id true).setState id .ready)).states i = rt.states i := by
  have hi : i ≠ id := by
    rintro rfl
    exact hne (DependencyGraph.find_inj hm hf)
  have hset : ((rt.setRequested id true).setState id .ready).states i = rt.states i := by
    simp [hi]
  rw [foldl_unblock_states, hset]
  rwa [hset]

theorem state_markReady (hne : m ≠ n)
    (hs : state graph rt m ≠ .pending ∧ state graph rt m ≠ .blocked) :
    state graph (markReady graph rt n).1 m = state graph rt m := by
  rw [markReady]
  cases hf : graph.find n with
  | none => rfl
  | some id =>
    cases hm : graph.find m with
    | none => rw [state, hm, state, hm]
    | some i =>
      rw [state_of_find hm] at hs
      have hfold := unblocked_states hf hm hne hs.2
      rw [state_of_find hm, state_of_find hm,
        collectStartable_states (DependencyGraph.find_eq_some.1 hm).1, hfold, if_neg]
      intro hstart
      have := (startable_iff.1 hstart).2.1
      rw [hfold] at this
      exact hs.1 this

theorem state_markAllReady {names : List String} (hn : m ∉ names)
    (hs : state graph rt m ≠ .pending ∧ state graph rt m ≠ .blocked) :
    state graph (markAllReady graph rt names) m = state graph rt m := by
  induction names generalizing rt with
  | nil => rfl
  | cons n names ih =>
    rw [List.mem_cons, not_or] at hn
    have hstep := state_markReady hn.1 hs
    exact (ih hn.2 (by rwa [hstep])).trans hstep

theorem failed_markReady (h : state graph (markReady graph rt n).1 m = .failed) :
    state graph rt m = .failed := by
  rw [markReady] at h
  cases hf : graph.find n with
  | none =>
    rw [hf] at h
    exact h
  | some id =>
    rw [hf] at h
    dsimp only at h
    have hraise := Raises.foldl (unblock_raises graph) (graph.transitiveDependents id)
      ((rt.setRequested id true).setState id .ready)
    cases hm : graph.find m with
    | none => simp [state, hm] at h
    | some i =>
      rw [state_of_find hm, collectStartable_states (DependencyGraph.find_eq_some.1 hm).1] at h
      split at h
      · cases h
      · have hset : state graph ((rt.setRequested id true).setState id .ready) m = .failed := by
          rw [state_of_find hm]
          rcases hraise.states i with he | ⟨-, hp, -⟩
          · rw [← he, h]
          · rw [h] at hp
            cases hp
        rw [state_set hf] at hset
        split at hset
        · cases hset
        · exact hset

theorem failed_markAllReady {names : List String}
    (h : state graph (markAllReady graph rt names) m = .failed) : state graph rt m = .failed := by
  induction names generalizing rt with
  | nil => exact h
  | cons n names ih => exact failed_markReady (ih h)

def Unlocks (graph : DependencyGraph) (rt : DependencyRuntime) (m : String) : Prop :=
  (∀ d ∈ graph.dependencyNames m, state graph rt d = .ready) →
    state graph rt m ≠ .pending ∧ state graph rt m ≠ .blocked

theorem foldl_unblock_not_blocked {l : List Nat} (hc : Consistent rt) (hi : i ∈ l)
    (hd : ∀ d ∈ graph.dependencies i, rt.states d = .ready) :
    (l.foldl (unblock graph) rt).states i ≠ .blocked := by
  induction l generalizing rt with
  | nil => cases hi
  | cons j l ih =>
    rw [List.foldl_cons]
    have hraise := unblock_raises graph rt j
    by_cases hij : i = j
    · subst j
      have hstep : (unblock graph rt i).states i ≠ .blocked := by
        by_cases hb : rt.states i = .blocked
        · have hr : rt.requested i = true := (hc i).2 (by simp [hb])
          have hany : ((graph.dependencies i).any fun dependency =>
              rt.states dependency = .failed || rt.states dependency = .blocked) = false := by
            rw [List.any_eq_false]
            intro d hdm
            simp [hd d hdm]
          rw [unblock, if_neg (by simp [hr, hb]), if_neg (by simp [hany])]
          simp
        · rwa [unblock_states hb]
      rwa [foldl_unblock_states l hstep]
    · rcases List.mem_cons.1 hi with hi | hi
      · exact absurd hi hij
      · exact ih (hc.raises hraise) hi fun d hdm => (hraise.ready d).2 (hd d hdm)

theorem unlocks_markReady (hc : Consistent rt)
    (h : n ∈ graph.dependencyNames m ∨ Unlocks graph rt m) :
    Unlocks graph (markReady graph rt n).1 m := by
  intro hready
  cases hm : graph.find m with
  | none => simp [state, hm]
  | some i =>
    have hi := (DependencyGraph.find_eq_some.1 hm).1
    have hdeps : graph.dependencyNames m = (graph.dependencies i).map graph.name := by
      rw [DependencyGraph.dependencyNames, hm]
    rw [markReady] at hready ⊢
    cases hf : graph.find n with
    | none =>
      rw [hf] at hready
      rcases h with h | h
      · rw [hdeps] at h
        obtain ⟨d, hd, rfl⟩ := List.mem_map.1 h
        rw [DependencyGraph.find_name (graph.deps_lt i d hd)] at hf
        cases hf
      · exact h hready
    | some id =>
      rw [hf] at hready
      dsimp only at hready ⊢
      have hid := (DependencyGraph.find_eq_some.1 hf).1
      have hc₀ : Consistent ((rt.setRequested id true).setState id .ready) := hc.set id (by simp)
      have hraise := Raises.foldl (unblock_raises graph) (graph.transitiveDependents id)
        ((rt.setRequested id true).setState id .ready)
      generalize hrt₁ : (graph.transitiveDependents id).foldl (unblock graph)
        ((rt.setRequested id true).setState id .ready) = rt₁ at hready hraise ⊢
      have hready₁ : ∀ d ∈ graph.dependencies i, rt₁.states d = .ready := by
        intro d hd
        have := hready (graph.name d) (hdeps ▸ List.mem_map_of_mem hd)
        rwa [state_of_find (DependencyGraph.find_name (graph.deps_lt i d hd)),
          collectStartable_ready] at this
      have hready₀ : ∀ d ∈ graph.dependencies i,
          ((rt.setRequested id true).setState id .ready).states d = .ready :=
        fun d hd => (hraise.ready d).1 (hready₁ d hd)
      have hnb : rt₁.states i ≠ .blocked := by
        by_cases hmem : i ∈ graph.transitiveDependents id
        · rw [← hrt₁]
          exact foldl_unblock_not_blocked hc₀ hmem hready₀
        · have hnot : id ∉ graph.dependencies i := fun hdep =>
            hmem (DependencyGraph.dependents_subset_transitive hid
              (DependencyGraph.mem_dependents.2 ⟨hi, hdep⟩))
          have hn : n ∉ graph.dependencyNames m := by
            rw [hdeps]
            intro hn
            obtain ⟨d, hd, rfl⟩ := List.mem_map.1 hn
            rw [DependencyGraph.find_name (graph.deps_lt i d hd)] at hf
            cases hf
            exact hnot hd
          have hold := h.resolve_left hn
          intro hb
          have hb₀ : ((rt.setRequested id true).setState id .ready).states i = .blocked := by
            rcases hraise.states i with he | ⟨-, hp, -⟩
            · rw [← he, hb]
            · rw [hb] at hp
              cases hp
          have hne : i ≠ id := by
            rintro rfl
            simp at hb₀
          have hall : ∀ d ∈ graph.dependencyNames m, state graph rt d = .ready := by
            rw [hdeps]
            intro d hd
            obtain ⟨x, hx, rfl⟩ := List.mem_map.1 hd
            have hxid : x ≠ id := by
              rintro rfl
              exact hnot hx
            have := hready₀ x hx
            rw [state_of_find (DependencyGraph.find_name (graph.deps_lt i x hx))]
            simpa [hxid] using this
          refine (hold hall).2 ?_
          rw [state_of_find hm]
          simpa [hne] using hb₀
      rw [state_of_find hm, collectStartable_states hi]
      split
      · simp
      · rename_i hns
        refine ⟨fun hp => hns (startable_iff.2 ⟨?_, hp, hready₁⟩), hnb⟩
        exact ((hc₀.raises hraise) i).2 (by simp [hp])

theorem unlocks_markAllReady {names : List String} (hc : Consistent rt)
    (h : (∃ d ∈ names, d ∈ graph.dependencyNames m) ∨ Unlocks graph rt m) :
    Unlocks graph (markAllReady graph rt names) m := by
  induction names generalizing rt with
  | nil => exact h.resolve_left (by simp)
  | cons n names ih =>
    refine ih (hc.markReady graph n) ?_
    by_cases hn : n ∈ graph.dependencyNames m
    · exact .inr (unlocks_markReady hc (.inl hn))
    · rcases h with ⟨d, hd, hdep⟩ | h
      · rcases List.mem_cons.1 hd with rfl | hd
        · exact absurd hdep hn
        · exact .inl ⟨d, hd, hdep⟩
      · exact .inr (unlocks_markReady hc (.inr h))

/-- A request hands out the requested program itself, if it was idle or failed and all it depends
on is ready; a program that the runtime takes for started, ready or waiting is not handed out. -/
theorem mem_requestClosure (hc : Consistent rt) (hn : n ∈ graph.names)
    (hd : ∀ d ∈ graph.dependencyNames n, state graph rt d = .ready)
    (hs : state graph rt n ≠ .pending ∧ state graph rt n ≠ .blocked) :
    n ∈ (requestClosure graph rt n).2 ↔ state graph rt n = .idle ∨ state graph rt n = .failed := by
  obtain ⟨id, hf⟩ := DependencyGraph.find_isSome.2 hn
  rw [requestClosure, hf]
  dsimp only
  rw [mem_collectStartable]
  rw [state_of_find hf] at hs ⊢
  constructor
  · rintro ⟨id', hf', hstart⟩
    cases hf.symm.trans hf'
    by_contra hnot
    rw [not_or] at hnot
    have hr : rt.requested id = true := (hc id).2 hnot.1
    rw [requestDependencies_settled _ hr ⟨hnot.2, hs.2⟩] at hstart
    exact hs.1 (startable_iff.1 hstart).2.1
  · intro hold
    have hself : (requestDependencies graph (graph.size + 1) rt id).states id = .pending ∧
        (requestDependencies graph (graph.size + 1) rt id).requested id = true := by
      apply requestDependencies_self
      rcases hold with h | h
      · refine .inl ⟨h, ?_⟩
        by_contra hr
        exact (hc id).1 (Bool.not_eq_false _ ▸ hr) h
      · exact .inr (.inr h)
    refine ⟨id, hf, startable_iff.2 ⟨hself.2, hself.1, fun d hdm => ?_⟩⟩
    refine ((requestDependencies_raises graph _ rt id).ready d).2 ?_
    have := hd (graph.name d) (by
      rw [DependencyGraph.dependencyNames, hf]
      exact List.mem_map_of_mem hdm)
    rwa [state_of_find (DependencyGraph.find_name (graph.deps_lt id d hdm))] at this

/-- Only a node with dependencies waits or is blocked. -/
def Waits (graph : DependencyGraph) (rt : DependencyRuntime) (m : String) : Prop :=
  state graph rt m = .pending ∨ state graph rt m = .blocked → graph.dependencyNames m ≠ []

theorem waits_of_idle (h : state graph rt m = .idle) : Waits graph rt m := by
  intro hs
  simp [h] at hs

theorem waits_collect (hc : Consistent rt)
    (hb : state graph rt m = .blocked → graph.dependencyNames m ≠ []) :
    Waits graph (collectStartable graph rt).1 m := by
  cases hm : graph.find m with
  | none => exact waits_of_idle (by rw [state, hm])
  | some i =>
    rw [state_of_find hm] at hb
    rw [Waits, state_of_find hm, collectStartable_states (DependencyGraph.find_eq_some.1 hm).1]
    split
    · rintro (h | h) <;> cases h
    · rename_i hns
      rintro (h | h)
      · intro hnil
        rw [DependencyGraph.dependencyNames, hm, List.map_eq_nil_iff] at hnil
        exact hns (startable_iff.2 ⟨(hc i).2 (by simp [h]), h, by simp [hnil]⟩)
      · exact hb h

theorem Raises.blocked (h : Raises rt rt') (hb : state graph rt' m = .blocked) :
    state graph rt m = .blocked := by
  cases hm : graph.find m with
  | none => simp [state, hm] at hb
  | some i =>
    rw [state_of_find hm] at hb ⊢
    rcases h.states i with he | ⟨-, hp, -⟩
    · rw [← he, hb]
    · rw [hb] at hp
      cases hp

theorem waits_markIdle (h : Waits graph rt m) (n : String) :
    Waits graph (markIdle graph rt n) m := by
  rw [Waits, state_markIdle]
  split
  · rintro (h | h) <;> cases h
  · exact h

theorem waits_markReady (hc : Consistent rt) (h : Waits graph rt m) (n : String) :
    Waits graph (markReady graph rt n).1 m := by
  rw [markReady]
  cases hf : graph.find n with
  | none => exact h
  | some id =>
    have hc₀ : Consistent ((rt.setRequested id true).setState id .ready) := hc.set id (by simp)
    have hraise := Raises.foldl (unblock_raises graph) (graph.transitiveDependents id)
      ((rt.setRequested id true).setState id .ready)
    refine waits_collect (hc₀.raises hraise) fun hb => h (.inr ?_)
    have hb₀ := hraise.blocked hb
    rw [state_set hf] at hb₀
    split at hb₀
    · cases hb₀
    · exact hb₀

theorem waits_markFailed (h : Waits graph rt m) (n : String) :
    Waits graph (markFailed graph rt n).1 m := by
  rw [markFailed]
  cases hf : graph.find n with
  | none => exact h
  | some id =>
    have hid := (DependencyGraph.find_eq_some.1 hf).1
    cases hm : graph.find m with
    | none => exact waits_of_idle (by rw [state, hm])
    | some i =>
      rw [Waits, state_of_find hm] at h ⊢
      dsimp only
      rw [foldl_block_states]
      split
      · rename_i hblock
        intro _
        rw [DependencyGraph.dependencyNames, hm]
        simpa using DependencyGraph.dependencies_ne_nil hid hblock.1
      · by_cases hi : i = id
        · subst i
          simp
        · simpa [hi] using h

theorem waits_requestClosure (hc : Consistent rt) (h : m = n ∨ Waits graph rt m) :
    Waits graph (requestClosure graph rt n).1 m := by
  rw [requestClosure]
  cases hf : graph.find n with
  | none =>
    rcases h with rfl | h
    · exact waits_of_idle (by rw [state, hf])
    · exact h
  | some id =>
    have hraise := requestDependencies_raises graph (graph.size + 1) rt id
    refine waits_collect (hc.raises hraise) fun hb => ?_
    have hb₀ := hraise.blocked hb
    rcases h with rfl | h
    · rw [state_of_find hf] at hb hb₀
      have hself : (requestDependencies graph (graph.size + 1) rt id).states id = .pending :=
        (requestDependencies_self graph.size (.inr (.inl hb₀))).1
      cases hself.symm.trans hb
    · exact h (.inr hb₀)

theorem waits_requestAll (graph : DependencyGraph) (rt : DependencyRuntime) (m : String) :
    Waits graph (requestAll graph rt).1 m := by
  refine waits_collect (consistent_all rt) fun hb => ?_
  rw [state] at hb
  split at hb
  · cases hb
  · dsimp only at hb
    split at hb
    · cases hb
    · rename_i h
      exact absurd hb (not_or.1 h).2

theorem collect_or_same (graph : DependencyGraph) (rt : DependencyRuntime) (m : String) :
    m ∈ (collectStartable graph rt).2 ∨
      state graph (collectStartable graph rt).1 m = state graph rt m := by
  cases hm : graph.find m with
  | none =>
    right
    rw [state, hm, state, hm]
  | some i =>
    by_cases hs : startable graph rt i = true
    · exact .inl (mem_collectStartable.2 ⟨i, hm, hs⟩)
    · right
      rw [state_of_find hm, state_of_find hm,
        collectStartable_states (DependencyGraph.find_eq_some.1 hm).1, if_neg hs]

theorem pending_of_collected (h : m ∈ (collectStartable graph rt).2) :
    state graph rt m = .pending := by
  obtain ⟨i, hm, hs⟩ := mem_collectStartable.1 h
  rw [state_of_find hm]
  exact (startable_iff.1 hs).2.1

theorem names_of_collected (h : m ∈ (collectStartable graph rt).2) : m ∈ graph.names := by
  obtain ⟨i, hm, -⟩ := mem_collectStartable.1 h
  exact DependencyGraph.find_isSome.1 ⟨i, hm⟩

theorem length_collectStartable (graph : DependencyGraph) (rt : DependencyRuntime) :
    (collectStartable graph rt).2.length ≤ graph.size := by
  rw [collectStartable, foldl_collectNode _ graph.order_nodup, List.nil_append, List.length_map]
  exact (List.length_filter_le _ _).trans graph.order_length.le

theorem unlocked_markReady (hne : m ≠ n) (h : m ∈ (markReady graph rt n).2) :
    state graph rt m = .pending ∨ state graph rt m = .blocked := by
  rw [markReady] at h
  cases hf : graph.find n with
  | none =>
    rw [hf] at h
    cases h
  | some id =>
    rw [hf] at h
    obtain ⟨i, hm, -⟩ := mem_collectStartable.1 h
    have hpending := pending_of_collected h
    by_cases hb : rt.states i = .blocked
    · exact .inr ((state_of_find hm).trans hb)
    · rw [state_of_find hm, unblocked_states hf hm hne hb] at hpending
      exact .inl ((state_of_find hm).trans hpending)

theorem unblock_or_same (graph : DependencyGraph) (rt : DependencyRuntime) (i j : Nat) :
    (unblock graph rt j).states i = rt.states i ∨
    i = j ∧ rt.states i = .blocked ∧ (unblock graph rt j).states i = .pending := by
  by_cases hb : rt.states i = .blocked
  · rw [unblock]
    split
    · exact .inl rfl
    · split
      · exact .inl rfl
      · by_cases hij : i = j
        · subst i
          exact .inr ⟨rfl, hb, by simp⟩
        · exact .inl (by simp [hij])
  · exact .inl (unblock_states hb)

theorem foldl_unblock_or_same (graph : DependencyGraph) (rt : DependencyRuntime) (i : Nat)
    (l : List Nat) : (l.foldl (unblock graph) rt).states i = rt.states i ∨
    i ∈ l ∧ rt.states i = .blocked ∧ (l.foldl (unblock graph) rt).states i = .pending := by
  induction l generalizing rt with
  | nil => exact .inl rfl
  | cons j l ih =>
    rw [List.foldl_cons]
    rcases unblock_or_same graph rt i j with hj | ⟨rfl, hb, hp⟩
    · rcases ih (unblock graph rt j) with hl | ⟨hi, hb, hp⟩
      · exact .inl (hl.trans hj)
      · exact .inr ⟨List.mem_cons_of_mem j hi, hj.symm.trans hb, hp⟩
    · refine .inr ⟨List.mem_cons_self, hb, ?_⟩
      rw [foldl_unblock_states l (by rw [hp]; decide), hp]

/-- The second program depends on the first one, directly or not. -/
def Below (graph : DependencyGraph) (n m : String) : Prop :=
  ∃ id i, graph.find n = some id ∧ graph.find m = some i ∧ i ∈ graph.transitiveDependents id

/-- What waits or is handed out when a program becomes ready has waited, or it was blocked above
that program. -/
theorem waiting_of_markReady
    (h : m ∈ (markReady graph rt n).2 ∨ state graph (markReady graph rt n).1 m = .pending) :
    state graph rt m = .pending ∨ state graph rt m = .blocked ∧ Below graph n m := by
  rw [markReady] at h
  cases hf : graph.find n with
  | none =>
    rw [hf] at h
    exact .inl (h.resolve_left List.not_mem_nil)
  | some id =>
    rw [hf] at h
    dsimp only at h
    -- Before the collection the program waits in either case.
    have hpend : state graph ((graph.transitiveDependents id).foldl (unblock graph)
        ((rt.setRequested id true).setState id .ready)) m = .pending := by
      rcases h with h | h
      · exact pending_of_collected h
      · rcases collect_or_same graph ((graph.transitiveDependents id).foldl (unblock graph)
          ((rt.setRequested id true).setState id .ready)) m with hm | hm
        · exact pending_of_collected hm
        · exact hm.symm.trans h
    cases hm : graph.find m with
    | none => simp [state, hm] at hpend
    | some i =>
      have hset : state graph ((rt.setRequested id true).setState id .ready) m =
          if m = n then .ready else state graph rt m := state_set hf .ready
      rw [state_of_find hm] at hpend hset
      rcases foldl_unblock_or_same graph ((rt.setRequested id true).setState id .ready) i
        (graph.transitiveDependents id) with
        hsame | ⟨hbelow, hb, -⟩
      · rw [← hsame, hpend] at hset
        split at hset
        · cases hset
        · exact .inl hset.symm
      · rw [hb] at hset
        split at hset
        · cases hset
        · exact .inr ⟨hset.symm, id, i, hf, hm, hbelow⟩

theorem blocked_of_markReady (h : state graph (markReady graph rt n).1 m = .blocked) :
    state graph rt m = .blocked := by
  rw [markReady] at h
  cases hf : graph.find n with
  | none =>
    rw [hf] at h
    exact h
  | some id =>
    rw [hf] at h
    dsimp only at h
    have hraise := Raises.foldl (unblock_raises graph) (graph.transitiveDependents id)
      ((rt.setRequested id true).setState id .ready)
    have hset : state graph ((rt.setRequested id true).setState id .ready) m =
        if m = n then .ready else state graph rt m := state_set hf .ready
    rcases collect_or_same graph ((graph.transitiveDependents id).foldl (unblock graph)
      ((rt.setRequested id true).setState id .ready)) m with hm | hm
    · have hstarting := (collectStartable_handed hm).2.1
      rw [h] at hstarting
      cases hstarting
    · rw [hraise.blocked (hm.symm.trans h)] at hset
      split at hset
      · cases hset
      · exact hset.symm

theorem names_of_markReady (h : m ∈ (markReady graph rt n).2) : m ∈ graph.names := by
  rw [markReady] at h
  cases hf : graph.find n with
  | none =>
    rw [hf] at h
    cases h
  | some id =>
    rw [hf] at h
    exact names_of_collected h

theorem length_markReady (graph : DependencyGraph) (rt : DependencyRuntime) (n : String) :
    (markReady graph rt n).2.length ≤ graph.size := by
  rw [markReady]
  cases graph.find n with
  | none => exact Nat.zero_le _
  | some id => exact length_collectStartable graph _

theorem pending_markReady (hne : m ≠ n) (h : state graph rt m = .pending) :
    m ∈ (markReady graph rt n).2 ∨ state graph (markReady graph rt n).1 m = .pending := by
  rw [markReady]
  cases hf : graph.find n with
  | none => exact .inr h
  | some id =>
    refine (collect_or_same graph _ m).imp_right fun hsame => hsame.trans ?_
    cases hm : graph.find m with
    | none =>
      rw [state, hm] at h
      cases h
    | some i =>
      rw [state_of_find hm] at h ⊢
      rw [unblocked_states hf hm hne (by rw [h]; decide), h]

theorem state_markStarting (hne : m ≠ n) :
    state graph (markStarting graph rt n) m = state graph rt m := by
  rw [markStarting]
  cases hf : graph.find n with
  | none => rfl
  | some id => exact (state_set hf .starting).trans (if_neg hne)

/-- The program waits for a dependency that is not ready. -/
structure Held (graph : DependencyGraph) (rt : DependencyRuntime) (m : String) : Prop where
  requested : isRequested graph rt m = true
  pending : state graph rt m = .pending
  waits : ¬DependenciesReady graph rt m

theorem held_collect (hc : Consistent rt) (h : state graph rt m = .pending) :
    m ∈ (collectStartable graph rt).2 ∨ Held graph (collectStartable graph rt).1 m := by
  refine (collect_or_same graph rt m).imp_right fun hsame => ?_
  have hpending := hsame.trans h
  have hrequested : isRequested graph (collectStartable graph rt).1 m = true :=
    (hc.collect.requested_iff graph m).2 (by simp [hpending])
  exact ⟨hrequested, hpending, none_left hrequested hpending⟩

theorem held_markReady (hc : Consistent rt) (hne : m ≠ n) (h : Held graph rt m) :
    m ∈ (markReady graph rt n).2 ∨ Held graph (markReady graph rt n).1 m := by
  rcases pending_markReady hne h.pending with hmem | hpending
  · exact .inl hmem
  · right
    have hrequested : isRequested graph (markReady graph rt n).1 m = true :=
      ((hc.markReady graph n).requested_iff graph m).2 (by simp [hpending])
    refine ⟨hrequested, hpending, ?_⟩
    rw [markReady] at hrequested hpending ⊢
    cases hf : graph.find n with
    | none => exact h.waits
    | some id =>
      rw [hf] at hrequested hpending
      exact none_left hrequested hpending

theorem held_markStarting (hne : m ≠ n) (h : Held graph rt m) :
    Held graph (markStarting graph rt n) m := by
  refine ⟨?_, (state_markStarting hne).trans h.pending, fun hready => ?_⟩
  · rw [markStarting]
    cases hf : graph.find n with
    | none => exact h.requested
    | some id =>
      dsimp only
      rw [isRequested_set hf, h.requested]
      rfl
  · exact h.waits fun d hd => (ready_markStarting.1 (hready d hd)).1

theorem held_requestClosure (hc : Consistent rt) (hn : n ∈ graph.names)
    (hs : state graph rt n ≠ .ready ∧ state graph rt n ≠ .starting) :
    n ∈ (requestClosure graph rt n).2 ∨ Held graph (requestClosure graph rt n).1 n := by
  obtain ⟨id, hf⟩ := DependencyGraph.find_isSome.2 hn
  rw [requestClosure, hf]
  dsimp only
  apply held_collect (hc.raises (requestDependencies_raises graph (graph.size + 1) rt id))
  rw [state_of_find hf] at hs ⊢
  cases hstate : rt.states id with
  | idle =>
    have hr : rt.requested id = false := by
      rw [← Bool.not_eq_true, hc id, hstate]
      exact fun h => h rfl
    exact (requestDependencies_self graph.size (.inl ⟨hstate, hr⟩)).1
  | pending =>
    have hr : rt.requested id = true := (hc id).2 (by simp [hstate])
    rw [requestDependencies_settled _ hr (by simp [hstate])]
    exact hstate
  | starting => exact absurd hstate hs.2
  | ready => exact absurd hstate hs.1
  | failed => exact (requestDependencies_self graph.size (.inr (.inr hstate))).1
  | blocked => exact (requestDependencies_self graph.size (.inr (.inl hstate))).1

theorem requestClosure_started (hc : Consistent rt)
    (hs : state graph rt n = .ready ∨ state graph rt n = .starting) :
    n ∉ (requestClosure graph rt n).2 ∧
      state graph (requestClosure graph rt n).1 n = state graph rt n := by
  cases hf : graph.find n with
  | none =>
    rw [requestClosure, hf]
    exact ⟨List.not_mem_nil, rfl⟩
  | some id =>
    have hsettled : requestDependencies graph (graph.size + 1) rt id = rt := by
      rw [state_of_find hf] at hs
      have hr : rt.requested id = true := (hc id).2 (by rcases hs with h | h <;> simp [h])
      exact requestDependencies_settled _ hr (by rcases hs with h | h <;> simp [h])
    rw [requestClosure, hf]
    dsimp only
    rw [hsettled]
    have hnot : n ∉ (collectStartable graph rt).2 := by
      intro hmem
      rw [pending_of_collected hmem] at hs
      rcases hs with h | h <;> cases h
    exact ⟨hnot, (collect_or_same graph rt n).resolve_left hnot⟩

theorem requestAll_eq_reset
    (h : ∀ i, rt.states i = .idle ∨ rt.states i = .blocked ∨ rt.states i = .pending) :
    requestAll graph rt = requestAll graph reset := by
  rw [requestAll, requestAll]
  congr 2
  funext i
  have hreset : reset.states i = .idle := rfl
  rw [hreset]
  rcases h i with h | h | h
  · simp [h]
  · simp [h]
  · simp [h]

theorem state_requestAll (h : state graph rt m ≠ .idle ∧ state graph rt m ≠ .blocked ∧
    state graph rt m ≠ .pending) :
    m ∉ (requestAll graph rt).2 ∧ state graph (requestAll graph rt).1 m = state graph rt m := by
  have hprepared : state graph { requested := fun _ => true
                                 states := fun id =>
                                   if rt.states id = .idle ∨ rt.states id = .blocked then .pending
                                   else rt.states id } m = state graph rt m := by
    cases hm : graph.find m with
    | none => rw [state, hm, state, hm]
    | some i =>
      rw [state_of_find hm, state_of_find hm]
      rw [state_of_find hm] at h
      exact if_neg (not_or.2 ⟨h.1, h.2.1⟩)
  have hnot : m ∉ (requestAll graph rt).2 := by
    intro hmem
    exact h.2.2 (hprepared.symm.trans (pending_of_collected hmem))
  exact ⟨hnot, ((collect_or_same graph _ m).resolve_left hnot).trans hprepared⟩

theorem requestAll_reset (h : m ∈ graph.names) :
    m ∈ (requestAll graph reset).2 ∨ state graph (requestAll graph reset).1 m = .pending := by
  refine (collect_or_same graph _ m).imp_right fun hsame => hsame.trans ?_
  obtain ⟨i, hm⟩ := DependencyGraph.find_isSome.2 h
  have hidle : reset.states i = .idle := rfl
  rw [state_of_find hm]
  dsimp only
  rw [if_pos (Or.inl hidle)]

theorem migrate_states (entries : List DependencyRuntimeEntry) (h : graph.size ≤ i) :
    (migrate graph entries).states i = .idle := by
  have hfold : ∀ rt : DependencyRuntime, rt.states i = .idle →
      (entries.foldl (restore graph) rt).states i = .idle := by
    induction entries with
    | nil => exact fun rt hrt => hrt
    | cons entry entries ih =>
      intro rt hrt
      apply ih
      rw [restore]
      cases hf : graph.find entry.name with
      | none => exact hrt
      | some id =>
        have hne : i ≠ id := by
          have hlt := (DependencyGraph.find_eq_some.1 hf).1
          omega
        simp [hne, hrt]
  exact hfold reset rfl

end PmTiny.DependencyRuntime
