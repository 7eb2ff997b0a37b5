import PmTiny.Core.DependencyRuntime

namespace PmTiny.DependencyRuntime
set_option autoImplicit true

variable {graph : DependencyGraph} {rt : DependencyRuntime} {n m s : String} {id : Nat}

theorem state_of_find (h : graph.find n = some id) : state graph rt n = rt.states id := by
  rw [state, h]

theorem isRequested_of_find (h : graph.find n = some id) :
    isRequested graph rt n = rt.requested id := by
  rw [isRequested, h]

theorem state_of_not_mem (h : n ∉ graph.names) : state graph rt n = .idle := by
  rw [state]
  split
  · rfl
  · rename_i id hid
    exact absurd (DependencyGraph.find_isSome.1 ⟨id, hid⟩) h

theorem isRequested_of_not_mem (h : n ∉ graph.names) : isRequested graph rt n = false := by
  rw [isRequested]
  split
  · rfl
  · rename_i id hid
    exact absurd (DependencyGraph.find_isSome.1 ⟨id, hid⟩) h

theorem Consistent.requested_iff (h : Consistent rt) (graph : DependencyGraph) (n : String) :
    isRequested graph rt n = true ↔ state graph rt n ≠ .idle := by
  unfold isRequested state
  cases graph.find n with
  | none => simp
  | some id => exact h id

theorem isRequested_markIdle :
    isRequested graph (markIdle graph rt n) m = (isRequested graph rt m && decide (m ≠ n)) := by
  unfold markIdle isRequested
  cases hn : graph.find n with
  | none =>
    cases hm : graph.find m with
    | none => simp
    | some id =>
      have hne : m ≠ n := fun he => by simp [he, hn] at hm
      simp [hne]
  | some id =>
    cases hm : graph.find m with
    | none => simp
    | some id' =>
      by_cases he : id' = id
      · subst id'
        simp [DependencyGraph.find_inj hm hn]
      · have hne : m ≠ n := fun h => he (by rw [h, hn] at hm; exact (Option.some.inj hm).symm)
        simp [he, hne]

theorem state_markIdle :
    state graph (markIdle graph rt n) m = if m = n then .idle else state graph rt m := by
  unfold markIdle state
  cases hn : graph.find n with
  | none =>
    by_cases he : m = n
    · simp [he, hn]
    · simp [he]
  | some id =>
    cases hm : graph.find m with
    | none => simp
    | some id' =>
      by_cases he : id' = id
      · subst id'
        simp [DependencyGraph.find_inj hm hn]
      · have hne : m ≠ n := fun h => he (by rw [h, hn] at hm; exact (Option.some.inj hm).symm)
        simp [he, hne]

/-- What a name may look like after requests, unblocking and collection. -/
structure Advances (graph : DependencyGraph) (rt rt' : DependencyRuntime) : Prop where
  requested : ∀ n, isRequested graph rt n = true → isRequested graph rt' n = true
  ready : ∀ n, state graph rt' n = .ready ↔ state graph rt n = .ready

theorem Raises.advances (h : Raises rt rt') :
    Advances graph rt (collectStartable graph rt').1 where
  requested := fun n hn => by
    unfold isRequested at hn ⊢
    cases hf : graph.find n with
    | none => simp [hf] at hn
    | some id =>
      rw [hf] at hn
      dsimp only at hn ⊢
      rw [collectStartable_requested]
      exact h.requested id hn
  ready := fun n => by
    unfold state
    cases graph.find n with
    | none => rfl
    | some id =>
      dsimp only
      rw [collectStartable_ready, h.ready]

/-- The names handed out by an operation are requested, starting, and have ready dependencies. -/
def Handed (graph : DependencyGraph) (rt : DependencyRuntime) (name : String) : Prop :=
  isRequested graph rt name = true ∧ state graph rt name = .starting ∧
    ∀ d ∈ graph.dependencyNames name, state graph rt d = .ready

theorem collectStartable_handed (h : s ∈ (collectStartable graph rt).2) :
    Handed graph (collectStartable graph rt).1 s := by
  obtain ⟨id, hid, hs⟩ := mem_collectStartable.1 h
  have hlt := (DependencyGraph.find_eq_some.1 hid).1
  obtain ⟨hr, -, hd⟩ := startable_iff.1 hs
  refine ⟨?_, ?_, ?_⟩
  · rw [isRequested_of_find hid, collectStartable_requested]
    exact hr
  · rw [state_of_find hid, collectStartable_states hlt, if_pos hs]
  · rw [DependencyGraph.dependencyNames, hid]
    intro d hdm
    obtain ⟨x, hx, rfl⟩ := List.mem_map.1 hdm
    rw [state_of_find (DependencyGraph.find_name (graph.deps_lt id x hx)), collectStartable_ready]
    exact hd x hx

theorem requestClosure_advances (graph : DependencyGraph) (rt : DependencyRuntime) (n : String) :
    Advances graph rt (requestClosure graph rt n).1 := by
  rw [requestClosure]
  cases graph.find n with
  | none => exact ⟨fun _ h => h, fun _ => .rfl⟩
  | some id => exact (requestDependencies_raises graph _ rt id).advances

theorem requestClosure_handed (h : s ∈ (requestClosure graph rt n).2) :
    Handed graph (requestClosure graph rt n).1 s := by
  rw [requestClosure] at h ⊢
  cases hf : graph.find n with
  | none => simp [hf] at h
  | some id =>
    rw [hf] at h
    exact collectStartable_handed h

theorem requestAll_handed (h : s ∈ (requestAll graph rt).2) :
    Handed graph (requestAll graph rt).1 s := collectStartable_handed h

theorem requestAll_ready (h : ∀ i, rt.states i ≠ .ready) (n : String) :
    state graph (requestAll graph rt).1 n ≠ .ready := by
  unfold state
  cases graph.find n with
  | none => simp
  | some id =>
    dsimp only
    rw [requestAll, Ne, collectStartable_ready]
    dsimp only
    split
    · simp
    · exact h id

theorem markReady_handed (h : s ∈ (markReady graph rt n).2) :
    Handed graph (markReady graph rt n).1 s := by
  rw [markReady] at h ⊢
  cases hf : graph.find n with
  | none => simp [hf] at h
  | some id =>
    rw [hf] at h
    exact collectStartable_handed h

/-- The unblocking pass of `mark_ready` after the node itself has been set ready. -/
theorem markReady_advances (hf : graph.find n = some id) :
    Advances graph ((rt.setRequested id true).setState id .ready) (markReady graph rt n).1 := by
  rw [markReady, hf]
  exact (Raises.foldl (unblock_raises graph) _ _).advances

theorem isRequested_set (hf : graph.find n = some id) (st : DependencyRuntimeState) :
    isRequested graph ((rt.setRequested id true).setState id st) m =
      (isRequested graph rt m || decide (m = n)) := by
  unfold isRequested
  cases hm : graph.find m with
  | none =>
    have hne : m ≠ n := fun he => by simp [he, hf] at hm
    simp [hne]
  | some id' =>
    by_cases he : id' = id
    · subst id'
      simp [DependencyGraph.find_inj hm hf]
    · have hne : m ≠ n := fun h => he (by rw [h, hf] at hm; exact (Option.some.inj hm).symm)
      simp [he, hne]

theorem state_set (hf : graph.find n = some id) (st : DependencyRuntimeState) :
    state graph ((rt.setRequested id true).setState id st) m =
      if m = n then st else state graph rt m := by
  unfold state
  cases hm : graph.find m with
  | none =>
    have hne : m ≠ n := fun he => by simp [he, hf] at hm
    simp [hne]
  | some id' =>
    by_cases he : id' = id
    · subst id'
      simp [DependencyGraph.find_inj hm hf]
    · have hne : m ≠ n := fun h => he (by rw [h, hf] at hm; exact (Option.some.inj hm).symm)
      simp [he, hne]

theorem ready_markReady :
    state graph (markReady graph rt n).1 m = .ready ↔
      state graph rt m = .ready ∨ m = n ∧ n ∈ graph.names := by
  cases hf : graph.find n with
  | none =>
    have hn : n ∉ graph.names := fun h => by
      obtain ⟨id, hid⟩ := DependencyGraph.find_isSome.2 h
      simp [hf] at hid
    simp [markReady, hf, hn]
  | some id =>
    have hn := DependencyGraph.find_isSome.1 ⟨id, hf⟩
    rw [(markReady_advances hf).ready, state_set hf]
    by_cases he : m = n <;> simp [he, hn]

theorem requested_markReady :
    isRequested graph (markReady graph rt n).1 m = true ↔
      isRequested graph rt m = true ∨ m = n ∧ n ∈ graph.names := by
  cases hf : graph.find n with
  | none =>
    have hn : n ∉ graph.names := fun h => by
      obtain ⟨id, hid⟩ := DependencyGraph.find_isSome.2 h
      simp [hf] at hid
    simp [markReady, hf, hn]
  | some id =>
    have hn := DependencyGraph.find_isSome.1 ⟨id, hf⟩
    have hreq : ∀ (l : List Nat) (rt : DependencyRuntime),
        (l.foldl (unblock graph) rt).requested = rt.requested := by
      intro l
      induction l with
      | nil => intro rt; rfl
      | cons i l ih =>
        intro rt
        rw [List.foldl_cons, ih, unblock]
        split
        · rfl
        · split <;> rfl
    have he : isRequested graph (markReady graph rt n).1 m =
        isRequested graph ((rt.setRequested id true).setState id .ready) m := by
      unfold isRequested
      cases graph.find m with
      | none => rfl
      | some id' =>
        dsimp only
        simp only [markReady, hf]
        rw [collectStartable_requested, hreq]
    rw [he, isRequested_set hf]
    simp [hn]

theorem foldl_block_requested (l : List Nat) (acc : DependencyRuntime × List String) :
    (l.foldl (block graph) acc).1.requested = acc.1.requested := by
  induction l generalizing acc with
  | nil => rfl
  | cons i l ih =>
    rw [List.foldl_cons, ih, block]
    split <;> rfl

theorem foldl_block_states (l : List Nat) (acc : DependencyRuntime × List String) (i : Nat) :
    (l.foldl (block graph) acc).1.states i = if i ∈ l ∧ acc.1.requested i = true ∧
      acc.1.states i ≠ .ready then .blocked else acc.1.states i := by
  induction l generalizing acc with
  | nil => simp
  | cons j l ih =>
    rw [List.foldl_cons, ih, block]
    by_cases hj : i = j
    · subst i
      split
      · rename_i hc
        have hn : ¬(acc.1.requested j = true ∧ acc.1.states j ≠ .ready) := by
          simpa [imp_iff_not_or] using hc
        simp [hn]
      · rename_i hc
        have hn : acc.1.requested j = true ∧ acc.1.states j ≠ .ready := by
          simpa using hc
        simp [hn]
    · split <;> simp [hj]

theorem mem_foldl_block {l : List Nat} {acc : DependencyRuntime × List String}
    (h : s ∈ (l.foldl (block graph) acc).2) : s ∈ acc.2 ∨
      ∃ i ∈ l, graph.name i = s ∧ acc.1.requested i = true ∧ acc.1.states i ≠ .ready ∧
        acc.1.states i ≠ .blocked := by
  induction l generalizing acc with
  | nil => exact .inl h
  | cons j l ih =>
    rw [List.foldl_cons] at h
    rcases ih h with hm | ⟨i, hi, hs, hr, hne, hb⟩
    · rw [block] at hm
      split at hm
      · exact .inl hm
      · rename_i hc
        dsimp only at hm
        split at hm
        · rename_i hbl
          rcases List.mem_append.1 hm with hm | hm
          · exact .inl hm
          · refine .inr ⟨j, by simp, (List.mem_singleton.1 hm).symm, ?_, ?_, hbl⟩ <;> grind
        · exact .inl hm
    · refine .inr ⟨i, by simp [hi], hs, ?_⟩
      rw [block] at hr hne hb
      split at hr
      · exact ⟨hr, by simp_all, by simp_all⟩
      · rename_i hc
        rw [if_neg hc] at hne hb
        by_cases he : i = j
        · subst i
          simp at hb
        · simp [he] at hne hb
          exact ⟨hr, hne, hb⟩

theorem isRequested_markFailed :
    isRequested graph (markFailed graph rt n).1 m = true ↔
      isRequested graph rt m = true ∨ m = n ∧ n ∈ graph.names := by
  cases hf : graph.find n with
  | none =>
    have hn : n ∉ graph.names := fun h => by
      obtain ⟨id, hid⟩ := DependencyGraph.find_isSome.2 h
      simp [hf] at hid
    simp [markFailed, hf, hn]
  | some id =>
    have hn := DependencyGraph.find_isSome.1 ⟨id, hf⟩
    have he : isRequested graph (markFailed graph rt n).1 m =
        isRequested graph ((rt.setRequested id true).setState id .failed) m := by
      unfold isRequested
      cases graph.find m with
      | none => rfl
      | some id' => simp only [markFailed, hf, foldl_block_requested]
    rw [he, isRequested_set hf]
    simp [hn]

theorem ready_markFailed (hn : n ∈ graph.names) :
    state graph (markFailed graph rt n).1 m = .ready ↔ state graph rt m = .ready ∧ m ≠ n := by
  obtain ⟨id, hf⟩ := DependencyGraph.find_isSome.2 hn
  have he : state graph (markFailed graph rt n).1 m = .ready ↔
      state graph ((rt.setRequested id true).setState id .failed) m = .ready := by
    unfold state
    cases graph.find m with
    | none => rfl
    | some id' =>
      simp only [markFailed, hf, foldl_block_states]
      split
      · rename_i h
        simpa using h.2.2
      · rfl
  rw [he, state_set hf]
  by_cases hm : m = n <;> simp [hm]

theorem find_of_not_mem (hn : n ∉ graph.names) : graph.find n = none := by
  cases hf : graph.find n with
  | none => rfl
  | some id => exact absurd (DependencyGraph.find_isSome.1 ⟨id, hf⟩) hn

theorem not_ready_markFailed (h : state graph rt m ≠ .ready) :
    state graph (markFailed graph rt n).1 m ≠ .ready := by
  by_cases hn : n ∈ graph.names
  · exact fun hm => h ((ready_markFailed hn).1 hm).1
  · rw [markFailed, find_of_not_mem hn]
    exact h

theorem ready_markFailed_iff :
    state graph (markFailed graph rt n).1 m = .ready ↔ state graph rt m = .ready ∧ m ≠ n := by
  by_cases hn : n ∈ graph.names
  · exact ready_markFailed hn
  · rw [markFailed, find_of_not_mem hn]
    refine ⟨fun h => ⟨h, ?_⟩, And.left⟩
    intro hm
    subst hm
    rw [state_of_not_mem hn] at h
    cases h

theorem ready_set {st : DependencyRuntimeState} (hst : st ≠ .ready) :
    state graph (match graph.find n with
      | none => rt
      | some id => (rt.setRequested id true).setState id st) m = .ready ↔
      state graph rt m = .ready ∧ m ≠ n := by
  cases hf : graph.find n with
  | none =>
    refine ⟨fun h => ⟨h, ?_⟩, And.left⟩
    intro hm
    subst hm
    rw [state, hf] at h
    cases h
  | some id =>
    simp only
    rw [state_set hf]
    by_cases hm : m = n <;> simp [hm, hst]

theorem ready_markStarting :
    state graph (markStarting graph rt n) m = .ready ↔ state graph rt m = .ready ∧ m ≠ n :=
  ready_set (by decide)

theorem ready_markPending :
    state graph (markPending graph rt n) m = .ready ↔ state graph rt m = .ready ∧ m ≠ n :=
  ready_set (by decide)

theorem ready_markIdle :
    state graph (markIdle graph rt n) m = .ready ↔ state graph rt m = .ready ∧ m ≠ n := by
  rw [state_markIdle]
  by_cases hm : m = n <;> simp [hm]

theorem ready_requestAll :
    state graph (requestAll graph rt).1 m = .ready ↔ state graph rt m = .ready := by
  unfold state
  cases graph.find m with
  | none => rfl
  | some id =>
    simp only [requestAll, collectStartable_ready]
    split
    · rename_i h
      rcases h with h | h
      · simp [h]
      · simp [h]
    · rfl

theorem blocked_markFailed (h : s ∈ (markFailed graph rt n).2.blocked) :
    s ≠ n ∧ isRequested graph rt s = true ∧ state graph rt s ≠ .ready ∧
      state graph rt s ≠ .blocked ∧ graph.dependencyNames s ≠ [] := by
  rw [markFailed] at h
  cases hf : graph.find n with
  | none => simp [hf] at h
  | some id =>
    rw [hf] at h
    dsimp only at h
    have hlt := (DependencyGraph.find_eq_some.1 hf).1
    rcases mem_foldl_block h with hm | ⟨i, hi, hs, hr, hne, hb⟩
    · simp at hm
    · have hi' := DependencyGraph.lt_of_transitiveDependents hlt hi
      have hid : i ≠ id := ((DependencyGraph.mem_transitiveDependents hlt).1 hi).1
      have hfs : graph.find s = some i := DependencyGraph.find_eq_some.2 ⟨hi', hs⟩
      simp only [setState_requested, setRequested_requested, setState_states, setRequested_states,
        Function.update_of_ne hid] at hr hne hb
      refine ⟨fun he => ?_, ?_, ?_, ?_, ?_⟩
      · rw [he, hf] at hfs
        exact hid (Option.some.inj hfs).symm
      · rw [isRequested_of_find hfs, hr]
      · rwa [state_of_find hfs]
      · rwa [state_of_find hfs]
      · rw [DependencyGraph.dependencyNames, hfs]
        simpa using DependencyGraph.dependencies_ne_nil hlt hi

theorem foldl_restore (l : List DependencyRuntimeEntry) (hl : (l.map (·.name)).Nodup)
    (rt : DependencyRuntime) (hm : graph.find m = some id) :
    (l.foldl (restore graph) rt).states id =
        ((l.find? fun e => e.name = m).elim (rt.states id) (·.state)) ∧
      (l.foldl (restore graph) rt).requested id =
        ((l.find? fun e => e.name = m).elim (rt.requested id) (·.requested)) := by
  induction l generalizing rt with
  | nil => simp
  | cons e l ih =>
    obtain ⟨he, hl'⟩ := List.nodup_cons.1 hl
    obtain ⟨hs, hr⟩ := ih hl' (restore graph rt e)
    rw [List.foldl_cons, hs, hr, List.find?_cons]
    by_cases hem : e.name = m
    · have hnone : (l.find? fun e => e.name = m) = none := by
        rw [List.find?_eq_none]
        intro x hx hxm
        exact he (List.mem_map.2 ⟨x, hx, by simpa [hem] using hxm⟩)
      simp [hnone, hem, restore, hm]
    · have hres : (restore graph rt e).states id = rt.states id ∧
          (restore graph rt e).requested id = rt.requested id := by
        rw [restore]
        cases hfe : graph.find e.name with
        | none => exact ⟨rfl, rfl⟩
        | some id' =>
          have hne : id ≠ id' := fun h => hem (DependencyGraph.find_inj hfe (h ▸ hm))
          simp [hne]
      simp [hem, hres]

theorem find?_snapshot (g : DependencyGraph) (rt : DependencyRuntime) (m : String) :
    (snapshot g rt).find? (fun e => e.name = m) =
      (g.find m).map fun id => ⟨m, rt.states id, rt.requested id⟩ := by
  rw [snapshot, List.find?_map]
  cases hm : g.find m with
  | none =>
    have hnone :
      (List.range g.size).find? ((fun e : DependencyRuntimeEntry => decide (e.name = m)) ∘
        fun i => ⟨g.name i, rt.states i, rt.requested i⟩) = none := by
      rw [List.find?_eq_none]
      intro i hi hc
      have hf := DependencyGraph.find_eq_some.2 ⟨List.mem_range.1 hi, by simpa using hc⟩
      simp [hm] at hf
    rw [hnone]
    rfl
  | some id =>
    obtain ⟨hlt, hname⟩ := DependencyGraph.find_eq_some.1 hm
    have hsome :
      (List.range g.size).find? ((fun e : DependencyRuntimeEntry => decide (e.name = m)) ∘
        fun i => ⟨g.name i, rt.states i, rt.requested i⟩) = some id := by
      rw [List.find?_range_eq_some]
      refine ⟨by simpa using hname, List.mem_range.2 hlt, fun j hj => ?_⟩
      simp only [Function.comp_apply, Bool.not_eq_true', decide_eq_false_iff_not]
      intro hc
      have hf := DependencyGraph.find_eq_some.2 ⟨hj.trans hlt, hc⟩
      rw [hm] at hf
      have := Option.some.inj hf
      omega
    rw [hsome]
    simp [hname]

theorem snapshot_nodup (g : DependencyGraph) (rt : DependencyRuntime) :
    ((snapshot g rt).map (·.name)).Nodup := by
  rw [snapshot, List.map_map]
  refine List.Nodup.map_on (fun i hi j hj he => ?_) List.nodup_range
  have hi' := DependencyGraph.find_name (List.mem_range.1 hi)
  have hj' := DependencyGraph.find_name (List.mem_range.1 hj)
  dsimp only [Function.comp_apply] at he
  rw [he, hj'] at hi'
  exact (Option.some.inj hi').symm

theorem state_migrate (g : DependencyGraph) (rt : DependencyRuntime) (m : String) :
    state graph (migrate graph (snapshot g rt)) m =
      if m ∈ graph.names then state g rt m else .idle := by
  split
  · rename_i h
    obtain ⟨id, hm⟩ := DependencyGraph.find_isSome.2 h
    rw [state_of_find hm, migrate, (foldl_restore _ (snapshot_nodup g rt) _ hm).1, find?_snapshot,
      state]
    cases g.find m <;> rfl
  · rename_i h
    exact state_of_not_mem h

theorem isRequested_migrate (g : DependencyGraph) (rt : DependencyRuntime) (m : String) :
    isRequested graph (migrate graph (snapshot g rt)) m =
      if m ∈ graph.names then isRequested g rt m else false := by
  split
  · rename_i h
    obtain ⟨id, hm⟩ := DependencyGraph.find_isSome.2 h
    rw [isRequested_of_find hm, migrate, (foldl_restore _ (snapshot_nodup g rt) _ hm).2,
      find?_snapshot, isRequested]
    cases g.find m <;> rfl
  · rename_i h
    exact isRequested_of_not_mem h

end PmTiny.DependencyRuntime
