import PmTiny.Trace.Runs

namespace PmTiny
set_option autoImplicit true

theorem rebuilt_runtime {s : Server} (hn : (s.pmTinyProgs.map (·.name)).Nodup)
    (hb : buildProgDependencyGraph s.pmTinyProgs = .ok graph) (hq : s.findProg m = some q) :
    s.rebuildDependencyGraph.runtimeState m = if q.state = .runing then .ready else .idle := by
  let s₀ : Server := { s with dependencyGraph := graph, dependencyRuntime := .reset }
  have hs : s.rebuildDependencyGraph = s₀.markRunning := by
    unfold Server.rebuildDependencyGraph
    rw [hb]
  have hc : (DependencyRuntime.markAllReady graph .reset s₀.running).Consistent :=
    DependencyRuntime.consistent_reset.markAllReady _ _
  have hidle : DependencyRuntime.state graph .reset m = .idle := by
    rw [DependencyRuntime.state]
    split <;> rfl
  have hoff : DependencyRuntime.isRequested graph .reset m = false := by
    rw [DependencyRuntime.isRequested]
    split <;> rfl
  have hnames : m ∈ graph.names := by
    rw [Registry.build_names hb]
    exact List.mem_map.2 ⟨q, Keyed.mem_of_find hq, Keyed.key_of_find hq⟩
  rw [hs, Server.markRunning_eq]
  show DependencyRuntime.state graph (.markAllReady graph .reset s₀.running) m = _
  split
  · rename_i hrun
    exact DependencyRuntime.ready_markAllReady.2 (.inr ⟨(Server.mem_running hn hq).2 hrun, hnames⟩)
  · rename_i hrun
    by_contra hne
    have hreq := (hc.requested_iff graph m).2 hne
    rcases DependencyRuntime.requested_markAllReady.1 hreq with hr | ⟨hr, -⟩
    · simp [hoff] at hr
    · exact hrun ((Server.mem_running hn hq).1 hr)

/-- A removal leaves the runtime of the other programs alone exactly when the graph cannot be
rebuilt, or when nothing but running programs was requested. -/
theorem removal_local_iff (h : Server.Reachable ω s) (n : String) :
    (∀ m q, m ≠ n → s.findProg m = some q →
      (s.removeProg ω n).runtimeState m = s.runtimeState m ∧
        (s.removeProg ω n).requested m = s.requested m) ↔
      (∀ graph, buildProgDependencyGraph (Keyed.remove ProgInfo.name n s.pmTinyProgs) ≠ .ok graph) ∨
        ∀ m q, m ≠ n → s.findProg m = some q →
          s.runtimeState m = if q.state = .runing then .ready else .idle := by
  have hb := h.base
  let s₁ : Server :=
    { s with pmTinyProgs := Keyed.remove ProgInfo.name n s.pmTinyProgs }.detachSessions ω n
  have hreg : s₁.toRegistry = s.toRegistry.dropProg n := Server.talks_detachSessions.reg
  have hprogs : s₁.pmTinyProgs = Keyed.remove ProgInfo.name n s.pmTinyProgs := by
    rw [hreg]
    rfl
  have hfind : ∀ m q, m ≠ n → s.findProg m = some q → s₁.findProg m = some q := by
    intro m q hm hq
    rw [hreg, Registry.findProg, Registry.dropProg, Keyed.find_remove_ne hm]
    exact hq
  show (∀ m q, m ≠ n → s.findProg m = some q →
    s₁.rebuildDependencyGraph.runtimeState m = s.runtimeState m ∧
      s₁.rebuildDependencyGraph.requested m = s.requested m) ↔ _
  cases hbuild : buildProgDependencyGraph (Keyed.remove ProgInfo.name n s.pmTinyProgs) with
  | error e =>
    have hsame : s₁.rebuildDependencyGraph = s₁ := by
      unfold Server.rebuildDependencyGraph
      rw [hprogs, hbuild]
    refine ⟨fun _ => .inl (by simp), fun _ m q _ _ => ?_⟩
    rw [hsame, hreg]
    exact ⟨rfl, rfl⟩
  | ok graph =>
    have hnodup : (s₁.pmTinyProgs.map (·.name)).Nodup := by
      rw [hreg]
      exact Registry.nodup_dropProg hb.nodup
    have hbuild' : buildProgDependencyGraph s₁.pmTinyProgs = .ok graph := by rw [hprogs, hbuild]
    have hafter : ∀ m q, m ≠ n → s.findProg m = some q →
        s₁.rebuildDependencyGraph.runtimeState m = if q.state = .runing then .ready else .idle :=
      fun m q hm hq => rebuilt_runtime hnodup hbuild' (hfind m q hm hq)
    have hcons : s₁.rebuildDependencyGraph.dependencyRuntime.Consistent := by
      unfold Server.rebuildDependencyGraph
      rw [hbuild']
      dsimp only
      rw [Server.markRunning_eq]
      exact DependencyRuntime.consistent_reset.markAllReady _ _
    constructor
    · intro hlocal
      refine .inr fun m q hm hq => ?_
      rw [← hafter m q hm hq]
      exact (hlocal m q hm hq).1.symm
    · rintro (hfail | hcond) m q hm hq
      · exact absurd rfl (hfail graph)
      · have hstate : s₁.rebuildDependencyGraph.runtimeState m = s.runtimeState m :=
          (hafter m q hm hq).trans (hcond m q hm hq).symm
        refine ⟨hstate, Bool.eq_iff_iff.2 ?_⟩
        rw [Registry.requested, hcons.requested_iff, Registry.requested,
          (show s.dependencyRuntime.Consistent from hb.flags).requested_iff]
        exact not_congr (by rw [← Registry.runtimeState, ← Registry.runtimeState, hstate])

/-- A program that runs beside one that may be removed. -/
def neighbours : System := simpleSystem [{ name := "a" }, { name := "c", daemon := false }] [101]

theorem removal_local_running : ∃ s, Server.Reachable neighbours s ∧
    s.dependencyDependents "c" = [] ∧ s.runtimeState "a" = .ready ∧
    ∀ m q, m ≠ "c" → s.findProg m = some q →
      (s.removeProg neighbours "c").runtimeState m = s.runtimeState m ∧
        (s.removeProg neighbours "c").requested m = s.requested m := by
  obtain ⟨s, hreach, hs⟩ := Server.runFrom_any (ω := neighbours)
    [.connect 1 (some ⟨101, 0, 0⟩), .request 1 0 1 (.appReady "a")]
    (fun s => s.dependencyDependents "c" = [] && s.runtimeState "a" = .ready &&
      s.pmTinyProgs.all fun q => q.name = "c" ||
        s.runtimeState q.name = if q.state = .runing then .ready else .idle)
    (by decide +kernel)
  rw [Bool.and_eq_true, Bool.and_eq_true, List.all_eq_true] at hs
  obtain ⟨⟨hdep, hready⟩, hall⟩ := hs
  refine ⟨s, hreach, of_decide_eq_true hdep, of_decide_eq_true hready, ?_⟩
  refine (removal_local_iff hreach "c").2 (.inr fun m q hm hq => ?_)
  have h := hall q (Registry.mem_of_find hq)
  rw [Registry.name_of_find hq, Bool.or_eq_true] at h
  rcases h with h | h
  · exact absurd (of_decide_eq_true h) hm
  · exact of_decide_eq_true h

/-- A program that waits for its dependency, beside one that may be removed. -/
def waiters : System := simpleSystem [{ name := "a", startTimeout := 60 },
  { name := "b", dependsOn := ["a"] }, { name := "c", daemon := false }] []

/-- A program that waits for its dependency is forgotten when an unrelated program is removed. -/
theorem waiting_forgotten : ∃ s, Server.Reachable waiters s ∧
    (∃ p, s.findProg "c" = some p ∧ p.inst.pid = none) ∧ (∃ q, s.findProg "b" = some q) ∧
    s.dependencyDependents "c" = [] ∧ s.runtimeState "b" = .pending ∧ s.requested "b" = true ∧
    (s.removeProg waiters "c").runtimeState "b" = .idle ∧
    (s.removeProg waiters "c").requested "b" = false := by
  obtain ⟨s, hreach, hs⟩ := Server.runFrom_any (ω := waiters) [.maintenance false (some [(102, 0)])]
    (fun s => (s.findProg "c").any (fun p => p.inst.pid = none) && (s.findProg "b").isSome &&
      decide (s.dependencyDependents "c" = [] ∧ s.runtimeState "b" = .pending ∧
        s.requested "b" = true ∧ (s.removeProg waiters "c").runtimeState "b" = .idle ∧
        (s.removeProg waiters "c").requested "b" = false))
    (by decide +kernel)
  rw [Bool.and_eq_true, Bool.and_eq_true, Option.any_eq_true] at hs
  obtain ⟨⟨⟨p, hp, hpid⟩, hb⟩, hrest⟩ := hs
  exact ⟨s, hreach, ⟨p, hp, of_decide_eq_true hpid⟩, Option.isSome_iff_exists.1 hb,
    of_decide_eq_true hrest⟩

end PmTiny
