import PmTiny.Trace.Runs

namespace PmTiny
set_option autoImplicit true

/-- Writes to the state of a program that pass over its termination do not happen. -/
def SparesTermination (e : Event) : Prop :=
  match e.call with
  | .stopIdle m | .waitingStart m | .blocked m =>
    ∀ p, e.reg.findProg m = some p → ¬p.core.Terminating
  | .realSpawnProg _ .task => True
  | .realSpawnProg m _ => ∀ p, e.reg.findProg m = some p → ¬p.core.Terminating
  | call => ¬call.PlansEarly

theorem SparesTermination.spawn (h : SparesTermination ⟨.realSpawnProg n site, r⟩)
    (hs : site ≠ .task) (hp : r.findProg n = some p) : ¬p.core.Terminating := by
  cases site with
  | task => exact absurd rfl hs
  | runtime => exact h p hp
  | scheduled => exact h p hp
  | restart => exact h p hp

/-- A termination in flight is one that the daemon polls, or whose tasks it is running. -/
structure Tracked (g : Ghost) (n : String) (c : Core) : Prop where
  polled : c.Terminating → c.state.terminating = true ∨ n ∈ g.pendding ∨ n ∈ g.running
  drained : n ∈ g.pendding ∨ n ∈ g.running → c.state.terminating = true ∨
    ¬(c.job.phase.active = true ∧ c.tree.isEmpty = false)

theorem Tracked.of_terminating (h : c.state.terminating = true) : Tracked g n c :=
  ⟨fun _ => .inl h, fun _ => .inl h⟩

theorem Tracked.of_idle (h : ¬c.Terminating) : Tracked g n c :=
  ⟨fun ht => absurd ht h, fun _ => .inr fun ht => h (.inr ht)⟩

theorem Tracked.of_empty (hn : n ∈ g.pendding ∨ n ∈ g.running) (ht : c.tree.isEmpty = true) :
    Tracked g n c :=
  ⟨fun _ => .inr hn, fun _ => .inr fun h => by simp [ht] at h⟩

theorem Core.not_terminating_of_pristine (h : Core.Pristine c) : ¬c.Terminating := by
  rintro (ht | ⟨-, ht⟩)
  · exact ht h.tasks
  · simp [h.tree, ProcessTreeHandle.isEmpty] at ht

theorem Tracked.observe (h : Tracked g n c) (members : List Nat) :
    Tracked g n { c with tree := c.tree.observe members } := by
  have hne : (c.tree.observe members).isEmpty = false → c.tree.isEmpty = false := by
    intro ht
    by_contra hc
    have := ProcessTreeHandle.observe_empty members (Bool.not_eq_false _ ▸ hc)
    simp [ht] at this
  refine ⟨fun ht => h.polled ?_, fun hn => ?_⟩
  · exact ht.imp_right fun ht => ⟨ht.1, hne ht.2⟩
  · exact (h.drained hn).imp_right fun hd ht => hd ⟨ht.1, hne ht.2⟩

theorem Tracked.clear (h : Tracked g n c) (hn : n ∈ g.pendding ∨ n ∈ g.running)
    (hsub : n ∈ g'.pendding ∨ n ∈ g'.running → n ∈ g.pendding ∨ n ∈ g.running) :
    Tracked g' n { c with tasks := [] } := by
  refine ⟨fun ht => ?_, fun hn' => h.drained (hsub hn')⟩
  rcases ht with ht | ht
  · exact absurd rfl ht
  · exact .inl ((h.drained hn).resolve_right fun hd => hd ht)

theorem SparesTermination.flags (hK : ∀ e ∈ v.trace, SparesTermination e) (h : Flags v n c) :
    Tracked v.ghost n { c with state := .startupFail } := by
  rcases h with ⟨-, -, site, r, p, hs, hr, hp, ht⟩ | ⟨-, hn, -, hg | ⟨-, -, r, hr⟩⟩
  · exact .of_idle fun h => (hK _ hr).spawn hs hp (ht h)
  · exact .of_empty hn hg.2
  · exact absurd trivial (hK _ hr)

theorem tracked_prog (h : ProgMove v n c c' g) (hc : v.core n = some c)
    (hK : ∀ e ∈ v.trace, SparesTermination e) (hi : Tracked v.ghost n c) : Tracked g n c' := by
  obtain ⟨p, hp, rfl⟩ := Registry.core_eq_some.1 hc
  cases h with
  | touch => exact hi
  | observe members => exact hi.observe members
  | reset => exact ⟨hi.polled, hi.drained⟩
  | kill => exact .of_terminating rfl
  | requestDelete => exact .of_terminating rfl
  | enqueue t hl hq hs => exact .of_terminating hs
  | reapDrain => exact .of_terminating rfl
  | reapStopped => exact .of_empty (.inl (by simp)) rfl
  | reapExited state pending hl hr hs ha ht =>
    refine ⟨fun h => ?_, fun _ => .inr fun h => by simp [ProcessTreeHandle.isEmpty] at h⟩
    rcases h with h | ⟨-, h⟩
    · exact .inr ((hi.polled (.inl h)).resolve_left (by simp [ht]))
    · simp [ProcessTreeHandle.isEmpty] at h
  | spawned site pid hp' ha hseen hrt hsite htask =>
    have hjob : ¬(({} : TerminationJob).phase.active = true) := by decide
    by_cases hs : site = .task
    · exact ⟨fun _ => .inr (htask hs).2, fun _ => .inr fun h => hjob h.1⟩
    · have hnot := (hK _ hseen).spawn hs hp
      refine .of_idle fun h => ?_
      rcases h with h | ⟨h, -⟩
      · exact hnot (.inl h)
      · exact hjob h
  | aborted site hp' hseen =>
    refine ⟨fun h => ?_, fun _ => .inr fun h => by simp [ProcessTreeHandle.isEmpty] at h⟩
    rcases h with h | ⟨-, h⟩
    · exact hi.polled (.inl h)
    · simp [ProcessTreeHandle.isEmpty] at h
  | startupFail h => exact SparesTermination.flags hK h
  | block hseen => exact .of_idle (hK _ hseen p hp)
  | waiting hseen => exact .of_idle (hK _ hseen p hp)
  | run hs =>
    have hnot : ¬p.core.state.terminating = true := by simp [hs]
    exact ⟨fun h => .inr ((hi.polled h).resolve_left hnot),
      fun h => .inr ((hi.drained h).resolve_left hnot)⟩
  | accept hl hq hs =>
    have hnot : ¬p.core.state.terminating = true := by simp [hs]
    exact ⟨fun h => .inr ((hi.polled h).resolve_left hnot),
      fun h => .inr ((hi.drained h).resolve_left hnot)⟩
  | plan t state pending ht hplan hn hg =>
    exact .of_empty hn (hplan.gone hg fun r hr => hK _ hr).2
  | clearPendding hn => exact hi.clear (.inl hn) (.imp_left List.mem_of_mem_erase)
  | clearRunning hn => exact hi.clear (.inr hn) (.imp_right List.mem_of_mem_erase)
  | poll job hs => exact .of_terminating hs
  | cleaned hs => exact .of_terminating hs
  | stoped hseen => exact .of_idle (hK _ hseen p hp)
  | noRun hx hs =>
    have hnot : ¬p.core.state.terminating = true := by simp [hs]
    exact ⟨fun h => .inr ((hi.polled h).resolve_left hnot),
      fun h => .inr ((hi.drained h).resolve_left hnot)⟩

theorem Tracked.congr (h : Tracked g n c) (hp : n ∈ g'.pendding ↔ n ∈ g.pendding)
    (hr : n ∈ g'.running ↔ n ∈ g.running) : Tracked g' n c := by
  refine ⟨fun ht => ?_, fun hn => h.drained (by rwa [← hp, ← hr])⟩
  rw [hp, hr]
  exact h.polled ht

def AllTracked (v : View) : Prop := ∀ n c, v.core n = some c → Tracked v.ghost n c

theorem tracked_move (h : Move v v') (hb : Base v) (hK : ∀ e ∈ v'.trace, SparesTermination e)
    (hi : AllTracked v) : AllTracked v' := by
  intro m c hm
  cases h with
  | prog hf hp h =>
    rcases Registry.core_setProg hf hp hm with ⟨rfl, rfl⟩ | ⟨hne, hm⟩
    · have hc := Registry.core_of_find hp
      exact tracked_prog h hc hK (hi _ _ hc)
    · exact (hi m c hm).congr (h.others hne).1 (h.others hne).2.1
  | runtime h => exact hi m c hm
  | log call h => exact hi m c hm
  | ghost h =>
    have him := hi m c hm
    cases h with
    | enter n hs =>
      by_cases hmn : m = n
      · subst m
        rcases hs c hm with hs | hs
        · exact .of_terminating hs
        · exact .of_empty (.inr List.mem_cons_self) hs
      · exact him.congr Iff.rfl (by simp [hmn])
    | boundary mark hg =>
      rw [hg] at him
      exact him.congr Iff.rfl Iff.rfl
    | _ => exact him.congr Iff.rfl Iff.rfl
  | registry h =>
    obtain ⟨hpend, hrun, -⟩ := h.loops
    rcases h.core hb hm with hm | hp
    · exact (hi m c hm).congr (by rw [hpend]) (by rw [hrun])
    · exact .of_idle (Core.not_terminating_of_pristine hp)

/-- A termination in flight is never abandoned: its program is in a state that is polled. -/
theorem termination_polled (h : Server.Reachable ω s) (hK : ∀ e ∈ s.history, SparesTermination e)
    (hp : s.findProg n = some p)
    (ht : p.killPendingtasks ≠ [] ∨ (p.inst.job.phase = .termRequested ∨
      p.inst.job.phase = .treeDraining ∨ p.inst.job.phase = .forceKillRequested) ∧
        p.inst.tree.isEmpty = false) :
    p.state = .requestStop ∨ p.state = .requestDelete := by
  have hall : AllTracked s.boundary := h.invariant (fun _ _ hm hb hK hi => tracked_move hm hb hK hi)
    (fun v hv n c hc => .of_idle (Core.not_terminating_of_pristine (hv.fresh n c hc).pristine)) hK
  have hterm : p.core.Terminating := by
    refine ht.imp_right fun h => ⟨?_, h.2⟩
    rcases h.1 with h | h | h <;> simp [ProgInfo.core, h, TerminationPhase.active]
  rcases (hall n p.core (Registry.core_of_find hp)).polled hterm with hs | hn | hn
  · exact ProgState.terminating_eq_true.1 hs
  · simp [Server.boundary, Server.view] at hn
  · simp [Server.boundary, Server.view] at hn

theorem termination_polled_stop : ∃ s p,
    Server.Reachable (simpleSystem [{ name := "p" }] []) s ∧
      (∀ e ∈ s.history, SparesTermination e) ∧ s.findProg "p" = some p ∧
      p.killPendingtasks ≠ [] ∧ (p.state = .requestStop ∨ p.state = .requestDelete) := by
  obtain ⟨s, hreach, hs⟩ := Server.runFrom_any (ω := simpleSystem [{ name := "p" }] [])
    [.connect 1 none, .request 1 0 1 (.stop "p")]
    (fun s => (s.findProg "p").any (fun p => p.killPendingtasks ≠ []) &&
      s.history.all fun e =>
        e.call = .spawn0 ["p"] || e.call = .signalTree "p" .term ||
          e.call = .realSpawnProg "p" .runtime && (e.reg.findProg "p").all fun p =>
            p.killPendingtasks = [] && p.inst.tree.isEmpty)
    (by decide +kernel)
  rw [Bool.and_eq_true, List.all_eq_true, Option.any_eq_true] at hs
  obtain ⟨⟨p, hp, htasks⟩, hall⟩ := hs
  have hK : ∀ e ∈ s.history, SparesTermination e := by
    intro e he
    have hcall := hall e he
    rw [Bool.or_eq_true, Bool.or_eq_true, Bool.and_eq_true] at hcall
    rcases hcall with (hcall | hcall) | ⟨hcall, hidle⟩
    · rw [SparesTermination, of_decide_eq_true hcall]
      exact id
    · rw [SparesTermination, of_decide_eq_true hcall]
      exact id
    · rw [SparesTermination, of_decide_eq_true hcall]
      intro q hq
      rw [hq, Option.all_some, Bool.and_eq_true] at hidle
      rintro (ht | ⟨-, ht⟩)
      · exact ht (of_decide_eq_true hidle.1)
      · exact absurd hidle.2 (Bool.eq_false_iff.1 ht)
  have hne : p.killPendingtasks ≠ [] := of_decide_eq_true htasks
  exact ⟨s, p, hreach, hK, hp, hne, termination_polled hreach hK hp (.inl hne)⟩

/-- A stop request for a program whose root has exited and whose descendants drain. -/
theorem stopped_while_draining : ∃ s p,
    Server.Reachable
        (simpleSystem [{ name := "p", daemon := false, startTimeout := 60 }] [7]) s ∧
      s.findProg "p" = some p ∧ p.inst.job.phase = .treeDraining ∧ p.inst.tree.isEmpty = false ∧
      p.state = .stoped := by
  obtain ⟨s, hreach, hs⟩ := Server.runFrom_any
    (ω := simpleSystem [{ name := "p", daemon := false, startTimeout := 60 }] [7])
    [.connect 1 none, .maintenance false (some [(101, 0)]), .request 1 0 1 (.stop "p")]
    (fun s => (s.findProg "p").any fun p =>
      p.inst.job.phase = .treeDraining ∧ p.inst.tree.isEmpty = false ∧ p.state = .stoped)
    (by decide +kernel)
  obtain ⟨p, hp, hcond⟩ := Option.any_eq_true _ _ |>.1 hs
  exact ⟨s, p, hreach, hp, of_decide_eq_true hcond⟩

end PmTiny
