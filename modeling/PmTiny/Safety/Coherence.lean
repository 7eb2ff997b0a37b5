import PmTiny.Trace.Runs

namespace PmTiny
set_option autoImplicit true

/-- Writes to the state of a program that pass over its root process, its queued tasks or its
scheduled restart do not happen. -/
def SparesLive (e : Event) : Prop :=
  match e.call with
  | .blocked m => ∀ p, e.reg.findProg m = some p → p.inst.pid = none
  | .waitingStart m => ∀ p, e.reg.findProg m = some p → p.inst.pid = none
  | .realSpawnProg m .runtime => ∀ p, e.reg.findProg m = some p → p.restartPending = false
  | call => ¬call.PlansEarly

structure Coherent (settling : List String) (n : String) (c : Core) : Prop where
  state : c.live → c.state = .starting ∨ c.state = .runing ∨ c.state.terminating = true
  pending : c.live → c.pending = true → n ∈ settling
  single : ∀ t t', c.Queued t → c.Queued t' → t = t'
  restart : ∀ id showLog, c.Queued (.startProg id showLog) → c.pending = false

theorem Coherent.of_pid_none (hp : c.pid = none) (hs : ∀ t t', c.Queued t → c.Queued t' → t = t')
    (hr : ∀ id showLog, c.Queued (.startProg id showLog) → c.pending = false) :
    Coherent settling n c :=
  ⟨fun hl => absurd hl (by simp [Core.live, hp]), fun hl =>
    absurd hl (by simp [Core.live, hp]), hs, hr⟩

theorem Coherent.of_nil (hp : c.pid = none) (ht : c.tasks = []) : Coherent settling n c :=
  .of_pid_none hp (fun t t' h => by simp [Core.Queued, ht] at h)
    (fun _ _ h => by simp [Core.Queued, ht] at h)

theorem Coherent.unqueued (h : Coherent settling n c) (hok : ProgOk c) (hl : c.live)
    (ht : c.state.terminating = false) : c.Unqueued := by
  intro t hq
  obtain ⟨h₁, h₂⟩ := hok.busy hl t hq
  rcases h.state hl with hs | hs | hs
  · exact h₁ hs
  · exact h₂ hs
  · simp [hs] at ht

theorem SparesLive.flags (hK : ∀ e ∈ v.trace, SparesLive e) (h : Flags v n c) : c.pid = none := by
  rcases h with ⟨hp, -⟩ | ⟨-, -, -, hg | ⟨-, -, r, hr⟩⟩
  · exact hp
  · exact hg.1
  · exact absurd trivial (hK _ hr)

theorem coherent_prog (h : ProgMove v n c c' g) (hc : v.core n = some c) (hok : ProgOk c)
    (hK : ∀ e ∈ v.trace, SparesLive e) (hi : Coherent v.ghost.settling n c) :
    Coherent v.ghost.settling n c' := by
  have hst := hi.state
  have hpd := hi.pending
  have hsg := hi.single
  have hrs := hi.restart
  have hfind : ∃ p, v.reg.findProg n = some p ∧ p.core = c := Registry.core_eq_some.1 hc
  cases h with
  | touch => exact ⟨hst, hpd, hsg, hrs⟩
  | observe members => exact ⟨hst, hpd, hsg, hrs⟩
  | reset => exact ⟨hst, fun _ h' => by simp at h', hsg, fun _ _ _ => rfl⟩
  | kill job hl => exact ⟨fun _ => .inr (.inr rfl), hpd, hsg, hrs⟩
  | requestDelete hl => exact ⟨fun _ => .inr (.inr rfl), hpd, hsg, hrs⟩
  | enqueue t hl hq hs ht =>
    have hnew : ∀ t', (⟨c.gen, t'⟩ : GenerationTask) ∈ c.tasks ++ [⟨c.gen, t⟩] → t' = t := by
      intro t' h'
      rcases List.mem_append.1 h' with h' | h'
      · exact absurd h' (hq t')
      · exact (GenerationTask.mk.inj (List.mem_singleton.1 h')).2
    refine ⟨fun _ => .inr (.inr hs), hpd, fun t₁ t₂ h₁ h₂ => ?_, fun id showLog h' => ?_⟩
    · rw [hnew t₁ h₁, hnew t₂ h₂]
    · obtain rfl := hnew _ h'
      exact ht.2
  | reapDrain job extra hl ht hr hs ha hn he =>
    have hall : ∀ t, (⟨c.gen, t⟩ : GenerationTask) ∈ c.tasks ++ extra → c.Queued t ∨
        c.Unqueued ∧ ∃ nowMs lifeTime, extra = [⟨c.gen, .planRestart nowMs lifeTime⟩] ∧
          t = .planRestart nowMs lifeTime := by
      intro t h'
      rcases List.mem_append.1 h' with h' | h'
      · exact .inl h'
      · rcases he with rfl | ⟨hnt, a, b, rfl⟩
        · simp at h'
        · have hunq := hi.unqueued hok hl hnt
          exact .inr ⟨hunq, a, b, rfl, (GenerationTask.mk.inj (List.mem_singleton.1 h')).2⟩
    apply Coherent.of_pid_none rfl
    · intro t₁ t₂ h₁ h₂
      rcases hall t₁ h₁ with h₁ | ⟨hu, a, b, he₁, rfl⟩
      · rcases hall t₂ h₂ with h₂ | ⟨hu, -⟩
        · exact hsg t₁ t₂ h₁ h₂
        · exact absurd h₁ (hu t₁)
      · rcases hall t₂ h₂ with h₂ | ⟨-, a', b', he₂, rfl⟩
        · exact absurd h₂ (hu t₂)
        · cases he₁.symm.trans he₂
          rfl
    · intro id showLog h'
      rcases hall _ h' with h' | ⟨-, a, b, -, ht⟩
      · exact hrs id showLog h'
      · cases ht
  | reapStopped hl hr hs ha hset hn ht => exact .of_pid_none rfl hsg hrs
  | reapExited state pending hl hr hs ha ht hst' =>
    have hunq := hi.unqueued hok hl ht
    exact .of_pid_none rfl hsg fun id showLog h' => absurd h' (hunq _)
  | spawned site pid hp ha hc' hrt hsite htask hrestart =>
    have hnext := Core.Unqueued.next hok
    refine ⟨fun _ => .inl rfl, fun _ hpend => ?_, fun t _ h' => absurd h' (hnext t),
      fun _ _ h' => absurd h' (hnext _)⟩
    cases site with
    | runtime =>
      obtain ⟨p, hfind, rfl⟩ := hfind
      have hk : p.restartPending = false := hK _ hc' p hfind
      cases hk.symm.trans hpend
    | task =>
      obtain ⟨⟨id, showLog, hq⟩, -⟩ := htask rfl
      cases (hrs id showLog hq).symm.trans hpend
    | scheduled => exact hsite rfl
    | restart => cases (hrestart rfl).1.symm.trans hpend
  | aborted site hp hc' =>
    have hnext := Core.Unqueued.next hok
    exact .of_pid_none rfl (fun t _ h' => absurd h' (hnext t)) fun _ _ h' => absurd h' (hnext _)
  | startupFail h => exact .of_pid_none (SparesLive.flags hK h) hsg hrs
  | block hc' =>
    obtain ⟨p, hp, rfl⟩ := hfind
    exact .of_pid_none (hK _ hc' p hp) hsg hrs
  | waiting hc' =>
    obtain ⟨p, hp, rfl⟩ := hfind
    exact .of_pid_none (hK _ hc' p hp) hsg hrs
  | run => exact ⟨fun _ => .inr (.inl rfl), hpd, hsg, hrs⟩
  | accept => exact ⟨fun _ => .inr (.inl rfl), hpd, hsg, hrs⟩
  | plan t state pending ht hp hn hg =>
    have hgone := hp.gone hg fun r hr => hK _ hr
    refine .of_pid_none hgone.1 hsg fun id showLog h' => ?_
    cases hsg _ _ h' ht
    exact hp.elim
  | clearPendding => exact ⟨hst, hpd, by simp [Core.Queued], by simp [Core.Queued]⟩
  | clearRunning => exact ⟨hst, hpd, by simp [Core.Queued], by simp [Core.Queued]⟩
  | poll => exact ⟨hst, hpd, hsg, hrs⟩
  | cleaned => exact ⟨hst, hpd, hsg, hrs⟩
  | stoped hc' hp => exact .of_pid_none hp hsg hrs
  | noRun hx hs =>
    have hp : c.pid = none := by
      by_contra hne
      have hl : c.live := Option.isSome_iff_ne_none.2 hne
      rcases hst hl with h' | h' | h' <;> simp [hs] at h'
    exact .of_pid_none hp hsg hrs

def AllCoherent (v : View) : Prop := ∀ n c, v.core n = some c → Coherent v.ghost.settling n c

theorem Coherent.mono (h : Coherent settling n c)
    (hs : c.live → c.pending = true → n ∈ settling → n ∈ settling') : Coherent settling' n c :=
  ⟨h.state, fun hl hp => hs hl hp (h.pending hl hp), h.single, h.restart⟩

theorem coherent_move (h : Move v v') (hb : Base v) (hK : ∀ e ∈ v'.trace, SparesLive e)
    (hi : AllCoherent v) : AllCoherent v' := by
  intro m c hm
  cases h with
  | prog hf hp h =>
    have hset := h.settling
    rcases Registry.core_setProg hf hp hm with ⟨rfl, rfl⟩ | ⟨-, hm⟩
    · have hc := Registry.core_of_find hp
      exact (coherent_prog h hc (hb.progs _ _ hc) hK (hi _ _ hc)).mono fun _ _ hs => hset ▸ hs
    · exact (hi m c hm).mono fun _ _ hs => hset ▸ hs
  | runtime h => exact hi m c hm
  | log call h => exact hi m c hm
  | ghost h =>
    apply (hi m c hm).mono
    intro hl hp hs
    cases h with
    | settle => exact List.mem_cons_of_mem _ hs
    | settled n hoff =>
      refine (List.mem_erase_of_ne ?_).2 hs
      rintro rfl
      cases (hoff c hm).symm.trans hp
    | boundary mark hg =>
      rw [hg] at hs
      exact hs
    | _ => exact hs
  | registry h =>
    rcases h.core hb hm with hm | hp
    · exact (hi m c hm).mono fun _ _ hs => h.loops.2.2.1.symm ▸ hs
    · exact .of_nil hp.pid hp.tasks

/-- A program with a root process is starting, running or terminating, with no restart scheduled,
and a program that is starting or running has a root process. -/
theorem process_state_coherent (h : Server.Reachable ω s) (hK : ∀ e ∈ s.history, SparesLive e)
    (hp : s.findProg n = some p) :
    (p.inst.pid ≠ none → (p.state = .starting ∨ p.state = .runing ∨ p.state = .requestStop ∨
        p.state = .requestDelete) ∧ p.restartPending = false) ∧
      (p.state = .starting ∨ p.state = .runing → p.inst.pid ≠ none) := by
  have hall : AllCoherent s.boundary :=
    h.invariant (fun _ _ hm hb hK hi => coherent_move hm hb hK hi)
    (fun v hv n c hc => .of_nil (hv.fresh n c hc).pristine.pid (hv.fresh n c hc).pristine.tasks) hK
  have hc := Registry.core_of_find hp
  have hi := hall n p.core hc
  constructor
  · intro hne
    have hl : p.core.live := Option.isSome_iff_ne_none.2 hne
    refine ⟨?_, Bool.eq_false_iff.2 fun hpend => ?_⟩
    · have hs := hi.state hl
      rwa [ProgState.terminating_eq_true] at hs
    · have := hi.pending hl hpend
      simp [Server.boundary, Server.view] at this
  · intro hs
    exact Option.isSome_iff_ne_none.1 ((h.base.progs n p.core hc).running hs)

theorem process_state_coherent_boot : ∃ s p,
    Server.Reachable (simpleSystem [{ name := "p" }] []) s ∧ (∀ e ∈ s.history, SparesLive e) ∧
      s.findProg "p" = some p ∧ p.inst.pid = some 101 ∧ p.state = .starting ∧
      p.restartPending = false := by
  obtain ⟨s, hreach, hs⟩ := Server.runFrom_any (ω := simpleSystem [{ name := "p" }] []) []
    (fun s => (s.findProg "p").any (fun p => p.inst.pid = some 101 && p.state = .starting) &&
      s.history.all fun e =>
        (e.call = .spawn0 ["p"] || e.call = .realSpawnProg "p" .runtime) &&
          (e.reg.findProg "p").all fun p => !p.restartPending)
    (by decide +kernel)
  rw [Bool.and_eq_true, List.all_eq_true, Option.any_eq_true] at hs
  obtain ⟨⟨p, hp, hpid⟩, hall⟩ := hs
  rw [Bool.and_eq_true] at hpid
  have hK : ∀ e ∈ s.history, SparesLive e := by
    intro e he
    have hcall := hall e he
    rw [Bool.and_eq_true, Bool.or_eq_true] at hcall
    obtain ⟨hcall | hcall, hoff⟩ := hcall
    · rw [SparesLive, of_decide_eq_true hcall]
      exact id
    · rw [SparesLive, of_decide_eq_true hcall]
      intro q hq
      simpa [hq] using hoff
  have hpid' : p.inst.pid = some 101 := of_decide_eq_true hpid.1
  have hco := process_state_coherent hreach hK hp
  exact ⟨s, p, hreach, hK, hp, hpid', of_decide_eq_true hpid.2, (hco.1 (by simp [hpid'])).2⟩

/-- A dependency that waits for its scheduled restart is spawned for another program's start, and
runs with the restart still pending. -/
theorem spawned_with_restart_pending : ∃ s p,
    Server.Reachable (simpleSystem
        [{ name := "p", startTimeout := 60 }, { name := "r", dependsOn := ["p"] }] []) s ∧
      s.findProg "p" = some p ∧ p.inst.pid ≠ none ∧ p.restartPending = true := by
  obtain ⟨s, hreach, hs⟩ := Server.runFrom_any
    (ω := simpleSystem [{ name := "p", startTimeout := 60 },
      { name := "r", dependsOn := ["p"] }] [])
    [.connect 1 none, .maintenance false (some [(101, 0)]), .request 1 0 1 (.stop "r"),
      .request 1 0 2 (.start ⟨.existing, "r", { name := "r" }, false⟩)]
    (fun s => (s.findProg "p").any fun p => p.live && p.restartPending) (by decide +kernel)
  obtain ⟨p, hp, hlive⟩ := Option.any_eq_true _ _ |>.1 hs
  rw [Bool.and_eq_true] at hlive
  exact ⟨s, p, hreach, hp, Option.isSome_iff_ne_none.1 hlive.1, hlive.2⟩

end PmTiny
