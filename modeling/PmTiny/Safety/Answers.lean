import PmTiny.Trace.Runs

namespace PmTiny
set_option autoImplicit true

/-- Stop and delete requests complete with the exit of the root: no descendant is left by then. -/
def TreeGone (e : Event) : Prop :=
  match e.call with
  | .stopIdle m | .removeIdle m => ∀ p, e.reg.findProg m = some p → p.inst.tree.isEmpty = true
  | .runTask _ (.stopProc _) .poll | .runTask _ (.deleteProg _) .poll => False
  | _ => True

def Call.StopGranted (n : String) : Call → Prop
  | .answer ⟨_, _, _, .stop m, reply⟩ => m = n ∧ reply.status = 0
  | _ => False

def Call.RemoveGranted (n : String) : Call → Prop
  | .answer ⟨_, _, _, .remove m, reply⟩ => m = n ∧ reply.status = 0
  | _ => False

theorem Call.StopGranted.granted {call : Call} (h : call.StopGranted n) : call.Granted := by
  cases call with
  | answer frame =>
    obtain ⟨id, type, rid, request, reply⟩ := frame
    cases request with
    | stop m => exact h.2
    | _ => exact h.elim
  | _ => exact h.elim

theorem Call.RemoveGranted.granted {call : Call} (h : call.RemoveGranted n) : call.Granted := by
  cases call with
  | answer frame =>
    obtain ⟨id, type, rid, request, reply⟩ := frame
    cases request with
    | remove m => exact h.2
    | _ => exact h.elim
  | _ => exact h.elim

structure Parked (v : View) (n : String) (c : Core) : Prop where
  state : c.state = .stoped
  pid : c.pid = none
  pending : c.pending = false
  tasks : ∀ t, c.Queued t → ∃ id, t = .stopProc id
  requested : v.requested n = false
  settling : n ∉ v.ghost.settling
  deleting : n ∉ v.ghost.deleting

theorem Parked.not_live (h : Parked v n c) : ¬c.live := by simp [Core.live, h.pid]

theorem Parked.not_flags (h : Parked v n c) : ¬Flags v n c := by
  rintro (⟨-, ⟨hr, -⟩ | ⟨hs, -⟩, -⟩ | ⟨hq, -⟩)
  · cases h.requested.symm.trans hr
  · exact h.settling hs
  · obtain ⟨id, hid⟩ := h.tasks _ hq
    cases hid

theorem Parked.prog (hk : Parked v n c) (h : ProgMove v n c c' g) (hok : ProgOk c)
    (hb : ¬v.Quiet ∨ n ∈ v.ghost.pendding ∧ c'.gen = c.gen) :
    Parked { v with reg := v.reg.setProg n f, ghost := g } n c' := by
  have hbusy : v.Quiet → v.ghost.pendding ≠ [] := by
    intro hq hnil
    rcases hb with hb | ⟨hb, -⟩
    · exact hb hq
    · simp [hnil] at hb
  cases h with
  | touch => exact ⟨hk.state, hk.pid, hk.pending, hk.tasks, hk.requested, hk.settling, hk.deleting⟩
  | observe =>
    exact ⟨hk.state, hk.pid, hk.pending, hk.tasks, hk.requested, hk.settling, hk.deleting⟩
  | reset => exact ⟨hk.state, hk.pid, rfl, hk.tasks, hk.requested, hk.settling, hk.deleting⟩
  | kill job hl => exact absurd hl hk.not_live
  | requestDelete hl => exact absurd hl hk.not_live
  | enqueue t hl => exact absurd hl hk.not_live
  | reapDrain job extra hl => exact absurd hl hk.not_live
  | reapStopped hl => exact absurd hl hk.not_live
  | reapExited state pending hl => exact absurd hl hk.not_live
  | spawned site pid hp ha hc hrt hsite htask hrestart =>
    exfalso
    cases site with
    | runtime => cases hk.requested.symm.trans (hrt rfl)
    | scheduled => exact hk.settling (hsite rfl)
    | task =>
      obtain ⟨⟨id, showLog, hq⟩, -⟩ := htask rfl
      obtain ⟨id', hid⟩ := hk.tasks _ hq
      cases hid
    | restart =>
      rcases hb with hb | ⟨-, hgen⟩
      · exact hb (hrestart rfl).2
      · simp at hgen
  | aborted =>
    exact ⟨hk.state, rfl, hk.pending, fun t hq =>
      absurd hq (Core.Unqueued.next hok t), hk.requested,
      hk.settling, hk.deleting⟩
  | startupFail h => exact absurd h hk.not_flags
  | block _ hr => cases hk.requested.symm.trans hr
  | waiting _ _ hq ho => exact absurd ho.pendding (hbusy hq)
  | run _ hq ho => exact absurd ho.pendding (hbusy hq)
  | accept hl => exact absurd hl hk.not_live
  | plan t state pending hq hp =>
    obtain ⟨id, rfl⟩ := hk.tasks _ hq
    exact hp.elim
  | clearPendding =>
    exact ⟨hk.state, hk.pid, hk.pending, by simp [Core.Queued], hk.requested,
      hk.settling, hk.deleting⟩
  | clearRunning =>
    exact ⟨hk.state, hk.pid, hk.pending, by simp [Core.Queued], hk.requested,
      hk.settling, hk.deleting⟩
  | poll => exact ⟨hk.state, hk.pid, hk.pending, hk.tasks, hk.requested, hk.settling, hk.deleting⟩
  | cleaned =>
    exact ⟨hk.state, hk.pid, hk.pending, hk.tasks, hk.requested, hk.settling, hk.deleting⟩
  | stoped => exact ⟨rfl, hk.pid, hk.pending, hk.tasks, hk.requested, hk.settling, hk.deleting⟩
  | noRun _ hs => cases hk.state.symm.trans hs

structure Completes (v : View) (n : String) (c : Core) : Prop where
  single : c.live → ∀ t t', c.Queued t → c.Queued t' → t = t'
  stopping : c.live → ∀ id, c.Queued (.stopProc id) → c.state ≠ .requestDelete ∧ c.pending = false
  removing : v.Active → c.live → ∀ id, c.Queued (.deleteProg id) → c.state ≠ .requestStop
  reaped : n ∈ v.ghost.pendding → ∀ t, c.Queued t → c.Gone
  parked : n ∈ v.ghost.pendding → ∀ id, c.Queued (.stopProc id) → Parked v n c
  doomed : v.Active → n ∈ v.ghost.pendding → ∀ id, c.Queued (.deleteProg id) → n ∈ v.ghost.deleting

theorem Completes.of_unqueued (hq : c.Unqueued) : Completes v n c :=
  ⟨fun _ t _ h => absurd h (hq t), fun _ _ h => absurd h (hq _), fun _ _ _ h => absurd h (hq _),
    fun _ t h => absurd h (hq t), fun _ _ h => absurd h (hq _), fun _ _ _ h => absurd h (hq _)⟩

theorem Completes.of_not_live (hp : c.pid = none) (hn : n ∉ v.ghost.pendding) :
    Completes v n c := by
  have hl : ¬c.live := by simp [Core.live, hp]
  exact ⟨fun h => absurd h hl, fun h => absurd h hl, fun _ h => absurd h hl, fun h => absurd h hn,
    fun h => absurd h hn, fun _ h => absurd h hn⟩

theorem Core.unqueued_of_nil {c : Core} (h : c.tasks = []) : c.Unqueued := by
  intro t ht
  simp [Core.Queued, h] at ht

theorem Completes.unqueued (h : Completes v n c) (hl : c.live) (hn : n ∈ v.ghost.pendding) :
    c.Unqueued := by
  intro t hq
  have hg := h.reaped hn t hq
  simp [Core.live, hg.1] at hl

theorem Completes.keep (hi : Completes v n c) (hgen : c'.gen = c.gen) (hpid : c'.pid = c.pid)
    (htasks : c'.tasks = c.tasks) (hgone : c.Gone → c'.Gone)
    (hpend : n ∈ v'.ghost.pendding → n ∈ v.ghost.pendding)
    (hdel : n ∈ v.ghost.deleting → n ∈ v'.ghost.deleting) (hact : v'.Active → v.Active)
    (hstop : c.live → ∀ id, c.Queued (.stopProc id) → c'.state ≠ .requestDelete ∧
      c'.pending = false)
    (hrem : v.Active → c.live → ∀ id, c.Queued (.deleteProg id) → c'.state ≠ .requestStop)
    (hpark : n ∈ v.ghost.pendding → Parked v n c → Parked v' n c') : Completes v' n c' := by
  have hqueued : ∀ t, c'.Queued t → c.Queued t := by
    intro t hq
    rwa [Core.Queued, hgen, htasks] at hq
  have hlive : c'.live → c.live := by
    intro hl
    rwa [Core.live, hpid] at hl
  refine ⟨fun hl t t' hq hq' => ?_, fun hl id hq => ?_, fun ha hl id hq => ?_, fun hn t hq => ?_,
    fun hn id hq => ?_, fun ha hn id hq => ?_⟩
  · exact hi.single (hlive hl) t t' (hqueued t hq) (hqueued t' hq')
  · exact hstop (hlive hl) id (hqueued _ hq)
  · exact hrem (hact ha) (hlive hl) id (hqueued _ hq)
  · exact hgone (hi.reaped (hpend hn) t (hqueued t hq))
  · exact hpark (hpend hn) (hi.parked (hpend hn) id (hqueued _ hq))
  · exact hdel (hi.doomed (hact ha) (hpend hn) id (hqueued _ hq))

theorem Completes.same (hi : Completes v n c)
    (hpend : n ∈ v'.ghost.pendding → n ∈ v.ghost.pendding)
    (hdel : n ∈ v.ghost.deleting → n ∈ v'.ghost.deleting) (hact : v'.Active → v.Active)
    (hpark : n ∈ v.ghost.pendding → Parked v n c → Parked v' n c) : Completes v' n c :=
  hi.keep rfl rfl rfl id hpend hdel hact hi.stopping hi.removing hpark

theorem Completes.enqueue (hq : c.Unqueued) (ht : Enqueues v c t)
    (hn : v.ghost.pendding = []) :
    Completes { v with reg := r } n { c with tasks := c.tasks ++ [⟨c.gen, t⟩] } := by
  have hnew : ∀ t', (⟨c.gen, t'⟩ : GenerationTask) ∈ c.tasks ++ [⟨c.gen, t⟩] → t' = t := by
    intro t' h
    rcases List.mem_append.1 h with h | h
    · exact absurd h (hq t')
    · exact (GenerationTask.mk.inj (List.mem_singleton.1 h)).2
  refine ⟨fun _ t₁ t₂ h₁ h₂ => ?_, fun _ id h => ?_, fun _ _ id h => ?_, by simp [hn], by simp [hn],
    by simp [hn]⟩
  · rw [hnew t₁ h₁, hnew t₂ h₂]
  · obtain rfl := hnew _ h
    exact ⟨by simp [ht.2.2.2], ht.2.2.1⟩
  · obtain rfl := hnew _ h
    simp [ht.2.2]

theorem Completes.reapStopped (hi : Completes v n c) (hl : c.live) (hr : v.requested n = false)
    (hset : v.ghost.settling = []) (hn : n ∉ v.ghost.pendding ∧ n ∉ v.ghost.deleting)
    (ht : c.state.terminating = true) :
    Completes
      { v with
        reg := v.reg.setProg n f
        ghost := { v.ghost with
          pendding := v.ghost.pendding ++ [n]
          deleting := v.ghost.deleting ++ if c.state = .requestDelete then [n] else [] } } n
      { c with
        pid := none, tree := {}, state := if c.state = .requestStop then .stoped else .exit } := by
  refine ⟨fun h => by simp [Core.live] at h, fun h => by simp [Core.live] at h,
    fun _ h => by simp [Core.live] at h, fun _ _ _ => ⟨rfl, rfl⟩, fun _ id hq => ?_,
    fun ha _ id hq => ?_⟩
  · obtain ⟨hs, hp⟩ := hi.stopping hl id hq
    have hstop : c.state = .requestStop := (ProgState.terminating_eq_true.1 ht).resolve_right hs
    refine ⟨by simp [hstop], rfl, hp, fun t hq' =>
      ⟨id, hi.single hl _ _ hq' hq⟩, hr, by simp [hset], ?_⟩
    simpa [hstop] using hn.2
  · have hs := hi.removing ⟨ha.1, ha.2.1, ha.2.2⟩ hl id hq
    have hdel : c.state = .requestDelete := (ProgState.terminating_eq_true.1 ht).resolve_left hs
    simp [hdel]

theorem completes_prog (h : ProgMove v n c c' g) (hok : ProgOk c) (hi : Completes v n c) :
    Completes { v with reg := v.reg.setProg n f, ghost := g } n c' := by
  have hact : View.Active { v with reg := v.reg.setProg n f, ghost := g } → v.Active := h.active
  have hpark : c'.gen = c.gen → n ∈ v.ghost.pendding → Parked v n c →
      Parked { v with reg := v.reg.setProg n f, ghost := g } n c' :=
    fun hgen hn hk => hk.prog h hok (.inr ⟨hn, hgen⟩)
  cases h with
  | touch => exact hi.keep rfl rfl rfl id id id hact hi.stopping hi.removing (hpark rfl)
  | observe members =>
    exact hi.keep rfl rfl rfl (fun hg => ⟨hg.1, ProcessTreeHandle.observe_empty members hg.2⟩) id id
      hact hi.stopping hi.removing (hpark rfl)
  | reset =>
    exact hi.keep rfl rfl rfl id id id hact (fun hl id hq => ⟨(hi.stopping hl id hq).1, rfl⟩)
      hi.removing (hpark rfl)
  | kill job hl hq =>
    refine hi.keep rfl rfl rfl id id id hact
      (fun hl id hq => ⟨by simp, (hi.stopping hl id hq).2⟩) (fun ha _ id hq' => ?_) (hpark rfl)
    rcases hq with hq | hx
    · exact absurd hq' (hq _)
    · cases ha.1.symm.trans hx
  | requestDelete hl ht => exact .of_unqueued (Core.unqueued_of_nil ht)
  | enqueue t hl hq hs ht hn => exact .enqueue hq ht hn
  | reapDrain job extra hl ht hr hs ha hn => exact .of_not_live rfl hn
  | reapStopped hl hr hs ha hset hn ht => exact hi.reapStopped hl hr hset hn ht
  | reapExited state pending hl =>
    by_cases hn : n ∈ v.ghost.pendding
    · exact .of_unqueued (hi.unqueued hl hn)
    · exact .of_not_live rfl hn
  | spawned => exact .of_unqueued (Core.Unqueued.next hok)
  | aborted => exact .of_unqueued (Core.Unqueued.next hok)
  | startupFail =>
    exact hi.keep rfl rfl rfl id id id hact (fun hl id hq => ⟨by simp, (hi.stopping hl id hq).2⟩)
      (fun _ _ _ _ => by simp) (hpark rfl)
  | block =>
    exact hi.keep rfl rfl rfl id id id hact (fun hl id hq => ⟨by simp, (hi.stopping hl id hq).2⟩)
      (fun _ _ _ _ => by simp) (hpark rfl)
  | waiting =>
    exact hi.keep rfl rfl rfl id id id hact (fun hl id hq => ⟨by simp, (hi.stopping hl id hq).2⟩)
      (fun _ _ _ _ => by simp) (hpark rfl)
  | run =>
    exact hi.keep rfl rfl rfl id id id hact (fun hl id hq => ⟨by simp, (hi.stopping hl id hq).2⟩)
      (fun _ _ _ _ => by simp) (hpark rfl)
  | accept hl hq => exact .of_unqueued hq
  | plan t state pending hq hp =>
    refine hi.keep rfl rfl rfl id id id hact (fun hl id hq' => ?_)
      (fun _ hl id hq' => ?_) (hpark rfl)
    · cases hi.single hl _ _ hq hq'
      exact hp.elim
    · cases hi.single hl _ _ hq hq'
      exact hp.elim
  | clearPendding => exact .of_unqueued (Core.unqueued_of_nil rfl)
  | clearRunning => exact .of_unqueued (Core.unqueued_of_nil rfl)
  | poll => exact hi.keep rfl rfl rfl id id id hact hi.stopping hi.removing (hpark rfl)
  | cleaned =>
    exact hi.keep rfl rfl rfl (fun hg => ⟨hg.1, rfl⟩) id id hact hi.stopping hi.removing (hpark rfl)
  | stoped _ _ ht => exact .of_unqueued (Core.unqueued_of_nil ht)
  | noRun =>
    exact hi.keep rfl rfl rfl id id id hact (fun hl id hq => ⟨by simp, (hi.stopping hl id hq).2⟩)
      (fun _ _ _ _ => by simp) (hpark rfl)

structure Grants (v : View) : Prop where
  active : ¬v.Quiet → v.Active
  saved : v.ghost.saved ≠ none → v.Quiet
  stopped : ∀ n, ∀ e ∈ v.fresh, e.call.StopGranted n → ∃ c, v.core n = some c ∧ Parked v n c
  removed : ∀ n, ∀ e ∈ v.fresh, e.call.RemoveGranted n → v.core n = none ∨ n ∈ v.ghost.deleting
  gone : ∀ n, ∀ e ∈ v.fresh, e.call.StopGranted n ∨ e.call.RemoveGranted n →
    ∃ c, e.reg.core n = some c ∧ c.Gone

theorem Grants.of_quiet (hq : v.Quiet) : Grants v :=
  ⟨fun h => absurd hq h, fun _ => hq, fun _ e he hs => absurd hs.granted (hq e he),
    fun _ e he hr => absurd hr.granted (hq e he),
    fun _ e he h => absurd (h.elim (·.granted) (·.granted)) (hq e he)⟩

theorem Grants.keep (hi : Grants v) (hfresh : v'.fresh = v.fresh) (hact : v.Active → v'.Active)
    (hsaved : v'.ghost.saved ≠ none → v.ghost.saved ≠ none)
    (hstop : ¬v.Quiet → ∀ n c, v.core n = some c → Parked v n c →
      ∃ c', v'.core n = some c' ∧ Parked v' n c')
    (hrem : ∀ n, v.core n = none ∨ n ∈ v.ghost.deleting →
      v'.core n = none ∨ n ∈ v'.ghost.deleting) : Grants v' := by
  have hquiet : v'.Quiet ↔ v.Quiet := by
    unfold View.Quiet
    rw [hfresh]
  refine ⟨fun hq => hact (hi.active (hquiet.not.1 hq)), fun hs => hquiet.2 (hi.saved (hsaved hs)),
    fun n e he h => ?_, fun n e he h => ?_, fun n e he h => ?_⟩
  · rw [hfresh] at he
    obtain ⟨c, hc, hk⟩ := hi.stopped n e he h
    exact hstop (fun hq => hq e he h.granted) n c hc hk
  · rw [hfresh] at he
    exact hrem n (hi.removed n e he h)
  · rw [hfresh] at he
    exact hi.gone n e he h

/-- The queued and the answered requests are on their way to what they promise. -/
structure Answered (v : View) : Prop where
  progs : ∀ n c, v.core n = some c → Completes v n c
  grants : Grants v

theorem ProgMove.deleting_mono (h : ProgMove v n c c' g) (hm : m ∈ v.ghost.deleting) :
    m ∈ g.deleting := by
  cases h with
  | reapStopped => exact List.mem_append_left _ hm
  | _ => exact hm

theorem answered_prog (hf : Keeps f) (hp : v.reg.findProg n = some p)
    (h : ProgMove v n p.core (f p).core g) (hb : Base v) (hi : Answered v) :
    Answered { v with reg := v.reg.setProg n f, ghost := g } := by
  have hc := Registry.core_of_find hp
  have hok := hb.progs n p.core hc
  have hother : ∀ {m c}, m ≠ n → Parked v m c →
      Parked { v with reg := v.reg.setProg n f, ghost := g } m c := by
    intro m c hm hk
    refine ⟨hk.state, hk.pid, hk.pending, hk.tasks, hk.requested, ?_, ?_⟩
    · rw [h.settling]
      exact hk.settling
    · rw [(h.others hm).2.2.1]
      exact hk.deleting
  constructor
  · intro m c hm
    rcases Registry.core_setProg hf hp hm with ⟨rfl, rfl⟩ | ⟨hne, hm⟩
    · exact completes_prog h hok (hi.progs _ _ hc)
    · exact (hi.progs m c hm).same (h.others hne).1.1 h.deleting_mono h.active fun _ => hother hne
  · refine hi.grants.keep ?_ (fun ha => ?_) ?_ (fun hq m c hm hk => ?_) fun m hm => ?_
    · rw [View.fresh, h.mark]
      rfl
    · exact ⟨ha.1, h.swapping.trans ha.2.1, h.acking.trans ha.2.2⟩
    · rw [h.saved]
      exact id
    · by_cases hmn : m = n
      · subst m
        cases hc.symm.trans hm
        exact ⟨_, Registry.core_setProg_self hf hp, hk.prog h hok (.inl hq)⟩
      · exact ⟨c, (Registry.core_setProg_ne hf hmn).trans hm, hother hmn hk⟩
    · rcases hm with hm | hm
      · have hmn : m ≠ n := by
          rintro rfl
          cases hm.symm.trans hc
        exact .inl ((Registry.core_setProg_ne hf hmn).trans hm)
      · exact .inr (h.deleting_mono hm)

theorem Parked.runtime (hk : Parked v n c) (hc : v.core n = some c) (h : RuntimeMove v rt)
    (hb : ¬v.Quiet ∨ n ∈ v.ghost.pendding) :
    Parked { v with reg := v.reg.setRuntime rt } n c := by
  refine ⟨hk.state, hk.pid, hk.pending, hk.tasks, Bool.eq_false_iff.2 fun hr => ?_, hk.settling,
    hk.deleting⟩
  have hoff : ¬v.requested n = true := Bool.eq_false_iff.1 hk.requested
  cases h with
  | idle m =>
    have hr' : (v.reg.dependencyRuntime.markIdle v.reg.dependencyGraph m).isRequested
        v.reg.dependencyGraph n = true := hr
    rw [DependencyRuntime.isRequested_markIdle, Bool.and_eq_true] at hr'
    exact hoff hr'.1
  | ready m hm hmay =>
    rcases DependencyRuntime.requested_markReady.1 hr with hr | ⟨rfl, -⟩
    · exact hoff hr
    · cases hc.symm.trans hm
      rcases hmay with hs | ⟨-, hl⟩ | ⟨-, -, hq, hn, -⟩
      · cases hk.state.symm.trans hs
      · exact hk.not_live hl
      · exact hb.elim (fun h => h hq) hn
  | failed m hm hflags =>
    rcases DependencyRuntime.isRequested_markFailed.1 hr with hr | ⟨rfl, -⟩
    · exact hoff hr
    · cases hc.symm.trans hm
      exact hk.not_flags hflags
  | closure m hseen hq ha ho =>
    rcases hb with hb | hb
    · exact hb hq
    · simp [ho.pendding] at hb

theorem answered_runtime (h : RuntimeMove v rt) (hi : Answered v) :
    Answered { v with reg := v.reg.setRuntime rt } := by
  refine ⟨fun m c hm => ?_, ?_⟩
  · exact (hi.progs m c hm).same id id id fun hn hk => hk.runtime hm h (.inr hn)
  · exact hi.grants.keep rfl id id (fun hq m c hm hk => ⟨c, hm, hk.runtime hm h (.inl hq)⟩)
      fun _ hm => hm

theorem Parked.ghost (hk : Parked v n c) (hs : g.settling = v.ghost.settling)
    (hd : g.deleting = v.ghost.deleting) : Parked { v with ghost := g } n c := by
  refine ⟨hk.state, hk.pid, hk.pending, hk.tasks, hk.requested, ?_, ?_⟩
  · rw [hs]
    exact hk.settling
  · rw [hd]
    exact hk.deleting

theorem answered_ghost (h : GhostMove v g) (hi : Answered v) : Answered { v with ghost := g } := by
  have hact : View.Active { v with ghost := g } → v.Active := h.active
  cases h with
  | settle n hc hp =>
    have hkeep : ∀ {m c}, v.core m = some c → Parked v m c →
        Parked { v with ghost := { v.ghost with settling := n :: v.ghost.settling } } m c := by
      intro m c hm hk
      refine ⟨hk.state, hk.pid, hk.pending, hk.tasks, hk.requested, fun hmem => ?_, hk.deleting⟩
      rcases List.mem_cons.1 hmem with rfl | hmem
      · cases hc.symm.trans hm
        cases hk.pending.symm.trans hp
      · exact hk.settling hmem
    exact ⟨fun m c hm => (hi.progs m c hm).same id id hact fun _ => hkeep hm,
      hi.grants.keep rfl id id (fun _ m c hm hk => ⟨c, hm, hkeep hm hk⟩) fun _ hm => hm⟩
  | settled n =>
    have hkeep : ∀ {m c}, Parked v m c →
        Parked { v with ghost := { v.ghost with settling := v.ghost.settling.erase n } } m c :=
      fun hk => ⟨hk.state, hk.pid, hk.pending, hk.tasks, hk.requested,
        fun hmem => hk.settling (List.mem_of_mem_erase hmem), hk.deleting⟩
    exact ⟨fun m c hm => (hi.progs m c hm).same id id hact fun _ => hkeep,
      hi.grants.keep rfl id id (fun _ m c hm hk => ⟨c, hm, hkeep hk⟩) fun _ hm => hm⟩
  | doom n _ _ _ hq ho =>
    refine ⟨fun m c hm => (hi.progs m c hm).same id (List.mem_cons_of_mem _) hact fun hn => ?_,
      .of_quiet (hq.of_fresh rfl rfl)⟩
    simp [ho.pendding] at hn
  | commit =>
    exact ⟨fun m c hm => (hi.progs m c hm).same id id hact fun _ hk => hk.ghost rfl rfl,
      hi.grants.keep rfl id (fun h => absurd rfl h) (fun _ m c hm hk => ⟨c, hm, hk.ghost rfl rfl⟩)
        fun _ hm => hm⟩
  | ack hq =>
    exact ⟨fun m c hm => (hi.progs m c hm).same id id hact fun _ hk => hk.ghost rfl rfl,
      .of_quiet (hq.of_fresh rfl rfl)⟩
  | acked hx =>
    have hq : v.Quiet := by
      by_contra hq
      cases (hi.grants.active hq).1.symm.trans hx
    exact ⟨fun m c hm => (hi.progs m c hm).same id id hact fun _ hk => hk.ghost rfl rfl,
      .of_quiet (hq.of_fresh rfl rfl)⟩
  | boundary mark hg =>
    refine ⟨fun m c hm => (hi.progs m c hm).same (by simp) (fun hn => ?_) hact fun hn => ?_,
      .of_quiet (View.quiet_boundary rfl)⟩
    · rw [hg] at hn
      exact hn
    · rw [hg] at hn
      simp at hn
  | _ =>
    exact ⟨fun m c hm => (hi.progs m c hm).same id id hact fun _ hk => hk.ghost rfl rfl,
      hi.grants.keep rfl id id (fun _ m c hm hk => ⟨c, hm, hk.ghost rfl rfl⟩) fun _ hm => hm⟩

theorem RegistryMove.deleting (h : RegistryMove v r g) (hm : m ∈ v.ghost.deleting)
    (hc : r.core m = some c) : m ∈ g.deleting := by
  cases h with
  | drop n => exact (List.mem_erase_of_ne (Registry.core_dropProg hc).1).2 hm
  | _ => exact hm

theorem RegistryMove.deleting_subset (h : RegistryMove v r g) (hm : m ∈ g.deleting) :
    m ∈ v.ghost.deleting := by
  cases h with
  | drop n => exact List.mem_of_mem_erase hm
  | _ => exact hm

theorem RegistryMove.active (h : RegistryMove v r g) (hb : Base v)
    (ha : View.Active { v with reg := r, ghost := g }) :
    v.Active ∨ ∀ n c, r.core n = some c → c.Pristine := by
  obtain ⟨hx, hw, hack⟩ := ha
  cases h with
  | rollback saved => exact .inl ⟨(Registry.rollback_exit saved).1.symm.trans hx, hw, hack⟩
  | quit => cases hx
  | beginSwap => cases hw
  | swap config _ hc =>
    refine .inr fun n c hn => ?_
    obtain ⟨p, hp, rfl⟩ := Registry.core_eq_some.1 hn
    exact ((hb.reload config hc).fresh p (Registry.mem_of_find hp)).pristine
  | _ => exact .inl ⟨hx, hw, hack⟩

theorem Parked.registry (hk : Parked v n c) (h : RegistryMove v r g) (hb : Base v)
    (hc : r.core n = some c) : Parked { v with reg := r, ghost := g } n c := by
  refine ⟨hk.state, hk.pid, hk.pending, hk.tasks, Bool.eq_false_iff.2 fun hr => ?_, ?_,
    fun hm => hk.deleting (h.deleting_subset hm)⟩
  · rcases h.requested hb hc hr with hr | hp
    · cases hk.requested.symm.trans hr
    · rcases hp.state with hs | hs
      · cases hk.state.symm.trans hs
      · cases hk.state.symm.trans hs
  · show n ∉ g.settling
    rw [h.loops.2.2.1]
    exact hk.settling

theorem completes_registry (h : RegistryMove v r g) (hb : Base v)
    (hi : ∀ n c, v.core n = some c → Completes v n c) (hc : r.core n = some c) :
    Completes { v with reg := r, ghost := g } n c := by
  rcases h.core hb hc with hc' | hp
  · by_cases hq : c.Unqueued
    · exact .of_unqueued hq
    · refine (hi n c hc').same ?_ (fun hm => h.deleting hm hc) (fun ha => ?_) fun _ hk =>
        hk.registry h hb hc
      · show n ∈ g.pendding → _
        rw [h.loops.1]
        exact id
      · rcases h.active hb ha with ha | hp
        · exact ha
        · exact absurd (Core.unqueued_of_nil (hp n c hc).tasks) hq
  · exact .of_unqueued (Core.unqueued_of_nil hp.tasks)

theorem grants_registry (h : RegistryMove v r g) (hb : Base v) (hi : Grants v) :
    Grants { v with reg := r, ghost := g } := by
  by_cases hq : v.Quiet
  · exact .of_quiet (hq.of_fresh rfl h.loops.2.2.2.2)
  have ha := hi.active hq
  have hkeep : ∀ {n c}, Parked v n c → r.core n = some c →
      ∃ c', r.core n = some c' ∧ Parked { v with reg := r, ghost := g } n c' :=
    fun hk hc => ⟨_, hc, hk.registry h hb hc⟩
  cases h with
  | add _ _ _ _ _ hq' => exact absurd hq' hq
  | rollback saved hs => exact absurd (hi.saved (by simp [hs])) hq
  | drop n hn hs =>
    refine hi.keep rfl id id (fun _ m c hm hk => hkeep hk ?_) fun m hm => ?_
    · have hne : m ≠ n := by
        rintro rfl
        exact hk.deleting hn
      exact (Registry.core_dropProg_ne hne).trans hm
    · by_cases hne : m = n
      · subst m
        refine .inl (Option.eq_none_iff_forall_ne_some.2 fun c hc => ?_)
        exact (Registry.core_dropProg hc).1 rfl
      · exact hm.imp (Registry.core_dropProg_ne hne).trans (List.mem_erase_of_ne hne).2
  | quit _ _ _ hq' => exact absurd hq' hq
  | beginSwap _ hx => cases ha.1.symm.trans hx
  | swap _ hw => cases ha.2.1.symm.trans hw
  | spawnAll hf =>
    refine hi.keep rfl id id (fun _ m c hm hk => ?_) fun m hm => hm.imp_left fun hm => ?_
    · cases hk.state.symm.trans (hf m c hm).2.2.2.2.2
    · refine Option.eq_none_iff_forall_ne_some.2 fun c hc => ?_
      obtain ⟨c₀, hc₀, -⟩ := Registry.core_spawnAll hc
      cases hm.symm.trans hc₀
  | _ => exact hi.keep rfl id id (fun _ m c hm hk => hkeep hk hm) fun _ hm => hm

theorem answered_registry (h : RegistryMove v r g) (hb : Base v) (hi : Answered v) :
    Answered { v with reg := r, ghost := g } :=
  ⟨fun _ _ hc => completes_registry h hb hi.progs hc, grants_registry h hb hi.grants⟩

theorem Answers.stop {id : Nat} (h : Answers v n (.stopProc id) (.stopIdle n))
    (hK : ∀ e ∈ v.trace, TreeGone e) (hi : Answered v) :
    ∃ c, v.core n = some c ∧ Parked v n c ∧ c.Gone := by
  obtain ⟨-, -, hset, c, hc, ⟨site, hseen, hq, hsite, hreap⟩ | hidle⟩ := h
  · have hcomp := hi.progs n c hc
    cases site with
    | reaper => exact ⟨c, hc, hcomp.parked (hreap rfl) id hq, hcomp.reaped (hreap rfl) _ hq⟩
    | poll => exact (hK _ hseen).elim
    | quit => exact absurd rfl hsite
  · obtain ⟨hpid, r, p, hr, hp, ht, hs, htasks, hpend, hreq, hdel⟩ := hidle
    refine ⟨c, hc, ⟨hs, hpid, hpend, fun t hq => ?_, hreq, by simp [hset], hdel⟩, hpid, ?_⟩
    · exact absurd hq (Core.unqueued_of_nil htasks t)
    · rw [← ht]
      exact hK _ hr p hp

theorem Answers.remove {id : Nat} (h : Answers v n (.deleteProg id) (.removeIdle n))
    (hK : ∀ e ∈ v.trace, TreeGone e) (hi : Answered v) :
    ∃ c, v.core n = some c ∧ n ∈ v.ghost.deleting ∧ c.Gone := by
  obtain ⟨ha, -, -, c, hc, ⟨site, hseen, hq, hsite, hreap⟩ | hidle⟩ := h
  · have hcomp := hi.progs n c hc
    cases site with
    | reaper => exact ⟨c, hc, hcomp.doomed ha (hreap rfl) id hq, hcomp.reaped (hreap rfl) _ hq⟩
    | poll => exact (hK _ hseen).elim
    | quit => exact absurd rfl hsite
  · obtain ⟨hpid, r, p, hr, hp, ht, hdel⟩ := hidle
    refine ⟨c, hc, hdel, hpid, ?_⟩
    rw [← ht]
    exact hK _ hr p hp

theorem Fits.granted (h : Fits v call) (hg : call.Granted) : v.Active ∧ v.ghost.saved = none := by
  cases call with
  | answer frame =>
    obtain ⟨id, type, rid, request, reply⟩ := frame
    cases request with
    | stop n => exact ⟨(h hg).1, (h hg).2.1⟩
    | remove n => exact ⟨(h hg).1, (h hg).2.1⟩
    | _ => exact hg.elim
  | _ => exact hg.elim

theorem Fits.stop_granted (h : Fits v call) (hg : call.StopGranted n)
    (hK : ∀ e ∈ v.trace, TreeGone e) (hi : Answered v) :
    ∃ c, v.core n = some c ∧ Parked v n c ∧ c.Gone := by
  cases call with
  | answer frame =>
    obtain ⟨id, type, rid, request, reply⟩ := frame
    cases request with
    | stop m =>
      obtain ⟨rfl, hs⟩ := hg
      exact (h hs).stop hK hi
    | _ => exact hg.elim
  | _ => exact hg.elim

theorem Fits.remove_granted (h : Fits v call) (hg : call.RemoveGranted n)
    (hK : ∀ e ∈ v.trace, TreeGone e) (hi : Answered v) :
    ∃ c, v.core n = some c ∧ n ∈ v.ghost.deleting ∧ c.Gone := by
  cases call with
  | answer frame =>
    obtain ⟨id, type, rid, request, reply⟩ := frame
    cases request with
    | remove m =>
      obtain ⟨rfl, hs⟩ := hg
      exact (h hs).remove hK hi
    | _ => exact hg.elim
  | _ => exact hg.elim

theorem Parked.log (hk : Parked v n c) : Parked { v with trace := e :: v.trace } n c :=
  ⟨hk.state, hk.pid, hk.pending, hk.tasks, hk.requested, hk.settling, hk.deleting⟩

theorem grants_log (h : Fits v call) (hK : ∀ e ∈ v.trace, TreeGone e) (hi : Answered v) :
    Grants { v with trace := ⟨call, v.reg⟩ :: v.trace } := by
  refine ⟨fun hq => ?_, fun hs => ?_, fun n e he hg => ?_, fun n e he hg => ?_, fun n e he hg => ?_⟩
  · by_cases hgr : call.Granted
    · exact (h.granted hgr).1
    · exact hi.grants.active fun hq' => hq (hq'.cons hgr)
  · refine (hi.grants.saved hs).cons fun hgr => ?_
    exact hs (h.granted hgr).2
  · rcases View.mem_fresh_cons he with rfl | he
    · obtain ⟨c, hc, hk, -⟩ := h.stop_granted hg hK hi
      exact ⟨c, hc, hk.log⟩
    · obtain ⟨c, hc, hk⟩ := hi.grants.stopped n e he hg
      exact ⟨c, hc, hk.log⟩
  · rcases View.mem_fresh_cons he with rfl | he
    · obtain ⟨c, -, hd, -⟩ := h.remove_granted hg hK hi
      exact .inr hd
    · exact hi.grants.removed n e he hg
  · rcases View.mem_fresh_cons he with rfl | he
    · rcases hg with hg | hg
      · obtain ⟨c, hc, -, hgone⟩ := h.stop_granted hg hK hi
        exact ⟨c, hc, hgone⟩
      · obtain ⟨c, hc, -, hgone⟩ := h.remove_granted hg hK hi
        exact ⟨c, hc, hgone⟩
    · exact hi.grants.gone n e he hg

theorem answered_move (h : Move v v') (hb : Base v) (hK : ∀ e ∈ v'.trace, TreeGone e)
    (hi : Answered v) : Answered v' := by
  cases h with
  | prog hf hp h => exact answered_prog hf hp h hb hi
  | runtime h => exact answered_runtime h hi
  | ghost h => exact answered_ghost h hi
  | registry h => exact answered_registry h hb hi
  | log call h =>
    refine ⟨fun n c hc => (hi.progs n c hc).same id id id fun _ hk => hk.log, ?_⟩
    exact grants_log h (fun e he => hK e (List.mem_cons_of_mem _ he)) hi

theorem answered_loaded (h : Server.Loaded v) : Answered v := by
  refine ⟨fun n c hc => .of_unqueued (Core.unqueued_of_nil (h.fresh n c hc).pristine.tasks),
    .of_quiet (View.quiet_boundary ?_)⟩
  rw [h.ghost, h.trace]
  rfl

/-- The calls recorded by the handling of one input. -/
def Server.recorded (ω : System) (input : Input) (s : Server) : List Event :=
  (s.step ω input).history.take ((s.step ω input).history.length - s.history.length)

/-- A stop or delete request is answered with success only when nothing is left of the program, and
at the end of the handling the program is stopped for good, respectively unregistered. -/
theorem success_answers_final {id : Nat} (h : Server.Reachable ω s)
    (hK : ∀ e ∈ (s.step ω input).history, TreeGone e)
    (he : ⟨.answer ⟨id, type, rid, request, reply⟩, r⟩ ∈ s.recorded ω input)
    (hs : reply.status = 0) :
    (∀ n, request = .stop n → (∃ p, r.findProg n = some p ∧ p.inst.pid = none ∧
        p.inst.tree.isEmpty = true) ∧ ∃ p, (s.step ω input).findProg n = some p ∧
          p.state = .stoped ∧ p.restartPending = false) ∧
      ∀ n, request = .remove n → (∃ p, r.findProg n = some p ∧ p.inst.pid = none ∧
        p.inst.tree.isEmpty = true) ∧ (s.step ω input).findProg n = none := by
  have hmoves := Server.step_moves (ω := ω) input h.base
  have hstart : Answered s.boundary :=
    h.invariant (fun _ _ hm hb hK hi => answered_move hm hb hK hi)
    (fun _ => answered_loaded) fun e he => hK e (hmoves.trace_subset he)
  have hend : Answered ((s.step ω input).view { mark := s.history.length }) :=
    hmoves.invariant (fun _ _ hm hb hK hi => answered_move hm hb hK hi) h.base hK hstart
  have hgone : ∀ {n}, (∃ c, r.core n = some c ∧ c.Gone) →
      ∃ p, r.findProg n = some p ∧ p.inst.pid = none ∧ p.inst.tree.isEmpty = true := by
    rintro n ⟨c, hc, hg⟩
    obtain ⟨p, hp, rfl⟩ := Registry.core_eq_some.1 hc
    exact ⟨p, hp, hg⟩
  constructor
  · rintro n rfl
    refine ⟨hgone (hend.grants.gone n _ he (.inl ⟨rfl, hs⟩)), ?_⟩
    obtain ⟨c, hc, hk⟩ := hend.grants.stopped n _ he ⟨rfl, hs⟩
    obtain ⟨p, hp, rfl⟩ := Registry.core_eq_some.1 hc
    exact ⟨p, hp, hk.state, hk.pending⟩
  · rintro n rfl
    refine ⟨hgone (hend.grants.gone n _ he (.inr ⟨rfl, hs⟩)), ?_⟩
    rcases hend.grants.removed n _ he ⟨rfl, hs⟩ with hc | hd
    · exact Option.map_eq_none_iff.1 hc
    · cases hd

theorem success_answers_final_reaped : ∃ s r,
    Server.Reachable (simpleSystem [{ name := "p" }] []) s ∧
      (∀ e ∈ (s.step (simpleSystem [{ name := "p" }] [])
        (.maintenance false (some [(101, 0)]))).history, TreeGone e) ∧
      ⟨.answer ⟨1, 0, 1, .stop "p", ⟨0, "success", .none⟩⟩, r⟩ ∈
        s.recorded (simpleSystem [{ name := "p" }] []) (.maintenance false (some [(101, 0)])) ∧
      (∃ p, r.findProg "p" = some p ∧ p.inst.pid = none ∧ p.inst.tree.isEmpty = true) ∧
      ∃ p, (s.step (simpleSystem [{ name := "p" }] [])
        (.maintenance false (some [(101, 0)]))).findProg "p" = some p ∧
        p.state = .stoped ∧ p.restartPending = false := by
  let ω := simpleSystem [{ name := "p" }] []
  let input := Input.maintenance false (some [(101, 0)])
  obtain ⟨s, hreach, hs⟩ := Server.runFrom_any (ω := ω)
    [.connect 1 none, .request 1 0 1 (.stop "p")]
    (fun s => ((s.recorded ω input).any fun e =>
        e.call = .answer ⟨1, 0, 1, .stop "p", ⟨0, "success", .none⟩⟩) &&
      (s.step ω input).history.map (·.call) =
        [.answer ⟨1, 0, 1, .stop "p", ⟨0, "success", .none⟩⟩,
          .runTask "p" (.stopProc 1) .reaper, .signalTree "p" .term,
          .realSpawnProg "p" .runtime, .spawn0 ["p"]])
    (by decide +kernel)
  rw [Bool.and_eq_true, List.any_eq_true] at hs
  obtain ⟨⟨⟨call, r⟩, he, hcall⟩, hcalls⟩ := hs
  cases of_decide_eq_true hcall
  have hK : ∀ e ∈ (s.step ω input).history, TreeGone e := by
    intro e hmem
    have hmem' := List.mem_map_of_mem (f := (·.call)) hmem
    rw [of_decide_eq_true hcalls] at hmem'
    unfold TreeGone
    simp only [List.mem_cons, List.not_mem_nil, or_false] at hmem'
    rcases hmem' with h | h | h | h | h <;> rw [h] <;> trivial
  exact ⟨s, r, hreach, hK, he, (success_answers_final hreach hK he rfl).1 "p" rfl⟩

/-- A stop is answered while a descendant is left, and a delete whose program drains is answered
while the program stays registered. -/
theorem success_before_gone :
    (∃ s r p, Server.Reachable
        (simpleSystem [{ name := "p", daemon := false, startTimeout := 60 }] [7]) s ∧
      ⟨.answer ⟨1, 0, 1, .stop "p", ⟨0, "success", .none⟩⟩, r⟩ ∈ s.history ∧
      r.findProg "p" = some p ∧ p.inst.tree.isEmpty = false) ∧
    ∃ s p, Server.Reachable
        { simpleSystem [{ name := "p", startTimeout := 60 }] [] with
          members := fun t _ => if t < 12 then [7] else [] } s ∧
      (s.history.head?.map fun e => e.call) =
        some (.answer ⟨1, 0, 1, .remove "p", ⟨0, "success", .none⟩⟩) ∧
      s.findProg "p" = some p ∧ p.state = .requestStop := by
  constructor
  · obtain ⟨s, hreach, hs⟩ := Server.runFrom_any
      (ω := simpleSystem [{ name := "p", daemon := false, startTimeout := 60 }] [7])
      [.connect 1 none, .maintenance false (some [(101, 0)]), .request 1 0 1 (.stop "p")]
      (fun s => s.history.any fun e =>
        e.call = .answer ⟨1, 0, 1, .stop "p", ⟨0, "success", .none⟩⟩ &&
          (e.reg.findProg "p").any fun p => p.inst.tree.isEmpty = false)
      (by decide +kernel)
    obtain ⟨⟨call, r⟩, he, hcall⟩ := List.any_eq_true.1 hs
    rw [Bool.and_eq_true, Option.any_eq_true] at hcall
    obtain ⟨hcall, p, hp, ht⟩ := hcall
    cases of_decide_eq_true hcall
    exact ⟨s, r, p, hreach, he, hp, of_decide_eq_true ht⟩
  · obtain ⟨s, hreach, hs⟩ := Server.runFrom_any
      (ω := { simpleSystem [{ name := "p", startTimeout := 60 }] [] with
        members := fun t _ => if t < 12 then [7] else [] })
      [.connect 1 none, .request 1 0 1 (.remove "p"), .maintenance false (some [(101, 0)]),
        .maintenance false none]
      (fun s => (s.history.head?.map fun e => e.call) =
          some (.answer ⟨1, 0, 1, .remove "p", ⟨0, "success", .none⟩⟩) &&
        (s.findProg "p").any fun p => p.state = .requestStop)
      (by decide +kernel)
    rw [Bool.and_eq_true, Option.any_eq_true] at hs
    obtain ⟨hhead, p, hp, hstate⟩ := hs
    exact ⟨s, p, hreach, of_decide_eq_true hhead, hp, of_decide_eq_true hstate⟩

end PmTiny
