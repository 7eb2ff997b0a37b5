import PmTiny.Trace.Requests

namespace PmTiny
set_option autoImplicit true

namespace ProgInfo

variable {p : ProgInfo}

theorem core_reapDraining (p : ProgInfo) (nowMs lifeTime drainMs : Int) :
    ∃ job extra, (p.reapDraining nowMs lifeTime drainMs).2.core = { p.core with
        pid := none, job := job, state := .requestStop, tasks := p.core.tasks ++ extra } ∧
      (extra = [] ∨ p.core.state.terminating = false ∧
        ∃ nowMs lifeTime, extra = [⟨p.core.gen, .planRestart nowMs lifeTime⟩]) := by
  unfold reapDraining
  dsimp only
  split
  · rename_i h
    rw [Bool.and_eq_true, Bool.not_eq_true'] at h
    exact ⟨_, [⟨p.core.gen, .planRestart nowMs lifeTime⟩], rfl, .inr ⟨h.2, _, _, rfl⟩⟩
  · refine ⟨(p.clearPid.markTreeDraining drainMs).2.inst.job, [], ?_, .inl rfl⟩
    rw [List.append_nil]
    rfl

theorem core_reapExited_of_terminating (nowMs lifeTime : Int) (h : p.state.terminating = true) :
    (p.reapExited nowMs lifeTime).core = { p.core with
      pid := none, tree := {}, state :=
        if p.core.state = .requestStop then .stoped else .exit } := by
  have hn : p.clearPid.cleanup.normalExit = true := by
    rw [normalExit]
    exact Bool.or_eq_true_iff.2 (.inl h)
  unfold reapExited
  dsimp only
  rw [if_pos hn]
  rfl

theorem core_reapExited_of_not_terminating (nowMs lifeTime : Int)
    (h : p.state.terminating = false) :
    ∃ state pending, (p.reapExited nowMs lifeTime).core = { p.core with
        pid := none, tree := {}, state := state, pending := pending } ∧
      (state = .waitingStart ∨ state = .stoped ∨ state = .exit) := by
  unfold reapExited
  dsimp only
  split
  · have hs : p.clearPid.cleanup.state ≠ .requestStop := (ProgState.terminating_eq_false.1 h).1
    rw [if_neg hs]
    exact ⟨.exit, p.restartPending, rfl, .inr (.inr rfl)⟩
  · split
    · exact ⟨.waitingStart, _, rfl, .inl rfl⟩
    · exact ⟨.stoped, _, rfl, .inr (.inl rfl)⟩

end ProgInfo

namespace Server

variable {s s' s'' : Server} {ω : System} {g g' : Ghost} {id : Nat}

theorem calm_markDependencyStopped (hs : g.saved = none) :
    Calm (s.view g) ((s.markDependencyStopped n).view g) :=
  Calm.runtime (v := s.view g) (.idle n hs)

/-- A child before its program is rewritten: noted down, detached and its tree looked at. -/
structure Noted (s s' : Server) (n : String) (p p' : ProgInfo) : Prop where
  calm : ∀ g : Ghost, g.saved = none → Calm (s.view g) (s'.view g)
  found : s'.findProg n = some p'
  core : p'.core = { p.core with tree := p'.core.tree }
  others : ∀ m ≠ n, s'.findProg m = s.findProg m
  requested : ∀ m, s'.requested m = (s.requested m && decide (m ≠ n))

theorem noted (hp : s.findProg n = some p) (nowMs unixMs : Int) (wstatus : Nat) :
    ∃ p', Noted s (((((s.markDependencyStopped n).setProg n fun p =>
        p.noteExit nowMs unixMs wstatus).tick.detachSessions ω n).isTreeEmpty ω n).2) n p p' ∧
      (((((s.markDependencyStopped n).setProg n fun p =>
        p.noteExit nowMs unixMs wstatus).tick.detachSessions ω n).isTreeEmpty ω n).1) =
          p'.core.tree.isEmpty := by
  let f : ProgInfo → ProgInfo := fun p => p.noteExit nowMs unixMs wstatus
  let s₁ := (s.markDependencyStopped n).setProg n f
  have hcount : ∀ p : ProgInfo, (p.updateCountTimer nowMs).core = p.core ∧
      (p.updateCountTimer nowMs).name = p.name ∧
      (p.updateCountTimer nowMs).dependsOn = p.dependsOn := by
    intro p
    unfold ProgInfo.updateCountTimer
    split <;> exact ⟨rfl, rfl, rfl⟩
  have hf : Keeps f := fun p => ⟨(hcount p).2.1, (hcount p).2.2⟩
  have hcore : ∀ p, (f p).core = p.core := fun p => (hcount p).1
  have htalks : Talks s₁.tick (s₁.tick.detachSessions ω n) := talks_detachSessions
  have hp₁ : s₁.findProg n = some (f p) := findProg_setProg hf hp
  obtain ⟨p', hp', hobs, hempty⟩ := findProg_isTreeEmpty (ω := ω) (htalks.find.trans hp₁)
  refine ⟨p', ⟨fun g hs => ?_, hp', ?_, fun m hm => ?_, fun m => ?_⟩, hempty⟩
  · exact ((calm_markDependencyStopped hs).trans (calm_touch hf hcore)).trans
      ((htalks.calm g).trans calm_isTreeEmpty)
  · rw [hobs]
    have := hcore p
    unfold ProgInfo.core at this ⊢
    simp only [ProgInfo.observe, Core.mk.injEq] at this ⊢
    exact ⟨this.1, this.2.1, trivial, this.2.2.2⟩
  · refine (findProg_setProg_ne (keeps_observe _) hm).trans (htalks.find.trans ?_)
    exact findProg_setProg_ne (s := s.markDependencyStopped n) hf hm
  · show Registry.requested (Registry.setProg _ _ _) m = _
    show ((s₁.tick.detachSessions ω n).toRegistry).requested m = _
    rw [htalks.reg]
    exact requested_markDependencyStopped (s := s)

def reapGhost (reaped : Reaped) (mark : Nat) : Ghost :=
  { pendding := reaped.penddingtaskProgs, deleting := reaped.deletingProgs, mark := mark }

inductive ReapStep (acc : Reaped × Server) (p : ProgInfo) (mark : Nat) : Reaped × Server → Prop
  | draining (s' : Server)
      (h : Calm (acc.2.view (reapGhost acc.1 mark)) (s'.view (reapGhost acc.1 mark)))
      (ho : ∀ m ≠ p.name, s'.findProg m = acc.2.findProg m)
      (hr : ∀ m, s'.requested m = (acc.2.requested m && decide (m ≠ p.name))) :
      ReapStep acc p mark (acc.1, s')
  | exited (s' : Server) (p' : ProgInfo) (reaped : Reaped) (unlocks : Bool)
      (hu : unlocks = true → p.state = .starting)
      (hreaped : reaped =
        { startingProg := acc.1.startingProg ++ if unlocks then [p.name] else []
          penddingtaskProgs := acc.1.penddingtaskProgs ++
            if p.state.terminating then [p.name] else []
          deletingProgs :=
            acc.1.deletingProgs ++ if p.state = .requestDelete then [p.name] else [] })
      (h : Calm (acc.2.view (reapGhost acc.1 mark)) (s'.view (reapGhost reaped mark)))
      (hp : s'.findProg p.name = some p') (hg : p'.core.Gone)
      (ho : ∀ m ≠ p.name, s'.findProg m = acc.2.findProg m)
      (hr : ∀ m, s'.requested m = (acc.2.requested m && decide (m ≠ p.name))) :
      ReapStep acc p mark (reaped, s')

theorem keeps_reapDraining (nowMs lifeTime drainMs : Int) :
    Keeps fun p => (p.reapDraining nowMs lifeTime drainMs).2 := by
  intro q
  simp only [ProgInfo.reapDraining, ProgInfo.markTreeDraining, ProgInfo.withJob, ProgInfo.setState,
    ProgInfo.setTermination]
  split <;> exact ⟨rfl, rfl⟩

theorem keeps_reapExited (nowMs lifeTime : Int) : Keeps fun p => p.reapExited nowMs lifeTime := by
  intro q
  unfold ProgInfo.reapExited
  dsimp only
  split
  · exact ⟨rfl, rfl⟩
  · split <;> exact ⟨rfl, rfl⟩

theorem reapExited_calm (hp : s.findProg n = some p) (hl : p.live = true)
    (hr : s.requested n = false) (hs : g.saved = none) (ha : g.accepted = [])
    (hset : g.settling = []) (hn : n ∉ g.pendding ∧ n ∉ g.deleting) (nowMs lifeTime : Int) :
    Calm (s.view g) ((s.setProg n fun p => p.reapExited nowMs lifeTime).view { g with
      pendding := g.pendding ++ if p.state.terminating then [n] else []
      deleting := g.deleting ++ if p.state = .requestDelete then [n] else [] }) := by
  refine Calm.prog (v := s.view g) (keeps_reapExited nowMs lifeTime) hp ?_
  cases ht : p.state.terminating with
  | true =>
    rw [ProgInfo.core_reapExited_of_terminating nowMs lifeTime ht]
    exact .reapStopped hl hr hs ha hset hn ht
  | false =>
    obtain ⟨state, pending, hcore, hst⟩ :=
      ProgInfo.core_reapExited_of_not_terminating nowMs lifeTime ht
    rw [hcore]
    have hnd : p.state ≠ .requestDelete := (ProgState.terminating_eq_false.1 ht).2
    simp only [Bool.false_eq_true, if_false, if_neg hnd, List.append_nil]
    exact .reapExited state pending hl hr hs ha ht hst

theorem gone_reapExited (p : ProgInfo) (nowMs lifeTime : Int) :
    (p.reapExited nowMs lifeTime).core.Gone := by
  cases ht : p.state.terminating with
  | true =>
    rw [ProgInfo.core_reapExited_of_terminating nowMs lifeTime ht]
    exact ⟨rfl, rfl⟩
  | false =>
    obtain ⟨state, pending, hcore, -⟩ :=
      ProgInfo.core_reapExited_of_not_terminating nowMs lifeTime ht
    rw [hcore]
    exact ⟨rfl, rfl⟩

theorem Noted.state (h : Noted s s' n p p') : p'.core.state = p.core.state := by rw [h.core]

theorem Noted.live (h : Noted s s' n p p') (hl : p.live = true) : p'.live = true := by
  have hpid : p'.core.pid = p.core.pid := by rw [h.core]
  exact (congrArg Option.isSome hpid).trans hl

theorem Noted.drain {acc : Reaped × Server} (h : Noted acc.2 s p.name p p') (hl : p.live = true)
    (hn : p.name ∉ acc.1.penddingtaskProgs) (ht : p'.core.tree.isEmpty = false)
    (nowMs lifeTime drainMs : Int) (mark : Nat)
    (htalks : Talks (s.setProg p.name fun p => (p.reapDraining nowMs lifeTime drainMs).2).tick s') :
    ReapStep acc p mark (acc.1, s') := by
  have hf := keeps_reapDraining nowMs lifeTime drainMs
  have hreq : s.requested p.name = false := (h.requested p.name).trans (by simp)
  refine .draining _ (((h.calm (reapGhost acc.1 mark) rfl).trans
    (calm_setProg hf fun q hq => ?_)).trans (htalks.calm _))
    (fun m hm => htalks.find.trans ((findProg_setProg_ne hf hm).trans (h.others m hm)))
    (fun m => (congrArg (fun r : Registry => r.requested m) htalks.reg).trans (h.requested m))
  cases h.found.symm.trans hq
  obtain ⟨job, extra, hcore, hextra⟩ := p'.core_reapDraining nowMs lifeTime drainMs
  rw [hcore]
  exact .reapDrain job extra (h.live hl) ht hreq rfl rfl hn hextra

theorem Noted.exit {acc : Reaped × Server} (h : Noted acc.2 s p.name p p') (hl : p.live = true)
    (hn : p.name ∉ acc.1.penddingtaskProgs ∧ p.name ∉ acc.1.deletingProgs)
    (nowMs lifeTime : Int) (mark : Nat) :
    ReapStep acc p mark
      ({ startingProg := acc.1.startingProg ++
          if p.unlocksOnExit nowMs lifeTime then [p.name] else []
         penddingtaskProgs :=
           acc.1.penddingtaskProgs ++ if p.state.terminating then [p.name] else []
         deletingProgs :=
           acc.1.deletingProgs ++ if p.state = .requestDelete then [p.name] else [] },
        s.setProg p.name fun p => p.reapExited nowMs lifeTime) := by
  have hf := keeps_reapExited nowMs lifeTime
  have hreq : s.requested p.name = false := (h.requested p.name).trans (by simp)
  have hcalm := reapExited_calm h.found (h.live hl) hreq (g := reapGhost acc.1 mark) rfl rfl
    rfl hn nowMs lifeTime
  rw [show p'.state = p.state from h.state] at hcalm
  refine .exited _ _ _ _ (fun hu => ?_) rfl ((h.calm (reapGhost acc.1 mark) rfl).trans hcalm)
    (findProg_setProg hf h.found) (gone_reapExited p' nowMs lifeTime)
    (fun m hm => (findProg_setProg_ne hf hm).trans (h.others m hm)) h.requested
  unfold ProgInfo.unlocksOnExit at hu
  rw [Bool.and_eq_true] at hu
  exact of_decide_eq_true hu.1

theorem reapProg_step {acc : Reaped × Server} (hp : acc.2.findProg p.name = some p)
    (hl : p.live = true)
    (hlisted : p.name ∉ acc.1.penddingtaskProgs ∧ p.name ∉ acc.1.deletingProgs)
    (wstatus mark : Nat) : ReapStep acc p mark (reapProg ω acc p wstatus) := by
  unfold reapProg
  dsimp only
  obtain ⟨p₃, hn, hempty⟩ := noted (ω := ω) hp (ω.clock (acc.2.markDependencyStopped p.name).ticks)
    (ω.unixTime (acc.2.markDependencyStopped p.name).ticks) wstatus
  rw [hempty]
  split
  · rename_i hne
    have ht : p₃.core.tree.isEmpty = false := by simpa using hne
    have hsignal (s : Server) : Talks s (s.signalTree p.name .term) :=
      ⟨rfl, fun _ => calm_record trivial fun h => h⟩
    split
    · exact hn.drain hl hlisted.1 ht _ _ _ mark (hsignal _)
    · exact hn.drain hl hlisted.1 ht _ _ _ mark (.refl _)
  · exact hn.exit hl hlisted _ _ mark

/-- The listed programs are gone and no longer requested, and none is listed twice. -/
structure Reaping (acc : Reaped × Server) : Prop where
  gone : ∀ n, n ∈ acc.1.startingProg ∨ n ∈ acc.1.penddingtaskProgs ∨ n ∈ acc.1.deletingProgs →
    ∃ p, acc.2.findProg n = some p ∧ p.core.Gone ∧ acc.2.requested n = false
  starting : ∀ n ∈ acc.1.startingProg, n ∉ acc.1.penddingtaskProgs ∧ n ∉ acc.1.deletingProgs ∧
    acc.2.serverExit = false

theorem Reaping.not_listed {acc : Reaped × Server} (hi : Reaping acc)
    (hp : acc.2.findProg n = some p) (hl : p.live = true) :
    ¬(n ∈ acc.1.startingProg ∨ n ∈ acc.1.penddingtaskProgs ∨ n ∈ acc.1.deletingProgs) := by
  intro hn
  obtain ⟨q, hq, hg, -⟩ := hi.gone n hn
  cases hp.symm.trans hq
  simp [ProgInfo.live, show p.inst.pid = none from hg.1] at hl

theorem ReapStep.calm {acc acc' : Reaped × Server} (h : ReapStep acc p mark acc') :
    Calm (acc.2.view (reapGhost acc.1 mark)) (acc'.2.view (reapGhost acc'.1 mark)) := by
  cases h with
  | draining s' h => exact h
  | exited s' p' reaped unlocks hu hreaped h => exact h

theorem ReapStep.reaping {acc acc' : Reaped × Server} (h : ReapStep acc p mark acc')
    (hb : Base (acc.2.view (reapGhost acc.1 mark))) (hp : acc.2.findProg p.name = some p)
    (hl : p.live = true) (hi : Reaping acc) : Reaping acc' := by
  have hne : ∀ n, n ∈ acc.1.startingProg ∨ n ∈ acc.1.penddingtaskProgs ∨
      n ∈ acc.1.deletingProgs → n ≠ p.name := by
    rintro n hn rfl
    exact hi.not_listed hp hl hn
  have hexit := h.calm.exit
  cases h with
  | draining s' h ho hr =>
    refine ⟨fun n hn => ?_, fun n hn => ?_⟩
    · obtain ⟨q, hq, hg, hreq⟩ := hi.gone n hn
      refine ⟨q, (ho n (hne n hn)).trans hq, hg, (hr n).trans ?_⟩
      rw [hreq]
      rfl
    · obtain ⟨h₁, h₂, hx⟩ := hi.starting n hn
      exact ⟨h₁, h₂, hexit.trans hx⟩
  | exited s' p' reaped unlocks hu hreaped h hp' hg' ho hr =>
    subst hreaped
    have hold : ∀ n, n ∈ acc.1.startingProg ∨ n ∈ acc.1.penddingtaskProgs ∨
        n ∈ acc.1.deletingProgs →
        ∃ p, s'.findProg n = some p ∧ p.core.Gone ∧ s'.requested n = false := by
      intro n hn
      obtain ⟨q, hq, hg, hreq⟩ := hi.gone n hn
      refine ⟨q, (ho n (hne n hn)).trans hq, hg, (hr n).trans ?_⟩
      rw [hreq]
      rfl
    have hnew : ∃ q, s'.findProg p.name = some q ∧ q.core.Gone ∧ s'.requested p.name = false :=
      ⟨p', hp', hg', (hr p.name).trans (by simp)⟩
    have hif : ∀ {n : String} {b : Prop} [Decidable b], n ∈ (if b then [p.name] else []) →
        n = p.name ∧ b := by
      intro n b _ hn
      split at hn
      · exact ⟨List.mem_singleton.1 hn, ‹b›⟩
      · simp at hn
    constructor
    · rintro n (hn | hn | hn)
      · rcases List.mem_append.1 hn with hn | hn
        · exact hold n (.inl hn)
        · exact (hif hn).1 ▸ hnew
      · rcases List.mem_append.1 hn with hn | hn
        · exact hold n (.inr (.inl hn))
        · exact (hif hn).1 ▸ hnew
      · rcases List.mem_append.1 hn with hn | hn
        · exact hold n (.inr (.inr hn))
        · exact (hif hn).1 ▸ hnew
    · intro n hn
      rcases List.mem_append.1 hn with hn | hn
      · obtain ⟨h₁, h₂, hx⟩ := hi.starting n hn
        have hnp := hne n (.inl hn)
        refine ⟨fun hm => ?_, fun hm => ?_, hexit.trans hx⟩
        · exact (List.mem_append.1 hm).elim h₁ fun hm => hnp (hif hm).1
        · exact (List.mem_append.1 hm).elim h₂ fun hm => hnp (hif hm).1
      · -- a program that was starting is in none of the other lists
        obtain ⟨rfl, hunlock⟩ := hif hn
        have hs := hu hunlock
        have hx : acc.2.serverExit = false := by
          by_contra hx
          have := hb.starting (Bool.eq_true_of_not_eq_false hx) _ p.core
            (Registry.core_of_find hp) hs
          simp [view, reapGhost] at this
        refine ⟨fun hm => ?_, fun hm => ?_, hexit.trans hx⟩
        · rcases List.mem_append.1 hm with hm | hm
          · exact hne _ (.inr (.inl hm)) rfl
          · have := (hif hm).2
            simp [hs] at this
        · rcases List.mem_append.1 hm with hm | hm
          · exact hne _ (.inr (.inr hm)) rfl
          · have := (hif hm).2
            simp [hs] at this

theorem reapFold_calm (children : List (Nat × Nat)) (acc : Reaped × Server)
    (hb : Base (acc.2.view (reapGhost acc.1 mark))) (hi : Reaping acc) :
    Calm (acc.2.view (reapGhost acc.1 mark))
        ((children.foldl (reapChild ω) acc).2.view
          (reapGhost (children.foldl (reapChild ω) acc).1 mark)) ∧
      Reaping (children.foldl (reapChild ω) acc) := by
  induction children generalizing acc with
  | nil => exact ⟨.refl _, hi⟩
  | cons child children ih =>
    rw [List.foldl_cons]
    cases hfind : acc.2.pmTinyProgs.find? fun p => p.inst.pid = some child.1 with
    | none =>
      rw [reapChild, hfind]
      exact ih acc hb hi
    | some p =>
      have hmem := List.mem_of_find?_eq_some hfind
      have hpid : p.inst.pid = some child.1 := by simpa using List.find?_some hfind
      have hp : acc.2.findProg p.name = some p := Keyed.find_of_mem hb.nodup hmem
      have hl : p.live = true := by simp [ProgInfo.live, hpid]
      have hlisted := hi.not_listed hp hl
      have hstep := reapProg_step (ω := ω) hp hl
        ⟨fun hm => hlisted (.inr (.inl hm)), fun hm => hlisted (.inr (.inr hm))⟩ child.2 mark
      rw [reapChild, hfind]
      obtain ⟨hcalm, hdone⟩ := ih _ (hstep.calm.base hb) (hstep.reaping hb hp hl hi)
      exact ⟨hstep.calm.trans hcalm, hdone⟩

def Drainable (s : Server) (names : List String) : Prop :=
  ∀ n ∈ names, ∃ p, s.findProg n = some p ∧ ((∃ t, p.core.Queued t) → p.core.Gone)

theorem drainFold_steady (names : List String) (hd : Drainable s names) :
    Steady (s.view { pendding := names, deleting := deleting, mark := mark })
      ((names.foldl (fun s name => s.executePenddingtasks ω name .reaper) s).view
        { deleting := deleting, mark := mark }) := by
  induction names generalizing s with
  | nil => exact .refl _
  | cons n names ih =>
    obtain ⟨p, hp, hgone⟩ := hd n (by simp)
    have hclear : ∀ (v : View) c,
        v.ghost = { pendding := n :: names, deleting := deleting, mark := mark } →
        ProgMove v n c { c with tasks := [] }
          { pendding := names, deleting := deleting, mark := mark } := by
      intro v c hv
      have hmove : ProgMove v n c _ _ := .clearPendding (by simp [hv])
      rw [hv] at hmove
      simpa using hmove
    obtain ⟨p', hdrain⟩ := executePenddingtasks_drained (ω := ω) .reaper
      ⟨.inl (by simp), rfl, rfl, rfl, rfl⟩ hp
      (fun hq => .inl ⟨hgone hq, by simp, fun _ => by simp⟩) hclear
    refine hdrain.steady.trans (ih fun m hm => ?_)
    by_cases hmn : m = n
    · subst m
      refine ⟨p', hdrain.found, fun ⟨t, ht⟩ => ?_⟩
      exact absurd ht (unqueued_nil hdrain.tasks t)
    · obtain ⟨q, hq, hg⟩ := hd m (by simp [hm])
      obtain ⟨q', hq', hproc, -⟩ := hdrain.spared m hmn q hq
      obtain ⟨hgen, hpid, htree, htasks⟩ := Core.proc_inj hproc
      refine ⟨q', hq', fun ⟨t, ht⟩ => ?_⟩
      have hgq := hg ⟨t, by rwa [Core.Queued, hgen, htasks] at ht⟩
      exact ⟨hpid.trans hgq.1, (congrArg ProcessTreeHandle.isEmpty htree).trans hgq.2⟩

theorem removeFold_moves (names : List String)
    (hb : Base (s.view { deleting := names, mark := mark })) :
    Moves (s.view { deleting := names, mark := mark })
      ((names.foldl (fun s name => s.removeProg ω name) s).view { mark := mark }) := by
  induction names generalizing s with
  | nil => exact .refl
  | cons n names ih =>
    have hremove := removeProg_moves (ω := ω) (n := n) hb (List.mem_cons_self ..) rfl rfl
    simp only [List.erase_cons_head] at hremove
    exact hremove.trans (ih (hb.moves hremove))

theorem reapAll_moves (hb : Base (s.view { mark := mark })) (hq : (s.view { mark := mark }).Quiet) :
    Moves (s.view { mark := mark }) ((s.reapAll ω children).view { mark := mark }) := by
  unfold reapAll
  extract_lets acc s₁ s₂
  obtain ⟨hreap, hdone⟩ : Calm (s.view { mark := mark }) (acc.2.view (reapGhost acc.1 mark)) ∧
      Reaping acc := reapFold_calm children ({}, s) hb ⟨by simp, by simp⟩
  have hspawn : Calm (acc.2.view (reapGhost acc.1 mark)) (s₁.view (reapGhost acc.1 mark)) ∧
      Drainable s₁ acc.1.penddingtaskProgs := by
    show Calm _ ((ite _ _ _ : Server).view _) ∧ Drainable (ite _ _ _) _
    split
    · refine ⟨.refl _, fun n hn => ?_⟩
      obtain ⟨p, hp, hg, -⟩ := hdone.gone n (.inr (.inl hn))
      exact ⟨p, hp, fun _ => hg⟩
    · rename_i hne
      have hreport : ∀ n ∈ acc.1.startingProg, ∃ p, Reportable
          ((acc.2.record (.spawn1 acc.1.startingProg .reaper)).view
            (reapGhost acc.1 mark)) n p := by
        intro n hn
        obtain ⟨p, hp, hg, hr⟩ := hdone.gone n (.inl hn)
        obtain ⟨h₁, h₂, -⟩ := hdone.starting n hn
        refine ⟨p, hp, .inr (.inr ⟨⟨_, _, List.mem_cons_self .., hn⟩, hg, ?_, h₁, h₂⟩), .inr hr⟩
        exact (hreap.quiet hq).cons fun h => h
      have hx : acc.2.serverExit = false := by
        obtain ⟨n, hn⟩ := List.exists_mem_of_ne_nil _ (by simpa using hne)
        exact (hdone.starting n hn).2.2
      refine ⟨spawn1_calm ⟨hx, rfl, rfl⟩ rfl hreport, fun n hn => ?_⟩
      obtain ⟨p, hp, hg, hr⟩ := hdone.gone n (.inr (.inl hn))
      obtain ⟨p', hp', hproc, -⟩ := spawn1_spared (ω := ω) hreport
        (fun hm => (hdone.starting n hm).1 hn) hr p hp
      obtain ⟨-, hpid, htree, -⟩ := Core.proc_inj hproc
      exact ⟨p', hp', fun _ =>
        ⟨hpid.trans hg.1, (congrArg ProcessTreeHandle.isEmpty htree).trans hg.2⟩⟩
  have hdrain : Steady (s₁.view (reapGhost acc.1 mark))
      (s₂.view { deleting := acc.1.deletingProgs, mark := mark }) :=
    drainFold_steady acc.1.penddingtaskProgs hspawn.2
  have hsteady := (hreap.trans hspawn.1).toSteady.trans hdrain
  exact hsteady.moves.trans (removeFold_moves acc.1.deletingProgs (hsteady.base hb))

end Server
end PmTiny
