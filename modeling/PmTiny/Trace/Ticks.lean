import PmTiny.Trace.Reaping

namespace PmTiny
set_option autoImplicit true

namespace Server

variable {s s' s'' : Server} {ω : System} {g g' : Ghost} {id : Nat}

theorem restartDue_calm (mark : Nat) (hp : s.findProg n = some p) (hx : s.serverExit = false)
    (hpend : p.restartPending = true) (hg : p.core.Gone) :
    Calm (s.view { mark := mark })
      ((if (s.startProg ω n .scheduled).1 = some false then
          (((s.startProg ω n .scheduled).2.unschedule n).failPendingLogSessions ω n
            "failed to start the next generation").flagStartupFail n
        else (s.startProg ω n .scheduled).2.unschedule n).view { mark := mark }) ∧
      ∀ m ≠ n, Spared s.toRegistry
        (if (s.startProg ω n .scheduled).1 = some false then
          (((s.startProg ω n .scheduled).2.unschedule n).failPendingLogSessions ω n
            "failed to start the next generation").flagStartupFail n
        else (s.startProg ω n .scheduled).2.unschedule n).toRegistry m := by
  let g : Ghost := { settling := [n], mark := mark }
  obtain ⟨hres, htalk⟩ := startProg_eq (ω := ω) .scheduled hp hg.1
  have hsettle : Calm (s.view { mark := mark }) (s.view g) :=
    Calm.ghost (v := s.view { mark := mark })
      (.settle n (Registry.core_of_find hp) hpend hg (active_mark hx)) rfl
  have hspawn : Calm (s.view g) ((s.realSpawnProg ω n .scheduled).2.view g) :=
    realSpawnProg_calm .scheduled hp hg.1 ⟨hx, rfl, rfl⟩ ⟨hg.2, List.mem_singleton_self n⟩
  let f : ProgInfo → ProgInfo := fun p => { p with restartPending := false, restartDueMs := 0 }
  have hf : Keeps f := fun _ => ⟨rfl, rfl⟩
  let s₁ := (s.startProg ω n .scheduled).2.unschedule n
  have hreset : Calm ((s.startProg ω n .scheduled).2.view g) (s₁.view g) :=
    calm_setProg hf fun _ _ => .reset
  have hcalm := ((hsettle.trans hspawn).trans (htalk.calm g)).trans hreset
  have hsettled (s' : Server) (h : ∀ p, s'.findProg n = some p → p.restartPending = false) :
      Calm (s'.view g) (s'.view { mark := mark }) := by
    have hmove : Calm (s'.view g) (s'.view { g with settling := [n].erase n }) := by
      refine Calm.ghost (v := s'.view g) (.settled n fun c hc => ?_) rfl
      obtain ⟨p, hp, rfl⟩ := Registry.core_eq_some.1 hc
      exact h p hp
    simpa [g] using hmove
  have hspared : ∀ m ≠ n, Spared s.toRegistry s₁.toRegistry m := fun m hm =>
    .of_find ((findProg_setProg_ne hf hm).trans (htalk.find.trans (realSpawnProg_find_ne hm)))
  have hoff : ∀ q, s₁.findProg n = some q → q.restartPending = false := by
    intro q hq
    cases hp' : (s.startProg ω n .scheduled).2.findProg n with
    | none =>
      rw [show s₁.toRegistry = _ from Registry.setProg_absent hp'] at hq
      cases hp'.symm.trans hq
    | some p' =>
      cases (findProg_setProg hf hp').symm.trans hq
      rfl
  split
  · rename_i hfail
    rw [hres] at hfail
    obtain ⟨p', hp', hns⟩ := realSpawnProg_false hp hg.1 (Option.some.inj hfail)
    have hp₁ : s₁.findProg n = some (f p') := findProg_setProg hf (htalk.find.trans hp')
    have htalks : Talks s₁ (s₁.failPendingLogSessions ω n "failed to start the next generation") :=
      talks_failPendingLogSessions
    have hp₂ := htalks.find.trans hp₁
    have hcalm₂ := hcalm.trans (htalks.calm g)
    have hflags : Flags ((s₁.failPendingLogSessions ω n
        "failed to start the next generation").view g) n (f p').core := by
      refine .inl ⟨hns.pid, .inr ⟨List.mem_singleton_self n, hns.gone hg, rfl⟩, ?_⟩
      refine ⟨.scheduled, s.toRegistry, p, by simp, ?_, hp, hns.terminating⟩
      have hlater := (htalk.calm g).moves.trans (hreset.moves.trans (htalks.calm g).moves)
      exact hlater.trace_subset realSpawnProg_seen
    obtain ⟨hsp, hflag⟩ := flagStartupFail_rest hp₂
    have hfailed := hcalm₂.trans (flagStartupFail_calm hp₂ hflags)
    refine ⟨hfailed.trans (hsettled _ fun q hq => ?_), fun m hm => ?_⟩
    · cases hflag.symm.trans hq
      rfl
    · exact ((hspared m hm).trans (.of_find htalks.find)).trans (hsp m hm)
  · exact ⟨hcalm.trans (hsettled s₁ hoff), hspared⟩

theorem scheduledRestart_calm (n : String) (nowMs : Int) (mark : Nat) (hx : s.serverExit = false) :
    Calm (s.view { mark := mark }) ((s.scheduledRestart ω nowMs n).view { mark := mark }) ∧
      ∀ m, (m ≠ n ∨ ∃ p, s.findProg m = some p ∧ p.live = true) →
        Spared s.toRegistry (s.scheduledRestart ω nowMs n).toRegistry m := by
  unfold scheduledRestart
  split
  · exact ⟨.refl _, fun _ _ => .of_find rfl⟩
  · rename_i p hp
    split
    · exact ⟨.refl _, fun _ _ => .of_find rfl⟩
    · rename_i hgo
      have hpend : p.restartPending = true := by
        cases h : p.restartPending <;> simp_all
      have hpid : p.inst.pid = none := by
        cases h : p.inst.pid <;> simp_all [ProgInfo.live]
      have hother : ∀ m, (m ≠ n ∨ ∃ p, s.findProg m = some p ∧ p.live = true) → m ≠ n := by
        rintro m (hm | ⟨q, hq, hl⟩)
        · exact hm
        · rintro rfl
          cases hp.symm.trans hq
          simp [ProgInfo.live, hpid] at hl
      have hobs : Calm (s.view { mark := mark }) ((s.isTreeEmpty ω n).2.view { mark := mark }) :=
        calm_isTreeEmpty
      have hspared : ∀ m ≠ n, Spared s.toRegistry (s.isTreeEmpty ω n).2.toRegistry m := fun m hm =>
        .of_find (findProg_setProg_ne (keeps_observe _) hm)
      obtain ⟨p', hp', hobserved, hempty⟩ := findProg_isTreeEmpty (ω := ω) hp
      dsimp only
      split
      · exact ⟨hobs, fun m hm => hspared m (hother m hm)⟩
      · rename_i hdue
        have hgone : p'.core.Gone := by
          refine ⟨?_, ?_⟩
          · rw [hobserved]
            exact hpid
          · show p'.inst.tree.isEmpty = true
            rw [← hempty]
            simpa using not_or.1 hdue |>.1
        have hdone := restartDue_calm (ω := ω) mark hp' (hobs.exit.trans hx)
          (by rw [hobserved]; exact hpend) hgone
        exact ⟨hobs.trans hdone.1, fun m hm =>
          (hspared m (hother m hm)).trans (hdone.2 m (hother m hm))⟩

theorem dueRestarts_calm (due : List Nat) (hx : s.serverExit = false) :
    Calm (s.view { mark := mark }) ((s.dueRestarts ω nowMs ordered due).view { mark := mark }) ∧
      ∀ m, (∃ p, s.findProg m = some p ∧ p.live = true) →
        Spared s.toRegistry (s.dueRestarts ω nowMs ordered due).toRegistry m := by
  induction due generalizing s with
  | nil => exact ⟨.refl _, fun _ _ => .of_find rfl⟩
  | cons i due ih =>
    have hone : Calm (s.view { mark := mark })
          (((ordered[i]?).elim s (s.scheduledRestart ω nowMs)).view { mark := mark }) ∧
        ∀ m, (∃ p, s.findProg m = some p ∧ p.live = true) →
          Spared s.toRegistry ((ordered[i]?).elim s (s.scheduledRestart ω nowMs)).toRegistry m := by
      cases ordered[i]? with
      | none => exact ⟨.refl _, fun _ _ => .of_find rfl⟩
      | some n =>
        obtain ⟨hcalm, hsp⟩ := scheduledRestart_calm (ω := ω) n nowMs mark hx
        exact ⟨hcalm, fun m hm => hsp m (.inr hm)⟩
    obtain ⟨hcalm, hsp⟩ := ih (hone.1.exit.trans hx)
    exact ⟨hone.1.trans hcalm, fun m hm =>
      (hone.2 m hm).trans (hsp m ((hone.2 m hm).live hm))⟩

/-- The program of a timeout event, if it is still the one observed, is idle and not terminating. -/
def Timely (s : Server) (ordered : List String) (event : LifecycleTimeoutEvent) : Prop :=
  ∀ n p, ordered[event.processIndex]? = some n → s.findProg n = some p →
    p.inst.generation = event.generation → p.live = true →
    p.core.Unqueued ∧ p.state.terminating = false

theorem index_inj {l : List String} {i j : Nat} (hn : l.Nodup) (hi : l[i]? = some n)
    (hj : l[j]? = some n) :
    i = j := by
  obtain ⟨hlt, hget⟩ := List.getElem?_eq_some_iff.1 hi
  obtain ⟨hlt', hget'⟩ := List.getElem?_eq_some_iff.1 hj
  exact hn.getElem_inj_iff.1 (hget.trans hget'.symm)

theorem Timely.of_ne (h : Timely s ordered event) (hn : ordered.Nodup) (hi : ordered[i]? = some n)
    (hne : event.processIndex ≠ i) (ho : ∀ m ≠ n, s'.findProg m = s.findProg m) :
    Timely s' ordered event := by
  intro m p hm hp
  refine h m p hm ((ho m ?_).symm.trans hp)
  rintro rfl
  exact hne (index_inj hn hm hi)

theorem handleTimeouts_calm (events : List LifecycleTimeoutEvent) (startingProg : List String)
    (hn : ordered.Nodup) (hidx : (events.map (·.processIndex)).Nodup)
    (hacc : ∀ e ∈ events, ∀ n, ordered[e.processIndex]? = some n → n ∉ startingProg)
    (hok : ∀ e ∈ events, Timely s ordered e) :
    Calm (s.view { accepted := startingProg, mark := mark })
        ((handleTimeouts ω nowMs ordered events startingProg s).2.2.view
          { accepted :=
            (handleTimeouts ω nowMs ordered events startingProg s).2.1, mark := mark }) ∧
      (s.serverExit = true →
        (handleTimeouts ω nowMs ordered events startingProg s).2.1 = startingProg) := by
  induction events generalizing s startingProg with
  | nil => exact ⟨.refl _, fun _ => rfl⟩
  | cons event events ih =>
    rw [List.map_cons, List.nodup_cons] at hidx
    have hrest : ∀ e ∈ events, Timely s ordered e := fun e he => hok e (by simp [he])
    have hacc' : ∀ e ∈ events, ∀ n, ordered[e.processIndex]? = some n → n ∉ startingProg :=
      fun e he => hacc e (by simp [he])
    unfold handleTimeouts
    split
    · exact ih startingProg hidx.2 hacc' hrest
    · rename_i p hbind
      obtain ⟨n, hget, hp⟩ := Option.bind_eq_some_iff.1 hbind
      have hname := Registry.name_of_find hp
      split
      · exact ih startingProg hidx.2 hacc' hrest
      · rename_i hcond
        simp only [not_or, not_not, Bool.not_eq_true, Bool.not_eq_false'] at hcond
        obtain ⟨hx, hgen, hl⟩ := hcond
        obtain ⟨hunq, hnt⟩ := hok event (by simp) n p hget hp hgen hl
        have hother : ∀ s' : Server, (∀ m ≠ n, s'.findProg m = s.findProg m) →
            ∀ e ∈ events, Timely s' ordered e := fun s' ho e he =>
          (hrest e he).of_ne hn hget
            (fun hi => hidx.1 (hi ▸ List.mem_map_of_mem he)) ho
        have hexit {l : List String} (h : s.serverExit = true) : l = startingProg := by
          cases h.symm.trans hx
        rw [hname]
        split
        · let f : ProgInfo → ProgInfo := fun p => { p with
            state := .runing, lastTickTimepoint := nowMs, heartbeatActionDueMs := 0 }
          have hf : Keeps f := fun _ => ⟨rfl, rfl⟩
          have haccept : Calm (s.view { accepted := startingProg, mark := mark })
              ((s.acceptReady n nowMs).view { accepted := startingProg ++ [n], mark := mark }) :=
            Calm.prog (v := s.view { accepted := startingProg, mark := mark }) hf hp
              (.accept hl hunq hnt rfl)
          have hfresh : ∀ e ∈ events, ∀ m, ordered[e.processIndex]? = some m →
              m ∉ startingProg ++ [n] := by
            intro e he m hm hmem
            rcases List.mem_append.1 hmem with hmem | hmem
            · exact hacc' e he m hm hmem
            · rw [List.mem_singleton.1 hmem] at hm
              exact hidx.1 (index_inj hn hm hget ▸ List.mem_map_of_mem he)
          have hnext := ih (s := s.acceptReady n nowMs) (startingProg ++ [n]) hidx.2 hfresh
            (hother _ fun m hm => findProg_setProg_ne hf hm)
          exact ⟨haccept.trans hnext.1, hexit⟩
        · have htouch : Calm (s.view { accepted := startingProg, mark := mark })
              ((s.ignoreTimeout n nowMs).view { accepted := startingProg, mark := mark }) :=
            calm_touch (fun _ => ⟨rfl, rfl⟩) fun _ => rfl
          have hnext := ih (s := s.ignoreTimeout n nowMs) startingProg hidx.2 hacc'
            (hother _ fun m hm => findProg_setProg_ne (fun _ => ⟨rfl, rfl⟩) hm)
          exact ⟨htouch.trans hnext.1, hexit⟩
        · have hkill : Calm (s.view { accepted := startingProg, mark := mark })
              (((s.asyncKillProg ω n).setProg n (·.enqueueAfterTermination .timeoutRestart)).view
                { accepted := startingProg, mark := mark }) :=
            killEnqueue_calm .timeoutRestart hp hl hunq (hacc event (by simp) n hget) rfl trivial
          have hnext := ih (s := (s.asyncKillProg ω n).setProg n
              (·.enqueueAfterTermination .timeoutRestart)) startingProg hidx.2 hacc'
            (hother _ fun m hm =>
              (findProg_setProg_ne (keeps_enqueueAfterTermination _) hm).trans (by
              rw [toRegistry_asyncKillProg hp]
              exact Registry.findProg_setProg_ne (keeps_asyncKillProg _) hm))
          exact ⟨hkill.trans hnext.1, hexit⟩
        · exact ⟨.refl _, fun _ => rfl⟩

theorem pollDone_steady (hp : s.findProg n = some p) (ht : p.core.state.terminating = true)
    (hgone : p.core.Gone) (hs : g.saved = none) (hset : g.settling = []) (hw : g.swapping = false)
    (ha : g.acking = false) :
    Steady (s.view g)
      (((s.setProg n fun p => p.cleanup.setTermination .completed).executePenddingtasks
      ω n .poll).view g) := by
  have hf : Keeps fun p : ProgInfo => p.cleanup.setTermination .completed := fun _ => ⟨rfl, rfl⟩
  let s₁ := s.setProg n fun p => p.cleanup.setTermination .completed
  have hclean : Calm (s.view g) (s₁.view g) := by
    refine calm_setProg hf fun q hq => ?_
    cases hp.symm.trans hq
    exact .cleaned ht hgone
  have hp₁ : s₁.findProg n = some (p.cleanup.setTermination .completed) := findProg_setProg hf hp
  let g₁ : Ghost := { g with running := n :: g.running }
  have henter : Calm (s₁.view g) (s₁.view g₁) := by
    refine Calm.ghost (v := s₁.view g) (.enter n fun c hc => ?_) rfl
    cases (Registry.core_of_find hp₁).symm.trans hc
    exact .inr rfl
  have hclear : ∀ (v : View) c, v.ghost = g₁ → ProgMove v n c { c with tasks := [] } g := by
    intro v c hv
    have hmove : ProgMove v n c _ _ := .clearRunning (by simp [hv, g₁])
    rw [hv] at hmove
    simpa [g₁] using hmove
  obtain ⟨p', hd⟩ := executePenddingtasks_drained (ω := ω) (g := g₁) .poll
    ⟨.inr (by simp [g₁]), hs, hset, hw, ha⟩ hp₁
    (fun _ => .inl ⟨⟨hgone.1, rfl⟩, by simp, by simp⟩) hclear
  exact (hclean.trans henter).toSteady.trans hd.steady

theorem pollForce_calm (hp : s.findProg n = some p) (ht : p.core.state.terminating = true) :
    Calm (s.view g) ((if ((s.findProg n).elim .none fun p => p.asyncForceKill.1) = .sendKill then
      (s.setProg n fun p => p.asyncForceKill.2).signalTree n .kill
      else s.setProg n fun p => p.asyncForceKill.2).view g) := by
  have hf : Keeps fun p : ProgInfo => p.asyncForceKill.2 := by
    intro q
    unfold ProgInfo.asyncForceKill
    dsimp only
    split <;> exact ⟨rfl, rfl⟩
  have hforce : Calm (s.view g) ((s.setProg n fun p => p.asyncForceKill.2).view g) := by
    refine calm_setProg hf fun q hq => ?_
    cases hp.symm.trans hq
    unfold ProgInfo.asyncForceKill
    dsimp only
    split
    · exact .poll _ ht
    · exact .touch
  split
  · exact hforce.trans (show Calm _ ((signalTree _ n .kill).view g) from
      calm_record trivial fun h => h)
  · exact hforce

theorem pollProg_steady (hs : g.saved = none) (hset : g.settling = []) (hw : g.swapping = false)
    (ha : g.acking = false) :
    Steady (s.view g) ((pollProg ω s n).view g) := by
  unfold pollProg
  split
  · exact .refl _
  · rename_i p hp
    split
    · exact .refl _
    · rename_i ht
      have hterm : p.core.state.terminating = true := by
        cases h : p.state.terminating with
        | true => exact h
        | false => simp [h] at ht
      extract_lets nowMs tree action s₁ gone s₂ force s₃
      obtain ⟨p₁, hp₁, hobs, -⟩ := findProg_isTreeEmpty (ω := ω) hp
      have hobserve : Calm (s.view g) (tree.2.view g) := calm_isTreeEmpty
      have hf : Keeps fun p : ProgInfo => (p.pollTermination nowMs tree.1).2 := fun _ => ⟨rfl, rfl⟩
      have ht₁ : p₁.core.state.terminating = true := by
        rw [hobs]
        exact hterm
      have hpoll : Calm (tree.2.view g) (s₁.view g) := by
        refine calm_setProg hf fun q hq => ?_
        cases hp₁.symm.trans hq
        exact .poll _ ht₁
      have hp₂ : s₁.findProg n = some (p₁.pollTermination nowMs tree.1).2 :=
        findProg_setProg hf hp₁
      have hgone : Calm (s₁.view g) (gone.2.view g) ∧ ∃ q, gone.2.findProg n = some q ∧
          q.core.state.terminating = true ∧ (gone.1 = true → q.core.Gone) := by
        show Calm _ ((ite _ _ _ : Bool × Server).2.view g) ∧
          ∃ q, (ite _ _ _ : Bool × Server).2.findProg n = some q ∧ _ ∧
            ((ite _ _ _ : Bool × Server).1 = true → _)
        split
        · exact ⟨.refl _, _, hp₂, ht₁, by simp⟩
        · rename_i hl
          obtain ⟨q, hq, hobs₂, hempty⟩ := findProg_isTreeEmpty (ω := ω) hp₂
          refine ⟨calm_isTreeEmpty, q, hq, ?_, fun h => ⟨?_, ?_⟩⟩
          · rw [hobs₂]
            exact ht₁
          · have hpid : p.inst.pid = none := by simpa [ProgInfo.live] using hl
            rw [hobs₂, hobs]
            exact hpid
          · exact hempty.symm.trans h
      obtain ⟨hcalm, q, hq, htq, hgq⟩ := hgone
      have hall := (hobserve.trans hpoll).trans hcalm
      split
      · exact hall.toSteady.trans (pollDone_steady hq htq (hgq ‹_›) hs hset hw ha)
      · split
        · exact (hall.trans (pollForce_calm hq htq)).toSteady
        · exact hall.toSteady

theorem pollFold_steady (names : List String) (hs : g.saved = none) (hset : g.settling = [])
    (hw : g.swapping = false) (ha : g.acking = false) :
    Steady (s.view g) ((names.foldl (pollProg ω) s).view g) := by
  induction names generalizing s with
  | nil => exact .refl _
  | cons n names ih => exact (pollProg_steady hs hset hw ha).trans ih

end Server
end PmTiny
