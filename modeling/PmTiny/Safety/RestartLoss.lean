import PmTiny.Trace.Runs
import PmTiny.Trace.Sessions

namespace PmTiny
set_option autoImplicit true

instance : Decidable (Registry.CanStart r name) := inferInstanceAs (Decidable (_ ∧ _))

instance {id : Nat} : Decidable (Event.RunsRestart e name id showLog) :=
  decidable_of_iff (e.call = .runTask name (.startProg id showLog) .reaper ∨
    e.call = .runTask name (.startProg id showLog) .poll ∨
    e.call = .runTask name (.startProg id showLog) .quit) <| by
    constructor
    · rintro (h | h | h) <;> exact ⟨_, h⟩
    · rintro ⟨site, h⟩
      cases site
      · exact .inl h
      · exact .inr (.inl h)
      · exact .inr (.inr h)

/-- Among recorded calls, newest first: the task of a restart request spawned its program. -/
def startedAgain (name : String) (id : Nat) (showLog : Bool) : List Event → Bool
  | e :: run :: l =>
    (decide (e.call = .realSpawnProg name .task) && decide (run.RunsRestart name id showLog)) ||
      startedAgain name id showLog (run :: l)
  | _ => false

theorem startedAgain_cons {e : Event} {id : Nat}
    (h : startedAgain name id showLog (e :: l) = true) :
    (e.call = .realSpawnProg name .task ∧ ∃ run l', l = run :: l' ∧
      run.RunsRestart name id showLog) ∨ startedAgain name id showLog l = true := by
  cases l with
  | nil => cases h
  | cons run l' =>
    rw [startedAgain, Bool.or_eq_true, Bool.and_eq_true] at h
    rcases h with ⟨he, hr⟩ | h
    · exact .inl ⟨of_decide_eq_true he, run, l', rfl, of_decide_eq_true hr⟩
    · exact .inr h

theorem startedAgain_later {e : Event} {id : Nat} (h : startedAgain name id showLog l = true) :
    startedAgain name id showLog (e :: l) = true := by
  cases l with
  | nil => cases h
  | cons run l' =>
    rw [startedAgain, h, Bool.or_true]

theorem Event.RunsRestart.unique {e : Event} {id id' : Nat} (h : e.RunsRestart name id showLog)
    (h' : e.RunsRestart name' id' showLog') : name' = name ∧ id' = id ∧ showLog' = showLog := by
  obtain ⟨site, h⟩ := h
  obtain ⟨site', h'⟩ := h'
  rw [h] at h'
  cases h'
  exact ⟨rfl, rfl, rfl⟩

theorem Event.RunsRestart.not_spawn {e : Event} {id : Nat} (h : e.RunsRestart name id showLog) :
    e.call ≠ .realSpawnProg name' site := by
  obtain ⟨site, h⟩ := h
  rw [h]
  exact Call.noConfusion

theorem Blocks.of_startedAgain {K : Registry → Frame → Prop} {P Q : Nat → Prop} {id : Nat}
    (h : Blocks K P Q l)
    (hs : startedAgain name id showLog (l ++ l') = true) :
    (P id ∧ ∃ run ∈ l, run.RunsRestart name id showLog ∧ run.reg.CanStart name) ∨
      startedAgain name id showLog l' = true := by
  induction h with
  | nil => exact .inr hs
  | plain he _ ih =>
    rcases startedAgain_cons hs with ⟨hcall, -⟩ | hs
    · rw [Event.Plain, hcall] at he
      cases he
    · obtain ⟨hp, run, hm, hr⟩ | hs := ih hs
      · exact .inl ⟨hp, run, List.mem_cons_of_mem _ hm, hr⟩
      · exact .inr hs
  | started he hr hp hc _ ih =>
    rcases startedAgain_cons hs with ⟨hcall, _, _, hrun, hr'⟩ | hs
    · cases hrun
      obtain ⟨rfl, rfl, rfl⟩ := hr.unique hr'
      exact .inl ⟨hp, _, List.mem_cons_of_mem _ List.mem_cons_self, hr, hc⟩
    · rcases startedAgain_cons hs with ⟨hcall, -⟩ | hs
      · exact absurd hcall hr.not_spawn
      · obtain ⟨hp, run, hm, hr⟩ | hs := ih hs
        · exact .inl ⟨hp, run, List.mem_cons_of_mem _ (List.mem_cons_of_mem _ hm), hr⟩
        · exact .inr hs
  | idle hr _ _ ih =>
    rcases startedAgain_cons hs with ⟨hcall, -⟩ | hs
    · exact absurd hcall hr.not_spawn
    · obtain ⟨hp, run, hm, hr⟩ | hs := ih hs
      · exact .inl ⟨hp, run, List.mem_cons_of_mem _ hm, hr⟩
      · exact .inr hs

theorem Blocks.startedAgain_of_canStart {K : Registry → Frame → Prop} {P Q : Nat → Prop}
    {id : Nat} {run : Event}
    (h : Blocks K P Q l) (hQ : ¬ Q id) (hm : run ∈ l) (hr : run.RunsRestart name id showLog)
    (hc : run.reg.CanStart name) : startedAgain name id showLog l = true := by
  induction h with
  | nil => cases hm
  | plain he _ ih =>
    rcases List.mem_cons.1 hm with rfl | hm
    · obtain ⟨site, hcall⟩ := hr
      rw [Event.Plain, hcall] at he
      cases he
    · exact startedAgain_later (ih hm)
  | started he hr' _ _ _ ih =>
    rcases List.mem_cons.1 hm with rfl | hm
    · exact absurd he hr.not_spawn
    · rcases List.mem_cons.1 hm with rfl | hm
      · obtain ⟨rfl, rfl, rfl⟩ := hr'.unique hr
        rw [startedAgain, decide_eq_true he, decide_eq_true hr']
        rfl
      · exact startedAgain_later (startedAgain_later (ih hm))
  | idle hr' hq _ ih =>
    rcases List.mem_cons.1 hm with rfl | hm
    · obtain ⟨rfl, rfl, rfl⟩ := hr'.unique hr
      rcases hq with hq | hq
      · exact absurd hq hQ
      · exact absurd hc hq
    · exact startedAgain_later (ih hm)

namespace Server

variable {s : Server} {ω : System} {id : Nat} {name : String}

theorem run_append (ω : System) (s : Server) (early late : List Input) :
    s.run ω (early ++ late) = (s.run ω early).run ω late := List.foldl_append

theorem run_of_stopped (h : s.stopped = true) (inputs : List Input) : s.run ω inputs = s := by
  induction inputs with
  | nil => rfl
  | cons input inputs ih =>
    have hstep : s.step ω input = s := by
      rw [step.eq_def, if_pos h]
    rw [run, List.foldl_cons, hstep]
    exact ih

theorem shut_closeSession (h : s.Known id) : (s.closeSession id).Shut id := by
  obtain ⟨x, hx⟩ := h
  rw [closeSession, hx]
  simp only
  split
  · rename_i hc
    exact ⟨x, hx, hc⟩
  · refine ⟨{ x with closed := true, prog := none }, ?_, rfl⟩
    rw [findSession_setSession _ _ fun _ => by rfl]
    cases x.prog <;> exact congrArg _ hx

/-- A restart of a live program was just accepted from a client. -/
def Restarting (ω : System) (s : Server) (name : String) (id : Nat) (showLog : Bool) : Prop :=
  ∃ before p type requestId, Reachable ω before ∧ before.stopped = false ∧
    (before.findSession id).any (fun session => !session.closed && !session.markedClose) = true ∧
    before.findProg name = some p ∧ p.live = true ∧ p.killPendingtasks = [] ∧
    s = before.step ω (.request id type requestId (.restart name showLog))

/-- Whether the program is started again by a restart request in a run. -/
def Restarts (ω : System) (s : Server) (name : String) (id : Nat) (showLog : Bool)
    (inputs : List Input) : Prop := startedAgain name id showLog (s.since (s.run ω inputs)) = true

/-- Whenever the task of the restart is run, the daemon is being stopped or reloaded or the program
has a process. -/
def Hindered (ω : System) (s : Server) (name : String) (id : Nat) (showLog : Bool)
    (inputs : List Input) : Prop :=
  ∀ e ∈ s.since (s.run ω inputs), e.RunsRestart name id showLog → ¬ e.reg.CanStart name

theorem Restarting.known (h : Restarting ω s name id showLog) : s.Known id := by
  obtain ⟨before, p, type, requestId, -, -, hopen, -, -, -, rfl⟩ := h
  obtain ⟨x, hx, -⟩ := Option.any_eq_true _ _ |>.1 hopen
  exact (follows_step ω before _).known id ⟨x, hx⟩

theorem not_restarts_of_disconnect (hk : s.Known id) (early late : List Input)
    (hwait : ¬ Restarts ω s name id showLog early) :
    ¬ Restarts ω s name id showLog (early ++ .disconnect id :: late) := by
  intro h
  have hearly := follows_run ω s early
  cases hstop : (s.run ω early).stopped with
  | true =>
    rw [Restarts, run_append, run_of_stopped hstop] at h
    exact hwait h
  | false =>
    have hstep : (s.run ω early).step ω (.disconnect id) = (s.run ω early).closeSession id := by
      rw [step.eq_def, hstop]
      rfl
    have hlate := follows_run ω ((s.run ω early).closeSession id) late
    have hclose := follows_closeSession (K := AnyAnswer) (s.run ω early) id
    have hrun : s.run ω (early ++ .disconnect id :: late) =
        ((s.run ω early).closeSession id).run ω late := by
      rw [run_append, run, List.foldl_cons, hstep]
      rfl
    have hnone : (s.run ω early).since ((s.run ω early).closeSession id) = [] := by
      apply since_eq
      rw [closeSession_history]
      rfl
    rw [Restarts, hrun, (hearly.trans hclose).since_append hlate,
      hearly.since_append hclose, hnone, List.nil_append] at h
    rcases hlate.blocks.of_startedAgain h with ⟨hopen, -⟩ | h
    · exact hopen (shut_closeSession (hearly.known id hk))
    · exact hwait h

theorem not_restarts_of_hindered (inputs : List Input)
    (h : Hindered ω s name id showLog inputs) : ¬ Restarts ω s name id showLog inputs := by
  intro hr
  rw [Restarts, ← List.append_nil (s.since _)] at hr
  rcases (follows_run ω s inputs).blocks.of_startedAgain hr with ⟨-, run, hm, hrun, hc⟩ | hr
  · exact h run hm hrun hc
  · cases hr

theorem hindered_of_not_restarts (hk : s.Known id) (inputs : List Input)
    (ho : (s.run ω inputs).isOpen id = true) (h : ¬ Restarts ω s name id showLog inputs) :
    Hindered ω s name id showLog inputs := by
  intro e hm hr hc
  apply h
  apply (follows_run ω s inputs).blocks.startedAgain_of_canStart _ hm hr hc
  rintro (hshut | hgone)
  · exact not_shut_of_open ho hshut
  · exact hgone hk

/-- The program of an accepted restart is started again no matter whether the client stays, when the
restart's task can start nothing; and with a client that stays only then. -/
theorem restart_outlives_client {id : Nat} (h : Restarting ω s name id showLog)
    (early late : List Input) (hwait : ¬ Restarts ω s name id showLog early) :
    (Hindered ω s name id showLog (early ++ late) →
      (Restarts ω s name id showLog (early ++ .disconnect id :: late) ↔
        Restarts ω s name id showLog (early ++ late))) ∧
    ((s.run ω (early ++ late)).isOpen id = true →
      (Restarts ω s name id showLog (early ++ .disconnect id :: late) ↔
        Restarts ω s name id showLog (early ++ late)) →
      Hindered ω s name id showLog (early ++ late)) := by
  have hleft := not_restarts_of_disconnect h.known early late hwait
  constructor
  · intro hh
    exact iff_of_false hleft (not_restarts_of_hindered _ hh)
  · intro ho hiff
    exact hindered_of_not_restarts h.known _ ho fun hr => hleft (hiff.2 hr)

theorem restarting_of_any (ω : System) (name : String) (id : Nat) (showLog : Bool)
    (inputs : List Input) (type requestId : Nat) (P : Server → Bool)
    (h : (runFrom ω inputs).any (fun s => !s.stopped &&
      (s.findSession id).any (fun session => !session.closed && !session.markedClose) &&
      (s.findProg name).any (fun p => p.live && p.killPendingtasks.isEmpty) &&
      P (s.step ω (.request id type requestId (.restart name showLog)))) = true) :
    ∃ s, Restarting ω s name id showLog ∧ P s = true := by
  obtain ⟨before, hreach, hs⟩ := runFrom_any inputs _ h
  simp only [Bool.and_eq_true, Bool.not_eq_true', Option.any_eq_true, List.isEmpty_iff] at hs
  obtain ⟨⟨⟨hstop, session, hsession, hopen⟩, p, hp, hlive, htasks⟩, hP⟩ := hs
  refine ⟨_, ⟨before, p, type, requestId, hreach, hstop, ?_, hp, hlive, htasks, rfl⟩, hP⟩
  rw [hsession]
  simp [hopen]

/-- The daemon is told to stop while the restart waits for the process tree. -/
theorem restart_outlives_client_stopping : ∃ s,
    Restarting (simpleSystem [{ name := "p" }] []) s "p" 1 false ∧
      ¬ Restarts (simpleSystem [{ name := "p" }] []) s "p" 1 false [] ∧
      (Restarts (simpleSystem [{ name := "p" }] []) s "p" 1 false
          [.disconnect 1, .maintenance true none, .maintenance false (some [(101, 0)])] ↔
        Restarts (simpleSystem [{ name := "p" }] []) s "p" 1 false
          [.maintenance true none, .maintenance false (some [(101, 0)])]) := by
  let ω := simpleSystem [{ name := "p" }] []
  obtain ⟨s, hr, hP⟩ := restarting_of_any ω "p" 1 false
    [.connect 1 none] 0 1
    (fun s => !startedAgain "p" 1 false (s.since (s.run ω [])) &&
      (s.since (s.run ω [.maintenance true none, .maintenance false (some [(101, 0)])])).all
        fun e => decide (e.RunsRestart "p" 1 false → ¬ e.reg.CanStart "p")) (by decide +kernel)
  rw [Bool.and_eq_true, List.all_eq_true] at hP
  have hwait : ¬ Restarts ω s "p" 1 false [] := by simpa [Restarts] using hP.1
  refine ⟨s, hr, hwait, ?_⟩
  apply (restart_outlives_client hr [] _ hwait).1
  intro e he
  exact of_decide_eq_true (hP.2 e he)

/-- The client of a restart leaves before the process tree is gone, and the program stays down. -/
theorem restart_lost_with_client : ∃ s,
    Restarting (simpleSystem [{ name := "p" }] []) s "p" 1 false ∧
      Restarts (simpleSystem [{ name := "p" }] []) s "p" 1 false
        [.maintenance false (some [(101, 0)])] ∧
      ¬ Restarts (simpleSystem [{ name := "p" }] []) s "p" 1 false
        [.disconnect 1, .maintenance false (some [(101, 0)])] ∧
      (s.since (s.run (simpleSystem [{ name := "p" }] [])
        [.disconnect 1, .maintenance false (some [(101, 0)])])).map (·.call) =
          [.runTask "p" (.startProg 1 false) .reaper] := by
  let ω := simpleSystem [{ name := "p" }] []
  obtain ⟨s, hr, hP⟩ := restarting_of_any ω "p" 1 false
    [.connect 1 none] 0 1
    (fun s => startedAgain "p" 1 false (s.since (s.run ω [.maintenance false (some [(101, 0)])])) &&
      !startedAgain "p" 1 false
        (s.since (s.run ω [.disconnect 1, .maintenance false (some [(101, 0)])])) &&
      decide ((s.since (s.run ω [.disconnect 1, .maintenance false (some [(101, 0)])])).map
        (·.call) =
        [.runTask "p" (.startProg 1 false) .reaper])) (by decide +kernel)
  simp only [Bool.and_eq_true, Bool.not_eq_true', decide_eq_true_eq] at hP
  obtain ⟨⟨hkept, hleft⟩, hcalls⟩ := hP
  exact ⟨s, hr, hkept, by rw [Restarts, hleft]; exact Bool.false_ne_true, hcalls⟩

end Server

end PmTiny
