import PmTiny.Windows.ProgramNames
import PmTiny.Windows.ReloadStart

namespace PmTiny.Windows
set_option autoImplicit true

variable {s s' s'' s₀ : Daemon} {ω : System} {n name : String} {m : Message} {p : ProcessHandle}

open DependencyRuntime

namespace Daemon

/-- No answer is given, and none is put off. -/
structure Quiet (s s' : Daemon) : Prop where
  history : Adds (fun e => e.call.silent = false) s s'
  pendingResponses : s'.pendingResponses = s.pendingResponses

theorem Quiet.refl (s : Daemon) : Quiet s s := ⟨.none rfl, rfl⟩

theorem Quiet.trans (h : Quiet s s') (h' : Quiet s' s'') : Quiet s s'' :=
  ⟨h.history.trans h'.history, h'.pendingResponses.trans h.pendingResponses⟩

theorem quiet_same (hhistory : s'.history = s.history)
    (hpending : s'.pendingResponses = s.pendingResponses) : Quiet s s' :=
  ⟨.none hhistory, hpending⟩

theorem quiet_record {call : Call} (h : call.silent = false) (s : Daemon) :
    Quiet s (s.record call) := ⟨.one rfl h, rfl⟩

theorem quiet_pollProgramLog (ω : System) (s : Daemon) (name : String) :
    Quiet s (s.pollProgramLog ω name) := by
  rw [pollProgramLog]
  cases s.find name with
  | none => exact .refl s
  | some p =>
    simp only
    split
    · exact quiet_same rfl rfl
    · exact (quiet_record rfl s).trans (quiet_same rfl rfl)

theorem quiet_attemptLaunch (ω : System) (s : Daemon) (name : String) (site : LaunchSite) :
    Quiet s (s.attemptLaunch ω name site).2 := by
  cases hp : s.find name with
  | none =>
    rw [attemptLaunch, hp]
    exact .refl s
  | some p =>
    cases hlaunch : ω.launch s.ticks p.config with
    | error error =>
      rw [attemptLaunch_error hp hlaunch]
      exact (quiet_record rfl s).trans (quiet_same rfl rfl)
    | ok pid =>
      rw [attemptLaunch_ok hp hlaunch]
      exact (quiet_record rfl s).trans (quiet_same rfl rfl)

theorem quiet_startOperation (s : Daemon) (operation : StartOperation) :
    Quiet s (s.startOperation operation) := ⟨.one rfl rfl, rfl⟩

theorem quiet_launchNext (ω : System) (s : Daemon) (name : String) (rest failures : List String) :
    Quiet s (s.launchNext ω name rest failures).1 := by
  rw [launchNext]
  cases s.find name with
  | none => exact quiet_same rfl rfl
  | some p =>
    simp only
    split
    · exact quiet_same rfl rfl
    · have hpolled : Quiet s { s.pollProgramLog ω name with launchQueue := rest } :=
        (quiet_pollProgramLog ω s name).trans (quiet_same rfl rfl)
      have hattempt := hpolled.trans (quiet_attemptLaunch ω _ name .dependency)
      generalize ({ s.pollProgramLog ω name with launchQueue := rest } : Daemon).attemptLaunch ω
        name .dependency = outcome at *
      obtain ⟨result, s₁⟩ := outcome
      cases result with
      | error error => exact hattempt
      | ok =>
        simp only
        split
        · have hready : Quiet s₁ (s₁.setProcess name fun p => { p with ready := true }) :=
            quiet_same rfl rfl
          exact (hattempt.trans hready).trans (quiet_startOperation _ _)
        · exact hattempt

theorem quiet_launchAll (ω : System) (fuel : Nat) (s : Daemon) (failures : List String) :
    Quiet s (s.launchAll ω fuel failures).1 := by
  induction fuel generalizing s failures with
  | zero => exact .refl s
  | succ fuel ih =>
    rw [launchAll]
    split
    · exact .refl s
    · exact (quiet_launchNext ω s _ _ failures).trans (ih _ _)

theorem quiet_schedule (ω : System) (s : Daemon) : Quiet s (s.scheduleDependencyLaunch ω).1 :=
  (quiet_launchAll ω _ s []).trans (quiet_same rfl rfl)

/-- The flags of the runtime go with its states, every definition has its node in the graph, and the
definitions that wait for a reload make up a graph. -/
structure Sound (s : Daemon) : Prop where
  consistent : s.dependencies.Consistent
  names : ∀ n, (findConfig n s.configMap).isSome = true → n ∈ s.graph.names
  reload : ∃ graph, buildDependencies s.reloadPrograms = .ok graph

theorem names_configMapOf {programs : List ProgramConfig} {graph : DependencyGraph}
    (hbuild : buildDependencies programs = .ok graph)
    (h : (findConfig n (configMapOf programs)).isSome = true) : n ∈ graph.names := by
  obtain ⟨hgraph, -⟩ := build_ok hbuild
  rw [findConfig_isSome] at h
  obtain ⟨cfg, hcfg, rfl⟩ := List.mem_map.1 h
  rw [hgraph]
  exact List.mem_map_of_mem (mem_configMapOf hcfg)

theorem Fresh.sound (h : s.Fresh) : s.Sound := by
  obtain ⟨ω, t, programs, -, hmap, hbuild⟩ := h.configMap
  refine ⟨h.consistent, fun n hn => ?_, ?_⟩
  · rw [hmap] at hn
    exact names_configMapOf hbuild hn
  · rw [h.reloadPrograms]
    exact ⟨_, rfl⟩

theorem names_erase {configs : List ProgramConfig}
    (h : (findConfig n (eraseConfig name configs)).isSome = true) :
    (findConfig n configs).isSome = true := by
  rw [findConfig_erase] at h
  split at h
  · cases h
  · exact h

theorem consistent_completed {c : Core} {nowMs : Int} {q? : Option ProcessHandle}
    {rt : DependencyRuntime} {configs : List ProgramConfig} (hs : c.dependencies.Consistent)
    (hc : Completed c p nowMs q? rt configs) : rt.Consistent := by
  cases hc with
  | restart h ha => exact hs
  | suppressed h ha hd =>
    split
    · exact hs.markFailed c.graph p.name
    · exact hs
  | remove h ha => exact hs.markIdle c.graph p.name
  | deleteConfig h ha => exact hs
  | ended h ha =>
    split
    · exact hs
    · exact hs.markFailed c.graph p.name

theorem Sound.move (hs : s.Sound) (hm : Move s s') : s'.Sound := by
  have hruntime : ∀ {rt : DependencyRuntime}, rt.Consistent → s'.dependencies = rt →
      s'.configMap = s.configMap → s'.graph = s.graph → s'.reloadPrograms = s.reloadPrograms →
        s'.Sound := by
    intro rt hrt hdependencies hmap hgraph hprograms
    exact ⟨hdependencies ▸ hrt, fun n hn => hgraph ▸ hs.names n (hmap ▸ hn), hprograms ▸ hs.reload⟩
  cases hm with
  | outside hcore hstreams hnext hhistory hclosed =>
    exact hruntime hs.consistent (by rw [hcore]) (by rw [hcore]) (by rw [hcore]) (by rw [hcore])
  | stream h =>
    exact hruntime hs.consistent (by rw [h.core]) (by rw [h.core]) (by rw [h.core]) (by rw [h.core])
  | manual hp hn hk hps => exact hruntime (hs.consistent.markIdle s.graph _) rfl rfl rfl rfl
  | started hp hidle hsite hps =>
    exact hruntime (hs.consistent.markStarting s.graph _) rfl rfl rfl rfl
  | refused hp hidle hsite hps =>
    exact hruntime (hs.consistent.markFailed s.graph _) rfl rfl rfl rfl
  | start operation hready hnamed =>
    exact hruntime (StartOperation.consistent_apply hs.consistent operation) rfl rfl rfl rfl
  | complete hqueue hp hlive hc hps =>
    refine ⟨consistent_completed hs.consistent hc, fun n hn => hs.names n ?_, hs.reload⟩
    cases hc with
    | deleteConfig h ha => exact names_erase hn
    | restart | suppressed | remove | ended => exact hn
  | grant hqueue hp hlive hrestart ha hd hps =>
    exact hruntime (hs.consistent.markPending s.graph _) rfl rfl rfl rfl
  | define hqueue cfg hn hnew hrt hgraph hsource =>
    exact ⟨hrt.consistent hs.consistent, fun n hn => (hgraph n).2 hn, hs.reload⟩
  | commitDelete hqueue hrequest hp hend hrt hgraph =>
    exact ⟨hrt.consistent hs.consistent, fun n hn => (hgraph n).2 hn, hs.reload⟩
  | rollback hqueue hn hrt hgraph hdefining =>
    refine ⟨hrt.consistent hs.consistent, fun n hn => ?_, hs.reload⟩
    rcases hgraph with hgraph | hgraph
    · exact (hgraph n).2 hn
    · rw [hgraph]
      exact hs.names n (names_erase hn)
  | swap hqueue hidle hrt hconfigs hgraph =>
    obtain ⟨graph', hbuild⟩ := hs.reload
    refine ⟨hrt.consistent hs.consistent, fun n hn => ?_, hs.reload⟩
    rw [hconfigs] at hn
    rw [hgraph graph' hbuild]
    exact names_configMapOf hbuild hn
  | flags reloadPending reloadPrograms shouldStop shutdownScheduled hprograms =>
    refine ⟨hs.consistent, hs.names, ?_⟩
    rcases hprograms with hold | hold | ⟨ω, t, hload⟩
    · rw [hold]
      exact hs.reload
    · rw [hold]
      exact ⟨_, rfl⟩
    · exact loadProgramConfigs_build hload
  | note | edit | append | exit | terminate | setReady | dequeue | dropRecord | ensure | request
  | answered | plan | created => exact hruntime hs.consistent rfl rfl rfl rfl

/-- The state of a reachable daemon before one of the requests that a callback carries. -/
def Serving (ω : System) (s : Daemon) : Prop :=
  ∃ (s₀ : Daemon) (messages : List Message), Reachable ω s₀ ∧ s = messages.foldl (serve ω) s₀

theorem Serving.sound (h : Serving ω s) : s.Sound ∧ s.Idle := by
  obtain ⟨s₀, messages, hs₀, rfl⟩ := h
  obtain ⟨fresh, hfresh, hmoves, hidle, hdistinct⟩ := hs₀.moves
  obtain ⟨hgoes, hidle'⟩ := Rests.foldl (rests_serve ω) messages s₀ hidle
  have hall := hmoves.trans (hgoes hdistinct).1
  have hsound := hall.judged (K := fun _ => True) (I := Sound) (fun _ _ => trivial) hfresh.sound
    fun hs hm _ => hs.move hm
  exact ⟨hsound, hidle'⟩

/-- The state in which the handler of the message starts. -/
def received (s : Daemon) (m : Message) : Daemon :=
  { s.record (.request m.request) with request := some m.request }

/-- What a restart of a program without a process schedules, and the failures of the launches. -/
def restartIdle (ω : System) (s : Daemon) (n : String) : Daemon × List String :=
  (s.startOperation (.requestClosure n)).scheduleDependencyLaunch ω

theorem serve_restart {showLog : Bool} (hm : m.request = .restart n showLog)
    (hp : s.find n = some p) (hidle : p.hasProcess = false) :
    s.serve ω m = { (s.received m).answerStopped ω m n .restart showLog p.generation with
      request := none } := by
  have hp' : (s.received m).find n = some p := hp
  rw [serve, ← received, handleAsyncRequest, hm]
  simp only
  rw [handleOperation, hp']
  simp only [hidle, Bool.false_eq_true, if_false, reduceCtorEq, Bool.not_false, if_true]

theorem serve_refused {showLog : Bool} {failure : String} {failures : List String}
    (hm : m.request = .restart n showLog) (hp : s.find n = some p) (hidle : p.hasProcess = false)
    (h : ((s.received m).restartIdle ω n).2 = failure :: failures) :
    s.serve ω m = { ((s.received m).restartIdle ω n).1.fail ω m
      ("failed to restart: " ++ failure) with request := none } := by
  have hscheduled : (s.received m).restartIdle ω n =
      (((s.received m).restartIdle ω n).1, failure :: failures) := by rw [← h]
  rw [serve_restart hm hp hidle, answerStopped, ← restartIdle, hscheduled]

theorem serve_accepted {showLog : Bool} (hm : m.request = .restart n showLog)
    (hp : s.find n = some p) (hidle : p.hasProcess = false)
    (h : ((s.received m).restartIdle ω n).2 = []) :
    (s.serve ω m).toCore = { ((s.received m).restartIdle ω n).1.toCore with request := none } := by
  have hscheduled : (s.received m).restartIdle ω n = (((s.received m).restartIdle ω n).1, []) := by
    rw [← h]
  rw [serve_restart hm hp hidle, answerStopped, ← restartIdle, hscheduled]
  simp only
  split
  · rfl
  · rw [reply, send_core]

/-- The request is not refused: it is answered with success, or its answer is put off until the
program runs. -/
def Accepts (ω : System) (s : Daemon) (m : Message) : Prop :=
  (∃ e ∈ since s (s.serve ω m), ∃ reply, e.call = .reply m.session m.requestId reply ∧
    reply.status = 0) ∨
  ∃ r, (s.serve ω m).pendingResponses = s.pendingResponses ++ [r]

/-- Every answer since the earlier state is an error, and none is put off. -/
structure Refuses (s s' : Daemon) : Prop where
  history : Adds (fun e => ∀ session id reply, e.call = .reply session id reply →
    reply.status ≠ 0) s s'
  pendingResponses : s'.pendingResponses = s.pendingResponses

theorem Quiet.refuses (h : Quiet s s') : Refuses s s' := by
  refine ⟨h.history.mono fun e he session id reply hcall => ?_, h.pendingResponses⟩
  rw [hcall] at he
  cases he

theorem Refuses.trans (h : Refuses s s') (h' : Refuses s' s'') : Refuses s s'' :=
  ⟨h.history.trans h'.history, h'.pendingResponses.trans h.pendingResponses⟩

theorem refuses_fail (ω : System) (s : Daemon) (m : Message) (error : String) :
    Refuses s (s.fail ω m error) := by
  refine ⟨adds_send (fun core session id reply hcall => ?_) ω s m.session, ?_⟩
  · cases hcall
    have hstatus : (-1 : Int) ≠ 0 := by decide
    exact hstatus
  · rw [fail, reply, send]
    split
    · rfl
    · split
      · rfl
      · rfl

theorem Quiet.refused (h : Quiet s s') (ω : System) (m : Message) (error : String) :
    Refuses s { s'.fail ω m error with request := none } := by
  have hfail := h.refuses.trans (refuses_fail ω s' m error)
  exact ⟨hfail.history, hfail.pendingResponses⟩

theorem Refuses.not_accepts (h : Refuses s (s.serve ω m)) : ¬s.Accepts ω m := by
  rintro (⟨e, he, reply, hcall, hstatus⟩ | ⟨r, hr⟩)
  · exact h.history.since he m.session m.requestId reply hcall hstatus
  · have hlength := congrArg List.length (h.pendingResponses.symm.trans hr)
    simp at hlength

theorem quiet_received (s : Daemon) (m : Message) : Quiet s (s.received m) := ⟨.one rfl rfl, rfl⟩

theorem Accepts.clean {showLog : Bool} (h : s.Accepts ω m) (hm : m.request = .restart n showLog)
    (hidle : ¬s.Runs n) : ∃ p, s.find n = some p ∧ p.hasProcess = false ∧
      ((s.received m).restartIdle ω n).2 = [] := by
  cases hp : s.find n with
  | none =>
    have hp' : (s.received m).find n = none := hp
    have hserve : s.serve ω m = { (s.received m).fail ω m "process not found" with
        request := none } := by
      rw [serve, ← received, handleAsyncRequest, hm]
      simp only
      rw [handleOperation, hp']
    have hrefuses : Refuses s (s.serve ω m) := by
      rw [hserve]
      exact (quiet_received s m).refused ω m _
    exact absurd h hrefuses.not_accepts
  | some p =>
    have hprocess : p.hasProcess = false := by
      rw [← Bool.not_eq_true]
      exact fun hlive => hidle ⟨p, hp, hlive⟩
    refine ⟨p, rfl, hprocess, ?_⟩
    cases hfailures : ((s.received m).restartIdle ω n).2 with
    | nil => rfl
    | cons failure failures =>
      have hquiet : Quiet s ((s.received m).restartIdle ω n).1 :=
        ((quiet_received s m).trans (quiet_startOperation _ _)).trans (quiet_schedule ω _)
      have hrefuses : Refuses s (s.serve ω m) := by
        rw [serve_refused hm hp hprocess hfailures]
        exact hquiet.refused ω m _
      exact absurd h hrefuses.not_accepts

theorem launching_restart (h : ((s.received m).restartIdle ω n).2 = []) :
    ((s.received m).restartIdle ω n).1.launching =
      (s.launching.startOperation (.requestClosure n)).schedule fun _ => true := by
  have hcall : (Call.request m.request).launchName = none := rfl
  have hreceived : (s.received m).launching = s.launching := launching_record hcall s
  rw [restartIdle, launching_schedule_clean h, launching_startOperation, hreceived]

/-- The program runs, or waits as a requested one for a dependency that is not ready. -/
def RestartEffective (c : Core) (n : String) : Prop :=
  c.Runs n ∨ (isRequested c.graph c.dependencies n = true ∧ c.dependencyState n = .pending ∧
    ∃ d ∈ c.graph.dependencyNames n, c.dependencyState d ≠ .ready)

theorem restart_effective (hs : s.Sound) (hconfig : (findConfig n s.configMap).isSome = true)
    (hp : s.find n = some p) (hclean : ((s.received m).restartIdle ω n).2 = [])
    (hstate : s.dependencyState n ≠ .ready ∧ s.dependencyState n ≠ .starting) :
    RestartEffective ((s.received m).restartIdle ω n).1.toCore n := by
  have hlaunching := launching_restart hclean
  have hrecord : s.launching.find n = some p.running := by
    rw [launching_find, hp]
    rfl
  have hawaits : (s.launching.startOperation (.requestClosure n)).Awaits n := by
    refine ⟨hs.consistent.requestClosure s.graph n, ⟨p.running, hrecord⟩, ?_⟩
    rcases held_requestClosure hs.consistent (hs.names n hconfig) hstate with hmem | hheld
    · exact .inl (List.mem_append_right _ hmem)
    · exact .inr (.inr hheld)
  have hdone := hawaits.schedule
  rw [← hlaunching] at hdone
  generalize ((s.received m).restartIdle ω n).1 = s₁ at hdone ⊢
  rcases hdone with ⟨cfg, hlive⟩ | hheld
  · left
    rw [launching_find] at hlive
    obtain ⟨p', hp', hrunning⟩ := Option.map_eq_some_iff.1 hlive
    exact ⟨p', hp', congrArg Prod.snd hrunning⟩
  · right
    have hwaits := hheld.waits
    rw [DependenciesReady] at hwaits
    push Not at hwaits
    exact ⟨hheld.requested, hheld.pending, hwaits⟩

theorem restart_ineffective (hs : s.Sound) (hidle : s.Idle) (hp : s.find n = some p)
    (hprocess : p.hasProcess = false) (hclean : ((s.received m).restartIdle ω n).2 = [])
    (hstate : s.dependencyState n = .ready ∨ s.dependencyState n = .starting) :
    ¬RestartEffective ((s.received m).restartIdle ω n).1.toCore n := by
  have hlaunching := launching_restart hclean
  obtain ⟨hnot, hsame⟩ := requestClosure_started hs.consistent hstate
  have hst : s.dependencyState n ≠ .pending ∧ s.dependencyState n ≠ .blocked := by
    rcases hstate with h | h
    · simp [h]
    · simp [h]
  have hqueue : (s.launching.startOperation (.requestClosure n)).queue =
      (requestClosure s.graph s.dependencies n).2 := by
    have hempty : s.launching.queue = [] := hidle.launchQueue
    rw [Launching.startOperation, hempty]
    rfl
  -- the launches made so far are put aside
  have hpasses : ((s.launching.startOperation (.requestClosure n)).setLaunched []).Passes n
      (s.dependencyState n) := by
    refine ⟨?_, List.not_mem_nil, hsame⟩
    rw [← hqueue] at hnot
    exact hnot
  have honto : (s.launching.startOperation (.requestClosure n)).schedule (fun _ => true) =
      (((s.launching.startOperation (.requestClosure n)).setLaunched []).schedule
        fun _ => true).onto s.launching.launched := by
    rw [← Launching.schedule_onto]
    rfl
  have hrecord : s.launching.find n = some (p.config, false) := by
    rw [launching_find, hp, Option.map_some, ProcessHandle.running, hprocess]
  rw [honto] at hlaunching
  generalize ((s.received m).restartIdle ω n).1 = s₁ at hlaunching ⊢
  have hkept : s₁.dependencyState n = s.dependencyState n :=
    (congrArg (fun a => Launching.state a n) hlaunching).trans (hpasses.schedule hst).2
  have hfound : s₁.launching.find n = some (p.config, false) :=
    (congrArg (fun a => Launching.find a n) hlaunching).trans
      ((hpasses.find hst _).trans hrecord)
  rintro (⟨p', hp', hlive⟩ | ⟨-, hpending, -⟩)
  · rw [launching_find, hp', Option.map_some, ProcessHandle.running, hlive] at hfound
    cases congrArg Prod.snd (Option.some.inj hfound)
  · exact hst.1 (hkept.symm.trans hpending)

/-- A restart of a configured program without a process, when it is not refused, launches the
program or leaves it waiting for a dependency that is not ready, exactly if the dependency runtime
did not have the program down as ready or starting. -/
theorem restart_effective_iff {showLog : Bool} (h : Serving ω s)
    (hm : m.request = .restart n showLog) (hconfig : (findConfig n s.configMap).isSome = true)
    (hidle : ¬s.Runs n) (haccepts : s.Accepts ω m) :
    RestartEffective (s.serve ω m).toCore n ↔
      s.dependencyState n ≠ .ready ∧ s.dependencyState n ≠ .starting := by
  obtain ⟨hsound, hrest⟩ := h.sound
  obtain ⟨p, hp, hprocess, hclean⟩ := haccepts.clean hm hidle
  have hcore : RestartEffective (s.serve ω m).toCore n ↔
      RestartEffective ((s.received m).restartIdle ω n).1.toCore n := by
    rw [serve_accepted hm hp hprocess hclean]
    exact Iff.rfl
  rw [hcore]
  constructor
  · intro heffective
    rw [← not_or]
    intro hstate
    exact restart_ineffective hsound hrest hp hprocess hclean hstate heffective
  · exact restart_effective hsound hconfig hp hclean

def answersSuccess (m : Message) (e : Event) : Bool :=
  match e.call with
  | .reply session id reply => session = m.session && id = m.requestId && reply.status = 0
  | _ => false

/-- A request for a configured program without a process, answered with success. -/
def restartsIdle (ω : System) (m : Message) (n : String) (s : Daemon) : Bool :=
  (findConfig n s.configMap).isSome && ((s.find n).all fun p => !p.hasProcess) &&
    (since s (s.serve ω m)).any (answersSuccess m)

theorem idle_of_all {c : Core} (h : ((c.find n).all fun p => !p.hasProcess) = true) :
    ¬c.Runs n := by
  rintro ⟨p, hp, hlive⟩
  rw [hp, Option.all_some, hlive] at h
  cases h

theorem accepts_of_restartsIdle (h : restartsIdle ω m n s = true) :
    (findConfig n s.configMap).isSome = true ∧ ¬s.Runs n ∧ s.Accepts ω m := by
  rw [restartsIdle, Bool.and_eq_true, Bool.and_eq_true, List.any_eq_true] at h
  obtain ⟨⟨hconfig, hidle⟩, e, he, hanswer⟩ := h
  refine ⟨hconfig, idle_of_all hidle, .inl ⟨e, he, ?_⟩⟩
  rw [answersSuccess] at hanswer
  split at hanswer
  · rename_i session id reply hcall
    simp only [Bool.and_eq_true, decide_eq_true_iff] at hanswer
    obtain ⟨⟨rfl, rfl⟩, hstatus⟩ := hanswer
    exact ⟨reply, hcall, hstatus⟩
  · cases hanswer

def requestStop (name : String) : Input := .callback (.requests 1 [(1, .stop name)])

theorem restart_effective_iff_stopped : ∃ s, Serving (exitingSystem [oneShot "a" []]) s ∧
    restartsIdle (exitingSystem [oneShot "a" []]) ⟨1, 2, .restart "a" false⟩ "a" s = true ∧
    s.dependencyState "a" = .idle ∧
    RestartEffective (s.serve (exitingSystem [oneShot "a" []]) ⟨1, 2, .restart "a" false⟩).toCore
      "a" := by
  obtain ⟨s, hs, htest⟩ := run_any (ω := exitingSystem [oneShot "a" []])
    ([Input.tick, .wake, requestStop "a"] ++ exits "a" 1 ++ [Input.tick, .wake]) (fun s =>
      restartsIdle (exitingSystem [oneShot "a" []]) ⟨1, 2, .restart "a" false⟩ "a" s &&
        s.dependencyState "a" = .idle) (by decide +kernel)
  rw [Bool.and_eq_true, decide_eq_true_iff] at htest
  obtain ⟨hconfig, hidle, haccepts⟩ := accepts_of_restartsIdle htest.1
  have hserving : Serving (exitingSystem [oneShot "a" []]) s := ⟨s, [], hs, rfl⟩
  refine ⟨s, hserving, htest.1, htest.2, ?_⟩
  rw [restart_effective_iff hserving rfl hconfig hidle haccepts, htest.2]
  decide

/-- A program that ended by itself is still ready, so its restart is answered with success and
nothing is launched. -/
theorem restart_launches_nothing : ∃ s, Serving (exitingSystem [oneShot "a" []]) s ∧
    (findConfig "a" s.configMap).isSome = true ∧ ¬s.Runs "a" ∧
    s.Accepts (exitingSystem [oneShot "a" []]) ⟨1, 2, .restart "a" false⟩ ∧
    ¬RestartEffective (s.serve (exitingSystem [oneShot "a" []]) ⟨1, 2, .restart "a" false⟩).toCore
      "a" := by
  obtain ⟨s, hs, htest⟩ := run_any (ω := exitingSystem [oneShot "a" []])
    ([Input.tick, .wake] ++ exits "a" 1 ++ [Input.tick, .wake]) (fun s =>
      let s' := s.serve (exitingSystem [oneShot "a" []]) ⟨1, 2, .restart "a" false⟩
      restartsIdle (exitingSystem [oneShot "a" []]) ⟨1, 2, .restart "a" false⟩ "a" s &&
        ((s'.find "a").all fun p => !p.hasProcess) && s'.dependencyState "a" = .ready)
    (by decide +kernel)
  simp only [Bool.and_eq_true, decide_eq_true_iff] at htest
  obtain ⟨⟨hrestarts, hidle'⟩, hready⟩ := htest
  obtain ⟨hconfig, hidle, haccepts⟩ := accepts_of_restartsIdle hrestarts
  refine ⟨s, ⟨s, [], hs, rfl⟩, hconfig, hidle, haccepts, ?_⟩
  rintro (hlive | ⟨-, hpending, -⟩)
  · exact idle_of_all hidle' hlive
  · cases hready.symm.trans hpending

end Daemon
end PmTiny.Windows
