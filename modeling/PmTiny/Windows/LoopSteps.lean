import PmTiny.Windows.Steps

namespace PmTiny.Windows
set_option autoImplicit true

variable {s s' s'' : Daemon} {ω : System} {n name : String} {p q : ProcessHandle} {m : Message}
  {f : ProcessHandle → ProcessHandle}

/-- The request that asks for the operation. -/
def ControlOperationType.request (name : String) (showLog : Bool) : ControlOperationType → Request
  | .stop => .stop name
  | .restart => .restart name showLog
  | .remove => .remove name

namespace Daemon

theorem terminateReason_operation {showLog : Bool} (operation : ControlOperationType)
    (hr : s.request = some (operation.request name showLog)) (hp : s.find name = some p) :
    TerminateReason s.toCore p operation.action := by
  rw [← find_name hp] at hr
  cases operation with
  | stop => exact .stopped hr
  | restart => exact .restarted hr
  | remove => exact .deleted hr

theorem names_operation {showLog : Bool} (operation : ControlOperationType)
    (hr : s.request = some (operation.request name showLog)) : s.Names name := by
  cases operation with
  | stop => exact ⟨_, hr, rfl⟩
  | restart => exact ⟨_, hr, rfl⟩
  | remove => exact ⟨_, hr, rfl⟩

theorem prepareDelete_ok {c : Core} {graph : DependencyGraph}
    (h : prepareDelete c name = .ok graph) :
    buildDependencies (eraseConfig name c.configMap) = .ok graph := by
  rw [prepareDelete] at h
  split at h
  · cases h
  · simp only at h
    split at h
    · cases h
    · exact h

theorem passes_commitDelete {graph : DependencyGraph} (hrequest : s.request = some (.remove name))
    (hp : s.find name = some p)
    (hend : p.hasProcess = true → p.completionAction = .deleteConfig ∧ p.termination.phase ≠ .none)
    (hbuild : buildDependencies (eraseConfig name s.configMap) = .ok graph) :
    Passes s (s.commitDelete name graph) := by
  intro hq
  refine ⟨fun hd => ⟨?_, hd⟩, hq, rfl, rfl⟩
  refine (Move.commitDelete hq hrequest hp hend (rebuilt_migrate s graph) fun m => ?_).moves
  rw [(build_ok hbuild).1, findConfig_isSome]

theorem passes_applyManualStop (hp : s.find name = some p) (hn : s.Names name) :
    Passes s (s.applyManualStop name) :=
  passes_manual (f := fun p => { p.clearRestart with disableRestart := true }) (fun _ => rfl)
    (fun p => ⟨{ p with disableRestart := true },
      ⟨rfl, rfl, rfl, rfl, rfl, rfl, rfl, rfl, rfl, .rfl, rfl, rfl, rfl⟩, rfl⟩) hp hn

theorem mem_of_lookup {l : List (String × LifecycleTimeoutEvent)} {event : LifecycleTimeoutEvent}
    (h : l.lookup name = some event) : (name, event) ∈ l := by
  obtain ⟨l₁, l₂, rfl, -⟩ := List.lookup_eq_some_iff.1 h
  simp

theorem passes_endProcess {showLog : Bool} (operation : ControlOperationType)
    (hr : s.request = some (operation.request name showLog)) (hp : s.find name = some p)
    {result : Except String String × Daemon}
    (hresult : (if p.hasProcess = true then s.requestProgramTermination ω name operation.action 0
      else (.ok "", s)) = result) :
    Passes s result.2 ∧ Records s result.2 ∧
      ∃ p', result.2.find name = some p' ∧ p'.hasProcess = p.hasProcess ∧
        (p'.hasProcess = true → p'.completionAction = operation.action ∧
          p'.termination.phase ≠ .none) := by
  rw [← hresult]
  cases hlive : p.hasProcess with
  | false =>
    exact ⟨.refl s, .refl s, p, hp, hlive, fun h => absurd (hlive.symm.trans h) (by decide)⟩
  | true =>
    simp only [if_true]
    obtain ⟨hgoes, hrecords, hend⟩ := requestProgramTermination_spec (ω := ω) operation.action 0
      fun p hp => terminateReason_operation operation hr hp
    obtain ⟨p', hp', hlive', haction, hphase⟩ := hend (by rw [hp]; exact hlive)
    exact ⟨.records hgoes hrecords, hrecords, p', hp', hlive', fun _ => ⟨haction, hphase⟩⟩

theorem passes_endOperation (ω : System) (m : Message) (operation : ControlOperationType)
    (showLog : Bool) (generation : Nat) (hr : s.request = some (operation.request name showLog))
    (hp : s.find name = some p) (hgone : operation = .remove → findConfig name s.configMap = none)
    (hstopped : (if operation = .stop then s.applyManualStop name else s) = s') :
    Passes s (if !p.hasProcess then s'.answerStopped ω m name operation showLog generation
      else { s' with pendingResponses := s'.pendingResponses ++
        [⟨m.session, m.requestId, m.request, name, generation, showLog⟩] }) := by
  have hn := names_operation operation hr
  have hstop : Passes s s' ∧ s'.request = s.request ∧ s'.configMap = s.configMap ∧
      ∃ p', s'.find name = some p' ∧ p'.hasProcess = p.hasProcess := by
    rw [← hstopped]
    split
    · exact ⟨passes_applyManualStop hp hn, rfl, rfl, _, find_setProcess_self hp fun _ => rfl, rfl⟩
    · exact ⟨.refl s, rfl, rfl, p, hp, rfl⟩
  obtain ⟨hpasses, hr', hconfigMap, p', hp', hlive⟩ := hstop
  rw [← hconfigMap] at hgone
  split
  · rename_i hidle
    have hidle' : p'.hasProcess = false := by
      rw [hlive]
      simpa using hidle
    exact hpasses.trans (passes_answerStopped ω s' m (names_operation operation (hr'.trans hr))
      operation showLog _ hp' hidle' hgone)
  · exact hpasses.trans (passes_pending s' _)

theorem passes_handleOperation (ω : System) (operation : ControlOperationType) (showLog : Bool)
    (hr : s.request = some (operation.request name showLog)) :
    Passes s (s.handleOperation ω m name operation showLog) := by
  unfold handleOperation
  cases hp : s.find name with
  | none => exact passes_fail ω s m _
  | some p =>
    simp only
    generalize hdeletion : (if operation = .remove then (prepareDelete s.toCore name).map some
      else .ok none) = deletion
    cases deletion with
    | error error => exact passes_fail ω s m _
    | ok deletion =>
      simp only
      generalize hresult : (if p.hasProcess = true then
        s.requestProgramTermination ω name operation.action 0 else (.ok "", s)) = result
      obtain ⟨hpasses, hrecords, p₁, hp₁, hlive₁, hend₁⟩ :=
        passes_endProcess operation hr hp hresult
      obtain ⟨outcome, s₁⟩ := result
      obtain ⟨ps, hps⟩ := hrecords.core
      have hr₁ : s₁.request = some (operation.request name showLog) := by
        rw [hps]
        exact hr
      cases outcome with
      | error error => exact hpasses.trans (passes_fail ω s₁ m _)
      | ok warning =>
        simp only at hp₁ hpasses ⊢
        rw [← hlive₁]
        cases deletion with
        | none =>
          have hother : operation ≠ .remove := by
            intro hremove
            rw [if_pos hremove] at hdeletion
            cases hprepared : prepareDelete s.toCore name with
            | error error =>
              rw [hprepared] at hdeletion
              cases hdeletion
            | ok graph =>
              rw [hprepared] at hdeletion
              cases hdeletion
          exact hpasses.trans (passes_endOperation ω m operation showLog p.generation hr₁ hp₁
            (fun hremove => absurd hremove hother) rfl)
        | some graph =>
          have hremove : operation = .remove ∧ prepareDelete s.toCore name = .ok graph := by
            split at hdeletion
            · rename_i hremove
              cases hprepared : prepareDelete s.toCore name with
              | error error =>
                rw [hprepared] at hdeletion
                cases hdeletion
              | ok graph' =>
                rw [hprepared] at hdeletion
                cases hdeletion
                exact ⟨hremove, rfl⟩
            · cases hdeletion
          obtain ⟨rfl, hprepared⟩ := hremove
          have hbuild : buildDependencies (eraseConfig name s₁.configMap) = .ok graph := by
            rw [hps]
            exact prepareDelete_ok hprepared
          have hcommit := passes_commitDelete hr₁ hp₁ hend₁ hbuild
          have hgone : findConfig name (s₁.commitDelete name graph).configMap = none :=
            (findConfig_erase name name s₁.configMap).trans (if_pos rfl)
          exact (hpasses.trans hcommit).trans (passes_endOperation (s := s₁.commitDelete name graph)
            ω m .remove showLog p.generation hr₁ hp₁ (fun _ => hgone) rfl)

theorem passes_handleAsyncRequest (ω : System) (hr : s.request = some m.request) :
    Passes s (s.handleAsyncRequest ω m) := by
  have hmessage := passes_handleMessage ω m.request hr
  rw [handleAsyncRequest]
  split
  · exact passes_fail ω s m _
  · exact passes_beginLogStream ω s m _ _ _
  · exact passes_handleReload ω s m
  · exact passes_handleSave ω s m
  · rename_i h
    exact passes_handleOperation ω .stop false (hr.trans (congrArg some h))
  · rename_i h
    exact passes_handleOperation ω .restart _ (hr.trans (congrArg some h))
  · rename_i h
    exact passes_handleOperation ω .remove false (hr.trans (congrArg some h))
  · have hsilent :
      (Call.reply m.session m.requestId (s.handleMessage ω m.request).1).silent = true :=
      rfl
    have hsend := hmessage.trans (passes_send hsilent rfl ω _ m.session)
    simp only
    split
    · exact hsend.trans (passes_beginLogStream ω _ m _ _ _)
    · exact hsend
  · exact hmessage.trans (passes_send rfl rfl ω _ m.session)

structure Idle (s : Daemon) : Prop where
  launchQueue : s.launchQueue = []
  request : s.request = none
  timeouts : s.timeouts = []

/-- A sequence of moves between two states in which no call is under way. -/
def Rests (s s' : Daemon) : Prop := s.Idle → Goes s s' ∧ s'.Idle

theorem Rests.refl (s : Daemon) : Rests s s := fun h => ⟨.refl s, h⟩

theorem Rests.trans (h : Rests s s') (h' : Rests s' s'') : Rests s s'' := by
  intro hidle
  obtain ⟨hg, hidle⟩ := h hidle
  obtain ⟨hg', hidle⟩ := h' hidle
  exact ⟨hg.trans hg', hidle⟩

theorem Rests.foldl {α : Type} {g : Daemon → α → Daemon} (h : ∀ s a, Rests s (g s a)) (l : List α)
    (s : Daemon) : Rests s (l.foldl g s) := by
  induction l generalizing s with
  | nil => exact .refl s
  | cons a l ih => exact (h s a).trans (ih _)

theorem Passes.rests (h : Passes s s') : Rests s s' := by
  intro hidle
  obtain ⟨hg, hq, hr, ht⟩ := h hidle.launchQueue
  exact ⟨hg, hq, hr.trans hidle.request, ht.trans hidle.timeouts⟩

theorem rests_serve (ω : System) (s : Daemon) (m : Message) : Rests s (s.serve ω m) := by
  intro hidle
  obtain ⟨hg, hq, -, ht⟩ := passes_handleAsyncRequest ω (m := m)
    (s := { s.record (.request m.request) with request := some m.request }) rfl hidle.launchQueue
  have harrive : Goes s { s.record (.request m.request) with request := some m.request } :=
    .move (.request m.request hidle.launchQueue hidle.timeouts) rfl
  exact ⟨(harrive.trans hg).trans (.move (.answered hq) rfl), hq, rfl, ht.trans hidle.timeouts⟩

theorem passes_handleProcessLog (s : Daemon) (name : String) (generation stream : Nat)
    (data : List UInt8) (eof : Bool) :
    Passes s (s.handleProcessLog name generation stream data eof) := by
  rw [handleProcessLog]
  cases hp : (s.find name).filter fun p => p.generation = generation with
  | none => exact .refl s
  | some p =>
    rw [Option.filter_eq_some_iff, decide_eq_true_iff] at hp
    obtain ⟨hp, rfl⟩ := hp
    simp only
    generalize hs₁ : (if data.isEmpty = true then s
      else (s.record (.appended name p.generation data)).setProcess name fun p =>
        { p with logTail := p.logTail.append data }) = s₁
    have happend : Passes s s₁ := by
      rw [← hs₁]
      split
      · exact .refl s
      · have hputs := puts_setProcess (f := fun p => { p with logTail := p.logTail.append data }) hp
          fun _ => rfl
        refine fun hq => ⟨fun hd => ⟨?_, hd.setProcess fun _ => rfl⟩, hq, rfl, rfl⟩
        have hmove := Move.append hp (.refl p) [data] hputs
        rw [List.flatten_singleton] at hmove
        exact hmove.moves
    split
    · exact happend.trans (passes_edit (fun _ => rfl) fun _ _ =>
        ⟨rfl, rfl, rfl, rfl, rfl, rfl, rfl, rfl, rfl, .rfl, rfl, rfl, rfl⟩)
    · exact happend

theorem passes_handleProcessExit (ω : System) (s : Daemon) (name : String)
    (generation exitCode : Nat) :
    Passes s (s.handleProcessExit ω name generation exitCode) := by
  rw [handleProcessExit]
  cases hp : (s.find name).filter fun p => p.generation = generation with
  | none => exact .refl s
  | some p =>
    rw [Option.filter_eq_some_iff, decide_eq_true_iff] at hp
    obtain ⟨hp, rfl⟩ := hp
    have hputs := puts_setProcess (f := fun p => { p with
      rootExitObserved := true
      rootExitCode := exitCode
      hasLastExit := true
      lastExitCode := exitCode
      lastExitTimeUnixMs := ω.unixTime s.ticks }) hp fun _ => rfl
    have hkept : Kept p { p with
        rootExitObserved := true
        rootExitCode := exitCode
        lastExitTimeUnixMs := ω.unixTime s.ticks } :=
      ⟨rfl, rfl, rfl, rfl, rfl, rfl, rfl, rfl, rfl, .rfl, rfl, rfl, rfl⟩
    refine fun hq => ⟨fun hd => ⟨?_, hd.setProcess fun _ => rfl⟩, hq, rfl, rfl⟩
    exact (Move.exit hp hkept exitCode hputs).moves.tail (.outside rfl rfl rfl rfl fun _ h => h)

theorem passes_watchProcess (ω : System) (s : Daemon) (name : String) :
    Passes s (s.watchProcess ω name) := by
  rw [watchProcess]
  split
  · exact .refl s
  · split
    · have hedit :
        Passes s (s.setProcess name fun p => { p with watchedGeneration := p.generation }) :=
        passes_edit (fun _ => rfl) fun _ _ =>
          ⟨rfl, rfl, rfl, rfl, rfl, rfl, rfl, rfl, rfl, .rfl, rfl, rfl, rfl⟩
      exact hedit.trans (passes_outside rfl rfl rfl rfl fun _ h => h)
    · exact passes_tick s

theorem passes_watchProcessLog (ω : System) (name : String) (s : Daemon) (stream : Nat) :
    Passes s (watchProcessLog ω name s stream) := by
  rw [watchProcessLog]
  split
  · exact .refl s
  · split
    · have hedit : Passes s (s.setProcess name fun p => { p with
          pipeRead := Function.update p.pipeRead stream false
          watchedLogGeneration := Function.update p.watchedLogGeneration stream p.generation }) :=
        passes_edit (fun _ => rfl) fun _ _ =>
          ⟨rfl, rfl, rfl, rfl, rfl, rfl, rfl, rfl, rfl, .rfl, rfl, rfl, rfl⟩
      exact hedit.trans (passes_outside rfl rfl rfl rfl fun _ h => h)
    · exact passes_tick s

theorem passes_serveWatches (ω : System) (s : Daemon) : Passes s (s.serveWatches ω) := by
  have hwatches : Passes s (s.refreshProcessExitWatches ω) := .foldl (fun s name =>
    (passes_watchProcess ω s name).trans (.foldl (passes_watchProcessLog ω name) _ _)) _ s
  exact hwatches.trans (passes_pollLogStreams ω _)

theorem passes_restartDue (ω : System) (nowMs : Int) (hp : s.find name = some p)
    (hidle : p.hasProcess = false) (hpending : p.restartPending = true)
    (hdue : p.restartDueMs ≤ nowMs) : Passes s (s.restartDue ω nowMs name) := by
  intro hq
  rw [restartDue]
  have hpoll := ranges_pollProgramLog ω s name
  obtain ⟨p₁, hp₁, hk₁⟩ := pollProgramLog_find (ω := ω) hp
  have hq₁ := (pollProgramLog_queue ω s name).trans hq
  generalize s.pollProgramLog ω name = s₁ at *
  have hadmits : (LaunchSite.due nowMs).Admits s₁.toCore p₁ [] :=
    ⟨hq₁, rfl, hk₁.restartPending.trans hpending, hk₁.restartDueMs.symm ▸ hdue⟩
  have hsame : ({ s₁ with launchQueue := [] } : Daemon) = s₁ := by rw [← hq₁]
  obtain ⟨hranges, hlaunched⟩ :=
    ranges_attemptLaunch (ω := ω) hp₁ (hk₁.hasProcess.trans hidle) hadmits
  have hq₂ : (s₁.attemptLaunch ω name (.due nowMs)).2.launchQueue = [] := by
    cases houtcome : ω.launch s₁.ticks p₁.config with
    | error error =>
      rw [attemptLaunch_error hp₁ houtcome]
      exact hq₁
    | ok pid =>
      rw [attemptLaunch_ok hp₁ houtcome]
      exact hq₁
  rw [hsame] at hranges hlaunched
  generalize s₁.attemptLaunch ω name (.due nowMs) = result at *
  obtain ⟨outcome, s₂⟩ := result
  have hall := (hpoll.trans hranges).passes (hq₂.trans hq.symm)
  cases outcome with
  | error error => exact hall hq
  | ok =>
    simp only
    split
    · obtain ⟨p₂, hp₂, -, hlive₂⟩ := hlaunched rfl
      exact hall.trans (passes_ready ω hp₂ hlive₂ (fun _ => rfl) (fun p => .refl p) fun _ => rfl) hq
    · exact hall hq

theorem handleTimeout_spec (ω : System) (nowMs : Int) {event : LifecycleTimeoutEvent}
    (hp : s.find name = some p) (hlive : p.hasProcess = true)
    (hevent : (name, event) ∈ s.timeouts) (hgeneration : event.generation = p.generation) :
    Passes s (s.handleTimeout ω nowMs name event) ∧
      ∃ p', (s.handleTimeout ω nowMs name event).find name = some p' ∧ p'.hasProcess = true := by
  unfold handleTimeout
  cases event.action with
  | acceptReady =>
    have hkept : ∀ p : ProcessHandle, Kept p { ({ p with
        ready := true, lastTickMs := nowMs, heartbeatActionDueMs := 0 } : ProcessHandle) with
          ready := p.ready } := fun _ =>
      ⟨rfl, rfl, rfl, rfl, rfl, rfl, rfl, rfl, rfl, .rfl, rfl, rfl, rfl⟩
    have hranges := ranges_markReady hp hlive (f := fun p => { p with
      ready := true, lastTickMs := nowMs, heartbeatActionDueMs := 0 }) (fun _ => rfl) hkept
      fun _ => rfl
    have hall := hranges.trans (ranges_schedule ω _).1
    exact ⟨passes_ready ω hp hlive (fun _ => rfl) hkept fun _ => rfl,
      hall.2.live name p hp hlive⟩
  | ignore =>
    exact ⟨passes_edit (fun _ => rfl) fun _ _ =>
        ⟨rfl, rfl, rfl, rfl, rfl, rfl, rfl, rfl, rfl, .rfl, rfl, rfl, rfl⟩,
      _, find_setProcess_self hp fun _ => rfl, hlive⟩
  | restart =>
    obtain ⟨hgoes, hrecords, hend⟩ := requestProgramTermination_spec (ω := ω) (s := s) (n := name)
      .failureRestart 1 fun p' hp' => by
        obtain rfl := Option.some.inj (hp.symm.trans hp')
        exact .timeout (by rw [find_name hp]; exact hevent) hgeneration
    obtain ⟨p', hp', hlive', -⟩ := hend (by rw [hp]; exact hlive)
    exact ⟨.records hgoes hrecords, p', hp', hlive'⟩
  | reboot => exact ⟨.refl s, p, hp, hlive⟩

theorem passes_planRestart (nowMs : Int) (hp : s.find name = some p) (hlive : p.hasProcess = true)
    (hrestart : shouldRestart s.toCore p = true) :
    Passes s ((s.record (.complete name nowMs)).planRestart nowMs p) := by
  intro hq
  obtain rfl := find_name hp
  rw [planRestart]
  split
  · rename_i haction
    have hputs := puts_setProcess (f := fun p =>
      { p.reset with restartState := {}, restartPending := true, restartDueMs := nowMs }) hp
      fun _ => rfl
    refine ⟨fun hd => ⟨?_, hd.setProcess fun _ => rfl⟩, hq, rfl, rfl⟩
    exact (Move.complete hq hp hlive (.restart hrestart haction) hputs).moves
  · rename_i haction
    simp only
    split
    · rename_i hgranted
      have hputs := puts_setProcess (f := fun q => { q.reset with
        restartState := (restartDecision p nowMs).2
        restartPending := true
        restartDueMs := nowMs + (restartDecision p nowMs).1.delayMs }) hp fun _ => rfl
      refine ⟨fun hd => ⟨?_, hd.setProcess fun _ => rfl⟩, hq, rfl, rfl⟩
      exact (Move.grant hq hp hlive hrestart haction hgranted hputs).moves
    · rename_i hrefused
      have hputs := puts_setProcess (f := fun q => { q.reset with
        restartState := (restartDecision p nowMs).2
        restartPending := false
        restartDueMs := 0 }) hp fun _ => rfl
      have hmove := Move.complete hq hp hlive
        (.suppressed hrestart haction (by simpa using hrefused)) hputs
      split
      · rename_i hfailure
        rw [if_pos hfailure] at hmove
        exact ⟨fun hd => ⟨hmove.moves, hd.setProcess fun _ => rfl⟩, hq, rfl, rfl⟩
      · rename_i hfailure
        rw [if_neg hfailure] at hmove
        exact ⟨fun hd => ⟨hmove.moves, hd.setProcess fun _ => rfl⟩, hq, rfl, rfl⟩

theorem passes_retire (nowMs : Int) (hp : s.find name = some p) (hlive : p.hasProcess = true)
    (hrestart : shouldRestart s.toCore p = false) :
    Passes s ((s.record (.complete name nowMs)).retire p) := by
  intro hq
  obtain rfl := find_name hp
  have hconfig : ∀ p : ProcessHandle, p.reset.config = p.config := fun _ => rfl
  have hputs := puts_setProcess hp hconfig
  have hended : p.completionAction ≠ .remove ∧ p.completionAction ≠ .deleteConfig →
      (fun s' => Goes s s' ∧ s'.launchQueue = [] ∧ s'.request = s.request ∧
        s'.timeouts = s.timeouts)
        (if p.ready then (s.record (.complete p.name nowMs)).setProcess p.name (·.reset)
          else ((s.record (.complete p.name nowMs)).setProcess p.name
            (·.reset)).markFailed p.name) := by
    intro haction
    have hc : Completed s.toCore p nowMs _ _ _ := .ended hrestart haction
    have hmove := Move.complete hq hp hlive hc hputs
    split
    · rename_i hready
      rw [if_pos hready] at hmove
      exact ⟨fun hd => ⟨hmove.moves, hd.setProcess hconfig⟩, hq, rfl, rfl⟩
    · rename_i hready
      rw [if_neg hready] at hmove
      exact ⟨fun hd => ⟨hmove.moves, hd.setProcess hconfig⟩, hq, rfl, rfl⟩
  unfold retire
  cases haction : p.completionAction with
  | remove =>
    refine ⟨fun hd => ⟨?_, hd.setProcess hconfig⟩, hq, rfl, rfl⟩
    exact (Move.complete hq hp hlive (.remove hrestart haction) hputs).moves
  | deleteConfig =>
    have hnone : s.Puts ((s.setProcess p.name (·.reset)).removeProcess p.name).processes p.name
        none := by
      have hremoved := puts_removeProcess (s.setProcess p.name (·.reset)) p.name
      rw [Puts, find_setProcess hp hconfig, Function.update_idem] at hremoved
      exact hremoved
    refine ⟨fun hd =>
      ⟨?_, (hd.setProcess (n := p.name) hconfig).removeProcess p.name⟩, hq, rfl, rfl⟩
    exact (Move.complete hq hp hlive (.deleteConfig hrestart haction) hnone).moves
  | automatic => exact hended ⟨by rw [haction]; decide, by rw [haction]; decide⟩
  | restart => exact hended ⟨by rw [haction]; decide, by rw [haction]; decide⟩
  | failureRestart => exact hended ⟨by rw [haction]; decide, by rw [haction]; decide⟩

theorem passes_complete (ω : System) (nowMs : Int) (hp : s.find name = some p)
    (hlive : p.hasProcess = true) : Passes s (s.complete ω nowMs name) := by
  rw [complete]
  obtain ⟨p₁, hp₁, hk₁⟩ := pollProgramLog_find (ω := ω) hp
  have hlive₁ := hk₁.hasProcess.trans hlive
  have hpoll := (ranges_pollProgramLog ω s name).passes (pollProgramLog_queue ω s name)
  simp only [hp₁]
  split
  · rename_i hrestart
    exact hpoll.trans (passes_planRestart nowMs hp₁ hlive₁ hrestart)
  · rename_i hrestart
    exact hpoll.trans (passes_retire nowMs hp₁ hlive₁ (Bool.eq_false_iff.2 hrestart))

theorem passes_drain (ω : System) (nowMs : Int) (rootActive treeEmpty : Bool)
    (hlive : ∀ p, s.find name = some p → p.hasProcess = true) :
    Passes s (s.drain ω nowMs name rootActive treeEmpty) := by
  rw [drain]
  cases hp : s.find name with
  | none => exact .refl s
  | some p =>
    simp only
    split
    · rename_i hdrained
      obtain ⟨hgoes, hrecords, -⟩ := requestProgramTermination_spec (ω := ω) (s := s) (n := name)
        .automatic 1 fun p' hp' => by
          obtain rfl := Option.some.inj (hp.symm.trans hp')
          exact .drained hdrained.2.2
      exact .records hgoes hrecords
    · split
      · exact .refl s
      · exact passes_complete ω nowMs hp (hlive p hp)

theorem passes_pollTree (ω : System) (nowMs : Int) (rootActive : Bool) (hp : s.find name = some p)
    (hlive : p.hasProcess = true) :
    Passes s (match s.pollProgramTermination ω name nowMs with
      | (.error _, s) => s
      | (.ok treeEmpty, s) => s.drain ω nowMs name rootActive treeEmpty) := by
  obtain ⟨hranges, hrecords, hfind⟩ := pollProgramTermination_spec ω s name nowMs
  obtain ⟨p', hp', hk⟩ := hfind p hp
  have hpoll : Passes s _ := .records hranges.1 hrecords
  generalize s.pollProgramTermination ω name nowMs = result at *
  obtain ⟨outcome, s'⟩ := result
  cases outcome with
  | error error => exact hpoll
  | ok treeEmpty =>
    refine hpoll.trans (passes_drain ω nowMs _ treeEmpty fun q hq => ?_)
    obtain rfl := Option.some.inj (hp'.symm.trans hq)
    exact hk.hasProcess.trans hlive

theorem passes_tickProcess (ω : System) (nowMs : Int) (dueRestarts : List String) (s : Daemon)
    (name : String) : Passes s (tickProcess ω nowMs dueRestarts s name) := by
  rw [tickProcess]
  have hpoll := ((ranges_pollProgramLog ω s name).passes (pollProgramLog_queue ω s name)).trans
    (passes_tick _)
  generalize (s.pollProgramLog ω name).tick = s₁ at *
  cases hp : s₁.find name with
  | none => exact hpoll
  | some p =>
    simp only
    refine hpoll.trans ?_
    cases hlive : p.hasProcess with
    | false =>
      simp only [Bool.not_false, if_true]
      split
      · rename_i hdue
        exact passes_restartDue ω nowMs hp hlive hdue.2.1 hdue.2.2.2.2
      · exact .refl s₁
    | true =>
      simp only [Bool.not_true, Bool.false_eq_true, if_false]
      cases hevent : s₁.timeouts.lookup name with
      | none => exact passes_pollTree ω nowMs _ hp hlive
      | some event =>
        simp only
        by_cases hgeneration : (!p.rootExitObserved) = true ∧ event.generation = p.generation
        · obtain ⟨hpasses, p₂, hp₂, hlive₂⟩ :=
            handleTimeout_spec ω nowMs hp hlive (mem_of_lookup hevent) hgeneration.2
          rw [if_pos hgeneration]
          exact hpasses.trans (passes_pollTree ω nowMs _ hp₂ hlive₂)
        · rw [if_neg hgeneration]
          exact passes_pollTree ω nowMs _ hp hlive

theorem findConfig_configMapOf {configs : List ProgramConfig} {cfg : ProgramConfig}
    (hnodup : (configs.map Persist.ProgCfg.name).Nodup) (hcfg : cfg ∈ configs) :
    findConfig cfg.name (configMapOf configs) = some cfg := by
  induction configs using List.reverseRecOn with
  | nil => cases hcfg
  | append_singleton configs c ih =>
    rw [configMapOf, List.foldl_append, ← configMapOf, List.foldl_cons, List.foldl_nil,
      findConfig_insert]
    rw [List.map_append, List.nodup_append] at hnodup
    rcases List.mem_append.1 hcfg with hcfg | hcfg
    · have hne : cfg.name ≠ c.name :=
        hnodup.2.2 _ (List.mem_map_of_mem hcfg) _ (List.mem_map_of_mem List.mem_cons_self)
      rw [if_neg hne]
      exact ih hnodup.1 hcfg
    · rw [List.mem_singleton] at hcfg
      rw [hcfg, if_pos rfl]

theorem passes_requestAll (ω : System) (s : Daemon) :
    Passes s ((s.startOperation .requestAll).scheduleDependencyLaunch ω).1 := by
  obtain ⟨hranges, hqueue⟩ := ranges_scheduled (s := s) ω .requestAll
    (fun m hm => by cases hm) fun m hm => by cases hm
  exact fun _ => ⟨hranges.1, hqueue, hranges.2.request, hranges.2.timeouts⟩

theorem passes_ensureProcessRecords {configs : List ProgramConfig}
    (h : ∀ cfg ∈ configs, findConfig cfg.name s.configMap = some cfg) :
    Passes s (s.ensureProcessRecords configs) := by
  obtain ⟨hgoes, hrecords, -⟩ := ensureProcessRecords_spec configs h
  exact .records hgoes hrecords

theorem passes_swapReload (ω : System) (s : Daemon) (hidle : allProcessesStopped s.toCore = true) :
    Passes s (s.swapReload ω) := by
  have hstopped : ∀ n p, s.find n = some p → p.hasProcess = false := by
    intro n p hp
    have hall := List.all_eq_true.1 hidle p (Keyed.mem_of_find hp)
    simp only [Bool.and_eq_true, Bool.not_eq_true'] at hall
    exact hall.1
  rw [swapReload]
  cases hbuild : buildDependencies s.reloadPrograms with
  | error error =>
    have hnone : ∀ graph, buildDependencies s.reloadPrograms = .ok graph → s.graph = graph := by
      intro graph hgraph
      cases hbuild.symm.trans hgraph
    have hswap : Passes s { s.record .swapReload with
        configMap := configMapOf s.reloadPrograms, processes := [] } := fun hq =>
      ⟨fun _ => ⟨(Move.swap hq hstopped (rebuilt_refl s) rfl hnone).moves, List.nodup_nil⟩, hq, rfl,
        rfl⟩
    simp only [record] at hbuild ⊢
    rw [hbuild]
    exact hswap.trans (passes_flags _ false _ _ (.inr (.inl rfl)))
  | ok graph =>
    obtain ⟨-, hnodup⟩ := build_ok hbuild
    have hgraph : ∀ graph', buildDependencies s.reloadPrograms = .ok graph' → graph = graph' := by
      intro graph' hgraph'
      exact Except.ok.inj (hbuild.symm.trans hgraph')
    have hswap : Passes s (replaceDependencies { s.record .swapReload with
        configMap := configMapOf s.reloadPrograms, processes := [] } graph) := fun hq =>
      ⟨fun _ =>
        ⟨(Move.swap hq hstopped (rebuilt_migrate s graph) rfl hgraph).moves, List.nodup_nil⟩,
        hq, rfl, rfl⟩
    simp only [record] at hbuild ⊢
    rw [hbuild]
    have hensured := hswap.trans (passes_ensureProcessRecords fun cfg hcfg =>
      findConfig_configMapOf hnodup hcfg)
    exact (hensured.trans (passes_requestAll ω _)).trans
      (passes_flags _ false _ _ (.inr (.inl rfl)))

theorem timeoutNames_planned {nowMs : Int} {busy : Bool} {event : LifecycleTimeoutEvent}
    (hd : s.Distinct) (h : (n, event) ∈ timeoutNames s.toCore
      (planProcessLifecycle s.toCore nowMs busy)) :
    ∃ p, s.find n = some p ∧ p.generation = event.generation ∧ p.termination.phase = .none := by
  rw [timeoutNames, List.mem_filterMap] at h
  obtain ⟨event', hevent, hp⟩ := h
  obtain ⟨p, hp', hpair⟩ := Option.map_eq_some_iff.1 hp
  clear hp
  cases hpair
  rw [planProcessLifecycle, planLifecycleTick_timeouts, List.mem_flatMap] at hevent
  obtain ⟨observation, hobservation, hevent⟩ := hevent
  obtain ⟨⟨q, index⟩, hq, rfl⟩ := List.mem_map.1 hobservation
  obtain ⟨hindex, hgeneration, -, hterminating, -⟩ := timeoutEvents_of_mem hevent
  rw [List.mk_mem_zipIdx_iff_getElem?] at hq
  have hsame : q = p := by
    rw [hindex] at hp'
    exact Option.some.inj (hq.symm.trans hp')
  subst hsame
  refine ⟨q, hd.find (List.mem_of_getElem? hp'), hgeneration.symm, ?_⟩
  simpa [ProcessHandle.observation] using hterminating

theorem passes_planned (ω : System) (nowMs : Int) (dueRestarts : List String)
    (hs : (if s.shouldStop = true ∧ (!s.shutdownScheduled) = true then s.beginShutdown ω else s) =
      s') :
    Passes s ((s'.processes.map ProcessHandle.name).foldl
      (tickProcess ω nowMs dueRestarts) s') := by
  have hshutdown : Passes s s' := by
    rw [← hs]
    split
    · exact (passes_flags s false _ true (.inr (.inl rfl))).trans (passes_stopAll ω _)
    · exact .refl s
  exact hshutdown.trans (.foldl (passes_tickProcess ω nowMs dueRestarts) _ s')

theorem rests_tickProcesses (ω : System) (s : Daemon) : Rests s (s.tickProcesses ω) := by
  intro hidle
  obtain ⟨plan, hplan⟩ : ∃ plan, plan =
    planProcessLifecycle s.toCore (ω.clock s.ticks) s.persistence.busy := ⟨_, rfl⟩
  have hplanned : Goes s { s.tick with timeouts := timeoutNames s.toCore plan } := by
    intro hd
    refine ⟨(goes_tick s hd).1.tail (.plan _ hidle.request fun n event hevent => ?_), hd⟩
    rw [hplan] at hevent
    exact timeoutNames_planned hd hevent
  obtain ⟨hgoes, hq, hr, -⟩ := passes_planned ω (ω.clock s.ticks) (dueNames s.toCore plan)
    (s := { s.tick with timeouts := timeoutNames s.toCore plan }) rfl hidle.launchQueue
  have hnone := hr.trans hidle.request
  rw [tickProcesses, ← hplan]
  exact ⟨(hplanned.trans hgoes).trans (.move (.plan [] hnone fun n event h => by cases h) rfl), hq,
    hnone, rfl⟩

theorem rests_runTick (ω : System) (s : Daemon) : Rests s (s.runTick ω) := by
  rw [runTick]
  refine (rests_tickProcesses ω s).trans ?_
  generalize s.tickProcesses ω = s₁
  simp only
  generalize hs₂ : (if s₁.reloadPending = true ∧ allProcessesStopped s₁.toCore = true ∧
    (!s₁.shutdownScheduled) = true then s₁.swapReload ω else s₁) = s₂
  have hswap : Passes s₁ s₂ := by
    rw [← hs₂]
    split
    · rename_i hstopped
      exact passes_swapReload ω s₁ hstopped.2.1
    · exact .refl s₁
  refine hswap.rests.trans (Passes.rests ?_)
  split
  · exact passes_outside rfl rfl rfl rfl fun _ h => h
  · exact (passes_pollPendingResponses ω s₂).trans (passes_outside rfl rfl rfl rfl fun _ h => h)

theorem rests_runCallback (ω : System) (s : Daemon) (callback : Callback) :
    Rests s (s.runCallback ω callback) := by
  unfold runCallback
  cases callback with
  | requests session messages =>
    simp only
    split
    · exact .refl s
    · exact .foldl (fun s message => rests_serve ω s _) messages s
  | processExit name generation exitCode =>
    simp only
    split
    · have hwatch : Passes s { s with
          processWatches := s.processWatches.erase (name, generation) } :=
        passes_outside rfl rfl rfl rfl fun _ h => h
      exact (hwatch.trans (passes_handleProcessExit ω _ name generation exitCode)).rests
    · exact .refl s
  | processLog name generation stream data =>
    simp only
    split
    · exact (passes_handleProcessLog s name generation stream data false).rests
    · exact .refl s
  | processLogEof name generation stream =>
    simp only
    split
    · have hwatch : Passes s { s with
          logWatches := s.logWatches.erase (name, generation, stream) } :=
        passes_outside rfl rfl rfl rfl fun _ h => h
      exact (hwatch.trans (passes_handleProcessLog _ name generation stream [] true)).rests
    · exact .refl s
  | closed session =>
    have hclosed : Passes s { s with closed := session :: s.closed } :=
      passes_outside rfl rfl rfl rfl fun _ h => List.mem_cons_of_mem _ h
    exact hclosed.rests

theorem rests_step (ω : System) (s : Daemon) (input : Input) : Rests s (s.step ω input) := by
  have hphase : ∀ (s : Daemon) (phase : Phase), Rests s { s with phase := phase } := by
    intro s phase
    apply Passes.rests
    exact passes_outside rfl rfl rfl rfl fun _ h => h
  have hwake : Rests s { (s.serveWatches ω).pollPendingResponses ω with phase := .polling } :=
    ((passes_serveWatches ω s).trans (passes_pollPendingResponses ω _)).rests.trans (hphase _ _)
  unfold step
  split
  · exact .refl s
  · exact (passes_flags s _ true _ (.inl rfl)).rests
  · split
    · apply Passes.rests
      exact passes_outside rfl rfl rfl rfl fun _ h => h
    · exact .refl s
  · exact rests_runCallback ω s _
  · exact (rests_runCallback ω s _).trans (hphase _ _)
  · exact (passes_serveWatches ω s).rests.trans (rests_runTick ω _)
  · exact hwake
  · exact hwake
  · exact .refl s

/-- A daemon that has read its definitions and done nothing yet. -/
structure Fresh (s : Daemon) : Prop where
  processes : s.processes = []
  history : s.history = []
  logStreams : s.logStreams = []
  nextGeneration : s.nextGeneration = 1
  dependencies : ∀ m, s.dependencyState m = .idle
  idle : s.Idle
  reloadPrograms : s.reloadPrograms = []
  configMap : ∃ ω t programs, loadProgramConfigs ω t = .ok programs ∧
    s.configMap = configMapOf programs ∧ buildDependencies programs = .ok s.graph
  consistent : s.dependencies.Consistent

theorem goes_start {programs : List ProgramConfig} (hload : loadProgramConfigs ω t = .ok programs)
    (h : start ω programs = some s) :
    ∃ s₀, s₀.Fresh ∧ Moves s₀ s ∧ s.Idle ∧ s.Distinct := by
  rw [start] at h
  cases hbuild : buildDependencies programs with
  | error error =>
    rw [hbuild] at h
    cases h
  | ok graph =>
    rw [hbuild] at h
    simp only at h
    obtain ⟨-, hnodup⟩ := build_ok hbuild
    generalize hs₀ :
      ({ configMap := configMapOf programs, ticks := 1 } : Daemon).replaceDependencies
      graph = s₀ at *
    have hfresh : s₀.Fresh := by
      rw [← hs₀]
      have hconfigMap : ∃ ω t programs', loadProgramConfigs ω t = .ok programs' ∧
          configMapOf programs = configMapOf programs' ∧ buildDependencies programs' = .ok graph :=
        ⟨ω, t, programs, hload, rfl, hbuild⟩
      refine ⟨rfl, rfl, rfl, rfl, fun m => ?_, ⟨rfl, rfl, rfl⟩, rfl, hconfigMap,
        DependencyRuntime.consistent_reset.migrate _ _⟩
      rw [Core.dependencyState, replaceDependencies]
      rw [DependencyRuntime.state_migrate]
      split
      · rfl
      · rfl
    have hensured : Passes s₀ (s₀.ensureProcessRecords programs) := by
      refine passes_ensureProcessRecords fun cfg hcfg => ?_
      rw [← hs₀]
      exact findConfig_configMapOf hnodup hcfg
    have hall : Rests s₀ s := by
      split at h
      · cases h
        exact hensured.rests
      · cases h
        exact (hensured.trans (passes_requestAll ω _)).rests
    obtain ⟨hgoes, hidle⟩ := hall hfresh.idle
    obtain ⟨hmoves, hdistinct⟩ := hgoes (by rw [Distinct, hfresh.processes]; exact List.nodup_nil)
    exact ⟨s₀, hfresh, hmoves, hidle, hdistinct⟩

theorem Reachable.moves (h : Reachable ω s) :
    ∃ s₀, s₀.Fresh ∧ Moves s₀ s ∧ s.Idle ∧ s.Distinct := by
  induction h with
  | boot h =>
    rw [Daemon.boot] at h
    split at h
    · cases h
    · rename_i hload
      exact goes_start hload h
  | step input _ ih =>
    obtain ⟨s₀, hfresh, hmoves, hidle, hdistinct⟩ := ih
    obtain ⟨hgoes, hidle'⟩ := rests_step ω _ input hidle
    obtain ⟨hmoves', hdistinct'⟩ := hgoes hdistinct
    exact ⟨s₀, hfresh, hmoves.trans hmoves', hidle', hdistinct'⟩

end Daemon
end PmTiny.Windows
