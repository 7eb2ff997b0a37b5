import PmTiny.Safety.LogWaits
import PmTiny.Safety.StartEffect

namespace PmTiny
set_option autoImplicit true

/-- The requests to stop, delete or restart a program, and to reload the configuration. -/
def Request.Orders : Request → Prop
  | .stop _ | .remove _ | .restart _ _ | .reload => True
  | _ => False

/-- What a refused request leaves as it is of a program. -/
structure Standing where
  name : String
  state : ProgState
  pid : Option Nat
  restartPending : Bool
  restartState : RestartPolicyState
  killPendingtasks : List GenerationTask
  deriving DecidableEq

def ProgInfo.standing (p : ProgInfo) : Standing where
  name := p.name
  state := p.state
  pid := p.inst.pid
  restartPending := p.restartPending
  restartState := p.restartState
  killPendingtasks := p.killPendingtasks

/-- A restart of the program cannot be carried out: an action is not completed, or the program has
no process and the server is exiting. -/
def Registry.RefusesRestart (r : Registry) (p : ProgInfo) : Prop :=
  p.killPendingtasks ≠ [] ∨ p.live = false ∧ r.serverExit = true

namespace Server

variable {s s' s'' : Server} {ω : System} {id : Nat} {name : String} {request r : Request}

/-- The client is answered in the same step with an error, which is not the failure to start a
program. -/
def Refuses (ω : System) (s : Server) (id type requestId : Nat) (request : Request) : Prop :=
  let calls := s.since (s.step ω (.request id type requestId request))
  (∃ e ∈ calls, ∃ frame, e.call = .answer frame ∧ frame.session = id ∧ frame.request = request ∧
    frame.reply.status ≠ 0) ∧
  ∀ e ∈ calls, ∀ name site, e.call ≠ .realSpawnProg name site

/-- Nothing of what a refused request leaves as it is has changed. -/
structure Untouched (s s' : Server) : Prop where
  programs : s'.pmTinyProgs.map ProgInfo.standing = s.pmTinyProgs.map ProgInfo.standing
  waits : s'.pendingLogSessions = s.pendingLogSessions
  runtime : s'.dependencyRuntime = s.dependencyRuntime
  reload : s'.reloadConfig = s.reloadConfig

/-- A refusal in this step changes nothing. -/
def RefusesCleanly (ω : System) (s : Server) (input : Input) : Prop :=
  ∀ id type requestId request, input = .request id type requestId request → request.Orders →
    s.Refuses ω id type requestId request → s.Untouched (s.step ω input)

/-- A restart that cannot be carried out finds no restart pending and no attempts to forget. -/
def SparesPolicy (s : Server) (input : Input) : Prop :=
  ∀ id type requestId name showLog p, input = .request id type requestId (.restart name showLog) →
    s.Receives id → s.findProg name = some p → s.toRegistry.RefusesRestart p →
    p.restartPending = false ∧ p.restartState = {}

def Silent (r : Request) (s s' : Server) : Prop :=
  ∃ new, s'.history = new ++ s.history ∧ ∀ e ∈ new, ∀ frame, e.call = .answer frame →
    frame.request = r → frame.reply.status = 0

theorem Silent.of_same (h : s'.history = s.history) : Silent r s s' :=
  ⟨[], h, fun _ he => absurd he List.not_mem_nil⟩

theorem Silent.refl (s : Server) : Silent r s s := .of_same rfl

theorem Silent.trans (h : Silent r s s') (h' : Silent r s' s'') :
    Silent r s s'' := by
  obtain ⟨new, hnew, hsilent⟩ := h
  obtain ⟨new', hnew', hsilent'⟩ := h'
  refine ⟨new' ++ new, by rw [hnew', hnew, List.append_assoc], ?_⟩
  intro e he
  rcases List.mem_append.1 he with he | he
  · exact hsilent' e he
  · exact hsilent e he

theorem Silent.foldl (f : Server → α → Server) (hf : ∀ s a, Silent r s (f s a)) (l : List α)
    (s : Server) : Silent r s (l.foldl f s) := by
  induction l generalizing s with
  | nil => exact .refl s
  | cons a l ih => exact (hf s a).trans (ih (f s a))

theorem silent_record (s : Server) (call : Call) (hcall : ∀ frame, call ≠ .answer frame) :
    Silent r s (s.record call) := by
  refine ⟨[⟨call, s.toRegistry⟩], rfl, ?_⟩
  intro e he frame hframe
  cases List.mem_singleton.1 he
  exact absurd hframe (hcall frame)

theorem silent_writeFrame (ω : System) (s : Server) (id : Nat) (answered : Request) (reply : Reply)
    (h : answered = r → reply.status = 0) :
    Silent r s (s.writeFrame ω id answered reply) := by
  rw [writeFrame]
  cases s.findSession id with
  | none => exact .refl s
  | some session =>
    simp only
    split
    · exact .refl s
    · have hrecord : Silent r s (s.record (.answer
          ⟨id, session.currentMessageType, session.currentRequestId, answered, reply⟩)) := by
        refine ⟨[_], rfl, ?_⟩
        intro e he frame hframe hrequest
        cases List.mem_singleton.1 he
        cases hframe
        exact h hrequest
      split
      · exact hrecord.trans (.of_same rfl)
      · exact hrecord.trans (.of_same (closeSession_history _ id))

theorem silent_other (ω : System) (s : Server) (id : Nat) {answered : Request} (reply : Reply)
    (h : answered ≠ r) : Silent r s (s.writeFrame ω id answered reply) :=
  silent_writeFrame ω s id answered reply fun heq => absurd heq h

theorem ne_log (h : r.Orders) (name : String) (mode : LogRequestMode) :
    Request.log name mode ≠ r := by
  rintro rfl
  exact h

theorem silent_failPending (horder : r.Orders) (ω : System) (s : Server)
    (name message : String) : Silent r s (s.failPendingLogSessions ω name message) := by
  have hwrite (s : Server) (id : Nat) : Silent r s
      (s.writeFrame ω id (.log name .live) { status := -1, message := message }) :=
    silent_other ω s id _ (ne_log horder name .live)
  exact (Silent.foldl _ hwrite _ s).trans (.of_same rfl)

theorem silent_asyncKillProg (ω : System) (s : Server) (name : String) :
    Silent r s (s.asyncKillProg ω name) := by
  rw [asyncKillProg]
  cases s.findProg name with
  | none => exact .refl s
  | some p =>
    simp only
    split
    · exact Silent.trans (.of_same rfl) (silent_record _ _ fun _ => Call.noConfusion)
    · exact .of_same rfl

theorem silent_removeProg (horder : r.Orders) (ω : System) (s : Server) (name : String) :
    Silent r s (s.removeProg ω name) := by
  have hdetach (s : Server) : Silent r s (s.detachSessions ω name) := by
    have hmark (s : Server) (id : Nat) : Silent r s (s.setSession id fun session =>
        { session with markedClose := true, prog := none }) := .of_same rfl
    have hclear := Silent.foldl _ hmark (sessionsOf s.logSessions name) s
    exact (hclear.trans (.of_same rfl)).trans (silent_failPending horder ω _ name _)
  have hrebuild (s : Server) : Silent r s s.rebuildDependencyGraph := by
    rw [rebuildDependencyGraph]
    cases buildProgDependencyGraph s.pmTinyProgs with
    | error error => exact .refl s
    | ok graph =>
      simp only [markRunning_eq]
      exact .of_same rfl
  have hdrop : Silent r s
      { s with pmTinyProgs := Keyed.remove ProgInfo.name name s.pmTinyProgs } := .of_same rfl
  exact (hdrop.trans (hdetach _)).trans (hrebuild _)

theorem silent_flagStartupFail (s : Server) (name : String) :
    Silent r s (s.flagStartupFail name) := by
  have hblock (s : Server) (name : String) : Silent r s (s.blockProg name) := by
    rw [blockProg]
    cases s.findProg name with
    | none => exact .refl s
    | some p =>
      exact (silent_record s (.blocked name) fun _ => Call.noConfusion).trans (.of_same rfl)
  exact Silent.trans (.of_same rfl) (.foldl _ hblock _ _)

theorem silent_serverExiting (ω : System) (s : Server) (id : Nat) {answered : Request}
    (h : answered ≠ r) : Silent r s (s.serverExiting ω id answered).2 := by
  rw [serverExiting]
  split
  · exact silent_other ω s id _ h
  · split
    · exact silent_other ω s id _ h
    · exact .refl s

theorem silent_answerSuccess (ω : System) (s : Server) (id : Nat) {answered : Request}
    (h : answered ≠ r) : Silent r s (s.answerSuccess ω id answered) := by
  have hexit := silent_serverExiting (r := r) ω s id h
  rw [answerSuccess]
  split
  · dsimp only
    split
    · exact hexit
    · exact hexit.trans (silent_other ω _ id _ h)
  · exact .refl s

theorem silent_realSpawnProg (ω : System) (s : Server) (name : String) (site : SpawnSite) :
    Silent r s (s.realSpawnProg ω name site).2 := by
  have hrecord := silent_record (r := r) s (.realSpawnProg name site)
    fun _ => Call.noConfusion
  exact hrecord.trans (.of_same (history_realSpawnProg ω s name site))

theorem silent_startProg (horder : r.Orders) (ω : System) (s : Server) (name : String)
    (site : SpawnSite) : Silent r s (s.startProg ω name site).2 := by
  have hspawn := silent_realSpawnProg (r := r) ω s name site
  have hactivate (s : Server) : Silent r s (s.activatePendingLogSessions ω name) := by
    apply Silent.trans (.foldl _ _ _ s) (.of_same rfl)
    intro s id
    split
    · exact Silent.trans (.of_same rfl) (silent_other ω _ id _ (ne_log horder name .live))
    · exact .refl s
  rw [startProg]
  split
  · exact .refl s
  · dsimp only
    split
    · exact hspawn.trans (hactivate _)
    · exact hspawn

theorem silent_startProgTask (horder : r.Orders) (ω : System) (s : Server) (name : String)
    (id : Nat) (showLog : Bool) (site : SpawnSite) (h : .restart name showLog ≠ r) :
    Silent r s (s.startProgTask ω name id showLog site) := by
  have hexit := silent_serverExiting (r := r) ω s id h
  rw [startProgTask]
  split
  · dsimp only
    split
    · exact hexit
    · have hstart := hexit.trans (silent_startProg horder ω _ name site)
      split
      · exact hstart.trans (silent_other ω _ id _ h)
      · split
        · exact hstart.trans (Silent.trans (.of_same rfl) (silent_other ω _ id _ h))
        · exact hstart.trans (Silent.trans (.of_same rfl) (silent_other ω _ id _ h))
  · exact .refl s

theorem silent_runTask (ω : System) (s : Server) (name : String) (task : Task) :
    Silent .reload s (s.runTask ω name task) := by
  cases task with
  | planRestart nowMs lifeTime => exact .of_same rfl
  | timeoutRestart =>
    rw [runTask, timeoutRestart]
    dsimp only
    split
    · exact .of_same rfl
    · exact Silent.trans (.of_same rfl) (silent_flagStartupFail _ name)
  | stopProc id => exact silent_answerSuccess ω s id Request.noConfusion
  | deleteProg id => exact silent_answerSuccess ω s id Request.noConfusion
  | startProg id showLog =>
    exact silent_startProgTask (r := .reload) trivial ω s name id showLog .task
      Request.noConfusion

theorem silent_executePenddingtasks (ω : System) (s : Server) (name : String) (site : TaskSite) :
    Silent .reload s (s.executePenddingtasks ω name site) := by
  have hpending (generation : Nat) (s : Server) (pending : GenerationTask) :
      Silent .reload s (runPending ω name site generation s pending) := by
    rw [runPending]
    split
    · exact (silent_record s (.runTask name pending.task site) fun _ => Call.noConfusion).trans
        (silent_runTask ω _ name pending.task)
    · exact .refl s
  rw [executePenddingtasks]
  cases s.findProg name with
  | none => exact .refl s
  | some p =>
    dsimp only
    split
    · exact .refl s
    · exact (Silent.foldl _ (hpending _) _ s).trans (.of_same rfl)

theorem silent_quitProg (ω : System) (s : Server) (name : String) :
    Silent .reload s (quitProg ω s name) := by
  let s₀ := s.setProg name (·.resetRestartPolicy)
  have hreset : Silent .reload s s₀ := .of_same rfl
  have hkill : Silent .reload s (if (s₀.findProg name).any (·.live) then
      (s₀.asyncKillProg ω name).executePenddingtasks ω name .quit else s₀) := by
    split
    · exact (hreset.trans (silent_asyncKillProg ω _ name)).trans
        (silent_executePenddingtasks ω _ name .quit)
    · exact hreset
  have hsettle (s : Server) :
    Silent .reload s (if (s.findProg name).any (·.state = .waitingStart) then
      s.setProg name (·.setState .noRun) else s) := by
    split <;> exact .of_same rfl
  exact hkill.trans (hsettle _)

theorem silent_requestQuit (ω : System) (s : Server) : Silent .reload s (s.requestQuit ω) := by
  have hexit : Silent .reload s { s with serverExit := true } := .of_same rfl
  rw [requestQuit]
  split
  · exact .refl s
  · exact (hexit.trans (silent_record _ .requestQuit fun _ => Call.noConfusion)).trans
      (.foldl _ (silent_quitProg ω) _ _)

theorem Untouched.of_talk (hr : s'.toRegistry = s.toRegistry)
    (hw : s'.pendingLogSessions = s.pendingLogSessions) : s.Untouched s' where
  programs := by rw [hr]
  waits := hw
  runtime := by rw [hr]
  reload := by rw [hr]

theorem Untouched.congr (hr : s''.toRegistry = s'.toRegistry)
    (hw : s''.pendingLogSessions = s'.pendingLogSessions) : s.Untouched s'' ↔ s.Untouched s' := by
  constructor
  · rintro ⟨hprogs, hwaits, hruntime, hreload⟩
    rw [hr] at hprogs hruntime hreload
    exact ⟨hprogs, hw.symm.trans hwaits, hruntime, hreload⟩
  · rintro ⟨hprogs, hwaits, hruntime, hreload⟩
    rw [← hr] at hprogs hruntime hreload
    exact ⟨hprogs, hw.trans hwaits, hruntime, hreload⟩

theorem pendingLogSessions_writeFrame :
    (s.writeFrame ω id request reply).pendingLogSessions = s.pendingLogSessions := by
  have hclose (s : Server) : (s.closeSession id).pendingLogSessions = s.pendingLogSessions := by
    rw [closeSession]
    split
    · rfl
    · split
      · rfl
      · dsimp only
        split <;> rfl
  rw [writeFrame]
  split
  · rfl
  · split
    · rfl
    · dsimp only
      split
      · rfl
      · exact hclose _

theorem pendingLogSessions_serverExiting :
    (s.serverExiting ω id request).2.pendingLogSessions = s.pendingLogSessions := by
  rw [serverExiting]
  split
  · exact pendingLogSessions_writeFrame
  · split
    · exact pendingLogSessions_writeFrame
    · rfl

theorem untouched_writeFrame : s.Untouched (s.writeFrame ω id request reply) :=
  .of_talk toRegistry_writeFrame pendingLogSessions_writeFrame

theorem untouched_serverExiting : s.Untouched (s.serverExiting ω id request).2 :=
  .of_talk talks_serverExiting.reg pendingLogSessions_serverExiting

theorem handleStop_cases (ω : System) (s : Server) (id : Nat) (name : String) :
    s.Untouched (s.handleStop ω id name) ∨ Silent (.stop name) s (s.handleStop ω id name) := by
  rw [handleStop]
  cases s.findProg name with
  | none => exact .inl untouched_writeFrame
  | some p =>
    dsimp only
    split
    · exact .inl untouched_writeFrame
    · cases hx : s.serverExit with
      | true =>
        rw [if_pos (serverExiting_fst.trans hx)]
        exact .inl untouched_serverExiting
      | false =>
        rw [serverExiting_of_running hx, if_neg (by simp)]
        right
        have hfail :
          Silent (.stop name) s ((s.setProg name (·.resetRestartPolicy)).failPendingLogSessions
            ω name "log wait canceled by stop") :=
          Silent.trans (.of_same rfl) (silent_failPending (r := .stop name) trivial ω _ name _)
        split
        · exact (hfail.trans (silent_asyncKillProg ω _ name)).trans (.of_same rfl)
        · apply hfail.trans
          apply Silent.trans (silent_record _ (.stopIdle name) fun _ => Call.noConfusion)
          exact Silent.trans (.of_same rfl) (silent_writeFrame ω _ id _ success fun _ => rfl)

theorem silent_answered (ω : System) (id : Nat) (answered : Request) (hx : s.serverExit = false) :
    Silent r s (s.answerSuccess ω id answered) := by
  rw [answerSuccess]
  split
  · rw [serverExiting_of_running hx]
    exact silent_writeFrame ω s id answered success fun _ => rfl
  · exact .refl s

theorem handleRemove_cases (ω : System) (s : Server) (id : Nat) (name : String) :
    s.Untouched (s.handleRemove ω id name) ∨
      Silent (.remove name) s (s.handleRemove ω id name) := by
  rw [handleRemove]
  cases s.findProg name with
  | none => exact .inl untouched_writeFrame
  | some p =>
    dsimp only
    split
    · exact .inl untouched_writeFrame
    · split
      · exact .inl untouched_writeFrame
      · cases hx : s.serverExit with
        | true =>
          rw [if_pos (serverExiting_fst.trans hx)]
          exact .inl untouched_serverExiting
        | false =>
          rw [serverExiting_of_running hx, if_neg (by simp)]
          right
          split
          · exact (silent_asyncKillProg ω s name).trans (.of_same rfl)
          · have htrigger (s : Server) :
                (s.triggerDAGTraversalNextNode name).history = s.history ∧
                  (s.triggerDAGTraversalNextNode name).serverExit = s.serverExit := by
              rw [triggerDAGTraversalNextNode]
              split <;> exact ⟨rfl, rfl⟩
            obtain ⟨hhistory, hexit⟩ := htrigger (s.record (.removeIdle name))
            have hanswered := silent_answered (r := .remove name) ω id (.remove name)
              (hexit.trans hx)
            apply Silent.trans (silent_record _ (.removeIdle name) fun _ => Call.noConfusion)
            apply Silent.trans (.of_same hhistory)
            exact hanswered.trans (silent_removeProg (r := .remove name) trivial ω _ name)

theorem handleReload_cases (ω : System) (s : Server) (id : Nat) :
    s.Untouched (s.handleReload ω id) ∨ Silent .reload s (s.handleReload ω id) := by
  rw [handleReload]
  dsimp only
  cases hx : s.serverExit with
  | true =>
    rw [if_pos (serverExiting_fst.trans hx)]
    exact .inl untouched_serverExiting
  | false =>
    rw [serverExiting_of_running hx, if_neg (by simp)]
    split
    · exact .inl untouched_writeFrame
    · split
      · exact .inl (.of_talk toRegistry_writeFrame pendingLogSessions_writeFrame)
      · right
        let queued : Server :=
          { s.tick with reloadConfig := some (parseCfg2 (ω.loadProgCfg s.ticks)) }
        have hquit : Silent .reload s (queued.requestQuit ω) :=
          Silent.trans (.of_same rfl) (silent_requestQuit ω queued)
        exact hquit.trans (.of_same rfl)

/-- The state in which a refused restart is answered: the policy has been reset. -/
structure Forgets (s s' : Server) (name : String) : Prop where
  registry : s'.toRegistry = (s.setProg name (·.resetRestartPolicy)).toRegistry
  sessions : s'.sessions = s.sessions
  waits : s'.pendingLogSessions = s.pendingLogSessions
  history : ∃ new, s'.history = new ++ s.history ∧
    ∀ e ∈ new, ∀ name site, e.call ≠ .realSpawnProg name site

theorem serverExiting_of_exit (ω : System) (id : Nat) (request : Request)
    (hx : s.serverExit = true) : ∃ reply : Reply, reply.status ≠ 0 ∧
      (s.serverExiting ω id request).2 = s.writeFrame ω id request reply := by
  rw [serverExiting]
  split
  · exact ⟨_, by simp, rfl⟩
  · rename_i hreloading
    exact ⟨_, by simp, rfl⟩

theorem handleRestart_refused (showLog : Bool) (hp : s.findProg name = some p)
    (hrefused : s.toRegistry.RefusesRestart p) (hopen : s.isOpen id = true) :
    ∃ (s' : Server) (reply : Reply), s.Forgets s' name ∧ reply.status ≠ 0 ∧
      s.handleRestart ω id name showLog = s'.writeFrame ω id (.restart name showLog) reply := by
  have hreset : s.Forgets (s.setProg name (·.resetRestartPolicy)) name :=
    ⟨rfl, rfl, rfl, [], rfl, by simp⟩
  rw [handleRestart, hp]
  dsimp only
  by_cases htasks : p.killPendingtasks = []
  · obtain ⟨hlive, hx⟩ := hrefused.resolve_left (not_not.2 htasks)
    let s' := (s.setProg name (·.resetRestartPolicy)).record (.restartIdle name)
    have hforgets : s.Forgets s' name :=
      ⟨rfl, rfl, rfl, [⟨.restartIdle name, _⟩], rfl, by simp⟩
    obtain ⟨reply, hstatus, hexiting⟩ :=
      serverExiting_of_exit (s := s') ω id (.restart name showLog) hx
    refine ⟨s', reply, hforgets, hstatus, ?_⟩
    rw [if_neg (not_not.2 htasks), if_neg (by simp [hlive])]
    rw [← hexiting]
    exact startProgTask_of_exiting ω s' name id showLog .restart hopen (serverExiting_fst.trans hx)
  · rw [if_pos htasks]
    exact ⟨_, _, hreset, by simp, rfl⟩

theorem startProg_spawns (ω : System) (site : SpawnSite)
    (hlive : (s.findProg name).any (·.live) = false) :
    ∃ new, (s.startProg ω name site).2.history = new ++ s.history ∧
      ∃ e ∈ new, e.call = .realSpawnProg name site := by
  have hspawn := history_realSpawnProg ω s name site
  rw [startProg, if_neg (by simp [hlive])]
  dsimp only
  split
  · rename_i hstarted
    obtain ⟨p, hp, hp'⟩ := live_realSpawnProg hstarted
    obtain ⟨new, hnew, -⟩ := (follows_activatePending (K := AnyAnswer) ω
      (s.realSpawnProg ω name site).2 hp hp').events
    rw [hnew, hspawn]
    exact ⟨new ++ [_], List.append_cons _ _ _, _, List.mem_append_right _ List.mem_cons_self, rfl⟩
  · exact ⟨[_], hspawn, _, List.mem_cons_self, rfl⟩

/-- A restart that can be carried out is not refused, but the start of the program may fail. -/
theorem handleRestart_accepted (showLog : Bool) (hp : s.findProg name = some p)
    (haccepted : ¬s.toRegistry.RefusesRestart p) :
    Silent (.restart name showLog) s (s.handleRestart ω id name showLog) ∨
      ∃ new, (s.handleRestart ω id name showLog).history = new ++ s.history ∧
        ∃ e ∈ new, e.call = .realSpawnProg name .restart := by
  obtain ⟨htasks, hrunning⟩ := not_or.1 haccepted
  rw [handleRestart, hp]
  dsimp only
  rw [if_neg htasks]
  split
  · left
    have hreset : Silent (.restart name showLog) s (s.setProg name (·.resetRestartPolicy)) :=
      .of_same rfl
    exact (hreset.trans (silent_asyncKillProg ω _ name)).trans (.of_same rfl)
  · rename_i hlive
    have hdead : p.live = false := by simpa using hlive
    let s' := (s.setProg name (·.resetRestartPolicy)).record (.restartIdle name)
    have hx : s'.serverExit = false := by
      cases hx : s.serverExit with
      | false => exact hx
      | true => exact absurd ⟨hdead, hx⟩ hrunning
    have hidle : Silent (.restart name showLog) s s' :=
      Silent.trans (.of_same rfl) (silent_record _ (.restartIdle name) fun _ => Call.noConfusion)
    cases hopen : s'.isOpen id with
    | false =>
      left
      rw [startProgTask_of_closed ω s' name id showLog .restart hopen]
      exact hidle
    | true =>
      right
      have hfind : s'.findProg name = some p.resetRestartPolicy :=
        findProg_setProg (fun _ => ⟨rfl, rfl⟩) hp
      have hlive' : (s'.findProg name).any (·.live) = false := by
        rw [hfind]
        exact hdead
      obtain ⟨new, hnew, e, he, hcall⟩ := startProg_spawns ω .restart hlive'
      have hrest := follows_startProgTask_rest (K := AnyAnswer) ω s' name id showLog .restart hopen
        (serverExiting_fst.trans hx)
      rw [serverExiting_of_running hx] at hrest
      obtain ⟨later, hlater, -⟩ := hrest.events
      let idle : Event :=
        ⟨.restartIdle name, (s.setProg name (·.resetRestartPolicy)).toRegistry⟩
      refine ⟨later ++ new ++ [idle], ?_, e, ?_, hcall⟩
      · rw [hlater, hnew, List.append_assoc, List.append_assoc]
        rfl
      · exact List.mem_append_left _ (List.mem_append_right _ he)

theorem Silent.not_refuses {type requestId : Nat}
    (h : Silent request s (s.step ω (.request id type requestId request))) :
    ¬s.Refuses ω id type requestId request := by
  obtain ⟨new, hnew, hsilent⟩ := h
  rintro ⟨⟨e, he, frame, hframe, -, hrequest, hstatus⟩, -⟩
  rw [since_eq hnew] at he
  exact hstatus (hsilent e he frame hframe hrequest)

theorem standing_reset {p : ProgInfo} : p.resetRestartPolicy.standing = p.standing ↔
    p.restartPending = false ∧ p.restartState = {} := by
  rw [ProgInfo.standing, ProgInfo.standing, ProgInfo.resetRestartPolicy]
  simp only [Standing.mk.injEq, true_and, and_true]
  exact and_congr eq_comm eq_comm

theorem Forgets.untouched_iff (h : s.Forgets s' name) (hp : s.findProg name = some p)
    (hn : (s.pmTinyProgs.map (·.name)).Nodup) :
    s.Untouched s' ↔ p.restartPending = false ∧ p.restartState = {} := by
  have hprogs : s'.pmTinyProgs =
      s.pmTinyProgs.map fun q => if q.name = name then q.resetRestartPolicy else q :=
    congrArg Registry.pmTinyProgs h.registry
  constructor
  · intro huntouched
    have hsame := huntouched.programs
    rw [hprogs, List.map_map, List.map_inj_left] at hsame
    have hstanding := hsame p (Registry.mem_of_find hp)
    rw [Function.comp_apply, if_pos (Registry.name_of_find hp)] at hstanding
    exact standing_reset.1 hstanding
  · intro hpolicy
    have hruntime : s'.dependencyRuntime = s.dependencyRuntime := by
      rw [h.registry]
      rfl
    have hreload : s'.reloadConfig = s.reloadConfig := by
      rw [h.registry]
      rfl
    refine ⟨?_, h.waits, hruntime, hreload⟩
    rw [hprogs, List.map_map]
    apply List.map_congr_left
    intro q hq
    rw [Function.comp_apply]
    split
    · rename_i hname
      have hfind : s.findProg q.name = some q := Keyed.find_of_mem hn hq
      rw [hname, hp] at hfind
      cases hfind
      exact standing_reset.2 hpolicy
    · rfl

/-- The session of a message was told of it, and nothing else has changed. -/
structure Addressed (s s' : Server) : Prop where
  registry : s'.toRegistry = s.toRegistry
  waits : s'.pendingLogSessions = s.pendingLogSessions
  history : s'.history = s.history

theorem Addressed.untouched_iff (h : s.Addressed s') : s'.Untouched s'' ↔ s.Untouched s'' := by
  constructor
  · rintro ⟨hprogs, hwaits, hruntime, hreload⟩
    rw [h.registry] at hprogs hruntime hreload
    exact ⟨hprogs, hwaits.trans h.waits, hruntime, hreload⟩
  · rintro ⟨hprogs, hwaits, hruntime, hreload⟩
    rw [← h.registry] at hprogs hruntime hreload
    exact ⟨hprogs, hwaits.trans h.waits.symm, hruntime, hreload⟩

theorem Addressed.silent (h : s.Addressed s') (hsilent : Silent r s' s'') : Silent r s s'' :=
  Silent.trans (.of_same h.history) hsilent

theorem step_received (ω : System) (type requestId : Nat) (request : Request) (h : s.Receives id) :
    ∃ s₀, s.Addressed s₀ ∧ s₀.isOpen id = true ∧
      s.step ω (.request id type requestId request) = s₀.handleFrame ω id request := by
  obtain ⟨hstopped, hsession⟩ := h
  have hopen : s.isOpen id = true := by
    obtain ⟨session, hfind, hlistens⟩ := (Option.any_eq_true _ _).1 hsession
    rw [isOpen, hfind, Option.any_some]
    exact (Bool.and_eq_true _ _ ▸ hlistens).1
  refine ⟨s.setSession id fun session => { session with
    currentMessageType := type, currentRequestId := requestId }, ⟨rfl, rfl, rfl⟩, ?_, ?_⟩
  · exact isOpen_setSession hopen (fun _ => rfl) fun _ => rfl
  · rw [step, if_neg (by simp [hstopped])]
    rw [dispatchMessage, if_pos hsession]

theorem step_not_received {type requestId : Nat} (h : ¬s.Receives id) :
    s.step ω (.request id type requestId request) = s := by
  rw [step]
  split
  · rfl
  · rename_i hstopped
    rw [dispatchMessage, if_neg]
    intro hsession
    exact h ⟨by simpa using hstopped, hsession⟩

theorem refuses_restart (ω : System) (type requestId : Nat) (showLog : Bool)
    (hreceives : s.Receives id) (hp : s.findProg name = some p)
    (hrefused : s.toRegistry.RefusesRestart p) (hn : (s.pmTinyProgs.map (·.name)).Nodup) :
    s.Refuses ω id type requestId (.restart name showLog) ∧
      (s.Untouched (s.step ω (.request id type requestId (.restart name showLog))) ↔
        p.restartPending = false ∧ p.restartState = {}) := by
  obtain ⟨s₀, haddressed, hopen, hstep⟩ :=
    step_received ω type requestId (.restart name showLog) hreceives
  have hp₀ : s₀.findProg name = some p := by rw [haddressed.registry, hp]
  have hrefused₀ : s₀.toRegistry.RefusesRestart p := by rwa [haddressed.registry]
  have hn₀ : (s₀.pmTinyProgs.map (·.name)).Nodup := by rwa [haddressed.registry]
  obtain ⟨s', reply, hforgets, hstatus, hhandled⟩ :=
    handleRestart_refused (ω := ω) showLog hp₀ hrefused₀ hopen
  rw [handleFrame, hhandled] at hstep
  constructor
  · have hopen' : s'.isOpen id = true := by
      rw [isOpen, findSession, hforgets.sessions]
      exact hopen
    obtain ⟨frame, hanswer, hsession, hrequest, hreply⟩ :=
      history_writeFrame ω hopen' (.restart name showLog) reply
    obtain ⟨new, hnew, hquiet⟩ := hforgets.history
    have hsince : s.since (s.step ω (.request id type requestId (.restart name showLog))) =
        ⟨.answer frame, s'.toRegistry⟩ :: new := by
      apply since_eq
      rw [hstep, hanswer, hnew, haddressed.history, List.cons_append]
    rw [Refuses, hsince]
    constructor
    · exact ⟨_, List.mem_cons_self, frame, rfl, hsession, hrequest, hreply ▸ hstatus⟩
    · intro e he
      rcases List.mem_cons.1 he with rfl | he
      · exact fun _ _ => Call.noConfusion
      · exact hquiet e he
  · rw [hstep, ← hforgets.untouched_iff hp₀ hn₀, ← haddressed.untouched_iff]
    exact Untouched.congr toRegistry_writeFrame pendingLogSessions_writeFrame

theorem refusesCleanly_iff (hn : (s.pmTinyProgs.map (·.name)).Nodup) (input : Input) :
    s.RefusesCleanly ω input ↔ s.SparesPolicy input := by
  constructor
  · intro hclean id type requestId name showLog p hinput hreceives hp hrefused
    obtain ⟨hrefuses, huntouched⟩ :=
      refuses_restart ω type requestId showLog hreceives hp hrefused hn
    rw [← huntouched, ← hinput]
    exact hclean id type requestId _ hinput trivial hrefuses
  · intro hspares id type requestId request hinput horder hrefuses
    by_cases hreceives : s.Receives id
    · obtain ⟨s₀, haddressed, hopen, hstep⟩ := step_received ω type requestId request hreceives
      -- The handler left everything as it is, or gave no answer that refuses the request.
      have hsettle (h : s₀.Untouched (s₀.handleFrame ω id request) ∨
          Silent request s₀ (s₀.handleFrame ω id request)) : s.Untouched (s.step ω input) := by
        rw [hinput, hstep]
        rcases h with h | h
        · exact haddressed.untouched_iff.1 h
        · have hsilent := haddressed.silent h
          rw [← hstep] at hsilent
          exact absurd hrefuses hsilent.not_refuses
      cases request with
      | stop name => exact hsettle (handleStop_cases ω s₀ id name)
      | remove name => exact hsettle (handleRemove_cases ω s₀ id name)
      | reload => exact hsettle (handleReload_cases ω s₀ id)
      | restart name showLog =>
        cases hp : s.findProg name with
        | none =>
          have hp₀ : s₀.findProg name = none := by rw [haddressed.registry, hp]
          apply hsettle
          left
          rw [handleFrame, handleRestart, hp₀]
          exact untouched_writeFrame
        | some p =>
          by_cases hrefused : s.toRegistry.RefusesRestart p
          · rw [hinput, (refuses_restart ω type requestId showLog hreceives hp hrefused hn).2]
            exact hspares id type requestId name showLog p hinput hreceives hp hrefused
          · have hp₀ : s₀.findProg name = some p := by rw [haddressed.registry, hp]
            rcases handleRestart_accepted (ω := ω) showLog hp₀ (by rwa [haddressed.registry]) with
              hsilent | ⟨new, hnew, e, he, hcall⟩
            · exact hsettle (.inr hsilent)
            · rw [← handleFrame, ← hstep, haddressed.history] at hnew
              exact absurd hcall (hrefuses.2 e (since_eq hnew ▸ he) name .restart)
      | list | info | version | save | quit => exact horder.elim
      | start | log | appReady | appTick | inspect | malformed => exact horder.elim
    · rw [hinput, step_not_received hreceives]
      exact .of_talk rfl rfl

theorem Along.congr {K K' : Server → Input → Prop} (h : Reachable ω s)
    (hK : ∀ s input, Reachable ω s → (K s input ↔ K' s input)) (inputs : List Input) :
    Along K ω s inputs ↔ Along K' ω s inputs := by
  induction inputs generalizing s with
  | nil => exact Iff.rfl
  | cons input inputs ih => exact and_congr (hK s input h) (ih (h.step input))

/-- In a run of the daemon, every refusal leaves the programs and what waits for them as they are
exactly when no restart that has to be refused finds a restart pending or attempts to forget. -/
theorem refusals_change_nothing_iff (h : Reachable ω s) (inputs : List Input) :
    Along (RefusesCleanly ω) ω s inputs ↔ Along SparesPolicy ω s inputs := by
  apply Along.congr h
  intro s input hs
  exact refusesCleanly_iff hs.base.nodup input

/-- The second generation of the program leaves a descendant behind. -/
def leftBehind : System :=
  { simpleSystem [{ name := "p", restart := { delayMs := 40 } }] [] with
    members := fun tick _ => if tick < 9 then [] else [7] }

/-- The client is heard, and an action of the program is not completed after earlier restarts. -/
def drainsWithAttempts (s : Server) : Bool :=
  !s.stopped &&
    (s.findSession 1).any (fun session => !session.closed && !session.markedClose) &&
    (s.findProg "p").any fun p => !p.killPendingtasks.isEmpty && decide (p.restartState ≠ {})

theorem attempts_to_forget : ∃ s, Reachable leftBehind s ∧
    ¬s.SparesPolicy (.request 1 0 1 (.restart "p" false)) := by
  obtain ⟨s, hreach, hs⟩ := runFrom_any (ω := leftBehind)
    [.connect 1 none, .maintenance false (some [(101, 0)]), .maintenance false none,
      .maintenance false (some [(108, 0)])]
    drainsWithAttempts (by decide +kernel)
  simp only [drainsWithAttempts, Bool.and_eq_true, Bool.not_eq_true', Option.any_eq_true,
    List.isEmpty_eq_false_iff, decide_eq_true_eq] at hs
  obtain ⟨⟨hstopped, session, hfind, hopen⟩, p, hp, htasks, hattempts⟩ := hs
  refine ⟨s, hreach, fun hspares => hattempts ?_⟩
  have hreceives : s.Receives 1 := by
    refine ⟨hstopped, ?_⟩
    rw [hfind]
    simp [hopen]
  exact (hspares 1 0 1 "p" false p rfl hreceives hp (.inl htasks)).2

/-- A restart is refused, and the attempts that limit the restarts of its program are gone. -/
theorem attempts_forgotten :
    ¬∀ ω s, Reachable ω s → ∀ input, s.RefusesCleanly ω input := by
  intro hclean
  obtain ⟨s, hreach, hspares⟩ := attempts_to_forget
  exact hspares ((refusesCleanly_iff hreach.base.nodup _).1 (hclean leftBehind s hreach _))

theorem refusals_change_nothing_iff_draining : ∃ s, Reachable leftBehind s ∧
    (Along (RefusesCleanly leftBehind) leftBehind s [.request 1 0 1 (.restart "p" false)] ↔
      Along SparesPolicy leftBehind s [.request 1 0 1 (.restart "p" false)]) ∧
    ¬Along (RefusesCleanly leftBehind) leftBehind s [.request 1 0 1 (.restart "p" false)] := by
  obtain ⟨s, hreach, hspares⟩ := attempts_to_forget
  have hiff := refusals_change_nothing_iff hreach [.request 1 0 1 (.restart "p" false)]
  exact ⟨s, hreach, hiff, fun hclean => hspares (hiff.1 hclean).1⟩

end Server
end PmTiny
