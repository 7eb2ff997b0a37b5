import PmTiny.Daemon.ReplySizes
import PmTiny.Trace.Runs

namespace PmTiny
set_option autoImplicit true

namespace Server

variable {s s' : Server} {ω : System} {d : Details} {id : Nat} {request : Request}

def Snapshot : Request → Prop
  | .list | .info | .inspect _ => True
  | _ => False

/-- The bytes that a response to a snapshot request may have: it must fit a message, and the queue
of the session when that is empty. -/
def snapshotLimit (queuedBytes : Nat) : Nat :=
  if queuedBytes = 0 then sessionQueueLimit - ProtocolV3.headerSize else protocolV3MaxPayload

def Roomy (d : Details) (ω : System) (s : Server) (id queuedBytes : Nat) : Request → Prop
  | .malformed error => 8 + error.utf8ByteSize ≤ protocolV3MaxPayload
  | .list => 15 + processListSize (s.pmTinyProgs.map d.entry) ≤ snapshotLimit queuedBytes
  | .info =>
    d.daemon.config.allowedUids.length ≤ daemonInfoMaxItems ∧
      d.daemon.config.allowedGids.length ≤ daemonInfoMaxItems ∧
      15 + d.daemon.infoSize ≤ snapshotLimit queuedBytes
  | .version => 19 + d.daemon.version.utf8ByteSize ≤ protocolV3MaxPayload
  | .stop name | .restart name _ =>
    (s.findProg name = none → 20 + name.utf8ByteSize ≤ protocolV3MaxPayload) ∧
      ∀ p, s.findProg name = some p → p.killPendingtasks ≠ [] →
        68 + name.utf8ByteSize ≤ protocolV3MaxPayload
  | .start request => StartRoomy ω s id request
  | .remove name =>
    (s.findProg name = none → 20 + name.utf8ByteSize ≤ protocolV3MaxPayload) ∧
      ∀ p, s.findProg name = some p →
        (s.dependencyDependents name ≠ [] → 39 + name.utf8ByteSize +
          (",".intercalate (s.dependencyDependents name)).utf8ByteSize ≤ protocolV3MaxPayload) ∧
        (s.dependencyDependents name = [] → p.killPendingtasks ≠ [] →
          68 + name.utf8ByteSize ≤ protocolV3MaxPayload)
  | .log name mode =>
    (s.findProg name = none → 20 + name.utf8ByteSize ≤ protocolV3MaxPayload) ∧
      ∀ p, s.findProg name = some p →
        (mode = .live → p.live = false → p.restartPending = false →
          88 + 2 * name.utf8ByteSize ≤ protocolV3MaxPayload) ∧
        (mode = .history → p.live = true → 36 + 2 * name.utf8ByteSize ≤ protocolV3MaxPayload) ∧
        (mode = .history → p.live = false →
          p.inst.generation = 0 ∨ p.hasLastExit = false ∨ p.lastExitTimeUnixMs ≤ 0 →
          52 + name.utf8ByteSize ≤ protocolV3MaxPayload)
  | .inspect name =>
    (s.findProg name = none → 20 + name.utf8ByteSize ≤ snapshotLimit queuedBytes) ∧
      ∀ p, s.findProg name = some p →
        19 + (d.config p).size + (d.runtime p).size ≤ snapshotLimit queuedBytes
  | .reload =>
    s.serverExit = false → s.persistence.busy = false →
      (parseCfg2 (ω.loadProgCfg s.ticks)).valid = false →
      8 + (parseCfg2 (ω.loadProgCfg s.ticks)).errorMessage.utf8ByteSize ≤ protocolV3MaxPayload
  | .save | .quit | .appReady _ | .appTick _ => True

theorem snapshotLimit_le (queuedBytes : Nat) :
    snapshotLimit queuedBytes ≤ protocolV3MaxPayload := by
  rw [snapshotLimit]
  split <;> decide

theorem size_success : success.message.utf8ByteSize = 7 := by decide

theorem Roomy.allows (hω : Terse ω) (h : Roomy d ω s id queuedBytes request) :
    Allows (fun r frame => frame.Sendable d r) ω s id request := by
  have hlimit := snapshotLimit_le queuedBytes
  cases request with
  | malformed error => exact fun _ => sendable_text h
  | list =>
    intro type requestId
    rw [Roomy] at h
    rw [sendable_iff, size_success]
    simp only [bodyFields, snapshotFields]
    rw [frameSize_appendProcessList]
    exact ⟨checksPass_appendProcessList (by omega), by omega⟩
  | info =>
    obtain ⟨huids, hgids, hsize⟩ := h
    intro type requestId
    rw [sendable_iff, size_success]
    simp only [bodyFields, snapshotFields]
    rw [frameSize_appendDaemonInfo, checksPass_appendDaemonInfo]
    exact ⟨⟨huids, hgids⟩, by omega⟩
  | version =>
    intro type requestId
    rw [Roomy] at h
    rw [sendable_iff, size_success]
    simp only [bodyFields, snapshotFields, frameSize_cons, frameSize_nil, Field.size]
    exact ⟨by simp, by omega⟩
  | stop name =>
    refine ⟨fun hp _ => sendable_text ?_, fun p hp htasks _ => sendable_text ?_⟩
    · have := h.1 hp
      rw [size_msgNotFound]
      omega
    · have := h.2 p hp htasks
      rw [size_msgCmdNotCompleted]
      omega
  | restart name showLog =>
    refine ⟨fun hp _ => sendable_text ?_, fun p hp htasks _ => sendable_text ?_⟩
    · have := h.1 hp
      rw [size_msgNotFound]
      omega
    · have := h.2 p hp htasks
      rw [size_msgCmdNotCompleted]
      omega
  | start request => exact fun _ _ => sendable_handleCmdStart hω h
  | remove name =>
    refine ⟨fun hp _ => sendable_text ?_, fun p hp => ⟨fun hdependents _ => sendable_text ?_,
      fun hdependents htasks _ => sendable_text ?_⟩⟩
    · have := h.1 hp
      rw [size_msgNotFound]
      omega
    · have := (h.2 p hp).1 hdependents
      rw [String.utf8ByteSize_append, size_quoted name (n := 31) (by decide)]
      omega
    · have := (h.2 p hp).2 hdependents htasks
      rw [size_msgCmdNotCompleted]
      omega
  | log name mode =>
    refine ⟨fun hp _ => sendable_text ?_, fun p hp => ⟨fun hmode hlive hpending _ =>
      sendable_text ?_, fun hmode hlive _ => sendable_text ?_, fun hmode hlive hempty _ =>
      sendable_text ?_⟩⟩
    · have := h.1 hp
      rw [size_msgNotFound]
      omega
    · have := (h.2 p hp).1 hmode hlive hpending
      rw [size_quoted_pair name name (n := 80) (by decide)]
      omega
    · have := (h.2 p hp).2.1 hmode hlive
      rw [size_quoted_pair name name (n := 28) (by decide)]
      omega
    · have := (h.2 p hp).2.2 hmode hlive hempty
      rw [size_quoted name (n := 44) (by decide)]
      omega
  | inspect name =>
    refine ⟨fun hp _ => sendable_text ?_, fun hp type requestId => ?_⟩
    · have := h.1 hp
      rw [size_msgNotFound]
      omega
    · obtain ⟨p, hp⟩ := Option.ne_none_iff_exists'.1 hp
      have := h.2 p hp
      rw [sendable_iff, size_success]
      simp only [bodyFields, snapshotFields, hp, Option.elim]
      rw [frameSize_appendInspectSnapshot]
      exact ⟨checksPass_appendInspectSnapshot _ (by omega), by omega⟩
  | reload =>
    intro hexit hbusy hvalid _
    apply sendable_text
    have := h hexit hbusy hvalid
    split
    · decide
    · exact this
  | save => trivial
  | quit => trivial
  | appReady name => trivial
  | appTick name => trivial

/-- The session as `read_message` leaves it when it takes a message off. -/
def address (s : Server) (id type requestId : Nat) : Server :=
  s.setSession id fun session =>
    { session with currentMessageType := type, currentRequestId := requestId }

def Listening (s : Server) (id : Nat) : Prop :=
  s.stopped = false ∧
    (s.findSession id).any (fun session => !session.closed && !session.markedClose) = true

instance : Decidable (s.Listening id) := inferInstanceAs (Decidable (_ ∧ _))

theorem Roomy.address (h : Roomy d ω s id queuedBytes request) (type requestId : Nat) :
    Roomy d ω (s.address id type requestId) id queuedBytes request := by
  cases request with
  | start request =>
    refine ⟨h.texts, h.uid, ?_, h.known, h.created, h.ordered⟩
    intro peer hpeer
    apply h.peer peer
    rw [Server.address, findSession_setSession s id fun _ => by rfl, Option.bind_map] at hpeer
    exact hpeer
  | malformed error => exact h
  | list => exact h
  | info => exact h
  | version => exact h
  | stop name => exact h
  | restart name showLog => exact h
  | remove name => exact h
  | log name mode => exact h
  | inspect name => exact h
  | reload => exact h
  | save => trivial
  | quit => trivial
  | appReady name => trivial
  | appTick name => trivial

theorem step_request (h : s.Listening id) (type requestId : Nat) (request : Request) :
    s.step ω (.request id type requestId request) =
      (s.address id type requestId).handleFrame ω id request := by
  rw [step.eq_def, h.1]
  simp only [Bool.false_eq_true, if_false]
  rw [dispatchMessage, if_pos h.2]
  rfl

theorem since_writeFrame (h : s.Listening id) {s' : Server} {reply : Reply} {type requestId : Nat}
    (hstep : s.step ω (.request id type requestId request) = s'.writeFrame ω id request reply)
    (hhistory : s'.history = s.history)
    (hsessions : s'.sessions = (s.address id type requestId).sessions) :
    s.since (s.step ω (.request id type requestId request)) =
      [⟨.answer ⟨id, type, requestId, request, reply⟩, s'.toRegistry⟩] := by
  obtain ⟨session, hsession, hopen⟩ := Option.any_eq_true _ _ |>.1 h.2
  rw [Bool.and_eq_true, Bool.not_eq_true'] at hopen
  have haddressed : s'.findSession id =
      some { session with currentMessageType := type, currentRequestId := requestId } := by
    rw [findSession, hsessions]
    apply (findSession_setSession s id _).trans
    · rw [hsession]
      rfl
    · exact fun _ => rfl
  apply since_eq
  rw [hstep, writeFrame, haddressed]
  simp only [hopen.1, Bool.false_eq_true, if_false]
  rw [← hhistory]
  split
  · rfl
  · exact closeSession_history _ id

/-- Nothing that the request makes the daemon say raises an exception, and a snapshot that is asked
for on an empty queue is queued. -/
def Replied (d : Details) (ω : System) (s : Server) (id type requestId queuedBytes : Nat)
    (request : Request) : Prop :=
  (∀ e ∈ s.since (s.step ω (.request id type requestId request)), ∀ frame,
    e.call = .answer frame → frame.Sendable d e.reg) ∧
  (Snapshot request → queuedBytes = 0 →
    ∃ e ∈ s.since (s.step ω (.request id type requestId request)), ∃ frame,
      e.call = .answer frame ∧ frame.session = id ∧
        ∃ queued, frame.send d e.reg queuedBytes = .ok (.queued queued))

theorem replied_direct_iff (h : s.Listening id) {s' : Server} {reply : Reply} {type requestId : Nat}
    (hstep : s.step ω (.request id type requestId request) = s'.writeFrame ω id request reply)
    (hhistory : s'.history = s.history)
    (hsessions : s'.sessions = (s.address id type requestId).sessions) :
    Replied d ω s id type requestId queuedBytes request ↔
      ChecksPass (bodyFields d s'.toRegistry request reply.body) ∧
        8 + reply.message.utf8ByteSize + frameSize (bodyFields d s'.toRegistry request reply.body) ≤
          protocolV3MaxPayload ∧
        (Snapshot request → queuedBytes = 0 → 24 + reply.message.utf8ByteSize +
          frameSize (bodyFields d s'.toRegistry request reply.body) ≤ sessionQueueLimit) := by
  rw [Replied, since_writeFrame h hstep hhistory hsessions]
  constructor
  · rintro ⟨hsend, hqueue⟩
    obtain ⟨hchecks, hsize⟩ := sendable_iff.1 (hsend _ List.mem_cons_self _ rfl)
    refine ⟨hchecks, hsize, ?_⟩
    intro hsnapshot hempty
    obtain ⟨e, he, frame, hcall, -, hqueued⟩ := hqueue hsnapshot hempty
    cases List.mem_singleton.1 he
    cases hcall
    rw [hempty] at hqueued
    exact (queued_iff.1 hqueued).2
  · rintro ⟨hchecks, hsize, hqueue⟩
    constructor
    · intro e he frame hcall
      cases List.mem_singleton.1 he
      cases hcall
      exact sendable_iff.2 ⟨hchecks, hsize⟩
    · intro hsnapshot hempty
      refine ⟨_, List.mem_cons_self, _, rfl, rfl, ?_⟩
      rw [hempty]
      exact queued_iff.2 ⟨hchecks, hqueue hsnapshot hempty⟩

theorem le_snapshotLimit_iff {n : Nat} : n ≤ snapshotLimit queuedBytes ↔
    n ≤ protocolV3MaxPayload ∧ (queuedBytes = 0 → 16 + n ≤ sessionQueueLimit) := by
  have hlimit : 16 ≤ sessionQueueLimit ∧ sessionQueueLimit ≤ protocolV3MaxPayload := by decide
  have hheader : ProtocolV3.headerSize = 16 := rfl
  rw [snapshotLimit, hheader]
  split
  · rename_i hempty
    constructor
    · intro h
      exact ⟨by omega, fun _ => by omega⟩
    · rintro ⟨-, h⟩
      have := h hempty
      omega
  · rename_i hbusy
    exact ⟨fun h => ⟨h, fun hempty => absurd hempty hbusy⟩, fun h => h.1⟩

theorem replied_snapshot_iff (h : s.Listening id) {reply : Reply} {type requestId : Nat}
    (hframe : (s.address id type requestId).handleFrame ω id request =
      (s.address id type requestId).writeFrame ω id request reply) (hsnapshot : Snapshot request) :
    Replied d ω s id type requestId queuedBytes request ↔
      ChecksPass (bodyFields d s.toRegistry request reply.body) ∧
        8 + reply.message.utf8ByteSize + frameSize (bodyFields d s.toRegistry request reply.body) ≤
          snapshotLimit queuedBytes := by
  rw [replied_direct_iff h ((step_request h type requestId request).trans hframe) rfl rfl,
    le_snapshotLimit_iff]
  constructor
  · rintro ⟨hchecks, hsize, hqueue⟩
    refine ⟨hchecks, hsize, fun hempty => ?_⟩
    have hfree := hqueue hsnapshot hempty
    rw [show (s.address id type requestId).toRegistry = s.toRegistry from rfl] at hfree
    omega
  · rintro ⟨hchecks, hsize, hqueue⟩
    refine ⟨hchecks, hsize, fun _ hempty => ?_⟩
    have hfree := hqueue hempty
    rw [show (s.address id type requestId).toRegistry = s.toRegistry from rfl]
    omega

theorem replied_list_iff (h : s.Listening id) (type requestId : Nat) :
    Replied d ω s id type requestId queuedBytes .list ↔ Roomy d ω s id queuedBytes .list := by
  have hlimit := snapshotLimit_le queuedBytes
  have hframe : (s.address id type requestId).handleFrame ω id .list =
      (s.address id type requestId).writeFrame ω id .list { success with body := .snapshot } := rfl
  rw [replied_snapshot_iff h hframe trivial, size_success, Roomy]
  simp only [bodyFields, snapshotFields]
  rw [frameSize_appendProcessList]
  constructor
  · rintro ⟨-, hsize⟩
    omega
  · intro hsize
    exact ⟨checksPass_appendProcessList (by omega), by omega⟩

theorem replied_info_iff (h : s.Listening id) (type requestId : Nat) :
    Replied d ω s id type requestId queuedBytes .info ↔ Roomy d ω s id queuedBytes .info := by
  have hframe : (s.address id type requestId).handleFrame ω id .info =
      (s.address id type requestId).writeFrame ω id .info { success with body := .snapshot } := rfl
  rw [replied_snapshot_iff h hframe trivial, size_success, Roomy]
  simp only [bodyFields, snapshotFields]
  rw [frameSize_appendDaemonInfo, checksPass_appendDaemonInfo, and_assoc]

theorem replied_inspect_iff (h : s.Listening id) (type requestId : Nat) (name : String) :
    Replied d ω s id type requestId queuedBytes (.inspect name) ↔
      Roomy d ω s id queuedBytes (.inspect name) := by
  have hlimit := snapshotLimit_le queuedBytes
  rw [Roomy]
  cases hp : s.findProg name with
  | none =>
    have hframe : (s.address id type requestId).handleFrame ω id (.inspect name) =
        (s.address id type requestId).writeFrame ω id (.inspect name)
          { status := 1, message := msgNotFound name } := by
      rw [handleFrame, handleInspect,
        show (s.address id type requestId).findProg name = none from hp]
    rw [replied_snapshot_iff h hframe trivial]
    simp only [bodyFields, frameSize_nil, size_msgNotFound]
    constructor
    · rintro ⟨-, hsize⟩
      exact ⟨fun _ => by omega, fun p hp => by cases hp⟩
    · rintro ⟨hsize, -⟩
      have := hsize trivial
      exact ⟨checksPass_nil, by omega⟩
  | some p =>
    have hframe : (s.address id type requestId).handleFrame ω id (.inspect name) =
        (s.address id type requestId).writeFrame ω id (.inspect name)
          { success with body := .snapshot } := by
      rw [handleFrame, handleInspect,
        show (s.address id type requestId).findProg name = some p from hp]
    rw [replied_snapshot_iff h hframe trivial, size_success]
    simp only [bodyFields, snapshotFields, hp, Option.elim]
    rw [frameSize_appendInspectSnapshot]
    constructor
    · rintro ⟨-, hsize⟩
      refine ⟨fun hnone => absurd hnone (by simp), ?_⟩
      intro q hq
      cases hq
      omega
    · rintro ⟨-, hsize⟩
      have := hsize p rfl
      exact ⟨checksPass_appendInspectSnapshot _ (by omega), by omega⟩

theorem replied_of_roomy (hω : Terse ω) (h : s.Listening id)
    (hr : Roomy d ω s id queuedBytes request) (type requestId : Nat) :
    Replied d ω s id type requestId queuedBytes request := by
  have hsends : ∀ e ∈ s.since (s.step ω (.request id type requestId request)), ∀ frame,
      e.call = .answer frame → frame.Sendable d e.reg := by
    intro e he frame hcall
    have hadmits := hω.admits (d := d)
    have hallows := (hr.address type requestId).allows hω
    have hfollows := follows_dispatchMessage ω id type requestId request s hallows
    have hstep : s.step ω (.request id type requestId request) =
        s.dispatchMessage ω id type requestId request := by
      rw [step.eq_def, h.1]
      rfl
    rw [hstep] at he
    exact hfollows.blocks.answers he hcall
  cases request with
  | list => exact (replied_list_iff h type requestId).2 hr
  | info => exact (replied_info_iff h type requestId).2 hr
  | inspect name => exact (replied_inspect_iff h type requestId name).2 hr
  | _ => exact ⟨hsends, fun hs => False.elim hs⟩

theorem text_of_replied (h : s.Listening id) {s' : Server} {status : Int} {message : String}
    {type requestId : Nat} (hr : Replied d ω s id type requestId queuedBytes request)
    (hstep : (s.address id type requestId).handleFrame ω id request =
      s'.writeFrame ω id request { status := status, message := message })
    (hhistory : s'.history = s.history)
    (hsessions : s'.sessions = (s.address id type requestId).sessions) :
    8 + message.utf8ByteSize ≤ protocolV3MaxPayload :=
  ((replied_direct_iff h ((step_request h type requestId request).trans hstep) hhistory
    hsessions).1 hr).2.1

section Direct

variable {name : String} {p : ProgInfo}

theorem handleStop_none (hp : s.findProg name = none) : s.handleStop ω id name =
    s.writeFrame ω id (.stop name) { status := -1, message := msgNotFound name } := by
  rw [handleStop, hp]

theorem handleStop_busy (hp : s.findProg name = some p) (htasks : p.killPendingtasks ≠ []) :
    s.handleStop ω id name =
      s.writeFrame ω id (.stop name) { status := -3, message := msgCmdNotCompleted name } := by
  rw [handleStop, hp]
  exact if_pos htasks

theorem handleRestart_none (hp : s.findProg name = none) : s.handleRestart ω id name showLog =
    s.writeFrame ω id (.restart name showLog) { status := -1, message := msgNotFound name } := by
  rw [handleRestart, hp]

theorem handleRestart_busy (hp : s.findProg name = some p) (htasks : p.killPendingtasks ≠ []) :
    s.handleRestart ω id name showLog = (s.setProg name (·.resetRestartPolicy)).writeFrame ω id
      (.restart name showLog) { status := -3, message := msgCmdNotCompleted name } := by
  rw [handleRestart, hp]
  exact if_pos htasks

theorem handleRemove_none (hp : s.findProg name = none) : s.handleRemove ω id name =
    s.writeFrame ω id (.remove name) { status := 1, message := msgNotFound name } := by
  rw [handleRemove, hp]

theorem handleRemove_required (hp : s.findProg name = some p)
    (hdependents : s.dependencyDependents name ≠ []) : s.handleRemove ω id name =
      s.writeFrame ω id (.remove name) { status := -3, message := "cannot delete `" ++ name ++
        "`; required by: " ++ ",".intercalate (s.dependencyDependents name) } := by
  rw [handleRemove, hp]
  exact if_pos hdependents

theorem handleRemove_busy (hp : s.findProg name = some p)
    (hdependents : s.dependencyDependents name = []) (htasks : p.killPendingtasks ≠ []) :
    s.handleRemove ω id name =
      s.writeFrame ω id (.remove name) { status := -3, message := msgCmdNotCompleted name } := by
  rw [handleRemove, hp]
  exact (if_neg (not_not.2 hdependents)).trans (if_pos htasks)

theorem handleLog_none (hp : s.findProg name = none) : s.handleLog ω id name mode =
    s.writeFrame ω id (.log name mode) { status := 1, message := msgNotFound name } := by
  rw [handleLog, hp]

theorem handleLog_idle (hp : s.findProg name = some p) (hlive : p.live = false)
    (hpending : p.restartPending = false) : s.handleLog ω id name .live =
      s.writeFrame ω id (.log name .live) { status := 2, message := "`" ++ name ++
        "` is not running; use `pm log " ++ name ++
          " --history` to show the last completed generation" } := by
  rw [handleLog, hp]
  simp only [hlive, hpending, Bool.not_false, and_self, if_true, Bool.false_eq_true, if_false]

theorem handleLog_running (hp : s.findProg name = some p) (hlive : p.live = true) :
    s.handleLog ω id name .history = s.writeFrame ω id (.log name .history)
      { status := 2, message := "`" ++ name ++ "` is running; use `pm log " ++ name ++ "`" } := by
  rw [handleLog, hp]
  simp only [hlive, reduceCtorEq, false_and, if_false, and_self, if_true]

theorem handleLog_empty (hp : s.findProg name = some p) (hlive : p.live = false)
    (hempty : p.inst.generation = 0 ∨ p.hasLastExit = false ∨ p.lastExitTimeUnixMs ≤ 0) :
    s.handleLog ω id name .history = s.writeFrame ω id (.log name .history)
      { status := 2, message := "no completed log generation available for `" ++ name ++ "`" } := by
  rw [handleLog, hp]
  simp only [hlive, reduceCtorEq, false_and, if_false, Bool.false_eq_true, and_false, true_and,
    Bool.not_eq_true', hempty, if_true]

theorem handleReload_invalid (hexit : s.serverExit = false) (hbusy : s.persistence.busy = false)
    (hvalid : (parseCfg2 (ω.loadProgCfg s.ticks)).valid = false) : s.handleReload ω id =
      s.tick.writeFrame ω id .reload { status := -1, message :=
        if (parseCfg2 (ω.loadProgCfg s.ticks)).errorMessage = "" then "invalid configuration"
        else (parseCfg2 (ω.loadProgCfg s.ticks)).errorMessage } := by
  rw [handleReload]
  simp only [serverExiting_of_running hexit, hbusy, hvalid, Bool.false_eq_true, if_false,
    Bool.not_false, if_true]

end Direct

theorem roomy_of_replied (h : s.Listening id) {type requestId : Nat}
    (hr : Replied d ω s id type requestId queuedBytes request)
    (hstart : ∀ start, request ≠ .start start) : Roomy d ω s id queuedBytes request := by
  cases request with
  | list => exact (replied_list_iff h type requestId).1 hr
  | info => exact (replied_info_iff h type requestId).1 hr
  | inspect name => exact (replied_inspect_iff h type requestId name).1 hr
  | malformed error => exact text_of_replied h hr rfl rfl rfl
  | version =>
    have hsize := ((replied_direct_iff h (step_request h type requestId .version) rfl rfl).1 hr).2.1
    rw [size_success] at hsize
    simp only [bodyFields, snapshotFields, frameSize_cons, frameSize_nil, Field.size] at hsize
    rw [Roomy]
    omega
  | stop name =>
    refine ⟨fun hp => ?_, fun p hp htasks => ?_⟩
    · have hsize := text_of_replied h hr (handleStop_none hp) rfl rfl
      rw [size_msgNotFound] at hsize
      omega
    · have hsize := text_of_replied h hr (handleStop_busy hp htasks) rfl rfl
      rw [size_msgCmdNotCompleted] at hsize
      omega
  | restart name showLog =>
    refine ⟨fun hp => ?_, fun p hp htasks => ?_⟩
    · have hsize := text_of_replied h hr (handleRestart_none hp) rfl rfl
      rw [size_msgNotFound] at hsize
      omega
    · have hsize := text_of_replied h hr (handleRestart_busy hp htasks) rfl rfl
      rw [size_msgCmdNotCompleted] at hsize
      omega
  | start start => exact absurd rfl (hstart start)
  | remove name =>
    refine ⟨fun hp => ?_, fun p hp => ⟨fun hdependents => ?_, fun hdependents htasks => ?_⟩⟩
    · have hsize := text_of_replied h hr (handleRemove_none hp) rfl rfl
      rw [size_msgNotFound] at hsize
      omega
    · have hsize := text_of_replied h hr (handleRemove_required hp hdependents) rfl rfl
      rw [String.utf8ByteSize_append, size_quoted name (n := 31) (by decide)] at hsize
      have hsame : (s.address id type requestId).dependencyDependents name =
        s.dependencyDependents name := rfl
      rw [hsame] at hsize
      omega
    · have hsize := text_of_replied h hr (handleRemove_busy hp hdependents htasks) rfl rfl
      rw [size_msgCmdNotCompleted] at hsize
      omega
  | log name mode =>
    refine ⟨fun hp => ?_, fun p hp => ⟨?_, ?_, ?_⟩⟩
    · have hsize := text_of_replied h hr (handleLog_none hp) rfl rfl
      rw [size_msgNotFound] at hsize
      omega
    · rintro rfl hlive hpending
      have hsize := text_of_replied h hr (handleLog_idle hp hlive hpending) rfl rfl
      rw [size_quoted_pair name name (n := 80) (by decide)] at hsize
      omega
    · rintro rfl hlive
      have hsize := text_of_replied h hr (handleLog_running hp hlive) rfl rfl
      rw [size_quoted_pair name name (n := 28) (by decide)] at hsize
      omega
    · rintro rfl hlive hempty
      have hsize := text_of_replied h hr (handleLog_empty hp hlive hempty) rfl rfl
      rw [size_quoted name (n := 44) (by decide)] at hsize
      omega
  | reload =>
    intro hexit hbusy hvalid
    have hsize := text_of_replied h hr (handleReload_invalid hexit hbusy hvalid) rfl rfl
    split at hsize
    · rename_i hempty
      have hnone : (parseCfg2 (ω.loadProgCfg s.ticks)).errorMessage = "" := hempty
      rw [hnone]
      decide
    · exact hsize
  | save => trivial
  | quit => trivial
  | appReady name => trivial
  | appTick name => trivial

/-- An event of the daemon, with the details that its frames show and the bytes that are queued on
its session. -/
structure Moment where
  input : Input
  details : Details := {}
  queuedBytes : Nat := 0

def Moment.Starts (m : Moment) : Prop :=
  ∃ id type requestId start, m.input = .request id type requestId (.start start)

def RoomyAt (ω : System) (s : Server) (m : Moment) : Prop :=
  ∀ id type requestId request, m.input = .request id type requestId request → s.Listening id →
    Roomy m.details ω s id m.queuedBytes request

/-- The log and exit messages that are streamed under a request raise no exception either. -/
def Streamed (type requestId : Nat) : Prop :=
  ∀ msgType content, ∀ piece ∈ strToFrames msgType content, ∀ queuedBytes more,
    ∃ sent, writeStreamFrame queuedBytes (UInt16.ofNat type) (UInt32.ofNat requestId) more piece =
      .ok sent

def RepliedAt (ω : System) (s : Server) (m : Moment) : Prop :=
  ∀ id type requestId request, m.input = .request id type requestId request → s.Listening id →
    Replied m.details ω s id type requestId m.queuedBytes request ∧ Streamed type requestId

/-- A property of every state of a run and the event that comes next. -/
def Throughout (P : Server → Moment → Prop) (ω : System) : Server → List Moment → Prop
  | _, [] => True
  | s, m :: moments => P s m ∧ Throughout P ω (s.step ω m.input) moments

theorem Throughout.imp {P Q : Server → Moment → Prop} (hPQ : ∀ s m, P s m → Q s m)
    (moments : List Moment) (s : Server) (h : Throughout P ω s moments) :
    Throughout Q ω s moments := by
  induction moments generalizing s with
  | nil => trivial
  | cons m moments ih => exact ⟨hPQ s m h.1, ih _ h.2⟩

theorem terse_simpleSystem (programs : List ProgCfg) (members : List Nat) :
    Terse (simpleSystem programs members) := by
  constructor
  · intro errno
    show "error".utf8ByteSize ≤ 1024
    decide
  · rintro t uid user h
    cases h
    show "user".utf8ByteSize ≤ 1024
    decide

theorem size_repeated (n : Nat) : (String.ofList (List.replicate n 'a')).utf8ByteSize = n := by
  induction n with
  | zero => rfl
  | succ n ih =>
    rw [List.replicate_succ, String.ofList_cons, String.utf8ByteSize_append, ih]
    exact Nat.add_comm 1 n

theorem not_replied_stop {name : String} (h : s.Listening id) (hp : s.findProg name = none)
    (hsize : protocolV3MaxPayload < 20 + name.utf8ByteSize) (type requestId : Nat) :
    ¬ Replied d ω s id type requestId queuedBytes (.stop name) := by
  intro hreplied
  have hroomy := roomy_of_replied h hreplied fun start hstart => by cases hstart
  exact absurd (hroomy.1 hp) (Nat.not_le.2 hsize)

theorem not_replied_info (h : s.Listening id)
    (hcount : daemonInfoMaxItems < d.daemon.config.allowedUids.length) (type requestId : Nat) :
    ¬ Replied d ω s id type requestId queuedBytes .info := by
  intro hreplied
  obtain ⟨huids, -, -⟩ := (replied_info_iff h type requestId).1 hreplied
  omega

end Server

end PmTiny
