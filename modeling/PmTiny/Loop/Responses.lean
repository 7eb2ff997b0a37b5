import PmTiny.Protocol.ProtocolV3

namespace PmTiny.Responses
open ProtocolV3
set_option autoImplicit true

inductive ControlCommand where
  | list | stop | start | save | remove | restart | version | log | appReady | appTick | inspect
  | reload | quit | info
  deriving DecidableEq, Repr

def ControlCommand.type : ControlCommand → UInt16
  | .list => 0x23
  | .stop => 0x24
  | .start => 0x25
  | .save => 0x26
  | .remove => 0x27
  | .restart => 0x28
  | .version => 0x29
  | .log => 0x30
  | .appReady => 0x31
  | .appTick => 0x32
  | .inspect => 0x33
  | .reload => 0x34
  | .quit => 0x35
  | .info => 0x36

def sessionQueueLimit : Nat := 1024 * 1024

/-- The part of `session_t` that numbers the frames written to it. -/
structure ControlSession where
  recvMessages : List ProtocolMessage := []
  currentMessageType : UInt16 := 0
  currentRequestId : UInt32 := 0
  queuedBytes : Nat := 0
  closed : Bool := false
  markClosed : Bool := false
  deriving DecidableEq, Repr

/-- Why frames for a request are still to come after its handler has returned: a task that waits for
a process tree, a save, a reload, a client that waits for the next generation, a log
subscription. -/
inductive Deferral where
  | task | save | reload | logWait | stream
  deriving DecidableEq, Repr

def defers (type : UInt16) : Deferral → Bool
  | .task => type = ControlCommand.stop.type || type = ControlCommand.remove.type ||
      type = ControlCommand.restart.type
  | .save => type = ControlCommand.save.type
  | .reload => type = ControlCommand.reload.type
  | .logWait => type = ControlCommand.log.type
  | .stream => type = ControlCommand.log.type || type = ControlCommand.start.type ||
      type = ControlCommand.restart.type

structure Outstanding where
  request : ProtocolMessage
  deferral : Deferral
  deriving DecidableEq, Repr

/-- A frame that was queued, with the request that it answers. -/
structure Written where
  message : ProtocolMessage
  request : ProtocolMessage
  deriving DecidableEq, Repr

structure Exchange where
  session : ControlSession := {}
  outstanding : List Outstanding := []
  written : List Written := []
  deriving DecidableEq, Repr

def hasErrorStatus (payload : List UInt8) : Bool := 4 ≤ payload.length && get32 payload ≠ 0

namespace Exchange

/-- The end of `write_frame` and `write_stream_frame`: encode, then queue or close on overflow. -/
def queue (s : Exchange) (request message : ProtocolMessage) : Option Exchange :=
  match protocolEncode message with
  | .error _ => none
  | .ok encoded =>
    if s.session.closed then some s
    else if s.session.queuedBytes + encoded.length > sessionQueueLimit then
      some { s with session := { s.session with closed := true } }
    else some { s with
      session := { s.session with queuedBytes := s.session.queuedBytes + encoded.length }
      written := s.written ++ [⟨message, request⟩] }

/-- `write_frame` takes type and number from the message that was read last. -/
def writeFrame (s : Exchange) (request : ProtocolMessage) (payload : List UInt8) :
    Option Exchange :=
  s.queue request
    { type := s.session.currentMessageType
      flags := protocolFlagResponse |||
        if hasErrorStatus payload then protocolFlagError else 0
      requestId := s.session.currentRequestId
      payload := payload }

def writeStreamFrame (s : Exchange) (request : ProtocolMessage) (payload : List UInt8)
    (more : Bool) : Option Exchange :=
  if s.session.closed then some s
  else s.queue request
    { type := s.session.currentMessageType
      flags := protocolFlagResponse ||| protocolFlagStream |||
        if more then protocolFlagMore else 0
      requestId := s.session.currentRequestId
      payload := payload }

def writeFrames (s : Exchange) (request : ProtocolMessage) : List (List UInt8) → Option Exchange
  | [] => some s
  | payload :: rest => (s.writeFrame request payload).bind fun s => s.writeFrames request rest

def writeStreamFrames (s : Exchange) (request : ProtocolMessage) :
    List (List UInt8 × Bool) → Option Exchange
  | [] => some s
  | (payload, more) :: rest =>
    (s.writeStreamFrame request payload more).bind fun s => s.writeStreamFrames request rest

def defer (s : Exchange) (request : ProtocolMessage) : Option Deferral → Exchange
  | none => s
  | some deferral => { s with outstanding := s.outstanding ++ [⟨request, deferral⟩] }

/-- One turn of `dispatch_messages`: the frames that the handler writes and what it leaves to do. -/
def dispatch (s : Exchange) (responses : List (List UInt8)) (streams : List (List UInt8 × Bool))
    (deferral : Option Deferral) : Option Exchange :=
  match s.session.recvMessages with
  | [] => none
  | message :: rest =>
    if s.session.closed || s.session.markClosed then none
    else
      let s₁ := { s with session := { s.session with
        recvMessages := rest
        currentMessageType := message.type
        currentRequestId := message.requestId } }
      if message.type = 0 then some s₁
      else if deferral.all (defers message.type) then
        (s₁.writeFrames message responses).bind fun s₂ =>
          (s₂.writeStreamFrames message streams).map fun s₃ => s₃.defer message deferral
      else none

/-- A deferred answer; a restart with a log and a waiting log client go on as a stream. -/
def answer (s : Exchange) (o : Outstanding) (payload : List UInt8) (follow : Bool) :
    Option Exchange :=
  if o ∈ s.outstanding ∧ o.deferral ≠ .stream ∧ (follow = true → defers o.request.type .stream) then
    let s₁ : Exchange := { s with outstanding := s.outstanding.erase o }
    (s₁.writeFrame o.request payload).map fun s₂ =>
      s₂.defer o.request (if follow then some .stream else none)
  else none

/-- What happens on one control session, in any order. -/
inductive Event where
  | receive (message : ProtocolMessage)
  | dispatch (responses : List (List UInt8)) (streams : List (List UInt8 × Bool))
      (deferral : Option Deferral)
  | answer (o : Outstanding) (payload : List UInt8) (follow : Bool)
  | stream (o : Outstanding) (payload : List UInt8) (more : Bool)
  | exitEvent (o : Outstanding) (frames : List (List UInt8 × Bool))
  | forget (o : Outstanding)
  | sent (n : Nat)
  | close
  deriving DecidableEq, Repr

def step (s : Exchange) : Event → Option Exchange
  | .receive message =>
    some { s with session := { s.session with
      recvMessages := s.session.recvMessages ++ [message] } }
  | .dispatch responses streams deferral => s.dispatch responses streams deferral
  | .answer o payload follow => s.answer o payload follow
  | .stream o payload more =>
    if o ∈ s.outstanding ∧ o.deferral = .stream then s.writeStreamFrame o.request payload more
    else none
  | .exitEvent o frames =>
    if o ∈ s.outstanding ∧ o.deferral = .stream then
      (s.writeStreamFrames o.request frames).map fun s => { s with
        outstanding := s.outstanding.erase o
        session := { s.session with markClosed := true } }
    else none
  | .forget o => some { s with outstanding := s.outstanding.erase o }
  | .sent n =>
    some { s with session := { s.session with queuedBytes := s.session.queuedBytes - n } }
  | .close => some { s with session := { s.session with closed := true } }

def run (s : Exchange) : List Event → Option Exchange
  | [] => some s
  | e :: es => (s.step e).bind fun s' => s'.run es

/-- The states of the runs whose steps are all `allowed`. -/
inductive Reachable (allowed : Exchange → Event → Prop) : Exchange → Prop where
  | init : Reachable allowed {}
  | step {s s' : Exchange} : Reachable allowed s → allowed s e → s.step e = some s' →
      Reachable allowed s'

/-- Every frame carries the type and the number of the request that it answers. -/
def Correlated (s : Exchange) : Prop :=
  ∀ w ∈ s.written, w.message.type = w.request.type ∧ w.message.requestId = w.request.requestId

def Current (s : Exchange) (request : ProtocolMessage) : Prop :=
  s.session.currentMessageType = request.type ∧ s.session.currentRequestId = request.requestId

structure Sound (s : Exchange) : Prop where
  correlated : s.Correlated
  current : ∀ o ∈ s.outstanding, s.Current o.request

structure Wrote (s s' : Exchange) : Prop where
  correlated : s.Correlated → s'.Correlated
  type : s'.session.currentMessageType = s.session.currentMessageType
  requestId : s'.session.currentRequestId = s.session.currentRequestId
  outstanding : s'.outstanding = s.outstanding

theorem Wrote.refl (s : Exchange) : Wrote s s := ⟨fun h => h, rfl, rfl, rfl⟩

theorem Wrote.trans {s s' s'' : Exchange} (h : Wrote s s') (h' : Wrote s' s'') : Wrote s s'' :=
  ⟨fun hc => h'.correlated (h.correlated hc), h'.type.trans h.type,
    h'.requestId.trans h.requestId, h'.outstanding.trans h.outstanding⟩

variable {s s' : Exchange} {request : ProtocolMessage}

theorem Wrote.current (h : Wrote s s') (hc : s.Current request) : s'.Current request :=
  ⟨h.type.trans hc.1, h.requestId.trans hc.2⟩

theorem wrote_queue (h : s.queue request message = some s')
    (hc : message.type = request.type ∧ message.requestId = request.requestId) : Wrote s s' := by
  rw [queue] at h
  cases he : protocolEncode message with
  | error e =>
    rw [he] at h
    cases h
  | ok encoded =>
    simp only [he] at h
    split at h
    · cases h
      exact Wrote.refl s
    · split at h
      · cases h
        exact ⟨fun h => h, rfl, rfl, rfl⟩
      · cases h
        refine ⟨?_, rfl, rfl, rfl⟩
        intro hs w hw
        rcases List.mem_append.1 hw with hw | hw
        · exact hs w hw
        · rw [List.mem_singleton.1 hw]
          exact hc

theorem wrote_writeFrame (hc : s.Current request) (h : s.writeFrame request payload = some s') :
    Wrote s s' := wrote_queue h hc

theorem wrote_writeStreamFrame (hc : s.Current request)
    (h : s.writeStreamFrame request payload more = some s') : Wrote s s' := by
  rw [writeStreamFrame] at h
  split at h
  · cases h
    exact Wrote.refl s
  · exact wrote_queue h hc

theorem wrote_writeFrames (hc : s.Current request) (h : s.writeFrames request payloads = some s') :
    Wrote s s' := by
  induction payloads generalizing s with
  | nil =>
    cases h
    exact Wrote.refl _
  | cons payload rest ih =>
    obtain ⟨s₁, hs, hr⟩ := Option.bind_eq_some_iff.1 h
    have hw := wrote_writeFrame hc hs
    exact hw.trans (ih (hw.current hc) hr)

theorem wrote_writeStreamFrames (hc : s.Current request)
    (h : s.writeStreamFrames request frames = some s') : Wrote s s' := by
  induction frames generalizing s with
  | nil =>
    cases h
    exact Wrote.refl _
  | cons frame rest ih =>
    obtain ⟨s₁, hs, hr⟩ := Option.bind_eq_some_iff.1 h
    have hw := wrote_writeStreamFrame hc hs
    exact hw.trans (ih (hw.current hc) hr)

theorem Sound.wrote (h : s.Sound) (hw : Wrote s s') : s'.Sound := by
  refine ⟨hw.correlated h.correlated, ?_⟩
  intro o ho
  rw [hw.outstanding] at ho
  exact hw.current (h.current o ho)

theorem Sound.defer (h : s.Sound) (hc : s.Current request) (deferral : Option Deferral) :
    (s.defer request deferral).Sound := by
  cases deferral with
  | none => exact h
  | some deferral =>
    refine ⟨h.correlated, ?_⟩
    intro o ho
    rcases List.mem_append.1 ho with ho | ho
    · exact h.current o ho
    · rw [List.mem_singleton.1 ho]
      exact hc

theorem Sound.erase (h : s.Sound) (o : Outstanding) :
    ({ s with outstanding := s.outstanding.erase o } : Exchange).Sound :=
  ⟨h.correlated, fun p hp => h.current p (List.mem_of_mem_erase hp)⟩

theorem Sound.dispatch (h : s.Sound) (hn : s.outstanding = [])
    (hs : s.dispatch responses streams deferral = some s') : s'.Sound := by
  rw [Exchange.dispatch] at hs
  cases hr : s.session.recvMessages with
  | nil =>
    rw [hr] at hs
    cases hs
  | cons message rest =>
    simp only [hr] at hs
    split at hs
    · cases hs
    · have h₁ : ({ s with session := { s.session with
          recvMessages := rest
          currentMessageType := message.type
          currentRequestId := message.requestId } } : Exchange).Sound := by
        refine ⟨h.correlated, ?_⟩
        intro o ho
        have ho : o ∈ s.outstanding := ho
        rw [hn] at ho
        cases ho
      split at hs
      · cases hs
        exact h₁
      · split at hs
        · obtain ⟨s₂, hs₂, hs⟩ := Option.bind_eq_some_iff.1 hs
          obtain ⟨s₃, hs₃, rfl⟩ := Option.map_eq_some_iff.1 hs
          have hw₂ := wrote_writeFrames ⟨rfl, rfl⟩ hs₂
          have hc₂ := hw₂.current ⟨rfl, rfl⟩
          have hw₃ := wrote_writeStreamFrames hc₂ hs₃
          exact ((h₁.wrote hw₂).wrote hw₃).defer (hw₃.current hc₂) deferral
        · cases hs

theorem Sound.answer (h : s.Sound) (hs : s.answer o payload follow = some s') : s'.Sound := by
  rw [Exchange.answer] at hs
  obtain ⟨⟨ho, -, -⟩, hs⟩ := Option.ite_none_right_eq_some.1 hs
  obtain ⟨s₁, hs₁, rfl⟩ := Option.map_eq_some_iff.1 hs
  have hc : ({ s with outstanding := s.outstanding.erase o } : Exchange).Current o.request :=
    h.current o ho
  have hw := wrote_writeFrame hc hs₁
  exact ((h.erase o).wrote hw).defer (hw.current hc) _

/-- A request is read only when nothing of the earlier ones is still to come. -/
def Clear (s : Exchange) : Event → Prop
  | .dispatch _ _ _ => s.outstanding = []
  | _ => True

theorem Sound.step (h : s.Sound) (hc : s.Clear e) (hs : s.step e = some s') : s'.Sound := by
  cases e with
  | receive message =>
    cases hs
    exact ⟨h.correlated, h.current⟩
  | dispatch responses streams deferral => exact h.dispatch hc hs
  | answer o payload follow => exact h.answer hs
  | stream o payload more =>
    obtain ⟨⟨ho, -⟩, hs⟩ := Option.ite_none_right_eq_some.1 hs
    exact h.wrote (wrote_writeStreamFrame (h.current o ho) hs)
  | exitEvent o frames =>
    obtain ⟨⟨ho, -⟩, hs⟩ := Option.ite_none_right_eq_some.1 hs
    obtain ⟨s₁, hs₁, rfl⟩ := Option.map_eq_some_iff.1 hs
    have hw := h.wrote (wrote_writeStreamFrames (h.current o ho) hs₁)
    exact ⟨hw.correlated, fun p hp => hw.current p (List.mem_of_mem_erase hp)⟩
  | forget o =>
    cases hs
    exact h.erase o
  | sent n =>
    cases hs
    exact ⟨h.correlated, h.current⟩
  | close =>
    cases hs
    exact ⟨h.correlated, h.current⟩

theorem Reachable.sound (h : Reachable Clear s) : s.Sound := by
  induction h with
  | init => exact ⟨by simp [Correlated], by simp⟩
  | step _ hc hs ih => exact ih.step hc hs

/-- Every frame is numbered like the request it answers, in every run in which a request is read
only when nothing of the earlier ones is still to come. -/
theorem responses_correlated (h : Reachable Clear s) : s.Correlated := h.sound.correlated

def stopRequest : ProtocolMessage := { type := ControlCommand.stop.type, requestId := 1 }

def listRequest : ProtocolMessage := { type := ControlCommand.list.type, requestId := 2 }

theorem responses_correlated_stop :
    ∃ s, Reachable Clear s ∧ s.written.length = 1 ∧ s.Correlated := by
  have hreceive : Reachable Clear { session := { recvMessages := [stopRequest] } } :=
    .step (e := .receive stopRequest) .init trivial rfl
  have hread : Reachable Clear
      { session := { currentMessageType := ControlCommand.stop.type, currentRequestId := 1 }
        outstanding := [⟨stopRequest, .task⟩] } :=
    .step (e := .dispatch [] [] (some .task)) hreceive rfl (by decide)
  have hanswer := Reachable.step (e := .answer ⟨stopRequest, .task⟩ [0, 0, 0, 0] false) hread
    trivial rfl
  exact ⟨_, hanswer, rfl, responses_correlated hanswer⟩

theorem Reachable.run (h : Reachable (fun _ _ => True) s) (hr : s.run es = some s') :
    Reachable (fun _ _ => True) s' := by
  induction es generalizing s with
  | nil =>
    cases hr
    exact h
  | cons e es ih =>
    obtain ⟨s₁, hs, hr⟩ := Option.bind_eq_some_iff.1 hr
    exact ih (h.step trivial hs) hr

/-- A client that stops a program and asks for the list before the program has ended. -/
def stopThenList : List Event :=
  [.receive stopRequest, .receive listRequest, .dispatch [] [] (some .task),
    .dispatch [[0, 0, 0, 0]] [] none, .answer ⟨stopRequest, .task⟩ [0, 0, 0, 0] false]

theorem stop_answered_as_list : ¬ ∀ s, Reachable (fun _ _ => True) s → s.Correlated := by
  intro h
  have hrun : ∃ s ∈ ({} : Exchange).run stopThenList, ¬ s.Correlated := by
    unfold Correlated
    decide
  obtain ⟨s, hs, hnot⟩ := hrun
  exact hnot (h s (Reachable.run .init hs))

end Exchange

end PmTiny.Responses
