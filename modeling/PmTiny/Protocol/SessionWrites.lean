import PmTiny.Protocol.SendQueue

namespace PmTiny
set_option autoImplicit true

namespace Session

/-- What a write gives back: the bytes that went out on the way and whether the loop is told of the
rest; -1; or what the encoder throws. -/
inductive Written where
  | sent (bytes : Nat) (notify : Bool)
  | refused
  | threw (error : ProtocolError)
  deriving DecidableEq, Repr

/-- The message that `write_frame` encodes. A status other than 0 at the front of the payload sets
the error flag. -/
def responseMessage (s : SendSession) (f : List UInt8) : ProtocolMessage :=
  let failed := f.length ≥ 4 && ProtocolV3.get32 f != 0
  { type := s.currentMessageType
    flags := if failed then protocolFlagResponse ||| protocolFlagError else protocolFlagResponse
    requestId := s.currentRequestId
    payload := f }

/-- The message that `write_stream_frame` encodes. -/
def streamMessage (s : SendSession) (f : List UInt8) (more : Bool) : ProtocolMessage where
  type := s.currentMessageType
  flags := if more then protocolFlagResponse ||| protocolFlagStream ||| protocolFlagMore
    else protocolFlagResponse ||| protocolFlagStream
  requestId := s.currentRequestId
  payload := f

/-- The loop at the end of a write, up to the given number of further rounds. -/
def flush (block : Bool) : Nat → SendSession → SendSession
  | 0, s => s.write
  | rounds + 1, s =>
    if block && s.write.sendBuf.length > 0 && !s.write.isClose then flush block rounds s.write
    else s.write

/-- The end that `write_frame` and `write_stream_frame` share. -/
def queue (encoded : List UInt8) (block : Bool) (rounds : Nat) (s : SendSession) :
    Written × SendSession :=
  if s.queuedBytes + encoded.length > sessionQueueLimit then
    (.refused, { s with isClose := true })
  else
    let s' := flush block rounds { s with
      queuedBytes := s.queuedBytes + encoded.length
      sendBuf := s.sendBuf ++ [encoded] }
    (.sent (s'.wire.length - s.wire.length) (!s'.sendBuf.isEmpty && !s'.isClose), s')

def writeFrame (f : List UInt8) (block : Bool) (rounds : Nat) (s : SendSession) :
    Written × SendSession :=
  match protocolEncode (responseMessage s f) with
  | .error error => (.threw error, s)
  | .ok encoded => if s.isClose then (.refused, s) else queue encoded block rounds s

def writeStreamFrame (f : Option (List UInt8)) (block more : Bool) (rounds : Nat)
    (s : SendSession) : Written × SendSession :=
  match f with
  | none => (.refused, s)
  | some f =>
    if s.isClose then (.refused, s)
    else
      match protocolEncode (streamMessage s f more) with
      | .error error => (.threw error, s)
      | .ok encoded => queue encoded block rounds s

/-- What may happen to the sending side of a session. -/
inductive Call where
  | writeFrame (f : List UInt8) (block : Bool) (rounds : Nat)
  | writeStreamFrame (f : Option (List UInt8)) (block more : Bool) (rounds : Nat)
  /-- The loop finds the socket writable. -/
  | write
  /-- A request is taken, which the next responses answer. -/
  | readMessage (type : UInt16) (requestId : UInt32)
  | close
  deriving DecidableEq, Repr

namespace Call

/-- Only the two writes give something back. -/
def step (call : Call) (s : SendSession) : Option Written × SendSession :=
  match call with
  | writeFrame f block rounds =>
    let (written, s) := Session.writeFrame f block rounds s
    (some written, s)
  | writeStreamFrame f block more rounds =>
    let (written, s) := Session.writeStreamFrame f block more rounds s
    (some written, s)
  -- the descriptor of a closed session is -1, and nothing can be sent on it
  | write => (none, if s.isClose then s else s.write)
  | readMessage type requestId =>
    (none, { s with currentMessageType := type, currentRequestId := requestId })
  | close => (none, { s with isClose := true })

def encoding (call : Call) (s : SendSession) : Option (List UInt8) :=
  match call with
  | writeFrame f _ _ => (protocolEncode (responseMessage s f)).toOption
  | writeStreamFrame (some f) _ more _ => (protocolEncode (streamMessage s f more)).toOption
  | writeStreamFrame none _ _ _ => none
  | write | readMessage _ _ | close => none

/-- The frame that a call has put into the queue. -/
def accepted (call : Call) (s : SendSession) : Option (List UInt8) :=
  match (call.step s).1 with
  | some (.sent _ _) => call.encoding s
  | some .refused | some (.threw _) | none => none

end Call

def run : List Call → SendSession → SendSession
  | [], s => s
  | call :: rest, s => run rest (call.step s).2

/-- The encodings of the accepted frames, in the order of the calls. -/
def acceptedFrames : List Call → SendSession → List (List UInt8)
  | [], _ => []
  | call :: rest, s => (call.accepted s).toList ++ acceptedFrames rest (call.step s).2

/-- `queued_bytes_` counts what is queued, and there is no more of it than the limit. -/
structure Accounted (s : SendSession) : Prop where
  queuedBytes : s.queuedBytes = s.sendBuf.flatten.length
  limit : s.queuedBytes ≤ sessionQueueLimit

theorem writeLoop_accounted (frames : List (List UInt8)) (totalBytes : Nat) {s : SendSession}
    (h : s.queuedBytes = frames.flatten.length) (hlimit : s.queuedBytes ≤ sessionQueueLimit) :
    Accounted (SendSession.writeLoop frames totalBytes s) := by
  induction frames generalizing totalBytes s with
  | nil => exact ⟨h, hlimit⟩
  | cons frame rest ih =>
    have hframe := h
    rw [List.flatten_cons, List.length_append] at hframe
    rw [SendSession.writeLoop]
    simp only
    split
    · split
      · apply ih
        · simp only
          omega
        · exact hlimit
      · split
        · rename_i bytes _
          split
          · exact ⟨h, hlimit⟩
          · split
            · constructor
              · simp only [List.flatten_cons, List.length_append, List.length_drop]
                omega
              · simp only
                omega
            · -- the frame is gone, and its whole length with it
              apply ih
              · simp only
                omega
              · simp only
                omega
        · exact ⟨h, hlimit⟩
        · exact ⟨h, hlimit⟩
        · exact ⟨h, hlimit⟩
    · exact ⟨h, hlimit⟩

theorem Accounted.write (h : Accounted s) : Accounted s.write :=
  writeLoop_accounted s.sendBuf 0 h.queuedBytes h.limit

theorem Accounted.flush (h : Accounted s) (block : Bool) (rounds : Nat) :
    Accounted (flush block rounds s) := by
  induction rounds generalizing s with
  | zero => exact h.write
  | succ rounds ih =>
    rw [Session.flush]
    split
    · exact ih h.write
    · exact h.write

@[simp] theorem flush_delivered (block : Bool) (rounds : Nat) (s : SendSession) :
    (flush block rounds s).delivered = s.delivered := by
  induction rounds generalizing s with
  | zero => exact s.write_delivered
  | succ rounds ih =>
    rw [flush]
    split
    · rw [ih, s.write_delivered]
    · exact s.write_delivered

theorem flush_nonblocking (rounds : Nat) (s : SendSession) : flush false rounds s = s.write := by
  cases rounds with
  | zero => rfl
  | succ rounds => rw [flush, Bool.false_and, Bool.false_and, if_neg Bool.false_ne_true]

theorem queue_overflow (h : sessionQueueLimit < s.queuedBytes + encoded.length) (block : Bool)
    (rounds : Nat) : queue encoded block rounds s = (.refused, { s with isClose := true }) := by
  rw [queue, if_pos h]

theorem queue_fits (h : s.queuedBytes + encoded.length ≤ sessionQueueLimit) (block : Bool)
    (rounds : Nat) : ∃ bytes notify s', queue encoded block rounds s = (.sent bytes notify, s') ∧
      s'.delivered = s.delivered ++ encoded ∧ (Accounted s → Accounted s') := by
  rw [queue, if_neg (Nat.not_lt.2 h)]
  refine ⟨_, _, _, rfl, ?_, ?_⟩
  · rw [flush_delivered, SendSession.delivered, SendSession.delivered, List.flatten_append,
      List.flatten_singleton, List.append_assoc]
  · intro hs
    apply Accounted.flush
    constructor
    · rw [List.flatten_append, List.flatten_singleton, List.length_append, ← hs.queuedBytes]
    · exact h

namespace Call

variable {call : Call} {s : SendSession} {encoded : List UInt8}

theorem step_encoding (hopen : s.isClose = false) (h : call.encoding s = some encoded) :
    ∃ block rounds, call.step s =
      (some (queue encoded block rounds s).1, (queue encoded block rounds s).2) := by
  cases call with
  | writeFrame f block rounds =>
    refine ⟨block, rounds, ?_⟩
    rw [encoding] at h
    cases hencode : protocolEncode (responseMessage s f) with
    | error error =>
      rw [hencode] at h
      cases h
    | ok bytes =>
      rw [hencode] at h
      cases h
      simp only [step, Session.writeFrame, hencode, hopen, Bool.false_eq_true, if_false]
  | writeStreamFrame f block more rounds =>
    refine ⟨block, rounds, ?_⟩
    cases f with
    | none => cases h
    | some f =>
      rw [encoding] at h
      cases hencode : protocolEncode (streamMessage s f more) with
      | error error =>
        rw [hencode] at h
        cases h
      | ok bytes =>
        rw [hencode] at h
        cases h
        simp only [step, Session.writeStreamFrame, hencode, hopen, Bool.false_eq_true, if_false]
  | write => cases h
  | readMessage => cases h
  | close => cases h

theorem step_other (h : s.isClose = true ∨ call.encoding s = none) :
    call.accepted s = none ∧ (call.step s).2.delivered = s.delivered ∧
      (Accounted s → Accounted (call.step s).2) := by
  cases call with
  | writeFrame f block rounds =>
    cases hencode : protocolEncode (responseMessage s f) with
    | error error =>
      simp only [accepted, step, Session.writeFrame, hencode]
      exact ⟨trivial, trivial, fun h => h⟩
    | ok bytes =>
      rcases h with h | h
      · simp only [accepted, step, Session.writeFrame, hencode, h, if_true]
        exact ⟨trivial, trivial, fun h => h⟩
      · rw [encoding, hencode] at h
        cases h
  | writeStreamFrame f block more rounds =>
    cases f with
    | none => exact ⟨rfl, rfl, fun h => h⟩
    | some f =>
      cases hclosed : s.isClose with
      | true =>
        simp only [accepted, step, Session.writeStreamFrame, hclosed, if_true]
        exact ⟨trivial, trivial, fun h => h⟩
      | false =>
        rw [hclosed] at h
        cases hencode : protocolEncode (streamMessage s f more) with
        | error error =>
          simp only [accepted, step, Session.writeStreamFrame, hencode, hclosed,
            Bool.false_eq_true, if_false]
          exact ⟨trivial, trivial, fun h => h⟩
        | ok bytes =>
          rcases h with h | h
          · cases h
          · rw [encoding, hencode] at h
            cases h
  | write =>
    refine ⟨rfl, ?_, ?_⟩
    · rw [step]
      split
      · rfl
      · exact s.write_delivered
    · intro hs
      rw [step]
      split
      · exact hs
      · exact hs.write
  | readMessage => exact ⟨rfl, rfl, fun hs => ⟨hs.queuedBytes, hs.limit⟩⟩
  | close => exact ⟨rfl, rfl, fun hs => ⟨hs.queuedBytes, hs.limit⟩⟩

theorem step_overflow (hopen : s.isClose = false) (h : call.encoding s = some encoded)
    (hlimit : sessionQueueLimit < s.queuedBytes + encoded.length) :
    call.step s = (some .refused, { s with isClose := true }) := by
  obtain ⟨block, rounds, hstep⟩ := step_encoding hopen h
  rw [hstep, queue_overflow hlimit]

theorem step_delivered (call : Call) (s : SendSession) :
    (call.step s).2.delivered = s.delivered ++ (call.accepted s).toList.flatten ∧
      (Accounted s → Accounted (call.step s).2) := by
  cases hopen : s.isClose with
  | true =>
    have hclosed : s.isClose = true ∨ call.encoding s = none := .inl hopen
    obtain ⟨hnone, hsame, hacc⟩ := step_other hclosed
    rw [hnone, hsame, Option.toList_none, List.flatten_nil, List.append_nil]
    exact ⟨rfl, hacc⟩
  | false =>
    cases hencoding : call.encoding s with
    | none =>
      obtain ⟨hnone, hsame, hacc⟩ := step_other (.inr hencoding)
      rw [hnone, hsame, Option.toList_none, List.flatten_nil, List.append_nil]
      exact ⟨rfl, hacc⟩
    | some encoded =>
      by_cases hlimit : s.queuedBytes + encoded.length ≤ sessionQueueLimit
      · obtain ⟨block, rounds, hstep⟩ := step_encoding hopen hencoding
        obtain ⟨bytes, notify, s', hqueue, hdelivered, hacc⟩ := queue_fits hlimit block rounds
        have haccepted : call.accepted s = some encoded := by
          rw [accepted, hstep, hqueue, hencoding]
        rw [haccepted, hstep, hqueue, hdelivered, Option.toList_some, List.flatten_singleton]
        exact ⟨rfl, hacc⟩
      · have hstep := step_overflow hopen hencoding (Nat.lt_of_not_le hlimit)
        have haccepted : call.accepted s = none := by
          rw [accepted, hstep]
        rw [haccepted, hstep, Option.toList_none, List.flatten_nil, List.append_nil]
        exact ⟨rfl, fun hs => ⟨hs.queuedBytes, hs.limit⟩⟩

end Call

theorem run_delivered (calls : List Call) (s : SendSession) :
    (run calls s).delivered = s.delivered ++ (acceptedFrames calls s).flatten := by
  induction calls generalizing s with
  | nil => rw [run, acceptedFrames, List.flatten_nil, List.append_nil]
  | cons call rest ih =>
    rw [run, acceptedFrames, ih, (call.step_delivered s).1, List.flatten_append, List.append_assoc]

theorem Accounted.run (h : Accounted s) (calls : List Call) : Accounted (run calls s) := by
  induction calls generalizing s with
  | nil => exact h
  | cons call rest ih => exact ih ((call.step_delivered s).2 h)

theorem accounted_new (fsbufSize : Nat) (peer : Nat → SendResult) :
    Accounted { fsbufSize := fsbufSize, peer := peer } :=
  ⟨rfl, Nat.zero_le _⟩

/-- After any calls, however the socket takes the bytes: what it has taken and what is queued are
together the accepted frames, in order; `queued_bytes_` counts what is queued, within the limit; and
a frame that would exceed the limit closes the session before a byte of it is sent. -/
theorem run_accounted (calls : List Call) (fsbufSize : Nat) (peer : Nat → SendResult) :
    let opened : SendSession := { fsbufSize := fsbufSize, peer := peer }
    let s := run calls opened
    s.wire ++ s.sendBuf.flatten = (acceptedFrames calls opened).flatten ∧
      s.queuedBytes = s.sendBuf.flatten.length ∧ s.queuedBytes ≤ sessionQueueLimit ∧
      ∀ (call : Call) (encoded : List UInt8), s.isClose = false →
        call.encoding s = some encoded → sessionQueueLimit < s.queuedBytes + encoded.length →
        (call.step s).2.isClose = true ∧
          (call.step s).2.wire = s.wire ∧ call.accepted s = none := by
  intro opened s
  have hacc : Accounted s := (accounted_new fsbufSize peer).run calls
  have hdelivered : s.delivered = opened.delivered ++ (acceptedFrames calls opened).flatten :=
    run_delivered calls opened
  refine ⟨hdelivered, hacc.queuedBytes, hacc.limit, ?_⟩
  intro call encoded hopen hencoding hlimit
  have hstep := Call.step_overflow hopen hencoding hlimit
  rw [Call.accepted, hstep]
  exact ⟨rfl, rfl, rfl⟩

/-- A response of any status is encoded, unless it is longer than a message may be. -/
theorem protocolEncode_responseMessage (s : SendSession) (h : f.length ≤ protocolV3MaxPayload) :
    ∃ encoded, protocolEncode (responseMessage s f) = .ok encoded ∧
      encoded.length = ProtocolV3.headerSize + f.length := by
  have hflags : ∀ failed : Bool, ProtocolV3.validFlags
      (if failed then protocolFlagResponse ||| protocolFlagError else
        protocolFlagResponse) = true := by
    decide
  have hok : ∃ encoded, protocolEncode (responseMessage s f) = .ok encoded := by
    rw [protocolEncode, responseMessage, if_neg (Nat.not_lt.2 h)]
    simp only [hflags, Bool.not_true, Bool.false_eq_true, if_false]
    exact ⟨_, rfl⟩
  obtain ⟨encoded, hencode⟩ := hok
  exact ⟨encoded, hencode, length_protocolEncode hencode⟩

theorem run_accounted_overflow :
    ((Call.writeFrame (List.replicate sessionQueueLimit 0) false 0).step
      { peer := fun _ => .wouldBlock }).2.isClose = true := by
  obtain ⟨f, hf⟩ : ∃ f, f = List.replicate sessionQueueLimit (0 : UInt8) := ⟨_, rfl⟩
  have hlength : f.length = sessionQueueLimit := by
    rw [hf, List.length_replicate]
  have hfits : f.length ≤ protocolV3MaxPayload := by
    rw [hlength]
    decide
  obtain ⟨encoded, hencode, hencoded⟩ :=
    protocolEncode_responseMessage { peer := fun _ => .wouldBlock } hfits
  have hencoding : (Call.writeFrame f false 0).encoding { peer := fun _ => .wouldBlock } =
      some encoded := by
    rw [Call.encoding, hencode]
    rfl
  have hlimit : sessionQueueLimit < 0 + encoded.length := by
    rw [hencoded, hlength]
    decide
  rw [← hf]
  exact ((run_accounted [] 0 fun _ => .wouldBlock).2.2.2 _ encoded rfl hencoding hlimit).1

/-- The outcome of a response on an open session depends on the queue only through its length. -/
theorem writePayload_eq_writeFrame (hopen : s.isClose = false) (f : List UInt8) (block : Bool)
    (rounds : Nat) :
    (writePayload s.queuedBytes s.currentMessageType s.currentRequestId f = .ok .closed ↔
      (writeFrame f block rounds s).1 = .refused) ∧
    ((∃ error, writePayload s.queuedBytes s.currentMessageType s.currentRequestId f =
        .error error) ↔ ∃ error, (writeFrame f block rounds s).1 = .threw error) := by
  cases hencode : protocolEncode (responseMessage s f) with
  | error error =>
    rw [writeFrame, hencode]
    rw [responseMessage] at hencode
    unfold writePayload
    dsimp only
    rw [hencode]
    simp
  | ok encoded =>
    rw [writeFrame, hencode]
    rw [responseMessage] at hencode
    unfold writePayload
    dsimp only
    rw [hencode]
    simp only [hopen, Bool.false_eq_true, if_false, queue]
    by_cases hlimit : s.queuedBytes + encoded.length > sessionQueueLimit
    · simp [hlimit]
    · simp [hlimit]

theorem writeStreamFrame_eq (frame : StreamFrame) (more : Bool) (rounds : Nat) (s : SendSession) :
    (writeStreamFrame (some frame.payload) false more rounds s).2 =
      s.writeStreamFrame frame more := by
  have hencode : protocolEncode (streamMessage s frame.payload more) =
      .ok (frame.encoded s.currentMessageType s.currentRequestId more) :=
    frame.protocolEncode_message _ _ _
  simp only [writeStreamFrame, SendSession.writeStreamFrame, hencode]
  split
  · rfl
  · rw [queue, SendSession.queueFrame]
    split
    · rfl
    · exact flush_nonblocking _ _

end Session

end PmTiny
