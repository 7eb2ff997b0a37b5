import PmTiny.Protocol.Framing
import PmTiny.Protocol.FrameStream

namespace PmTiny
set_option autoImplicit true

/-- A frame of a stream; it always fits a protocol message. -/
structure StreamFrame where
  payload : List UInt8
  fits : payload.length ≤ protocolV3MaxPayload

/-- The message type and the string, as `str_to_frames` appends them. -/
def streamPayload (piece : Int × List UInt8) : List UInt8 :=
  bigEndian 4 piece.1 ++ bigEndian 4 piece.2.length ++ piece.2

theorem length_streamPayload (piece : Int × List UInt8) :
    (streamPayload piece).length = 8 + piece.2.length := by
  rw [streamPayload, List.length_append, List.length_append, length_bigEndian, length_bigEndian]

theorem streamPayload_fits {piece : Int × List UInt8} (h : piece ∈ strToFrames msgType content) :
    (streamPayload piece).length ≤ protocolV3MaxPayload := by
  have hlength := length_strToFrames h
  have hhalf : 8 + frameMaxLength / 2 ≤ protocolV3MaxPayload := by decide
  rw [length_streamPayload]
  omega

theorem framePieces_split {frameSize : Nat} (hpos : 0 < frameSize)
    (hlong : frameSize < content.length) : ∃ first last,
    framePieces frameSize content = first ++ [last] ∧ first ≠ [] ∧
      ∀ piece ∈ first, piece.length = frameSize := by
  have hdiv := Nat.div_add_mod' content.length frameSize
  have hfull : ∀ i < content.length / frameSize,
      ((content.drop (frameSize * i)).take frameSize).length = frameSize := by
    intro i hi
    have hend : frameSize * (i + 1) ≤ content.length / frameSize * frameSize := by
      rw [Nat.mul_comm]
      exact Nat.mul_le_mul_right frameSize hi
    rw [Nat.mul_succ] at hend
    rw [List.length_take, List.length_drop]
    omega
  have hfulls : ∀ n ≤ content.length / frameSize, ∀ piece ∈ (List.range n).map
      (fun i => (content.drop (frameSize * i)).take frameSize), piece.length = frameSize := by
    intro n hn piece hpiece
    obtain ⟨i, hi, rfl⟩ := List.mem_map.1 hpiece
    exact hfull i (Nat.lt_of_lt_of_le (List.mem_range.1 hi) hn)
  rw [framePieces]
  by_cases hrest : content.length % frameSize ≠ 0
  · have hsome := Nat.div_pos (Nat.le_of_lt hlong) hpos
    simp only [hrest, ne_eq, not_false_eq_true, if_true]
    refine ⟨_, _, rfl, ?_, hfulls _ (Nat.le_refl _)⟩
    rw [List.map_eq_nil_iff, List.range_eq_nil]
    omega
  · obtain ⟨n, hn⟩ : ∃ n, content.length / frameSize = n + 1 + 1 := by
      refine ⟨content.length / frameSize - 2, ?_⟩
      by_contra hone
      have hle : content.length / frameSize ≤ 1 := by omega
      have := Nat.mul_le_mul_right frameSize hle
      omega
    simp only [hrest, if_false, List.append_nil]
    rw [hn, List.range_succ, List.map_append, List.map_singleton]
    refine ⟨_, _, rfl, ?_, hfulls (n + 1) (by omega)⟩
    rw [ne_eq, List.map_eq_nil_iff, List.range_eq_nil]
    omega

theorem strToFrames_split (msgType : Int) (content : List UInt8) : ∃ first last,
    strToFrames msgType content = first ++ [last] ∧
      (first = [] → content.length ≤ frameMaxLength / 2) ∧
      ∀ piece ∈ first, piece.2.length = frameMaxLength / 2 := by
  rw [strToFrames]
  simp only
  split
  · rename_i hshort
    exact ⟨[], _, rfl, fun _ => hshort, fun _ h => absurd h List.not_mem_nil⟩
  · rename_i hlong
    obtain ⟨first, last, hsplit, hsome, hfirst⟩ :=
      framePieces_split (by decide) (Nat.lt_of_not_le hlong)
    rw [hsplit, List.mapIdx_concat]
    refine ⟨_, _, rfl, fun h => absurd (List.mapIdx_eq_nil_iff.1 h) hsome, fun piece hpiece => ?_⟩
    obtain ⟨i, hi, rfl⟩ := List.mem_mapIdx.1 hpiece
    exact hfirst _ (List.getElem_mem hi)

/-- `str_to_frames`, with the payload of every frame. -/
def streamFrames (msgType : Int) (content : List UInt8) : List StreamFrame :=
  (strToFrames msgType content).pmap (fun piece h => ⟨streamPayload piece, streamPayload_fits h⟩)
    fun _ h => h

theorem streamFrames_split (msgType : Int) (content : List UInt8) : ∃ first last,
    streamFrames msgType content = first ++ [last] ∧
      (first = [] → content.length ≤ frameMaxLength / 2) ∧
      ∀ frame ∈ first, frame.payload.length = 8 + frameMaxLength / 2 := by
  obtain ⟨first, last, hsplit, hshort, hfirst⟩ := strToFrames_split msgType content
  have hpayloads : (streamFrames msgType content).map StreamFrame.payload =
      first.map streamPayload ++ [streamPayload last] := by
    rw [streamFrames, List.map_pmap, List.pmap_eq_map, hsplit, List.map_append, List.map_singleton]
  obtain ⟨frames, rest, hframes, hmap, hrest⟩ := List.map_eq_append_iff.1 hpayloads
  obtain ⟨frame, rfl, -⟩ := List.map_eq_singleton_iff.1 hrest
  have hlength : frames = [] → content.length ≤ frameMaxLength / 2 := by
    intro hnil
    rw [hnil, List.map_nil] at hmap
    exact hshort (List.map_eq_nil_iff.1 hmap.symm)
  refine ⟨frames, frame, hframes, hlength, fun frame hframe => ?_⟩
  obtain ⟨piece, hpiece, hp⟩ := List.mem_map.1 (hmap ▸ List.mem_map_of_mem hframe)
  rw [← hp, length_streamPayload, hfirst piece hpiece]

theorem streamFrames_short (msgType : Int) (h : content.length ≤ frameMaxLength / 2) :
    ∃ fits, streamFrames msgType content = [⟨streamPayload (msgType, content), fits⟩] := by
  have hframes : strToFrames msgType content = [(msgType, content)] := by
    rw [strToFrames, if_pos h]
  have hmem : (msgType, content) ∈ strToFrames msgType content := by
    rw [hframes]
    exact List.mem_cons_self
  refine ⟨streamPayload_fits hmem, ?_⟩
  simp only [streamFrames, hframes, List.pmap_cons, List.pmap_nil]

/-- The message that `write_stream_frame` encodes. -/
def StreamFrame.message (frame : StreamFrame) (type : UInt16) (requestId : UInt32) (more : Bool) :
    ProtocolMessage where
  type := type
  flags := if more then protocolFlagResponse ||| protocolFlagStream ||| protocolFlagMore
    else protocolFlagResponse ||| protocolFlagStream
  requestId := requestId
  payload := frame.payload

def StreamFrame.encoded (frame : StreamFrame) (type : UInt16) (requestId : UInt32) (more : Bool) :
    List UInt8 :=
  match protocolEncode (frame.message type requestId more) with
  | .ok encoded => encoded
  | .error _ => []

theorem StreamFrame.protocolEncode_message (frame : StreamFrame) (type : UInt16)
    (requestId : UInt32) (more : Bool) :
    protocolEncode (frame.message type requestId more) =
      .ok (frame.encoded type requestId more) := by
  have hflags : ∀ more : Bool, ProtocolV3.validFlags
      (if more then protocolFlagResponse ||| protocolFlagStream ||| protocolFlagMore
        else protocolFlagResponse ||| protocolFlagStream) = true := by
    decide
  have hok : ∃ bytes, protocolEncode (frame.message type requestId more) = .ok bytes := by
    rw [protocolEncode, message, if_neg (Nat.not_lt.2 frame.fits), hflags]
    exact ⟨_, rfl⟩
  obtain ⟨bytes, h⟩ := hok
  rw [encoded, h]

theorem length_protocolEncode (h : protocolEncode message = .ok bytes) :
    bytes.length = ProtocolV3.headerSize + message.payload.length := by
  rw [protocolEncode] at h
  split at h
  · cases h
  · split at h
    · cases h
    · cases h
      simp only [List.length_append, ProtocolV3.magic, ProtocolV3.put16, ProtocolV3.put32,
        List.length_cons, List.length_nil, ProtocolV3.headerSize]

theorem StreamFrame.length_encoded (frame : StreamFrame) (type : UInt16) (requestId : UInt32)
    (more : Bool) : (frame.encoded type requestId more).length =
      ProtocolV3.headerSize + frame.payload.length :=
  length_protocolEncode (frame.protocolEncode_message type requestId more)

/-- What `safe_send` makes of the frame at the front of the queue. -/
inductive SendResult where
  | sent (bytes : Nat)
  | wouldBlock
  | brokenPipe
  | failed
  deriving DecidableEq, Repr

/-- The sending side of `session_t`, with the bytes that the socket has taken and the result of
each send. -/
structure SendSession where
  isClose : Bool := false
  currentMessageType : UInt16 := 0
  currentRequestId : UInt32 := 0
  fsbufSize : Nat := 0
  sendBuf : List (List UInt8) := []
  queuedBytes : Nat := 0
  wire : List UInt8 := []
  sends : Nat := 0
  peer : Nat → SendResult

namespace SendSession

/-- The loop of `session_t::write` over the frames that are left in the queue. -/
def writeLoop : List (List UInt8) → Nat → SendSession → SendSession
  | [], _, s => { s with sendBuf := [] }
  | frame :: rest, totalBytes, s =>
    let s := { s with sendBuf := frame :: rest }
    if totalBytes < s.fsbufSize then
      if frame.length = 0 then writeLoop rest totalBytes s
      else
        let result := s.peer s.sends
        let s := { s with sends := s.sends + 1 }
        match result with
        | .sent bytes =>
          let wbytes := min bytes frame.length
          if wbytes = 0 then s
          else
            let s := { s with
              wire := s.wire ++ frame.take wbytes
              queuedBytes := s.queuedBytes - wbytes }
            if frame.length - wbytes > 0 then { s with sendBuf := frame.drop wbytes :: rest }
            else writeLoop rest (totalBytes + wbytes) s
        | .brokenPipe => { s with isClose := true }
        | .wouldBlock | .failed => s
    else s

def write (s : SendSession) : SendSession := writeLoop s.sendBuf 0 s

/-- The end that `write_frame` and `write_stream_frame` share: the frame is queued and the queue
flushed once, unless the frame no longer fits. -/
def queueFrame (encoded : List UInt8) (s : SendSession) : SendSession :=
  if s.queuedBytes + encoded.length > sessionQueueLimit then { s with isClose := true }
  else { s with
    queuedBytes := s.queuedBytes + encoded.length
    sendBuf := s.sendBuf ++ [encoded] }.write

def writeStreamFrame (frame : StreamFrame) (more : Bool) (s : SendSession) : SendSession :=
  if s.isClose then s
  else s.queueFrame (frame.encoded s.currentMessageType s.currentRequestId more)

/-- The bytes that the socket has taken, followed by those that are still queued. -/
def delivered (s : SendSession) : List UInt8 := s.wire ++ s.sendBuf.flatten

structure Flushed (s s' : SendSession) : Prop where
  delivered : s'.delivered = s.delivered
  type : s'.currentMessageType = s.currentMessageType
  requestId : s'.currentRequestId = s.currentRequestId
  peer : s'.peer = s.peer

theorem Flushed.refl (s : SendSession) : Flushed s s := ⟨rfl, rfl, rfl, rfl⟩

theorem Flushed.trans (h : Flushed s s') (h' : Flushed s' s'') : Flushed s s'' where
  delivered := h'.delivered.trans h.delivered
  type := h'.type.trans h.type
  requestId := h'.requestId.trans h.requestId
  peer := h'.peer.trans h.peer

theorem writeLoop_flushed (frames : List (List UInt8)) (totalBytes : Nat) (s : SendSession) :
    Flushed { s with sendBuf := frames } (writeLoop frames totalBytes s) := by
  induction frames generalizing totalBytes s with
  | nil => exact .refl _
  | cons frame rest ih =>
    rw [writeLoop]
    simp only
    split
    · split
      · rename_i hempty
        have hframe : Flushed { s with sendBuf := frame :: rest } { s with sendBuf := rest } := by
          constructor
          · rw [delivered, delivered, List.flatten_cons, List.length_eq_zero_iff.1 hempty,
              List.nil_append]
          all_goals rfl
        exact hframe.trans (ih totalBytes { s with sendBuf := frame :: rest })
      · split
        · rename_i bytes _
          split
          · exact ⟨rfl, rfl, rfl, rfl⟩
          · split
            · constructor
              · simp only [delivered, List.flatten_cons, List.append_assoc]
                rw [← List.append_assoc (frame.take _), List.take_append_drop]
              all_goals rfl
            · rename_i hall
              have hframe : Flushed { s with sendBuf := frame :: rest }
                  { s with
                    sends := s.sends + 1
                    sendBuf := rest
                    wire := s.wire ++ frame.take (min bytes frame.length)
                    queuedBytes := s.queuedBytes - min bytes frame.length } := by
                constructor
                · simp only [delivered, List.flatten_cons, List.append_assoc]
                  rw [List.take_of_length_le (by omega)]
                all_goals rfl
              exact hframe.trans (ih (totalBytes + min bytes frame.length)
                { s with
                  sends := s.sends + 1
                  sendBuf := frame :: rest
                  wire := s.wire ++ frame.take (min bytes frame.length)
                  queuedBytes := s.queuedBytes - min bytes frame.length })
        · exact ⟨rfl, rfl, rfl, rfl⟩
        · exact ⟨rfl, rfl, rfl, rfl⟩
        · exact ⟨rfl, rfl, rfl, rfl⟩
    · exact .refl _

theorem write_flushed (s : SendSession) : Flushed s s.write := writeLoop_flushed s.sendBuf 0 s

@[simp] theorem write_delivered (s : SendSession) : s.write.delivered = s.delivered :=
  s.write_flushed.delivered

@[simp] theorem write_type (s : SendSession) : s.write.currentMessageType = s.currentMessageType :=
  s.write_flushed.type

@[simp] theorem write_requestId (s : SendSession) : s.write.currentRequestId = s.currentRequestId :=
  s.write_flushed.requestId

def encodedFor (s : SendSession) (frame : StreamFrame) (more : Bool) : List UInt8 :=
  frame.encoded s.currentMessageType s.currentRequestId more

theorem length_encodedFor (s : SendSession) (frame : StreamFrame) (more : Bool) :
    (s.encodedFor frame more).length = ProtocolV3.headerSize + frame.payload.length :=
  frame.length_encoded _ _ _

variable {s : SendSession} {frame : StreamFrame} {more : Bool}

theorem writeStreamFrame_closed (h : s.isClose = true) : s.writeStreamFrame frame more = s := by
  rw [writeStreamFrame, if_pos h]

/-- A frame that does not fit next to what is queued closes the session, and nothing of it is
sent. -/
theorem writeStreamFrame_overflow
    (h : sessionQueueLimit < s.queuedBytes + (ProtocolV3.headerSize + frame.payload.length)) :
    s.writeStreamFrame frame more = { s with isClose := true } := by
  rw [writeStreamFrame]
  split
  · rename_i hclosed
    rw [← hclosed]
  · rw [queueFrame, if_pos]
    rwa [StreamFrame.length_encoded]

theorem writeStreamFrame_fits (more : Bool) (hopen : s.isClose = false)
    (h : s.queuedBytes + (ProtocolV3.headerSize + frame.payload.length) ≤ sessionQueueLimit) :
    s.writeStreamFrame frame more =
      { s with
        queuedBytes := s.queuedBytes + (ProtocolV3.headerSize + frame.payload.length)
        sendBuf := s.sendBuf ++ [s.encodedFor frame more] }.write := by
  rw [writeStreamFrame, if_neg (Bool.not_eq_true _ ▸ hopen), queueFrame, if_neg]
  · rw [StreamFrame.length_encoded]
    rfl
  · rw [StreamFrame.length_encoded]
    exact Nat.not_lt.2 h

@[simp] theorem writeStreamFrame_type (s : SendSession) (frame : StreamFrame) (more : Bool) :
    (s.writeStreamFrame frame more).currentMessageType = s.currentMessageType := by
  rw [writeStreamFrame]
  split
  · rfl
  · rw [queueFrame]
    split
    · rfl
    · rw [write_type]

@[simp] theorem writeStreamFrame_requestId (s : SendSession) (frame : StreamFrame) (more : Bool) :
    (s.writeStreamFrame frame more).currentRequestId = s.currentRequestId := by
  rw [writeStreamFrame]
  split
  · rfl
  · rw [queueFrame]
    split
    · rfl
    · rw [write_requestId]

theorem writeStreamFrame_delivered (h : (s.writeStreamFrame frame more).isClose = false) :
    (s.writeStreamFrame frame more).delivered = s.delivered ++ s.encodedFor frame more := by
  have hopen : s.isClose = false := by
    cases hclosed : s.isClose with
    | false => rfl
    | true =>
      rw [writeStreamFrame_closed hclosed] at h
      exact hclosed.symm.trans h
  by_cases hlimit :
      s.queuedBytes + (ProtocolV3.headerSize + frame.payload.length) ≤ sessionQueueLimit
  · rw [writeStreamFrame_fits more hopen hlimit, write_delivered, delivered, delivered,
      List.flatten_append, List.flatten_singleton, List.append_assoc]
  · rw [writeStreamFrame_overflow (by omega)] at h
    cases h

/-- The other end of the connection is still there. -/
def Connected (s : SendSession) : Prop := ∀ send, s.peer send ≠ .brokenPipe

theorem writeLoop_isClose (frames : List (List UInt8)) (totalBytes : Nat) {s : SendSession}
    (h : s.Connected) : (writeLoop frames totalBytes s).isClose = s.isClose := by
  induction frames generalizing totalBytes s with
  | nil => rfl
  | cons frame rest ih =>
    have hpeer := h s.sends
    rw [writeLoop]
    simp only
    split
    · split
      · exact ih totalBytes h
      · split
        · split
          · rfl
          · split
            · rfl
            · exact ih _ h
        · rename_i hbroken
          exact absurd hbroken hpeer
        · rfl
        · rfl
    · rfl

theorem write_isClose {s : SendSession} (h : s.Connected) : s.write.isClose = s.isClose :=
  writeLoop_isClose s.sendBuf 0 h

theorem Connected.write {s : SendSession} (h : s.Connected) : s.write.Connected := by
  rw [Connected, s.write_flushed.peer]
  exact h

theorem wire_delivered (s : SendSession) : s.wire.IsPrefix s.delivered := ⟨_, rfl⟩

end SendSession

end PmTiny
