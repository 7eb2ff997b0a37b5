import PmTiny.Lib.Runs
import PmTiny.Protocol.Decoding

namespace PmTiny.Windows
set_option autoImplicit true
open ProtocolV3

/-- What `start` does: a read is outstanding, or the messages of one are handed to the handler. -/
inductive Reading
  | waiting
  | dispatching
  | stopped
deriving DecidableEq, Repr

inductive CloseCause
  | readFailed
  | writeFailed
  | handlerThrew
  | queueFull
  | finished
  | stopped
  | expired
deriving DecidableEq, Repr

/-- `AsyncNamedPipeSession::impl`, with what the pipe has taken of the message that is being
written, what it has carried in either direction, and the messages that `send` has taken and the
handler been given. -/
structure PipeSession where
  decoder : ProtocolDecoder := {}
  reading : Reading := .waiting
  writes : List (List UInt8) := []
  queuedBytes : Nat := 0
  writing : Bool := false
  closed : Bool := false
  finishAfterWrites : Bool := false
  lastActivityMs : Nat := 0
  outstanding : Bool := false
  offset : Nat := 0
  received : List UInt8 := []
  wire : List UInt8 := []
  sent : List ProtocolMessage := []
  handled : List ProtocolMessage := []
  raised : Option ProtocolError := none
  cause : Option CloseCause := none

inductive PipeEvent
  | receive (nowMs : Nat) (chunk : List UInt8)
  | readFails
  | dispatch
  | handlerThrows
  | dispatchEnds
  | send (nowMs : Nat) (message : ProtocolMessage)
  | finish
  | stop
  | expire (nowMs : Nat)
  | transfer (count : Nat)
  | writeDone
  | writeFails

/-- The completions of writes that succeed. -/
def PipeEvent.Writes : PipeEvent → Prop
  | .transfer _ => True
  | .writeDone => True
  | _ => False

namespace PipeSession

def sessionQueueLimit : Nat := 1024 * 1024

def close (s : PipeSession) (cause : CloseCause) : PipeSession :=
  if s.closed then s else { s with closed := true, cause := some cause }

def writeNext (s : PipeSession) : PipeSession :=
  if s.closed || s.writes.isEmpty then
    let s := { s with writing := false }
    if s.finishAfterWrites then s.close .finished else s
  else { s with outstanding := true, offset := 0 }

/-- A message that `protocol_encode` refuses changes nothing: the caller has the exception. -/
def send (s : PipeSession) (nowMs : Nat) (message : ProtocolMessage) : PipeSession :=
  if s.closed then s
  else match protocolEncode message with
    | .error _ => s
    | .ok wire =>
      if s.queuedBytes + wire.length > sessionQueueLimit then s.close .queueFull
      else
        let s := { s with
          queuedBytes := s.queuedBytes + wire.length
          writes := s.writes ++ [wire]
          sent := s.sent ++ [message]
          lastActivityMs := nowMs }
        if s.writing then s else { s with writing := true }.writeNext

def finish (s : PipeSession) : PipeSession :=
  let s := { s with finishAfterWrites := true }
  if !s.writing && s.writes.isEmpty then s.close .finished else s

/-- The completion of a read: what the decoder makes of the bytes, or that it throws. -/
def receive (s : PipeSession) (nowMs : Nat) (chunk : List UInt8) : PipeSession :=
  let fed := s.decoder.feed chunk
  let s := { s with
    lastActivityMs := nowMs
    received := s.received ++ chunk
    decoder := fed.1
    raised := fed.2 }
  if fed.2.isSome then { s with reading := .stopped }.close .readFailed
  else { s with reading := .dispatching }

/-- The completions of the pipe, the calls of the daemon and what the handler does, each when it can
come; a completion may still arrive after the session was closed. -/
def step (s : PipeSession) : PipeEvent → Option PipeSession
  | .receive nowMs chunk => if s.reading = .waiting then some (s.receive nowMs chunk) else none
  | .readFails =>
    if s.reading = .waiting then some ({ s with reading := .stopped }.close .readFailed) else none
  | .dispatch =>
    if s.reading = .dispatching then
      match s.decoder.pop with
      | .ok (message, decoder) => some { s with decoder, handled := s.handled ++ [message] }
      | .error _ => none
    else none
  | .handlerThrows =>
    if s.reading = .dispatching then
      some ({ s with reading := .stopped }.close .handlerThrew)
    else none
  | .dispatchEnds =>
    if s.reading = .dispatching ∧ s.decoder.empty = true then
      some { s with reading := .waiting }
    else none
  | .send nowMs message => some (s.send nowMs message)
  | .finish => some s.finish
  | .stop => some (s.close .stopped)
  | .expire nowMs =>
    if s.decoder.buffer ≠ [] ∧ 5000 < nowMs - s.lastActivityMs then some (s.close .expired)
    else none
  -- the pipe takes some bytes of the message at the front
  | .transfer count =>
    if s.outstanding = true ∧ s.closed = false ∧ s.offset + count ≤ (s.writes.headD []).length then
      some { s with
        offset := s.offset + count
        wire := s.wire ++ ((s.writes.headD []).drop s.offset).take count }
    else none
  | .writeDone =>
    if s.outstanding = true ∧ s.offset = (s.writes.headD []).length then
      some { s with
        outstanding := false
        offset := 0
        queuedBytes := s.queuedBytes - (s.writes.headD []).length
        writes := s.writes.tail }.writeNext
    else none
  | .writeFails =>
    if s.outstanding = true then some ({ s with outstanding := false }.close .writeFailed)
    else none

variable {s s' : PipeSession}

def front (s : PipeSession) : List UInt8 := s.writes.headD []

/-- The bytes in the pipe are those of the messages that `send` has taken, in their order, up to
what is still queued. -/
structure Framed (s : PipeSession) : Prop where
  queued : s.queuedBytes = (s.writes.map (·.length)).sum
  limit : s.queuedBytes ≤ sessionQueueLimit
  frames : ∃ done, List.Forall₂ (fun message frame => protocolEncode message = .ok frame) s.sent
    (done ++ s.writes) ∧ s.wire = done.flatten ++ s.front.take s.offset
  offset : s.offset ≤ s.front.length
  busy : s.outstanding = true → s.writes ≠ [] ∧ s.writing = true
  cause : s.closed = true ↔ s.cause.isSome = true
  finished : s.cause = some .finished → s.finishAfterWrites = true ∧ s.writes = []

/-- While the session is open exactly the message at the front is being written. -/
structure Written (s : PipeSession) : Prop extends Framed s where
  writing : s.closed = false →
    (s.outstanding = true ↔ s.writes ≠ []) ∧ (s.writing = true ↔ s.writes ≠ [])
  finishing : s.closed = false → s.finishAfterWrites = true → s.writes ≠ []

theorem close_of_closed (h : s.closed = true) (why : CloseCause) : s.close why = s := by
  rw [close, if_pos h]

theorem close_of_open (h : s.closed = false) (why : CloseCause) :
    s.close why = { s with closed := true, cause := some why } := by
  rw [close, if_neg (Bool.eq_false_iff.1 h)]

theorem Framed.close {why : CloseCause} (h : s.Framed)
    (hwhy : why = .finished → s.finishAfterWrites = true ∧ s.writes = []) :
    (s.close why).Written := by
  by_cases hclosed : s.closed = true
  · rw [close_of_closed hclosed]
    exact {
      toFramed := h
      writing := fun hopen => by cases hclosed.symm.trans hopen
      finishing := fun hopen => by cases hclosed.symm.trans hopen }
  · rw [close_of_open (Bool.eq_false_iff.2 hclosed)]
    exact {
      queued := h.queued
      limit := h.limit
      frames := h.frames
      offset := h.offset
      busy := h.busy
      cause := ⟨fun _ => rfl, fun _ => rfl⟩
      finished := fun heq => hwhy (Option.some.inj heq)
      writing := fun hopen => by cases hopen
      finishing := fun hopen => by cases hopen }

theorem Written.same (h : s.Written) (decoder : ProtocolDecoder) (reading : Reading)
    (lastActivityMs : Nat) (received : List UInt8) (handled : List ProtocolMessage)
    (raised : Option ProtocolError) :
    ({ s with decoder, reading, lastActivityMs, received, handled, raised } :
      PipeSession).Written :=
  ⟨⟨h.queued, h.limit, h.frames, h.offset, h.busy, h.cause, h.finished⟩, h.writing,
    h.finishing⟩

theorem writeNext_idle (h : s.closed = true ∨ s.writes = []) : s.writeNext =
    if s.finishAfterWrites then ({ s with writing := false } : PipeSession).close .finished
    else { s with writing := false } := by
  rw [writeNext, if_pos]
  rw [Bool.or_eq_true, List.isEmpty_iff]
  exact h

theorem writeNext_busy (hopen : s.closed = false) (hwrites : s.writes ≠ []) :
    s.writeNext = { s with outstanding := true, offset := 0 } := by
  rw [writeNext, if_neg]
  rw [Bool.or_eq_true, List.isEmpty_iff]
  rintro (hclosed | hnil)
  · cases hclosed.symm.trans hopen
  · exact hwrites hnil

theorem writeNext_written (h : s.Framed) (houtstanding : s.outstanding = false)
    (hoffset : s.offset = 0) (hwriting : s.writing = true) : s.writeNext.Written := by
  by_cases hidle : s.closed = true ∨ s.writes = []
  · have hframed : ({ s with writing := false } : PipeSession).Framed :=
      ⟨h.queued, h.limit, h.frames, h.offset,
        fun hset => (by cases houtstanding.symm.trans hset), h.cause, h.finished⟩
    rw [writeNext_idle hidle]
    have hopen : ({ s with writing := false } : PipeSession).closed = false → s.writes = [] :=
      fun hopen => hidle.resolve_left fun hclosed => by cases hclosed.symm.trans hopen
    split
    · rename_i hfinish
      by_cases hclosed : s.closed = true
      · rw [close_of_closed (s := { s with writing := false }) hclosed]
        exact {
          toFramed := hframed
          writing := fun hopen => by cases hclosed.symm.trans hopen
          finishing := fun hopen => by cases hclosed.symm.trans hopen }
      · exact hframed.close fun _ => ⟨hfinish, hidle.resolve_left hclosed⟩
    · rename_i hfinish
      exact {
        toFramed := hframed
        writing := fun hopen' => by
          dsimp only
          rw [houtstanding, hopen hopen']
          exact ⟨⟨fun heq => (by cases heq), fun hne => absurd rfl hne⟩,
            ⟨fun heq => (by cases heq), fun hne => absurd rfl hne⟩⟩
        finishing := fun _ hset => absurd hset hfinish }
  · obtain ⟨hopen, hwrites⟩ := not_or.1 hidle
    obtain ⟨done, hdone, hwire⟩ := h.frames
    rw [writeNext_busy (Bool.eq_false_iff.2 hopen) hwrites]
    exact {
      queued := h.queued
      limit := h.limit
      frames := ⟨done, hdone, by rw [hwire, hoffset]; rfl⟩
      offset := Nat.zero_le _
      busy := fun _ => ⟨hwrites, hwriting⟩
      cause := h.cause
      finished := h.finished
      writing := fun _ => ⟨⟨fun _ => hwrites, fun _ => rfl⟩, ⟨fun _ => hwrites, fun _ => hwriting⟩⟩
      finishing := fun _ _ => hwrites }

theorem headD_append {α : Type} {l : List (List α)} (h : l ≠ []) (m : List (List α)) :
    (l ++ m).headD [] = l.headD [] := by
  cases l with
  | nil => exact absurd rfl h
  | cons a l => rfl

theorem Written.push (h : s.Written) (hopen : s.closed = false)
    (hencode : protocolEncode message = .ok frame)
    (hfits : s.queuedBytes + frame.length ≤ sessionQueueLimit) (nowMs : Nat) :
    ({ s with
      queuedBytes := s.queuedBytes + frame.length
      writes := s.writes ++ [frame]
      sent := s.sent ++ [message]
      lastActivityMs := nowMs } : PipeSession).Framed := by
  obtain ⟨done, hdone, hwire⟩ := h.frames
  have hfront : s.front.take s.offset = ((s.writes ++ [frame]).headD []).take s.offset ∧
      s.offset ≤ ((s.writes ++ [frame]).headD []).length := by
    by_cases hwrites : s.writes = []
    · have hzero : s.offset = 0 := by
        have hle := h.offset
        rw [front, hwrites] at hle
        exact Nat.le_zero.1 hle
      rw [hzero]
      exact ⟨rfl, Nat.zero_le _⟩
    · rw [headD_append hwrites]
      exact ⟨rfl, h.offset⟩
  exact {
    queued := by
      dsimp only
      rw [h.queued, List.map_append, List.sum_append]
      rfl
    limit := hfits
    frames := by
      refine ⟨done, ?_, ?_⟩
      · dsimp only
        rw [← List.append_assoc]
        exact List.rel_append hdone (.cons hencode .nil)
      · dsimp only
        rw [hwire, hfront.1]
        rfl
    offset := hfront.2
    busy := fun hset =>
      ⟨fun hnil => (by cases (List.append_eq_nil_iff.1 hnil).2), (h.busy hset).2⟩
    cause := h.cause
    finished := fun hcause => by
      have hclosed := h.cause.2 (by dsimp only at hcause; rw [hcause]; rfl)
      cases hclosed.symm.trans hopen }

theorem send_written (h : s.Written) : (s.send nowMs message).Written := by
  rw [send]
  split
  · exact h
  · rename_i hclosed
    have hopen := Bool.eq_false_iff.2 hclosed
    split
    · exact h
    · rename_i frame hencode
      split
      · exact h.toFramed.close fun heq => by cases heq
      · rename_i hfits
        have hpush := h.push hopen hencode (Nat.le_of_not_lt hfits) nowMs
        obtain ⟨houtstanding, hwriting⟩ := h.writing hopen
        dsimp only
        split
        · rename_i hbusy
          have hnonempty : s.writes ++ [frame] ≠ [] := fun hnil => by
            cases (List.append_eq_nil_iff.1 hnil).2
          exact {
            toFramed := hpush
            writing := fun _ => ⟨⟨fun _ => hnonempty, fun _ => houtstanding.2 (hwriting.1 hbusy)⟩,
              ⟨fun _ => hnonempty, fun _ => hbusy⟩⟩
            finishing := fun _ _ => hnonempty }
        · rename_i hidle
          have hwrites : s.writes = [] := by
            by_contra hne
            exact hidle (hwriting.2 hne)
          have hnot : s.outstanding = false :=
            Bool.eq_false_iff.2 fun hset => houtstanding.1 hset hwrites
          have hzero : s.offset = 0 := by
            have hle := h.offset
            rw [front, hwrites] at hle
            exact Nat.le_zero.1 hle
          exact writeNext_written
            ⟨hpush.queued, hpush.limit, hpush.frames, hpush.offset,
              fun hset => ⟨(hpush.busy hset).1, rfl⟩, hpush.cause, hpush.finished⟩ hnot hzero rfl

theorem finish_written (h : s.Written) : s.finish.Written := by
  have hframed : ({ s with finishAfterWrites := true } : PipeSession).Framed :=
    ⟨h.queued, h.limit, h.frames, h.offset, h.busy, h.cause,
      fun hcause => ⟨rfl, (h.finished hcause).2⟩⟩
  rw [finish]
  dsimp only
  split
  · rename_i hidle
    rw [Bool.and_eq_true, List.isEmpty_iff] at hidle
    exact hframed.close fun _ => ⟨rfl, hidle.2⟩
  · rename_i hbusy
    exact {
      toFramed := hframed
      writing := h.writing
      finishing := fun hopen _ hnil => hbusy (by
        have hidle : s.writing = false :=
          Bool.eq_false_iff.2 fun hset => (h.writing hopen).2.1 hset hnil
        dsimp only at hnil
        rw [hidle, hnil]
        rfl) }

theorem transfer_written (h : s.Written) (hs : s.step (.transfer count) = some s') :
    s'.Written := by
  rw [step] at hs
  split at hs
  · rename_i htransfer
    obtain ⟨-, hopen, hfits⟩ := htransfer
    obtain ⟨done, hdone, hwire⟩ := h.frames
    cases hs
    exact {
      queued := h.queued
      limit := h.limit
      frames := ⟨done, hdone, by
        dsimp only [front]
        rw [hwire, List.append_assoc, List.take_add]
        rfl⟩
      offset := hfits
      busy := h.busy
      cause := h.cause
      finished := h.finished
      writing := h.writing
      finishing := h.finishing }
  · cases hs

theorem writeDone_written (h : s.Written) (hs : s.step .writeDone = some s') : s'.Written := by
  rw [step] at hs
  split at hs
  · rename_i hdone
    obtain ⟨houtstanding, hoffset⟩ := hdone
    obtain ⟨done, hframes, hwire⟩ := h.frames
    obtain ⟨hwrites, hwriting⟩ := h.busy houtstanding
    cases hqueue : s.writes with
    | nil => exact absurd hqueue hwrites
    | cons frame rest =>
      have hqueued := h.queued
      have hlimit := h.limit
      rw [hqueue] at hframes hqueued
      rw [List.map_cons, List.sum_cons] at hqueued
      rw [front, hqueue, hoffset, hqueue, List.headD_cons, List.take_length] at hwire
      rw [hqueue] at hs
      cases hs
      refine writeNext_written ?_ rfl rfl hwriting
      exact {
        queued := by
          dsimp only [List.headD_cons, List.tail_cons]
          omega
        limit := Nat.le_trans (Nat.sub_le _ _) hlimit
        frames := by
          refine ⟨done ++ [frame], ?_, ?_⟩
          · dsimp only [List.tail_cons]
            rwa [List.append_assoc]
          · dsimp only
            rw [hwire, List.flatten_append, List.take_zero, List.append_nil]
            simp
        offset := Nat.zero_le _
        busy := fun heq => by cases heq
        cause := h.cause
        finished := fun hcause => by
          have hnil := (h.finished hcause).2
          rw [hqueue] at hnil
          cases hnil }
  · cases hs

theorem step_written (h : s.Written) (hs : s.step e = some s') : s'.Written := by
  cases e with
  | receive nowMs chunk =>
    rw [step] at hs
    split at hs
    · cases hs
      rw [receive]
      dsimp only
      split
      · exact (h.same _ _ _ _ _ _).toFramed.close fun heq => by cases heq
      · exact h.same _ _ _ _ _ _
    · cases hs
  | readFails =>
    rw [step] at hs
    split at hs
    · cases hs
      exact (h.same _ _ _ _ _ _).toFramed.close fun heq => by cases heq
    · cases hs
  | dispatch =>
    rw [step] at hs
    split at hs
    · split at hs
      · cases hs
        exact h.same _ _ _ _ _ _
      · cases hs
    · cases hs
  | handlerThrows =>
    rw [step] at hs
    split at hs
    · cases hs
      exact (h.same _ _ _ _ _ _).toFramed.close fun heq => by cases heq
    · cases hs
  | dispatchEnds =>
    rw [step] at hs
    split at hs
    · cases hs
      exact h.same _ _ _ _ _ _
    · cases hs
  | send nowMs message =>
    cases hs
    exact send_written h
  | finish =>
    cases hs
    exact finish_written h
  | stop =>
    cases hs
    exact h.toFramed.close fun heq => by cases heq
  | expire nowMs =>
    rw [step] at hs
    split at hs
    · cases hs
      exact h.toFramed.close fun heq => by cases heq
    · cases hs
  | transfer count => exact transfer_written h hs
  | writeDone => exact writeDone_written h hs
  | writeFails =>
    rw [step] at hs
    split at hs
    · cases hs
      have hframed : ({ s with outstanding := false } : PipeSession).Framed :=
        ⟨h.queued, h.limit, h.frames, h.offset, fun heq => (by cases heq), h.cause, h.finished⟩
      exact hframed.close fun heq => by cases heq
    · cases hs

theorem start_written : ({} : PipeSession).Written where
  queued := rfl
  limit := Nat.zero_le _
  frames := ⟨[], .nil, rfl⟩
  offset := Nat.zero_le _
  busy := fun h => by cases h
  cause := ⟨fun h => (by cases h), fun h => (by cases h)⟩
  finished := fun h => by cases h
  writing := fun _ =>
    ⟨⟨fun h => (by cases h), fun h => absurd rfl h⟩, ⟨fun h => (by cases h), fun h => absurd rfl h⟩⟩
  finishing := fun _ h => by cases h

/-- The decoder has made of the bytes received what a decoder makes of them, and the handler has
been given the first of the messages. -/
structure Read (s : PipeSession) : Prop where
  decodes : Decodes ⟨s.decoder, s.handled, s.raised⟩ s.received
  going : s.reading ≠ .stopped → s.raised = none

structure SameRead (s s' : PipeSession) : Prop where
  decoder : s'.decoder = s.decoder
  handled : s'.handled = s.handled
  raised : s'.raised = s.raised
  received : s'.received = s.received
  reading : s'.reading = s.reading

theorem Read.of_same (h : s.Read) (hs : SameRead s s') : s'.Read := by
  obtain ⟨hdecodes, hgoing⟩ := h
  rw [← hs.decoder, ← hs.handled, ← hs.raised, ← hs.received] at hdecodes
  rw [← hs.reading, ← hs.raised] at hgoing
  exact ⟨hdecodes, hgoing⟩

theorem close_read (s : PipeSession) (why : CloseCause) : SameRead s (s.close why) := by
  rw [close]
  split <;> exact ⟨rfl, rfl, rfl, rfl, rfl⟩

theorem SameRead.trans (h : SameRead s t) (h' : SameRead t s') : SameRead s s' :=
  ⟨h'.decoder.trans h.decoder, h'.handled.trans h.handled, h'.raised.trans h.raised,
    h'.received.trans h.received, h'.reading.trans h.reading⟩

theorem writeNext_read (s : PipeSession) : SameRead s s.writeNext := by
  rw [writeNext]
  dsimp only
  split
  · split
    · exact SameRead.trans (t := { s with writing := false }) ⟨rfl, rfl, rfl, rfl, rfl⟩
        (close_read _ _)
    · exact ⟨rfl, rfl, rfl, rfl, rfl⟩
  · exact ⟨rfl, rfl, rfl, rfl, rfl⟩

theorem send_read (s : PipeSession) (nowMs : Nat) (message : ProtocolMessage) :
    SameRead s (s.send nowMs message) := by
  rw [send]
  split
  · exact ⟨rfl, rfl, rfl, rfl, rfl⟩
  · split
    · exact ⟨rfl, rfl, rfl, rfl, rfl⟩
    · rename_i frame _
      split
      · exact close_read _ _
      · dsimp only
        split
        · exact ⟨rfl, rfl, rfl, rfl, rfl⟩
        · refine SameRead.trans ?_ (writeNext_read _)
          exact ⟨rfl, rfl, rfl, rfl, rfl⟩

theorem finish_read (s : PipeSession) : SameRead s s.finish := by
  rw [finish]
  dsimp only
  split
  · exact SameRead.trans (t := { s with finishAfterWrites := true }) ⟨rfl, rfl, rfl, rfl, rfl⟩
      (close_read _ _)
  · exact ⟨rfl, rfl, rfl, rfl, rfl⟩

theorem receive_read (h : s.Read) (hwaiting : s.reading = .waiting) (nowMs : Nat)
    (chunk : List UInt8) : (s.receive nowMs chunk).Read := by
  have hnone := h.going (by rw [hwaiting]; decide)
  have hfed := h.decodes.feed chunk
  rw [DecoderRun.step_feed (by exact hnone)] at hfed
  rw [receive]
  dsimp only at hfed ⊢
  split
  · refine Read.of_same ?_ (close_read _ _)
    exact ⟨hfed, fun hne => absurd rfl hne⟩
  · rename_i hfine
    exact ⟨hfed, fun _ => Option.not_isSome_iff_eq_none.1 hfine⟩

theorem step_read (h : s.Read) (hs : s.step e = some s') : s'.Read := by
  cases e with
  | receive nowMs chunk =>
    rw [step] at hs
    split at hs
    · rename_i hwaiting
      cases hs
      exact receive_read h hwaiting nowMs chunk
    · cases hs
  | readFails =>
    rw [step] at hs
    split at hs
    · cases hs
      refine Read.of_same ?_ (close_read _ _)
      exact ⟨h.decodes, fun hne => absurd rfl hne⟩
    · cases hs
  | dispatch =>
    rw [step] at hs
    split at hs
    · split at hs
      · rename_i message decoder hpop
        cases hs
        have hpopped := h.decodes.pop
        rw [DecoderRun.step] at hpopped
        dsimp only at hpopped
        rw [hpop] at hpopped
        exact ⟨hpopped, h.going⟩
      · cases hs
    · cases hs
  | handlerThrows =>
    rw [step] at hs
    split at hs
    · cases hs
      refine Read.of_same ?_ (close_read _ _)
      exact ⟨h.decodes, fun hne => absurd rfl hne⟩
    · cases hs
  | dispatchEnds =>
    rw [step] at hs
    split at hs
    · rename_i hends
      cases hs
      exact ⟨h.decodes, fun _ => h.going (by rw [hends.1]; decide)⟩
    · cases hs
  | send nowMs message =>
    cases hs
    exact h.of_same (send_read _ _ _)
  | finish =>
    cases hs
    exact h.of_same (finish_read _)
  | stop =>
    cases hs
    exact h.of_same (close_read _ _)
  | expire nowMs =>
    rw [step] at hs
    split at hs
    · cases hs
      exact h.of_same (close_read _ _)
    · cases hs
  | transfer count =>
    rw [step] at hs
    split at hs
    · cases hs
      exact h.of_same ⟨rfl, rfl, rfl, rfl, rfl⟩
    · cases hs
  | writeDone =>
    rw [step] at hs
    split at hs
    · cases hs
      refine h.of_same (SameRead.trans ?_ (writeNext_read _))
      exact ⟨rfl, rfl, rfl, rfl, rfl⟩
    · cases hs
  | writeFails =>
    rw [step] at hs
    split at hs
    · cases hs
      exact h.of_same (SameRead.trans (t := { s with outstanding := false })
        ⟨rfl, rfl, rfl, rfl, rfl⟩ (close_read _ _))
    · cases hs

theorem start_read : ({} : PipeSession).Read :=
  ⟨⟨⟨[], .more rfl, fun _ => rfl⟩, fun _ h => by cases h⟩, fun _ => rfl⟩

theorem Framed.unwritten (h : s.Framed) : ∃ frames,
    List.Forall₂ (fun message frame => protocolEncode message = .ok frame) s.sent frames ∧
      s.wire ++ s.writes.flatten.drop s.offset = frames.flatten := by
  obtain ⟨done, hframes, hwire⟩ := h.frames
  refine ⟨done ++ s.writes, hframes, ?_⟩
  have hoffset := h.offset
  rw [front] at hwire hoffset
  rw [hwire, List.flatten_append, List.append_assoc]
  congr 1
  cases hwrites : s.writes with
  | nil => simp
  | cons frame rest =>
    rw [hwrites, List.headD_cons] at hoffset
    rw [List.headD_cons, List.flatten_cons, List.drop_append_of_le_length hoffset,
      ← List.append_assoc, List.take_append_drop]

theorem Framed.read_of_prefix (h : s.Framed) (actions : List DecoderAction)
    (hactions : offered actions <+: s.wire) :
    (DecoderRun.of actions).raised = none ∧
      (DecoderRun.of actions).popped ++ (DecoderRun.of actions).decoder.messages <+: s.sent := by
  obtain ⟨frames, hframes, hwire⟩ := h.unwritten
  obtain ⟨more, hmore⟩ := hactions
  have hinit : Decodes {} [] := ⟨⟨[], .more rfl, fun _ => rfl⟩, fun _ he => by cases he⟩
  obtain ⟨rest, hdrains, -⟩ := (hinit.foldl actions).drains
  have hall := drains_encoded hframes
  rw [← hwire, ← hmore, List.append_assoc] at hall
  obtain ⟨rest', r, hrest, -⟩ :=
    parseFrames_drains (rest ++ (more ++ s.writes.flatten.drop s.offset))
  obtain ⟨hsent, hraised⟩ :=
    hall.cut incremental_frontFrame hdrains ⟨_, rest', r, hrest⟩
  exact ⟨hraised, hsent⟩

/-- In every order of completions, calls, failures and expiries: the client, however the pipe cuts
what it carries, decodes the messages that `send` has taken, from the first on and without a hole;
what it has not yet got is queued, counted by `queued_bytes` and within the limit; while the session
is open a write is outstanding exactly when something is queued; and the handler is given the
client's messages in the same way. -/
theorem session_delivers {events : List PipeEvent} (h : Transitions.Run step {} events s) :
    (∀ actions, offered actions <+: s.wire → (DecoderRun.of actions).raised = none ∧
      (DecoderRun.of actions).popped ++ (DecoderRun.of actions).decoder.messages <+: s.sent) ∧
    (∃ frames,
      List.Forall₂ (fun message frame => protocolEncode message = .ok frame) s.sent frames ∧
        s.wire ++ s.writes.flatten.drop s.offset = frames.flatten) ∧
    (s.queuedBytes = (s.writes.map (·.length)).sum ∧ s.queuedBytes ≤ sessionQueueLimit) ∧
    (s.closed = false → (s.outstanding = true ↔ s.writes ≠ [])) ∧
    s.handled ++ s.decoder.messages = (parseFrames s.received).1 := by
  have hwritten : s.Written :=
    h.invariant Written (fun _ _ _ hi hs => step_written hi hs) start_written
  have hread : s.Read := h.invariant Read (fun _ _ _ hi hs => step_read hi hs) start_read
  refine ⟨fun actions hactions => hwritten.read_of_prefix actions hactions, hwritten.unwritten,
    ⟨hwritten.queued, hwritten.limit⟩, fun hopen => (hwritten.writing hopen).1, ?_⟩
  obtain ⟨rest, hdrains, -⟩ := hread.decodes.drains
  obtain ⟨rest', r, hparse, -⟩ := parseFrames_drains s.received
  exact (hdrains.unique hparse).1

/-- A reply that is half written when the daemon sends another one. -/
def twoReplies : List PipeEvent :=
  [.send 0 { type := 1 }, .transfer 10, .send 1 { type := 2 }, .finish]

theorem session_delivers_two : ∃ s, Transitions.Run step {} twoReplies s ∧
    ((∀ actions, offered actions <+: s.wire → (DecoderRun.of actions).raised = none ∧
      (DecoderRun.of actions).popped ++ (DecoderRun.of actions).decoder.messages <+: s.sent) ∧
    (∃ frames,
      List.Forall₂ (fun message frame => protocolEncode message = .ok frame) s.sent frames ∧
        s.wire ++ s.writes.flatten.drop s.offset = frames.flatten) ∧
    (s.queuedBytes = (s.writes.map (·.length)).sum ∧ s.queuedBytes ≤ sessionQueueLimit) ∧
    (s.closed = false → (s.outstanding = true ↔ s.writes ≠ [])) ∧
    s.handled ++ s.decoder.messages = (parseFrames s.received).1) :=
  have hrun : Transitions.Run step {} twoReplies _ := .of_after rfl
  ⟨_, hrun, session_delivers hrun⟩

def pendingWrites (s : PipeSession) : Nat :=
  2 * s.writes.length + if s.offset < s.front.length then 1 else 0

theorem pendingWrites_le (s : PipeSession) : s.pendingWrites ≤ 2 * s.writes.length + 1 := by
  rw [pendingWrites]
  split <;> omega

theorem close_fields (s : PipeSession) (why : CloseCause) : (s.close why).writes = s.writes ∧
    (s.close why).sent = s.sent ∧ (s.close why).finishAfterWrites = s.finishAfterWrites ∧
    (s.close why).offset = s.offset := by
  rw [close]
  split <;> exact ⟨rfl, rfl, rfl, rfl⟩

theorem writeNext_fields (s : PipeSession) : s.writeNext.writes = s.writes ∧
    s.writeNext.sent = s.sent ∧ s.writeNext.finishAfterWrites = s.finishAfterWrites := by
  rw [writeNext]
  dsimp only
  split
  · split
    · obtain ⟨hwrites, hsent, hfinish, -⟩ :=
        close_fields ({ s with writing := false } : PipeSession) .finished
      exact ⟨hwrites, hsent, hfinish⟩
    · exact ⟨rfl, rfl, rfl⟩
  · exact ⟨rfl, rfl, rfl⟩

theorem writeNext_finishes (hopen : s.closed = false) (hfinish : s.finishAfterWrites = true) :
    s.writeNext.closed = false ∨ s.writeNext.cause = some .finished := by
  by_cases hwrites : s.writes = []
  · rw [writeNext_idle (.inr hwrites), if_pos hfinish,
      close_of_open (s := { s with writing := false }) hopen]
    exact .inr rfl
  · rw [writeNext_busy hopen hwrites]
    exact .inl hopen

/-- A session that is to finish and is still open is writing, and the next completion of the write
takes it on. -/
theorem finishing_progress (h : s.Written) (hfinish : s.finishAfterWrites = true)
    (hopen : s.closed = false) :
    ∃ e s', e.Writes ∧ s.step e = some s' ∧ s'.pendingWrites < s.pendingWrites := by
  have hwrites := h.finishing hopen hfinish
  have houtstanding := (h.writing hopen).1.2 hwrites
  have hoffset := h.offset
  by_cases hpart : s.offset < s.front.length
  · have hfits : s.offset + (s.front.length - s.offset) ≤ (s.writes.headD []).length := by
      rw [front]
      rw [front] at hpart
      omega
    refine ⟨.transfer (s.front.length - s.offset), _, trivial,
      if_pos ⟨houtstanding, hopen, hfits⟩, ?_⟩
    rw [pendingWrites, pendingWrites, if_pos hpart, if_neg]
    · exact Nat.lt_succ_self _
    · show ¬s.offset + (s.front.length - s.offset) < s.front.length
      omega
  · have hdone : s.offset = (s.writes.headD []).length := by
      rw [front] at hpart hoffset
      omega
    refine ⟨.writeDone, _, trivial, if_pos ⟨houtstanding, hdone⟩, ?_⟩
    generalize hnext : ({ s with
      outstanding := false
      offset := 0
      queuedBytes := s.queuedBytes - (s.writes.headD []).length
      writes := s.writes.tail } : PipeSession) = next
    have hwrites' : next.writes = s.writes.tail := by
      rw [← hnext]
    obtain ⟨hkeptWrites, -, -⟩ := writeNext_fields next
    have hle := pendingWrites_le next.writeNext
    have hlength := List.length_pos_iff.2 hwrites
    have hnow : s.pendingWrites = 2 * s.writes.length := by
      rw [pendingWrites, if_neg hpart]
      rfl
    rw [hkeptWrites, hwrites', List.length_tail] at hle
    omega

/-- A session that is to finish, and has not ended in another way. -/
structure Finishing (s : PipeSession) : Prop where
  written : s.Written
  finish : s.finishAfterWrites = true
  ends : s.closed = false ∨ s.cause = some .finished

theorem Finishing.writes {e : PipeEvent} (h : s.Finishing) (he : e.Writes)
    (hs : s.step e = some s') : s'.Finishing ∧ s'.sent = s.sent := by
  have hwritten := step_written h.written hs
  cases e with
  | transfer count =>
    obtain ⟨-, hs⟩ := Option.ite_none_right_eq_some.1 hs
    cases hs
    exact ⟨⟨hwritten, h.finish, h.ends⟩, rfl⟩
  | writeDone =>
    obtain ⟨⟨houtstanding, -⟩, hs⟩ := Option.ite_none_right_eq_some.1 hs
    have hopen : s.closed = false := h.ends.resolve_right fun hcause =>
      (h.written.busy houtstanding).1 (h.written.finished hcause).2
    cases hs
    obtain ⟨-, hsent, hfinish⟩ := writeNext_fields { s with
      outstanding := false
      offset := 0
      queuedBytes := s.queuedBytes - (s.writes.headD []).length
      writes := s.writes.tail }
    exact ⟨⟨hwritten, hfinish.trans h.finish, writeNext_finishes hopen h.finish⟩, hsent⟩
  | _ => exact he.elim

/-- `finish` loses nothing: while the session is open the completions of its writes alone can take
it to its end, and whichever way they go, they end it in no other way, and there the client has
exactly the messages that `send` has taken. -/
theorem session_finishes {events : List PipeEvent} (h : Transitions.Run step {} events s)
    (hfinish : s.finishAfterWrites = true) (hopen : s.closed = false) :
    (∃ more s', Transitions.Run step s more s' ∧ (∀ e ∈ more, e.Writes) ∧
      s'.cause = some .finished) ∧
    ∀ more s', Transitions.Run step s more s' → (∀ e ∈ more, e.Writes) →
      s'.sent = s.sent ∧ (s'.closed = true → s'.cause = some .finished ∧
      ∀ actions, offered actions = s'.wire → (DecoderRun.of actions).raised = none ∧
        (DecoderRun.of actions).popped ++ (DecoderRun.of actions).decoder.messages = s.sent) := by
  have hwritten : s.Written :=
    h.invariant Written (fun _ _ _ hi hs => step_written hi hs) start_written
  have hstart : s.Finishing := ⟨hwritten, hfinish, .inl hopen⟩
  constructor
  · have hgood : ∀ t : PipeSession, t.Finishing → ¬t.cause = some .finished →
        ∃ e t', e.Writes ∧ t.step e = some t' ∧ t'.Finishing ∧
          t'.pendingWrites < t.pendingWrites := by
      intro t ht hcause
      obtain ⟨e, t', he, hs, hless⟩ :=
        finishing_progress ht.written ht.finish (ht.ends.resolve_right hcause)
      exact ⟨e, t', he, hs, (ht.writes he hs).1, hless⟩
    obtain ⟨more, s', hrun, hmore, -, hcause⟩ :=
      Transitions.Run.reaches pendingWrites hgood hstart
    exact ⟨more, s', hrun, hmore, hcause⟩
  · intro more s' hrun hmore
    obtain ⟨hend, hsent⟩ := hrun.kept (fun t => t.Finishing ∧ t.sent = s.sent)
      (fun t e t' ht he hs => by
        obtain ⟨hnext, hsame⟩ := ht.1.writes he hs
        exact ⟨hnext, hsame.trans ht.2⟩) hmore ⟨hstart, rfl⟩
    refine ⟨hsent, fun hclosed => ?_⟩
    have hcause : s'.cause = some .finished := hend.ends.resolve_left fun hstill => by
      cases hclosed.symm.trans hstill
    refine ⟨hcause, fun actions hactions => ?_⟩
    obtain ⟨done, hframes, hwire⟩ := hend.written.frames
    have hwrites := (hend.written.finished hcause).2
    rw [front, hwrites] at hwire
    rw [hwrites, List.append_nil] at hframes
    have hinit : Decodes {} [] := ⟨⟨[], .more rfl, fun _ => rfl⟩, fun _ he => by cases he⟩
    obtain ⟨rest, hdrains, -⟩ := (hinit.foldl actions).drains
    rw [List.nil_append, hactions, hwire, List.headD_nil, List.take_nil, List.append_nil] at hdrains
    obtain ⟨hmessages, -, hraised⟩ := hdrains.unique (drains_encoded hframes)
    exact ⟨hraised, hmessages.trans hsent⟩

theorem session_finishes_two : ∃ s, Transitions.Run step {} twoReplies s ∧
    ((∃ more s', Transitions.Run step s more s' ∧ (∀ e ∈ more, e.Writes) ∧
      s'.cause = some .finished) ∧
    ∀ more s', Transitions.Run step s more s' → (∀ e ∈ more, e.Writes) →
      s'.sent = s.sent ∧ (s'.closed = true → s'.cause = some .finished ∧
      ∀ actions, offered actions = s'.wire → (DecoderRun.of actions).raised = none ∧
        (DecoderRun.of actions).popped ++ (DecoderRun.of actions).decoder.messages = s.sent)) :=
  have hrun : Transitions.Run step {} twoReplies _ := .of_after rfl
  ⟨_, hrun, session_finishes hrun rfl rfl⟩

end PipeSession
end PmTiny.Windows
