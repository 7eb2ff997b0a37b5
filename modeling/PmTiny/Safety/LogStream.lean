import Mathlib.Data.List.TakeWhile
import PmTiny.Cli.ProcessLog
import PmTiny.Daemon.LogFanOut

namespace PmTiny
set_option autoImplicit true

open LogReader (Ending IsData IsExit shown cStr loopReadShowProcessLog)

/-- What happens to a session that follows a log: the program prints a text, or the socket takes
more of the queue. `read_pipe` passes on no empty text. -/
inductive FollowAction where
  | output (text : List UInt8) (nonempty : text ≠ [])
  | flush

/-- The exit event of the program, with the arguments of `format_program_exit_event`. -/
structure ExitEvent where
  name : String
  pid : Int
  reason : String
  code : Int

def ExitEvent.text (event : ExitEvent) : List UInt8 :=
  (formatProgramExitEvent event.name event.pid event.reason event.code).toUTF8.data.toList

theorem length_utf8 (text : String) : text.toUTF8.data.toList.length = text.utf8ByteSize := by
  rw [Array.length_toList]
  rfl

theorem utf8ByteSize_append_pos {a : String} (h : 0 < a.utf8ByteSize) (b : String) :
    0 < (a ++ b).utf8ByteSize := by
  rw [String.utf8ByteSize_append]
  exact Nat.add_pos_left h _

theorem utf8ByteSize_foldl_pos {a : String} (h : 0 < a.utf8ByteSize) (texts : List String) :
    0 < (texts.foldl (· ++ ·) a).utf8ByteSize := by
  induction texts generalizing a with
  | nil => exact h
  | cons text texts ih => exact ih (utf8ByteSize_append_pos h text)

theorem ExitEvent.length_text (event : ExitEvent) : 0 < event.text.length := by
  rw [ExitEvent.text, length_utf8, formatProgramExitEvent, String.join, List.foldl_cons]
  apply utf8ByteSize_foldl_pos
  decide

namespace SendSession

def sendText (msgType : Int) (text : List UInt8) (s : SendSession) : SendSession :=
  (streamWrites msgType text).foldl (fun s write => s.writeStreamFrame write.1 write.2) s

def act (s : SendSession) : FollowAction → SendSession
  | .output text _ => s.sendText 1 text
  | .flush => if s.isClose then s else s.write

/-- The session after the program's output and, if it has exited, its exit event. -/
def follow : List FollowAction → Option ExitEvent → SendSession → SendSession
  | [], none, s => s
  | [], some event, s => s.sendText 0 event.text
  | action :: actions, exit, s => follow actions exit (s.act action)

/-- The bytes that reach the client after those that were under way before. What is left in the
queue of a closed session is lost. -/
def received (s s' : SendSession) : List UInt8 :=
  (if s'.isClose then s'.wire else s'.delivered).drop s.delivered.length

/-- Each text fits, when it is written, next to what is still queued. -/
def Fits : List FollowAction → Option ExitEvent → SendSession → Prop
  | [], none, _ => True
  | [], some event, s =>
    s.queuedBytes + (ProtocolV3.headerSize + 8 + event.text.length) ≤ sessionQueueLimit
  | .output text nonempty :: actions, exit, s =>
    s.queuedBytes + (ProtocolV3.headerSize + 8 + text.length) ≤ sessionQueueLimit ∧
      Fits actions exit (s.act (.output text nonempty))
  | .flush :: actions, exit, s => Fits actions exit (s.act .flush)

end SendSession

/-- The texts of the output. -/
def outputs : List FollowAction → List (List UInt8)
  | [] => []
  | .output text _ :: actions => text :: outputs actions
  | .flush :: actions => outputs actions

/-- The CLI prints the output and the exit event as they are, however the bytes are cut into reads
before and during its loop, and reports success exactly when it has received the exit event. -/
def Unchanged (actions : List FollowAction) (exit : Option ExitEvent) (s : SendSession) : Prop :=
  ∀ (early chunks : List (List UInt8)) (ending : List ClientRead), Ending ending →
    (early ++ chunks).flatten = s.received (s.follow actions exit) →
    let result := loopReadShowProcessLog (chunks.map .bytes ++ ending)
      (early.foldl LogReader.read {})
    result.1.printed = (outputs actions).flatten ++ exit.elim [] ExitEvent.text ∧
      (result.2 = .returned true ↔
        ∃ message ∈ (ProtocolV3.parseFrames (s.received (s.follow actions exit))).1,
          IsExit message)

namespace SendSession

variable {s : SendSession} {text : List UInt8}

theorem streamWrites_short (msgType : Int) (h : text.length ≤ frameMaxLength / 2) :
    ∃ fits, streamWrites msgType text =
      [(⟨streamPayload (msgType, text), fits⟩, msgType != 0)] := by
  obtain ⟨fits, hframes⟩ := streamFrames_short msgType h
  refine ⟨fits, ?_⟩
  simp [streamWrites, hframes]

/-- The session has not changed in what its frames depend on. -/
structure Same (s s' : SendSession) : Prop where
  type : s'.currentMessageType = s.currentMessageType
  requestId : s'.currentRequestId = s.currentRequestId
  peer : s'.peer = s.peer

def textBytes (msgType : Int) (text : List UInt8) (s : SendSession) : List UInt8 :=
  ((streamWrites msgType text).map fun write => s.encodedFor write.1 write.2).flatten

theorem Same.textBytes (h : Same s s') (msgType : Int) (text : List UInt8) :
    s'.textBytes msgType text = s.textBytes msgType text := by
  simp only [SendSession.textBytes, encodedFor, h.type, h.requestId]

theorem sendText_fits (msgType : Int) (hopen : s.isClose = false) (hconnected : s.Connected)
    (h : s.queuedBytes + (ProtocolV3.headerSize + 8 + text.length) ≤ sessionQueueLimit) :
    (s.sendText msgType text).isClose = false ∧ Same s (s.sendText msgType text) ∧
      (s.sendText msgType text).delivered = s.delivered ++ s.textBytes msgType text := by
  have hshort : text.length ≤ frameMaxLength / 2 := by
    have : sessionQueueLimit ≤ frameMaxLength / 2 := by decide
    omega
  obtain ⟨fits, hwrites⟩ := streamWrites_short msgType hshort
  have hlimit : s.queuedBytes + (ProtocolV3.headerSize +
      (streamPayload (msgType, text)).length) ≤ sessionQueueLimit := by
    rw [length_streamPayload, ← Nat.add_assoc ProtocolV3.headerSize]
    exact h
  have hsend : s.sendText msgType text =
      s.writeStreamFrame ⟨streamPayload (msgType, text), fits⟩ (msgType != 0) := by
    rw [sendText, hwrites, List.foldl_cons, List.foldl_nil]
  have hwrite := @writeStreamFrame_fits _ ⟨streamPayload (msgType, text), fits⟩ (msgType != 0)
    hopen hlimit
  have hclose : (s.sendText msgType text).isClose = false := by
    rw [hsend, hwrite, write_isClose]
    · exact hopen
    · exact hconnected
  refine ⟨hclose, ⟨?_, ?_, ?_⟩, ?_⟩
  · rw [hsend, writeStreamFrame_type]
  · rw [hsend, writeStreamFrame_requestId]
  · rw [hsend, hwrite, (write_flushed _).peer]
  · rw [hsend] at hclose
    rw [hsend, writeStreamFrame_delivered hclose, textBytes, hwrites, List.map_singleton,
      List.flatten_singleton]

theorem foldl_closed (h : s.isClose = true) (writes : List (StreamFrame × Bool)) :
    writes.foldl (fun s write => s.writeStreamFrame write.1 write.2) s = s := by
  induction writes with
  | nil => rfl
  | cons write writes ih => rw [List.foldl_cons, writeStreamFrame_closed h, ih]

theorem sendText_overflow
    (h : sessionQueueLimit < s.queuedBytes + (ProtocolV3.headerSize + 8 + text.length)) :
    s.sendText msgType text = { s with isClose := true } := by
  obtain ⟨write, writes, hwrites, hlarge⟩ : ∃ write writes,
      streamWrites msgType text = write :: writes ∧
        sessionQueueLimit < s.queuedBytes + (ProtocolV3.headerSize + write.1.payload.length) := by
    by_cases hshort : text.length ≤ frameMaxLength / 2
    · obtain ⟨fits, hwrites⟩ := streamWrites_short msgType hshort
      refine ⟨_, _, hwrites, ?_⟩
      simp only [length_streamPayload]
      omega
    · obtain ⟨first, last, hsplit, hnil, hfirst⟩ := streamFrames_split msgType text
      cases first with
      | nil => exact absurd (hnil rfl) hshort
      | cons frame first =>
        refine ⟨(frame, _), _, by rw [streamWrites, hsplit]; exact List.mapIdx_cons, ?_⟩
        simp only [hfirst frame List.mem_cons_self]
        have : sessionQueueLimit < 8 + frameMaxLength / 2 := by decide
        omega
  rw [sendText, hwrites, List.foldl_cons, writeStreamFrame_overflow hlarge, foldl_closed rfl]

theorem follow_closed (h : s.isClose = true) (actions : List FollowAction)
    (exit : Option ExitEvent) : s.follow actions exit = s := by
  induction actions with
  | nil =>
    cases exit with
    | none => rfl
    | some event => exact foldl_closed h _
  | cons action actions ih =>
    have hact : s.act action = s := by
      cases action with
      | output text nonempty => exact foldl_closed h _
      | flush => exact if_pos h
    rw [follow, hact, ih]

def streamBytes (texts : List (List UInt8)) (exit : Option ExitEvent) (s : SendSession) :
    List UInt8 :=
  (texts.map fun text => s.textBytes 1 text).flatten ++
    exit.elim [] fun event => s.textBytes 0 event.text

theorem Same.streamBytes (h : Same s s') (texts : List (List UInt8)) (exit : Option ExitEvent) :
    s'.streamBytes texts exit = s.streamBytes texts exit := by
  simp only [SendSession.streamBytes, h.textBytes]

theorem streamBytes_cons (text : List UInt8) (texts : List (List UInt8)) (exit : Option ExitEvent)
    (s : SendSession) :
    s.streamBytes (text :: texts) exit = s.textBytes 1 text ++ s.streamBytes texts exit := by
  rw [streamBytes, List.map_cons, List.flatten_cons, List.append_assoc, streamBytes]

theorem streamBytes_nil (s : SendSession) : s.streamBytes [] none = [] := by
  rw [streamBytes, List.map_nil, List.flatten_nil, List.nil_append, Option.elim_none]

theorem streamBytes_exit (event : ExitEvent) (s : SendSession) :
    s.streamBytes [] (some event) = s.textBytes 0 event.text := by
  rw [streamBytes, List.map_nil, List.flatten_nil, List.nil_append, Option.elim_some]

/-- How many bytes there are to print. -/
def textSize (actions : List FollowAction) (exit : Option ExitEvent) : Nat :=
  ((outputs actions).flatten ++ exit.elim [] ExitEvent.text).length

def Short (texts : List (List UInt8)) (exit : Option ExitEvent) : Prop :=
  (∀ text ∈ texts, text.length ≤ frameMaxLength / 2) ∧
    ∀ event, exit = some event → event.text.length ≤ frameMaxLength / 2

theorem short_nil : Short [] none :=
  ⟨fun _ h => absurd h List.not_mem_nil, fun _ h => absurd h (Option.some_ne_none _).symm⟩

structure Whole (actions : List FollowAction) (exit : Option ExitEvent) (s : SendSession) :
    Prop where
  fits : Fits actions exit s
  isOpen : (s.follow actions exit).isClose = false
  short : Short (outputs actions) exit
  delivered : (s.follow actions exit).delivered =
    s.delivered ++ s.streamBytes (outputs actions) exit

/-- The session is closed before all of the stream is queued. -/
structure Broken (actions : List FollowAction) (exit : Option ExitEvent) (s : SendSession)
    (accepted : List (List UInt8)) : Prop where
  overflow : ¬Fits actions exit s
  isClose : (s.follow actions exit).isClose = true
  short : Short accepted none
  delivered : (s.follow actions exit).delivered = s.delivered ++ s.streamBytes accepted none
  fewer : accepted.flatten.length < textSize actions exit

theorem short_of_fits (h : queued + (ProtocolV3.headerSize + 8 + length) ≤ sessionQueueLimit) :
    length ≤ frameMaxLength / 2 := by
  have : sessionQueueLimit ≤ frameMaxLength / 2 := by decide
  omega

theorem broken_first (h : ¬Fits actions exit s) (hclosed : s.follow actions exit =
    { s with isClose := true }) (hsize : 0 < textSize actions exit) :
    Broken actions exit s [] where
  overflow := h
  isClose := by rw [hclosed]
  short := short_nil
  delivered := by
    rw [hclosed, streamBytes_nil, List.append_nil]
    rfl
  fewer := hsize

theorem follow_cases (hopen : s.isClose = false) (hconnected : s.Connected)
    (actions : List FollowAction) (exit : Option ExitEvent) :
    Whole actions exit s ∨ ∃ accepted, Broken actions exit s accepted := by
  induction actions generalizing s with
  | nil =>
    cases exit with
    | none =>
      left
      refine ⟨trivial, hopen, short_nil, ?_⟩
      rw [follow, outputs, streamBytes_nil, List.append_nil]
    | some event =>
      by_cases hfits : s.queuedBytes + (ProtocolV3.headerSize + 8 + event.text.length) ≤
          sessionQueueLimit
      · left
        obtain ⟨hclose, -, hdelivered⟩ := sendText_fits 0 hopen hconnected hfits
        refine ⟨hfits, hclose, ⟨fun _ h => absurd h List.not_mem_nil, fun e he => ?_⟩, ?_⟩
        · rw [← Option.some.inj he]
          exact short_of_fits hfits
        · rw [follow, outputs, streamBytes_exit]
          exact hdelivered
      · right
        exact ⟨[], broken_first hfits (sendText_overflow (Nat.lt_of_not_le hfits))
          event.length_text⟩
  | cons action actions ih =>
    cases action with
    | flush =>
      have hflush : s.act .flush = s.write := by
        rw [act, if_neg (Bool.not_eq_true _ ▸ hopen)]
      have hsame : Same s s.write := ⟨s.write_flushed.type, s.write_flushed.requestId,
        s.write_flushed.peer⟩
      rcases ih ((write_isClose hconnected).trans hopen) hconnected.write with
        h | ⟨accepted, h⟩
      · left
        refine ⟨?_, ?_, h.short, ?_⟩
        · rw [Fits, hflush]
          exact h.fits
        · rw [follow, hflush]
          exact h.isOpen
        · rw [follow, hflush, h.delivered, write_delivered, hsame.streamBytes]
          rfl
      · right
        refine ⟨accepted, ?_, ?_, h.short, ?_, h.fewer⟩
        · rw [Fits, hflush]
          exact h.overflow
        · rw [follow, hflush]
          exact h.isClose
        · rw [follow, hflush, h.delivered, write_delivered, hsame.streamBytes]
    | output text nonempty =>
      by_cases hfits : s.queuedBytes + (ProtocolV3.headerSize + 8 + text.length) ≤
          sessionQueueLimit
      · obtain ⟨hclose, hsame, hdelivered⟩ := sendText_fits 1 hopen hconnected hfits
        have hconnected' : (s.sendText 1 text).Connected := by
          rw [Connected, hsame.peer]
          exact hconnected
        rcases ih hclose hconnected' with h | ⟨accepted, h⟩
        · left
          refine ⟨⟨hfits, h.fits⟩, h.isOpen, ⟨?_, h.short.2⟩, ?_⟩
          · intro t ht
            rcases List.mem_cons.1 ht with rfl | ht
            · exact short_of_fits hfits
            · exact h.short.1 t ht
          · rw [follow, act, h.delivered, hdelivered, hsame.streamBytes, outputs, streamBytes_cons,
              List.append_assoc]
        · right
          refine ⟨text :: accepted, fun hf => h.overflow hf.2, h.isClose, ⟨?_, h.short.2⟩, ?_, ?_⟩
          · intro t ht
            rcases List.mem_cons.1 ht with rfl | ht
            · exact short_of_fits hfits
            · exact h.short.1 t ht
          · rw [follow, act, h.delivered, hdelivered, hsame.streamBytes, streamBytes_cons,
              List.append_assoc]
          · have hfewer := h.fewer
            simp only [textSize, outputs, List.flatten_cons, List.length_append] at hfewer ⊢
            omega
      · right
        have hclosed : s.follow (.output text nonempty :: actions) exit =
            { s with isClose := true } := by
          rw [follow, act, sendText_overflow (Nat.lt_of_not_le hfits), follow_closed rfl]
        refine ⟨[], broken_first (fun hf => hfits hf.1) hclosed ?_⟩
        have := List.length_pos_iff.2 nonempty
        simp only [textSize, outputs, List.flatten_cons, List.length_append]
        omega

def textMessages (msgType : Int) (text : List UInt8) (s : SendSession) : List ProtocolMessage :=
  (streamWrites msgType text).map fun write =>
    write.1.message s.currentMessageType s.currentRequestId write.2

def streamMessages (texts : List (List UInt8)) (exit : Option ExitEvent) (s : SendSession) :
    List ProtocolMessage :=
  (texts.map fun text => s.textMessages 1 text).flatten ++
    exit.elim [] fun event => s.textMessages 0 event.text

theorem textBytes_drains (msgType : Int) (text : List UInt8) (s : SendSession)
    (h : Drains ProtocolV3.frontFrame later messages [] none) :
    Drains ProtocolV3.frontFrame (s.textBytes msgType text ++ later)
      (s.textMessages msgType text ++ messages) [] none := by
  rw [textBytes, textMessages]
  induction streamWrites msgType text with
  | nil => exact h
  | cons write writes ih =>
    rw [List.map_cons, List.flatten_cons, List.append_assoc, List.map_cons, List.cons_append]
    exact .item (ProtocolV3.frontFrame_encode (write.1.protocolEncode_message _ _ _) _) ih

theorem streamBytes_drains (texts : List (List UInt8)) (exit : Option ExitEvent)
    (s : SendSession) :
    Drains ProtocolV3.frontFrame (s.streamBytes texts exit)
      (s.streamMessages texts exit) [] none := by
  rw [streamBytes, streamMessages]
  induction texts with
  | nil =>
    rw [List.map_nil, List.flatten_nil, List.map_nil, List.flatten_nil, List.nil_append,
      List.nil_append]
    cases exit with
    | none => exact .more rfl
    | some event =>
      have hend : Drains ProtocolV3.frontFrame [] [] [] none := .more rfl
      have htext := textBytes_drains 0 event.text s hend
      rw [List.append_nil, List.append_nil] at htext
      rw [Option.elim_some, Option.elim_some]
      exact htext
  | cons text texts ih =>
    rw [List.map_cons, List.flatten_cons, List.append_assoc, List.map_cons, List.flatten_cons,
      List.append_assoc]
    exact textBytes_drains 1 text s ih

theorem textMessages_short (hlow : -2 ^ 31 ≤ msgType) (hhigh : msgType < 2 ^ 31)
    (h : text.length ≤ frameMaxLength / 2) (s : SendSession) :
    ∃ message, s.textMessages msgType text = [message] ∧
      LogReader.readFrame message.payload = .ok (msgType, text) := by
  obtain ⟨fits, hwrites⟩ := streamWrites_short msgType h
  refine ⟨_, by rw [textMessages, hwrites]; exact List.map_singleton, ?_⟩
  apply LogReader.readFrame_streamPayload hlow hhigh
  have hlimit : frameMaxLength / 2 ≤ protocolV3MaxPayload := by decide
  exact Nat.le_trans h hlimit

theorem streamMessages_none (texts : List (List UInt8)) (s : SendSession) :
    s.streamMessages texts none = (texts.map fun text => s.textMessages 1 text).flatten := by
  rw [streamMessages, Option.elim_none, List.append_nil]

theorem outputMessages_shown {texts : List (List UInt8)}
    (h : ∀ text ∈ texts, text.length ≤ frameMaxLength / 2) (s : SendSession) :
    (∀ message ∈ s.streamMessages texts none, IsData message) ∧
      ((s.streamMessages texts none).map shown).flatten = (texts.map cStr).flatten := by
  rw [streamMessages_none]
  induction texts with
  | nil => exact ⟨fun _ h => absurd h List.not_mem_nil, rfl⟩
  | cons text texts ih =>
    obtain ⟨hdata, hshown⟩ := ih fun t ht => h t (List.mem_cons_of_mem text ht)
    obtain ⟨message, hmessage, hread⟩ := textMessages_short (by decide : (-2 ^ 31 : Int) ≤ 1)
      (by decide) (h text List.mem_cons_self) s
    have hone : shown message = cStr text := by rw [shown, hread]
    rw [List.map_cons, List.flatten_cons, hmessage, List.singleton_append]
    constructor
    · intro m hm
      rcases List.mem_cons.1 hm with rfl | hm
      · exact ⟨text, hread⟩
      · exact hdata m hm
    · rw [List.map_cons, List.flatten_cons, hone, hshown, List.map_cons, List.flatten_cons]

def printedText (texts : List (List UInt8)) (exit : Option ExitEvent) : List UInt8 :=
  (texts.map cStr).flatten ++ exit.elim [] fun event => cStr event.text

theorem streamMessages_shown (h : Short texts exit) (s : SendSession) :
    LogReader.IsStream (s.streamMessages texts exit) ∧
      ((s.streamMessages texts exit).map shown).flatten = printedText texts exit := by
  obtain ⟨hdata, hshown⟩ := outputMessages_shown h.1 s
  cases exit with
  | none =>
    rw [printedText, Option.elim_none, List.append_nil]
    exact ⟨.inl hdata, hshown⟩
  | some event =>
    obtain ⟨message, hmessage, hread⟩ := textMessages_short (by decide : (-2 ^ 31 : Int) ≤ 0)
      (by decide) (h.2 event rfl) s
    have hall : s.streamMessages texts (some event) = s.streamMessages texts none ++ [message] := by
      rw [streamMessages_none, streamMessages, Option.elim_some, hmessage]
    have hone : shown message = cStr event.text := by rw [shown, hread]
    rw [hall, printedText, Option.elim_some, List.map_append, List.flatten_append, hshown,
      List.map_singleton, List.flatten_singleton, hone]
    exact ⟨.inr ⟨_, _, rfl, hdata, event.text, hread⟩, rfl⟩

/-- No text contains the byte at which `printf` stops. -/
def NulFree (texts : List (List UInt8)) (exit : Option ExitEvent) : Prop :=
  (∀ text ∈ texts, 0 ∉ text) ∧ ∀ event, exit = some event → 0 ∉ event.text

theorem length_cStr_le (text : List UInt8) : (cStr text).length ≤ text.length :=
  (List.takeWhile_prefix _).length_le

theorem cStr_eq_self_iff : cStr text = text ↔ 0 ∉ text := by
  rw [cStr, List.takeWhile_eq_self_iff]
  simp only [ne_eq, decide_not, Bool.not_eq_true', decide_eq_false_iff_not]
  exact ⟨fun h hmem => h 0 hmem rfl, fun h b hb hzero => h (hzero ▸ hb)⟩

theorem length_flatten_cStr_le (texts : List (List UInt8)) :
    (texts.map cStr).flatten.length ≤ texts.flatten.length := by
  induction texts with
  | nil => exact Nat.le_refl _
  | cons text texts ih =>
    have := length_cStr_le text
    rw [List.map_cons, List.flatten_cons, List.length_append, List.flatten_cons,
      List.length_append]
    omega

theorem flatten_cStr_iff (texts : List (List UInt8)) (rest : List UInt8) :
    (texts.map cStr).flatten ++ cStr rest = texts.flatten ++ rest ↔
      (∀ text ∈ texts, 0 ∉ text) ∧ 0 ∉ rest := by
  induction texts with
  | nil =>
    rw [List.map_nil, List.flatten_nil, List.nil_append, List.nil_append, cStr_eq_self_iff]
    simp only [List.not_mem_nil, false_imp_iff, implies_true, true_and]
  | cons text texts ih =>
    rw [List.map_cons, List.flatten_cons, List.flatten_cons, List.append_assoc, List.append_assoc,
      List.forall_mem_cons, and_assoc, ← ih, ← cStr_eq_self_iff]
    constructor
    · intro h
      have hlength : (cStr text).length = text.length := by
        have htotal := congrArg List.length h
        have hle := length_cStr_le text
        have hle' := length_flatten_cStr_le texts
        have hle'' := length_cStr_le rest
        simp only [List.length_append] at htotal
        omega
      exact List.append_inj h hlength
    · intro ⟨h, h'⟩
      rw [h, h']

theorem printedText_iff (texts : List (List UInt8)) (exit : Option ExitEvent) :
    printedText texts exit = texts.flatten ++ exit.elim [] ExitEvent.text ↔ NulFree texts exit := by
  cases exit with
  | none =>
    have h := flatten_cStr_iff texts []
    rw [NulFree, printedText, Option.elim_none, Option.elim_none]
    have hnil : cStr [] = [] := rfl
    rw [hnil] at h
    rw [h]
    exact and_congr_right fun _ =>
      ⟨fun _ _ h => absurd h (Option.some_ne_none _).symm, fun _ => List.not_mem_nil⟩
  | some event =>
    rw [NulFree, printedText, Option.elim_some, Option.elim_some, flatten_cStr_iff]
    exact and_congr_right fun _ => ⟨fun h e he => Option.some.inj he ▸ h, fun h => h event rfl⟩

theorem Whole.unchanged_iff (h : Whole actions exit s) :
    Unchanged actions exit s ↔ NulFree (outputs actions) exit := by
  have hreceived : s.received (s.follow actions exit) = s.streamBytes (outputs actions) exit := by
    rw [received, if_neg (Bool.not_eq_true _ ▸ h.isOpen), h.delivered, List.drop_left]
  have hdrains := streamBytes_drains (outputs actions) exit s
  obtain ⟨hstream, hshown⟩ := streamMessages_shown h.short s
  rw [← hreceived] at hdrains
  rw [← printedText_iff]
  constructor
  · intro hunchanged
    have hflat : ([] ++ [s.received (s.follow actions exit)]).flatten =
        s.received (s.follow actions exit) := List.flatten_singleton
    have hending : Ending [] := fun _ => List.not_mem_nil
    rw [← hflat] at hdrains
    obtain ⟨hprinted, -⟩ := LogReader.loop_stream _ _ hdrains hstream hending
    obtain ⟨hexpected, -⟩ := hunchanged [] [s.received (s.follow actions exit)] [] hending hflat
    rw [hshown] at hprinted
    exact hprinted.symm.trans hexpected
  · intro hprinted early chunks ending hending hbytes
    rw [← hbytes] at hdrains ⊢
    obtain ⟨hloop, hsuccess⟩ := LogReader.loop_stream early chunks hdrains hstream hending
    exact ⟨hloop.trans (hshown.trans hprinted), hsuccess⟩

theorem Broken.not_unchanged (h : Broken actions exit s accepted) :
    ¬Unchanged actions exit s := by
  intro hunchanged
  obtain ⟨bytes, hbytes⟩ : ∃ bytes, bytes = s.received (s.follow actions exit) := ⟨_, rfl⟩
  obtain ⟨later, hlater⟩ : ∃ later, bytes ++ later = s.streamBytes accepted none := by
    obtain ⟨queue, hqueue⟩ := (s.follow actions exit).wire_delivered
    have hdrop := congrArg (List.drop s.delivered.length) hqueue
    rw [h.delivered, List.drop_left, List.drop_append] at hdrop
    rw [hbytes, received, if_pos h.isClose]
    exact ⟨_, hdrop⟩
  have hdrains := streamBytes_drains accepted none s
  obtain ⟨hdata, hshown⟩ := outputMessages_shown h.short.1 s
  rw [← hlater] at hdrains
  obtain ⟨rest, r, hparsed, -⟩ := ProtocolV3.parseFrames_drains bytes
  cases r with
  | some e =>
    obtain ⟨-, -, hnone⟩ := (hparsed.stuck ProtocolV3.incremental_frontFrame later).unique hdrains
    cases hnone
  | none =>
    obtain ⟨missing, hmissing⟩ := LogReader.drains_prefix hparsed hdrains
    have hstream : LogReader.IsStream (ProtocolV3.parseFrames bytes).1 :=
      .inl fun m hm => hdata m (hmissing ▸ List.mem_append_left missing hm)
    have hflat : ([] ++ [bytes]).flatten = bytes := List.flatten_singleton
    have hending : Ending [] := fun _ => List.not_mem_nil
    have hread : Drains ProtocolV3.frontFrame ([] ++ [bytes]).flatten
        (ProtocolV3.parseFrames bytes).1 rest none := by
      rw [hflat]
      exact hparsed
    obtain ⟨hprinted, -⟩ := LogReader.loop_stream [] [bytes] hread hstream hending
    obtain ⟨hexpected, -⟩ := hunchanged [] [bytes] [] hending (hflat.trans hbytes)
    have hlength := congrArg List.length (hprinted.symm.trans hexpected)
    have hfewer := h.fewer
    have hcut := length_flatten_cStr_le accepted
    rw [← hshown, ← hmissing, List.map_append, List.flatten_append, List.length_append] at hcut
    rw [textSize] at hfewer
    omega

end SendSession

/-- The bytes of a log reach the terminal unchanged exactly when no text contains a NUL byte and
each fits, when it is written, into what the session's queue has left. -/
theorem log_bytes_unchanged_iff (s : SendSession) (hopen : s.isClose = false)
    (hconnected : s.Connected) (actions : List FollowAction) (exit : Option ExitEvent) :
    Unchanged actions exit s ↔
      SendSession.NulFree (outputs actions) exit ∧ s.Fits actions exit := by
  rcases SendSession.follow_cases hopen hconnected actions exit with h | ⟨accepted, h⟩
  · rw [h.unchanged_iff]
    exact ⟨fun hnul => ⟨hnul, h.fits⟩, fun hboth => hboth.1⟩
  · constructor
    · intro hunchanged
      exact absurd hunchanged h.not_unchanged
    · intro hboth
      exact absurd hboth.2 h.overflow

/-- A session whose socket takes everything. -/
def fastSession : SendSession where
  fsbufSize := 4096
  peer _ := .sent 4096

theorem log_bytes_unchanged_two_texts :
    fastSession.isClose = false ∧ fastSession.Connected ∧
      Unchanged [.output [104, 105] (by decide), .flush, .output [10] (by decide)] none
        fastSession := by
  have hconnected : fastSession.Connected := fun _ h => by cases h
  refine ⟨rfl, hconnected, (log_bytes_unchanged_iff fastSession rfl hconnected _ none).2 ⟨?_, ?_⟩⟩
  · exact ⟨by decide, fun _ h => by cases h⟩
  · simp only [SendSession.Fits]
    decide +kernel

/-- Of a text with a NUL byte only the part before it is printed. -/
theorem log_bytes_cut_at_nul :
    ¬Unchanged [.output [104, 0, 105] (by decide)] none fastSession := by
  have hconnected : fastSession.Connected := fun _ h => by cases h
  rcases SendSession.follow_cases rfl hconnected [.output [104, 0, 105] (by decide)] none with
    h | ⟨accepted, h⟩
  · rw [h.unchanged_iff]
    intro hnul
    exact hnul.1 [104, 0, 105] List.mem_cons_self (by decide)
  · exact h.not_unchanged

end PmTiny
