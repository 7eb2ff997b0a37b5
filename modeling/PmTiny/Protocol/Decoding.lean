import Mathlib.Data.List.Forall2
import PmTiny.Protocol.Framing

namespace PmTiny
set_option autoImplicit true
open ProtocolV3

namespace ProtocolDecoder

theorem decode_succ (fuel : Nat) (d : ProtocolDecoder) :
    decode (fuel + 1) d = match frontFrame d.buffer with
      | .more => (d, none)
      | .bad error => (d, some error)
      | .item message rest =>
        decode fuel { buffer := rest, messages := d.messages ++ [message] } := by
  rw [decode, frontFrame]
  split
  · rfl
  · rename_i hlen
    rw [headerSize] at hlen
    have hsize : (get32 (d.buffer.drop 12)).toNat = payloadSize d.buffer :=
      toNat_get32_eq (by rw [List.length_drop]; omega)
    have htype : get16 (d.buffer.drop 6) = UInt16.ofNat (beNat ((d.buffer.drop 6).take 2)) :=
      get16_eq (by rw [List.length_drop]; omega)
    have hid : get32 (d.buffer.drop 8) = UInt32.ofNat (beNat ((d.buffer.drop 8).take 4)) :=
      get32_eq (by rw [List.length_drop]; omega)
    dsimp only
    rw [hsize, htype, hid, headerError]
    split
    · rfl
    · split
      · rfl
      · split
        · rfl
        · split
          · rfl
          · dsimp only
            split
            · rfl
            · rw [frameMessage, List.drop_take, Nat.add_sub_cancel_left]

theorem decode_drains (h : d.buffer.length < fuel) : ∃ messages,
    Drains frontFrame d.buffer messages (decode fuel d).1.buffer (decode fuel d).2 ∧
      (decode fuel d).1.messages = d.messages ++ messages := by
  induction fuel generalizing d with
  | zero => omega
  | succ fuel ih =>
    rw [decode_succ]
    cases hf : frontFrame d.buffer with
    | more => exact ⟨[], .more hf, by simp⟩
    | bad error => exact ⟨[], .bad hf, by simp⟩
    | item message rest =>
      have hlt := incremental_frontFrame.shorter hf
      obtain ⟨messages, hd, hm⟩ :=
        ih (d := ⟨rest, d.messages ++ [message]⟩) (by dsimp only; omega)
      refine ⟨message :: messages, .item hf hd, ?_⟩
      rw [hm, List.append_assoc, List.singleton_append]

end ProtocolDecoder

namespace ProtocolV3

theorem parseFrames_drains (bytes : List UInt8) : ∃ rest r,
    Drains frontFrame bytes (parseFrames bytes).1 rest r ∧ (parseFrames bytes).2 = r.isSome := by
  induction bytes using parseFrames.induct with
  | case1 bytes hlen =>
    refine ⟨bytes, none, ?_⟩
    rw [parseFrames, if_pos hlen]
    exact ⟨.more (by rw [frontFrame, if_pos hlen]), rfl⟩
  | case2 bytes hlen hbad =>
    cases he : headerError bytes with
    | none => exact absurd hbad (headerError_eq_none.1 he)
    | some e =>
      refine ⟨bytes, some e, ?_⟩
      rw [parseFrames, if_neg hlen, if_pos hbad]
      exact ⟨.bad (frontFrame_eq_bad.2 ⟨by omega, he⟩), rfl⟩
  | case3 bytes hlen hgood hshort =>
    refine ⟨bytes, none, ?_⟩
    rw [parseFrames, if_neg hlen, if_neg hgood, if_pos hshort]
    refine ⟨.more ?_, rfl⟩
    rw [frontFrame, if_neg hlen, headerError_eq_none.2 hgood]
    exact if_pos hshort
  | case4 bytes hlen hgood hwhole ih =>
    obtain ⟨rest, r, hd, hr⟩ := ih
    refine ⟨rest, r, ?_⟩
    rw [parseFrames, if_neg hlen, if_neg hgood, if_neg hwhole]
    exact ⟨.item (frontFrame_eq_item.2 ⟨by omega, hgood, rfl, rfl⟩) hd, hr⟩

theorem frontFrame_more_length (h : frontFrame bytes = .more) :
    bytes.length < headerSize + protocolV3MaxPayload := by
  unfold frontFrame at h
  split at h
  · omega
  · split at h
    · cases h
    · rename_i he
      split at h
      · have hgood := headerError_eq_none.1 he
        rw [BadHeader, not_or, not_or, not_or] at hgood
        omega
      · cases h

theorem protocolEncode_eq_ok (h : protocolEncode message = .ok bytes) :
    message.payload.length ≤ protocolV3MaxPayload ∧ validFlags message.flags = true ∧
      bytes = magic ++ ([protocolV3Version, message.flags] ++ (put16 message.type ++
        (put32 message.requestId ++ (put32 (UInt32.ofNat message.payload.length) ++
          message.payload)))) := by
  unfold protocolEncode at h
  split at h
  · cases h
  · split at h
    · cases h
    · rename_i hlen hflags
      cases h
      exact ⟨by omega, by simpa using hflags, by simp [List.append_assoc]⟩

theorem frontFrame_encode (h : protocolEncode message = .ok bytes) (m : List UInt8) :
    frontFrame (bytes ++ m) = .item message m := by
  obtain ⟨hlen, hflags, rfl⟩ := protocolEncode_eq_ok h
  obtain ⟨type, flags, requestId, payload⟩ := message
  dsimp only at hlen hflags ⊢
  let frame := magic ++ ([protocolV3Version, flags] ++ (put16 type ++ (put32 requestId ++
    (put32 (UInt32.ofNat payload.length) ++ payload)))) ++ m
  have htype : get16 (frame.drop 6) = type := get16_put16 type _
  have hid : get32 (frame.drop 8) = requestId := get32_put32 requestId _
  have hword : get32 (frame.drop 12) = UInt32.ofNat payload.length := get32_put32 _ _
  have hrest : frame.drop headerSize = payload ++ m := rfl
  have hframe : frame.length = headerSize + payload.length + m.length := by
    simp [frame, magic, put16, put32, headerSize]
    omega
  have hlong : headerSize ≤ frame.length := by omega
  rw [headerSize] at hlong
  have hsize : payloadSize frame = payload.length := by
    rw [payloadSize, ← toNat_get32_eq (by rw [List.length_drop]; omega), hword,
      UInt32.toNat_ofNat_of_lt']
    rw [protocolV3MaxPayload] at hlen
    rw [UInt32.size]
    omega
  have hgood : ¬BadHeader frame := by
    rintro (hb | hb | hb | hb)
    · exact hb rfl
    · exact hb rfl
    · exact absurd hb (by simpa [frame, magic] using hflags)
    · omega
  show frontFrame frame = .item _ m
  refine frontFrame_eq_item.2 ⟨by omega, hgood, ?_, ?_⟩
  · rw [frameMessage, hsize, hrest, ← get16_eq (by rw [List.length_drop]; omega), htype,
      ← get32_eq (by rw [List.length_drop]; omega), hid, List.take_left]
    rfl
  · rw [hsize, ← List.drop_drop, hrest, List.drop_left]

theorem drains_encoded (h : List.Forall₂ (fun message bytes => protocolEncode message = .ok bytes)
    messages encoded) : Drains frontFrame encoded.flatten messages [] none := by
  induction h with
  | nil => exact .more rfl
  | cons hm _ ih => exact .item (frontFrame_encode hm _) ih

end ProtocolV3

/-- One use of the decoder. -/
inductive DecoderAction where
  | feed (chunk : List UInt8)
  | pop

namespace ProtocolDecoder

/-- The decoder after an action, whether or not it throws. -/
def act (d : ProtocolDecoder) : DecoderAction → ProtocolDecoder
  | .feed chunk => (d.feed chunk).1
  | .pop => match d.pop with
    | .ok popped => popped.2
    | .error _ => d

end ProtocolDecoder

/-- A decoder, what was popped from it, and the exception that a feed has raised. -/
structure DecoderRun where
  decoder : ProtocolDecoder := {}
  popped : List ProtocolMessage := []
  raised : Option ProtocolError := none

namespace DecoderRun

/-- Chunks are fed until a feed raises; messages may be popped at any time. -/
def step (run : DecoderRun) : DecoderAction → DecoderRun
  | .feed chunk =>
    if run.raised.isSome then run
    else
      let fed := run.decoder.feed chunk
      { run with decoder := fed.1, raised := fed.2 }
  | .pop => match run.decoder.pop with
    | .ok popped => { run with decoder := popped.2, popped := run.popped ++ [popped.1] }
    | .error _ => run

def of (actions : List DecoderAction) : DecoderRun := actions.foldl step {}

end DecoderRun

/-- The concatenation of the chunks that are offered. -/
def offered : List DecoderAction → List UInt8
  | [] => []
  | .feed chunk :: actions => chunk ++ offered actions
  | .pop :: actions => offered actions

/-- The run has decoded the bytes offered so far. -/
structure Decodes (run : DecoderRun) (bytes : List UInt8) : Prop where
  drains : ∃ rest, Drains frontFrame bytes (run.popped ++ run.decoder.messages) rest run.raised ∧
    (run.raised = none → run.decoder.buffer = rest)
  stuck : ∀ e, run.raised = some e → frontFrame run.decoder.buffer = .bad e

theorem ProtocolDecoder.feed_drains (d : ProtocolDecoder) (h : frontFrame d.buffer = .more)
    (chunk : List UInt8) : ∃ messages,
    Drains frontFrame (d.buffer ++ chunk) messages (d.feed chunk).1.buffer (d.feed chunk).2 ∧
      (d.feed chunk).1.messages = d.messages ++ messages := by
  unfold feed
  split
  · rename_i hnil
    rw [List.length_eq_zero_iff.1 hnil, List.append_nil]
    exact ⟨[], .more h, by simp⟩
  · exact decode_drains (d := { d with buffer := d.buffer ++ chunk }) (by simp)

theorem ProtocolDecoder.pop_cases (d : ProtocolDecoder) :
    d.pop = .error .noMessage ∨
      ∃ message messages, d.messages = message :: messages ∧
        d.pop = .ok (message, { d with messages := messages }) := by
  unfold pop
  cases hm : d.messages with
  | nil => exact .inl rfl
  | cons message messages => exact .inr ⟨message, messages, rfl, rfl⟩

theorem DecoderRun.step_feed_raised {run : DecoderRun} (h : run.raised = some e)
    (chunk : List UInt8) :
    run.step (.feed chunk) = run := by
  simp [step, h]

theorem DecoderRun.step_feed {run : DecoderRun} (h : run.raised = none) (chunk : List UInt8) :
    run.step (.feed chunk) =
      { run with decoder := (run.decoder.feed chunk).1, raised := (run.decoder.feed chunk).2 } := by
  simp [step, h]

theorem Decodes.feed (h : Decodes run bytes) (chunk : List UInt8) :
    Decodes (run.step (.feed chunk)) (bytes ++ chunk) := by
  obtain ⟨⟨rest, hd, hrest⟩, hstuck⟩ := h
  cases hr : run.raised with
  | some e =>
    rw [hr] at hd
    rw [DecoderRun.step_feed_raised hr]
    refine ⟨⟨rest ++ chunk, ?_, fun hn => ?_⟩, hstuck⟩
    · rw [hr]
      exact hd.stuck incremental_frontFrame chunk
    · cases hr.symm.trans hn
  | none =>
    rw [hr] at hd
    rw [DecoderRun.step_feed hr]
    obtain rfl := hrest hr
    obtain ⟨messages, hfed, hm⟩ := run.decoder.feed_drains (hd.rest_none rfl) chunk
    have hall := hd.append incremental_frontFrame hfed
    rw [List.append_assoc, ← hm] at hall
    exact ⟨⟨_, hall, fun _ => rfl⟩, fun e he => hfed.rest_some he⟩

theorem Decodes.pop (h : Decodes run bytes) : Decodes (run.step .pop) bytes := by
  unfold DecoderRun.step
  dsimp only
  rcases run.decoder.pop_cases with hp | ⟨message, messages, hm, hp⟩
  · rw [hp]
    exact h
  · rw [hp]
    obtain ⟨⟨rest, hd, hrest⟩, hstuck⟩ := h
    refine ⟨⟨rest, ?_, hrest⟩, hstuck⟩
    rw [hm] at hd
    rw [List.append_assoc]
    exact hd

theorem Decodes.foldl (h : Decodes run bytes) (actions : List DecoderAction) :
    Decodes (actions.foldl DecoderRun.step run) (bytes ++ offered actions) := by
  induction actions generalizing run bytes with
  | nil => simpa [offered] using h
  | cons action actions ih =>
    cases action with
    | feed chunk =>
      rw [offered, ← List.append_assoc]
      exact ih (h.feed chunk)
    | pop => exact ih h.pop

theorem ProtocolDecoder.act_stuck {d : ProtocolDecoder} (h : frontFrame d.buffer = .bad e)
    (action : DecoderAction) :
    frontFrame (d.act action).buffer = .bad e := by
  cases action with
  | feed chunk =>
    rw [act, feed]
    split
    · exact h
    · rw [decode_succ, incremental_frontFrame.bad h chunk]
      exact incremental_frontFrame.bad h chunk
  | pop =>
    rw [act]
    rcases d.pop_cases with hp | ⟨message, messages, hm, hp⟩
    · rw [hp]
      exact h
    · rw [hp]
      exact h

theorem ProtocolDecoder.stuck_raises {d : ProtocolDecoder} (h : frontFrame d.buffer = .bad e)
    (later : List DecoderAction) (hc : chunk ≠ []) :
    ((later.foldl act d).feed chunk).2 = some e := by
  induction later generalizing d with
  | nil =>
    rw [List.foldl_nil, feed, if_neg (by simpa using hc), decode_succ,
      incremental_frontFrame.bad h chunk]
  | cons action later ih => exact ih (act_stuck h action)

/-- What is decoded depends on the bytes only, not on how they are cut into chunks. -/
theorem decoding_chunk_independent (actions : List DecoderAction) :
    let run := DecoderRun.of actions
    let bytes := offered actions
    run.popped ++ run.decoder.messages = (parseFrames bytes).1 ∧
      (run.raised ≠ none ↔ (parseFrames bytes).2 = true) ∧
      (run.raised ≠ none → ∀ (later : List DecoderAction) (chunk : List UInt8), chunk ≠ [] →
        ((later.foldl ProtocolDecoder.act run.decoder).feed chunk).2 ≠ none) ∧
      (run.raised = none → run.decoder.buffer.length < headerSize + protocolV3MaxPayload) ∧
      ∀ messages encoded,
        List.Forall₂ (fun message frame => protocolEncode message = .ok frame) messages encoded →
        bytes = encoded.flatten →
        run.popped ++ run.decoder.messages = messages ∧ run.raised = none := by
  intro run bytes
  have hrun : Decodes run bytes := by
    have hinit : Decodes {} [] := ⟨⟨[], .more rfl, fun _ => rfl⟩, by simp⟩
    exact hinit.foldl actions
  obtain ⟨⟨rest, hd, hrest⟩, hstuck⟩ := hrun
  obtain ⟨rest', r, hp, hr⟩ := parseFrames_drains bytes
  obtain ⟨hmessages, -, hraised⟩ := hd.unique hp
  refine ⟨hmessages, ?_, fun hne later chunk hc => ?_, fun hnone => ?_, ?_⟩
  · rw [hr, ← hraised, Option.isSome_iff_ne_none]
  · obtain ⟨e, he⟩ := Option.ne_none_iff_exists'.1 hne
    rw [ProtocolDecoder.stuck_raises (hstuck e he) later hc]
    exact Option.some_ne_none e
  · rw [hrest hnone]
    exact frontFrame_more_length (hd.rest_none hnone)
  · intro messages encoded henc hbytes
    rw [hbytes] at hd
    obtain ⟨hm, -, hnone⟩ := hd.unique (drains_encoded henc)
    exact ⟨hm, hnone⟩

end PmTiny
