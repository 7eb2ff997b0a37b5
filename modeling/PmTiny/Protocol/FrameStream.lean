import Mathlib.Algebra.Ring.Nat
import PmTiny.Protocol.ProtocolV3

namespace PmTiny
set_option autoImplicit true

inductive Failure where
  | lengthError (what : String)
  | protocolError (what : String)
  deriving DecidableEq, Repr

def bigEndian : Nat → Int → List UInt8
  | 0, _ => []
  | width + 1, value => bigEndian width (value / 256) ++ [UInt8.ofNat (value % 256).toNat]

@[simp] theorem length_bigEndian (width : Nat) (value : Int) :
    (bigEndian width value).length = width := by
  induction width generalizing value with
  | zero => rfl
  | succ width ih => rw [bigEndian, List.length_append, ih, List.length_singleton]

/-- A step in the building of a frame: a call of `fappend_value`, or a size check that throws. -/
inductive Field where
  | int (width : Nat) (value : Int)
  | str (value : String)
  | check (passed : Bool) (failure : Failure)
  deriving DecidableEq, Repr

namespace Field

def bool (value : Bool) : Field := .int 4 (if value then 1 else 0)

def byte (value : Bool) : Field := .int 1 (if value then 1 else 0)

def size : Field → Nat
  | .int width _ => width
  | .str value => 4 + value.utf8ByteSize
  | .check _ _ => 0

def bytes : Field → List UInt8
  | .int width value => bigEndian width value
  | .str value => bigEndian 4 value.utf8ByteSize ++ value.toUTF8.data.toList
  | .check _ _ => []

/-- The exception that the step raises. -/
def failure : Field → Option Failure
  | .int _ _ => none
  | .str value =>
    if value.utf8ByteSize > protocolV3MaxPayload then
      some (.lengthError "string exceeds protocol maximum size")
    else none
  | .check passed failure => if passed then none else some failure

@[simp] theorem length_bytes (field : Field) : field.bytes.length = field.size := by
  cases field with
  | int width value => exact length_bigEndian width value
  | str value =>
    rw [bytes, List.length_append, length_bigEndian, Array.length_toList]
    rfl
  | check passed failure => rfl

end Field

def fappendAll : List Field → Except Failure (List UInt8)
  | [] => .ok []
  | field :: fields =>
    match field.failure with
    | some failure => .error failure
    | none => (fappendAll fields).map (field.bytes ++ ·)

def frameSize (fields : List Field) : Nat := (fields.map Field.size).sum

@[simp] theorem frameSize_nil : frameSize [] = 0 := rfl

@[simp] theorem frameSize_cons (field : Field) (fields : List Field) :
    frameSize (field :: fields) = field.size + frameSize fields := by
  rw [frameSize, List.map_cons, List.sum_cons, frameSize]

@[simp] theorem frameSize_append (fields fields' : List Field) :
    frameSize (fields ++ fields') = frameSize fields + frameSize fields' := by
  rw [frameSize, List.map_append, List.sum_append, frameSize, frameSize]

theorem size_le_frameSize {field : Field} (h : field ∈ fields) : field.size ≤ frameSize fields := by
  induction fields with
  | nil => cases h
  | cons first fields ih =>
    rw [frameSize_cons]
    rcases List.mem_cons.1 h with rfl | h
    · exact Nat.le_add_right _ _
    · exact Nat.le_trans (ih h) (Nat.le_add_left _ _)

theorem length_fappendAll (h : fappendAll fields = .ok frame) :
    frame.length = frameSize fields := by
  induction fields generalizing frame with
  | nil =>
    cases h
    rfl
  | cons field fields ih =>
    rw [fappendAll] at h
    cases hf : field.failure with
    | some failure => simp [hf] at h
    | none =>
      simp only [hf] at h
      cases hr : fappendAll fields with
      | error failure => simp [hr, Except.map] at h
      | ok rest =>
        simp only [hr, Except.map, Except.ok.injEq] at h
        rw [← h, List.length_append, Field.length_bytes, ih hr, frameSize_cons]

theorem fappendAll_ok_iff (fields : List Field) :
    (∃ frame, fappendAll fields = .ok frame) ↔ ∀ field ∈ fields, field.failure = none := by
  induction fields with
  | nil => exact ⟨fun _ _ h => absurd h List.not_mem_nil, fun _ => ⟨[], rfl⟩⟩
  | cons field fields ih =>
    rw [List.forall_mem_cons, fappendAll]
    cases hf : field.failure with
    | some failure =>
      constructor
      · rintro ⟨frame, h⟩
        cases h
      · rintro ⟨h, -⟩
        cases h
    | none =>
      rw [← ih]
      simp only [true_and]
      cases hr : fappendAll fields with
      | error failure =>
        constructor
        · rintro ⟨frame, h⟩
          cases h
        · rintro ⟨frame, h⟩
          cases h
      | ok rest => exact ⟨fun _ => ⟨rest, rfl⟩, fun _ => ⟨_, rfl⟩⟩

def ChecksPass (fields : List Field) : Prop := ∀ failure, Field.check false failure ∉ fields

@[simp] theorem checksPass_nil : ChecksPass [] := fun _ => List.not_mem_nil

@[simp] theorem checksPass_int : ChecksPass (.int width value :: fields) ↔ ChecksPass fields := by
  simp [ChecksPass]

@[simp] theorem checksPass_bool : ChecksPass (.bool value :: fields) ↔ ChecksPass fields :=
  checksPass_int

@[simp] theorem checksPass_byte : ChecksPass (.byte value :: fields) ↔ ChecksPass fields :=
  checksPass_int

@[simp] theorem checksPass_str : ChecksPass (.str value :: fields) ↔ ChecksPass fields := by
  simp [ChecksPass]

@[simp] theorem checksPass_check {passed : Bool} {failure : Failure} :
    ChecksPass (.check passed failure :: fields) ↔ passed = true ∧ ChecksPass fields := by
  cases passed with
  | true => simp [ChecksPass]
  | false =>
    constructor
    · intro h
      exact absurd List.mem_cons_self (h failure)
    · rintro ⟨h, -⟩
      cases h

@[simp] theorem checksPass_append :
    ChecksPass (fields ++ fields') ↔ ChecksPass fields ∧ ChecksPass fields' := by
  simp only [ChecksPass, List.mem_append, not_or, forall_and]

@[simp] theorem checksPass_strings (values : List String) : ChecksPass (values.map .str) := by
  simp [ChecksPass]

/-- The strings of a small frame are all short enough, so only its checks can throw. -/
theorem fappendAll_of_small (hsize : frameSize fields ≤ protocolV3MaxPayload)
    (hchecks : ChecksPass fields) :
    ∃ frame, fappendAll fields = .ok frame ∧ frame.length = frameSize fields := by
  have hok : ∃ frame, fappendAll fields = .ok frame := by
    rw [fappendAll_ok_iff]
    intro field hf
    have hle := Nat.le_trans (size_le_frameSize hf) hsize
    cases field with
    | int width value => rfl
    | str value =>
      rw [Field.size] at hle
      rw [Field.failure, if_neg (by omega)]
    | check passed failure =>
      cases passed with
      | true => rfl
      | false => exact absurd hf (hchecks failure)
  obtain ⟨frame, h⟩ := hok
  exact ⟨frame, h, length_fappendAll h⟩

def sessionQueueLimit : Nat := 1024 * 1024

/-- What becomes of a frame that `write_frame` was asked to send. -/
inductive Sent where
  | queued (queuedBytes : Nat)
  | closed
  deriving DecidableEq, Repr

/-- `session_t::write_frame` on a session that is not closed. -/
def writePayload (queuedBytes : Nat) (type : UInt16) (requestId : UInt32) (frame : List UInt8) :
    Except Failure Sent :=
  let failed := frame.length ≥ 4 && ProtocolV3.get32 frame != 0
  let message : ProtocolMessage :=
    { type := type
      flags := if failed then protocolFlagResponse ||| protocolFlagError else protocolFlagResponse
      requestId := requestId
      payload := frame }
  match protocolEncode message with
  | .error error => .error (.protocolError error.what)
  | .ok encoded =>
    if queuedBytes + encoded.length > sessionQueueLimit then .ok .closed
    else .ok (.queued (queuedBytes + encoded.length))

/-- A response is built field by field and handed to `write_frame`. -/
def respond (queuedBytes : Nat) (type : UInt16) (requestId : UInt32) (fields : List Field) :
    Except Failure Sent :=
  match fappendAll fields with
  | .error failure => .error failure
  | .ok frame => writePayload queuedBytes type requestId frame

theorem writePayload_eq (queuedBytes : Nat) (type : UInt16) (requestId : UInt32)
    (frame : List UInt8) : writePayload queuedBytes type requestId frame =
      if frame.length > protocolV3MaxPayload then
        .error (.protocolError "protocol payload exceeds maximum size")
      else if queuedBytes + (ProtocolV3.headerSize + frame.length) > sessionQueueLimit then
        .ok .closed
      else .ok (.queued (queuedBytes + (ProtocolV3.headerSize + frame.length))) := by
  have hflags : ∀ failed : Bool, ProtocolV3.validFlags
      (if failed then protocolFlagResponse ||| protocolFlagError else
        protocolFlagResponse) = true := by
    decide
  rw [writePayload]
  simp only [protocolEncode, hflags, Bool.not_true, Bool.false_eq_true, if_false]
  by_cases hlong : frame.length > protocolV3MaxPayload
  · rw [if_pos hlong, if_pos hlong]
    rfl
  · rw [if_neg hlong, if_neg hlong]
    have hlen : (ProtocolV3.magic ++ [protocolV3Version, if (decide (frame.length ≥ 4) &&
        ProtocolV3.get32 frame != 0) = true then protocolFlagResponse ||| protocolFlagError
        else protocolFlagResponse] ++ ProtocolV3.put16 type ++ ProtocolV3.put32 requestId ++
        ProtocolV3.put32 (UInt32.ofNat frame.length) ++ frame).length =
        ProtocolV3.headerSize + frame.length := by
      simp only [List.length_append, ProtocolV3.magic, ProtocolV3.put16, ProtocolV3.put32,
        List.length_cons, List.length_nil, ProtocolV3.headerSize]
    simp only [hlen]

theorem respond_ok_iff (queuedBytes : Nat) (type : UInt16) (requestId : UInt32)
    (fields : List Field) : (∃ sent, respond queuedBytes type requestId fields = .ok sent) ↔
      ChecksPass fields ∧ frameSize fields ≤ protocolV3MaxPayload := by
  rw [respond]
  constructor
  · rintro ⟨sent, h⟩
    cases hf : fappendAll fields with
    | error failure => simp [hf] at h
    | ok frame =>
      simp only [hf, writePayload_eq, length_fappendAll hf] at h
      constructor
      · intro failure hm
        have := (fappendAll_ok_iff fields).1 ⟨frame, hf⟩ _ hm
        cases this
      · by_contra hlong
        rw [if_pos (by omega)] at h
        cases h
  · rintro ⟨hchecks, hsize⟩
    obtain ⟨frame, hf, hlen⟩ := fappendAll_of_small hsize hchecks
    simp only [hf, writePayload_eq, hlen]
    rw [if_neg (by omega)]
    split
    · exact ⟨_, rfl⟩
    · exact ⟨_, rfl⟩

theorem respond_queued_iff (type : UInt16) (requestId : UInt32) (fields : List Field) :
    (∃ queuedBytes, respond 0 type requestId fields = .ok (.queued queuedBytes)) ↔
      ChecksPass fields ∧
        ProtocolV3.headerSize + frameSize fields ≤ sessionQueueLimit := by
  have hlimit : sessionQueueLimit ≤ protocolV3MaxPayload := by decide
  constructor
  · rintro ⟨queuedBytes, h⟩
    obtain ⟨hchecks, hsize⟩ := (respond_ok_iff 0 type requestId fields).1 ⟨_, h⟩
    refine ⟨hchecks, ?_⟩
    obtain ⟨frame, hf, hlen⟩ := fappendAll_of_small hsize hchecks
    simp only [respond, hf, writePayload_eq, hlen] at h
    rw [if_neg (by omega)] at h
    by_contra hlong
    rw [if_pos (by omega)] at h
    cases h
  · rintro ⟨hchecks, hsize⟩
    obtain ⟨frame, hf, hlen⟩ := fappendAll_of_small (by omega) hchecks
    simp only [respond, hf, writePayload_eq, hlen]
    rw [if_neg (by omega), if_neg (by omega)]
    exact ⟨_, rfl⟩

def frameMaxLength : Nat := 4 * 2 ^ 20

/-- The pieces that `str_to_frames` cuts a long message into. -/
def framePieces (frameSize : Nat) (content : List UInt8) : List (List UInt8) :=
  let nFrame := content.length / frameSize
  (List.range nFrame).map (fun i => (content.drop (frameSize * i)).take frameSize) ++
    if content.length % frameSize ≠ 0 then [content.drop (nFrame * frameSize)] else []

/-- The frames of `str_to_frames` with their message types: all but the last are marked 2. -/
def strToFrames (msgType : Int) (content : List UInt8) : List (Int × List UInt8) :=
  let frameSize := frameMaxLength / 2
  if content.length ≤ frameSize then [(msgType, content)]
  else
    let contents := framePieces frameSize content
    contents.mapIdx fun i piece => (if i < contents.length - 1 then 2 else msgType, piece)

/-- `session_t::write_stream_frame` of one piece, on a session that is not closed. -/
def writeStreamFrame (queuedBytes : Nat) (type : UInt16) (requestId : UInt32) (more : Bool)
    (piece : Int × List UInt8) : Except Failure Sent :=
  if piece.2.length > protocolV3MaxPayload then
    .error (.lengthError "string exceeds protocol maximum size")
  else
    let message : ProtocolMessage :=
      { type := type
        flags := if more then protocolFlagResponse ||| protocolFlagStream ||| protocolFlagMore
          else protocolFlagResponse ||| protocolFlagStream
        requestId := requestId
        payload := bigEndian 4 piece.1 ++ bigEndian 4 piece.2.length ++ piece.2 }
    match protocolEncode message with
    | .error error => .error (.protocolError error.what)
    | .ok encoded =>
      if queuedBytes + encoded.length > sessionQueueLimit then .ok .closed
      else .ok (.queued (queuedBytes + encoded.length))

theorem length_framePieces {frameSize : Nat} (hpos : 0 < frameSize)
    (h : piece ∈ framePieces frameSize content) : piece.length ≤ frameSize := by
  rcases List.mem_append.1 h with hfull | hrest
  · obtain ⟨i, -, rfl⟩ := List.mem_map.1 hfull
    exact List.length_take_le _ _
  · split at hrest
    · have hmod := Nat.mod_lt content.length hpos
      have hdiv := Nat.div_add_mod' content.length frameSize
      rw [List.mem_singleton.1 hrest, List.length_drop]
      omega
    · cases hrest

theorem length_strToFrames {piece : Int × List UInt8} (h : piece ∈ strToFrames msgType content) :
    piece.2.length ≤ frameMaxLength / 2 := by
  rw [strToFrames] at h
  simp only at h
  split at h
  · rename_i hshort
    rw [List.mem_singleton.1 h]
    exact hshort
  · obtain ⟨i, hi, rfl⟩ := List.mem_mapIdx.1 h
    exact length_framePieces (by decide) (List.getElem_mem hi)

theorem writeStreamFrame_ok {piece : Int × List UInt8} (h : piece ∈ strToFrames msgType content)
    (queuedBytes : Nat) (type : UInt16) (requestId : UInt32) (more : Bool) :
    ∃ sent, writeStreamFrame queuedBytes type requestId more piece = .ok sent := by
  have hlength := length_strToFrames h
  have hhalf : frameMaxLength / 2 + 8 ≤ protocolV3MaxPayload := by decide
  have hflags : ∀ more : Bool, ProtocolV3.validFlags
      (if more then protocolFlagResponse ||| protocolFlagStream ||| protocolFlagMore
        else protocolFlagResponse ||| protocolFlagStream) = true := by
    decide
  have hpayload : ¬ (bigEndian 4 piece.1 ++ bigEndian 4 piece.2.length ++ piece.2).length >
      protocolV3MaxPayload := by
    rw [List.length_append, List.length_append, length_bigEndian, length_bigEndian]
    omega
  rw [writeStreamFrame, if_neg (by omega)]
  simp only [protocolEncode, hflags, if_neg hpayload, Bool.not_true, Bool.false_eq_true, if_false]
  exact ⟨_, (apply_ite Except.ok _ _ _).symm⟩

end PmTiny
