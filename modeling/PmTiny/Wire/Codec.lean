import Mathlib.Data.List.Induction
import PmTiny.Lib.StreamReader
import PmTiny.Protocol.FrameReader

namespace PmTiny.Wire
set_option autoImplicit true
open ProtocolV3 StreamReader

/-- The bytes of a `std::string`. -/
abbrev Text := List UInt8

/-- An `iframe_stream`, read from its position on. -/
abbrev FrameReader := StreamReader UInt8 String

theorem bigEndian_emod (width : Nat) (value : Int) :
    bigEndian width (value % 256 ^ width) = bigEndian width value := by
  induction width generalizing value with
  | zero => rfl
  | succ width ih =>
    have hdiv : value % 256 ^ (width + 1) / 256 = value / 256 % 256 ^ width := by
      rw [Int.emod_def value, Int.emod_def (value / 256), Int.pow_succ, Int.mul_comm (256 ^ width),
        Int.mul_assoc, ← Int.ediv_ediv_of_nonneg (by omega)]
      omega
    have hmod : value % 256 ^ (width + 1) % 256 = value % 256 :=
      Int.emod_emod_of_dvd value ⟨256 ^ width, by rw [Int.pow_succ, Int.mul_comm]⟩
    rw [bigEndian, bigEndian, hdiv, hmod, ih]

theorem bigEndian_congr (h : value % 256 ^ width = value' % 256 ^ width) :
    bigEndian width value = bigEndian width value' := by
  rw [← bigEndian_emod, h, bigEndian_emod]

theorem beNat_lt (l : List UInt8) : beNat l < 256 ^ l.length := by
  induction l using List.reverseRecOn with
  | nil => exact Nat.one_pos
  | append_singleton l b ih =>
    have hb := b.toNat_lt
    rw [beNat_append_singleton, List.length_append, List.length_singleton, Nat.pow_succ]
    omega

theorem bigEndian_beNat (l : List UInt8) : bigEndian l.length (beNat l) = l := by
  induction l using List.reverseRecOn with
  | nil => rfl
  | append_singleton l b ih =>
    have hb := b.toNat_lt
    have hdiv : ((beNat l * 256 + b.toNat : Nat) : Int) / 256 = beNat l := by omega
    have hmod : ((beNat l * 256 + b.toNat : Nat) : Int) % 256 = b.toNat := by omega
    rw [beNat_append_singleton, List.length_append, List.length_singleton, bigEndian,
      hdiv, hmod, ih,
      Int.toNat_natCast, UInt8.ofNat_toNat]

theorem fgetNat_eq_ok : fgetNat width l = .ok (n, rest) ↔
    n < 256 ^ width ∧ l = bigEndian width n ++ rest := by
  constructor
  · intro h
    rw [fgetNat] at h
    split at h
    · cases h
    · rename_i hlength
      have htake : (l.take width).length = width := List.length_take_of_le (by omega)
      have hlt := beNat_lt (l.take width)
      have hbytes := bigEndian_beNat (l.take width)
      rw [htake] at hlt hbytes
      cases h
      exact ⟨hlt, by rw [hbytes, List.take_append_drop]⟩
  · rintro ⟨hlt, rfl⟩
    rw [fgetNat_append (Int.natCast_nonneg n) (by exact_mod_cast hlt), Int.toNat_natCast]

theorem fgetString_eq_ok : fgetString l = .ok (text, rest) ↔
    text.length ≤ protocolV3MaxPayload ∧ l = bigEndian 4 text.length ++ text ++ rest := by
  constructor
  · intro h
    rw [fgetString] at h
    cases hlen : fgetNat 4 l with
    | error what =>
      rw [hlen] at h
      cases h
    | ok pair =>
      obtain ⟨len, tail⟩ := pair
      obtain ⟨-, rfl⟩ := fgetNat_eq_ok.1 hlen
      rw [hlen] at h
      simp only at h
      split at h
      · cases h
      · split at h
        · cases h
        · cases h
          rename_i hmax hlength
          have htake : (tail.take len).length = len := List.length_take_of_le (by omega)
          rw [htake, List.append_assoc, List.take_append_drop]
          exact ⟨by omega, rfl⟩
  · rintro ⟨hlength, rfl⟩
    exact fgetString_append hlength rest

/-- A step in the writing of a frame: a call of `fappend_value`, or a check that throws. -/
inductive Item where
  | num (width : Nat) (value : Int)
  | text (value : Text)
  | check (passed : Bool) (failure : Failure)
  deriving DecidableEq, Repr

namespace Item

def int32 (value : Int32) : Item := .num 4 value.toInt

def int64 (value : Int64) : Item := .num 8 value.toInt

def uint8 (value : UInt8) : Item := .num 1 value.toNat

def uint32 (value : UInt32) : Item := .num 4 value.toNat

def uint64 (value : UInt64) : Item := .num 8 value.toNat

/-- `append_bool`, as an `int32_t`. -/
def bool (value : Bool) : Item := .int32 (if value then 1 else 0)

/-- `append_bool` of the daemon information, as a byte. -/
def byte (value : Bool) : Item := .uint8 (if value then 1 else 0)

def bytes : Item → List UInt8
  | .num width value => bigEndian width value
  | .text value => bigEndian 4 value.length ++ value
  | .check _ _ => []

/-- The exception that the step raises. -/
def failure : Item → Option Failure
  | .num _ _ => none
  | .text value =>
    if value.length > protocolV3MaxPayload then
      some (.lengthError "string exceeds protocol maximum size")
    else none
  | .check passed failure => if passed then none else some failure

def Passes (item : Item) : Prop := item.failure = none

@[simp] theorem passes_num : (Item.num width value).Passes := rfl

@[simp] theorem passes_text : (Item.text value).Passes ↔ value.length ≤ protocolV3MaxPayload := by
  rw [Passes, failure]
  split_ifs with h
  · exact iff_of_false (fun hnone => by cases hnone) (by omega)
  · exact iff_of_true rfl (by omega)

@[simp] theorem passes_check {e : Failure} : (Item.check passed e).Passes ↔ passed = true := by
  cases passed with
  | true => simp [Passes, failure]
  | false => simp [Passes, failure]

end Item

/-- Write the steps of a frame one after the other. -/
def fappend (items : List Item) : Except Failure (List UInt8) :=
  match items.findSome? Item.failure with
  | some failure => .error failure
  | none => .ok (items.flatMap Item.bytes)

theorem fappend_eq_ok : fappend items = .ok frame ↔
    (∀ item ∈ items, item.Passes) ∧ frame = items.flatMap Item.bytes := by
  have hnone : items.findSome? Item.failure = none ↔ ∀ item ∈ items, item.Passes :=
    List.findSome?_eq_none_iff
  rw [fappend]
  cases hfind : items.findSome? Item.failure with
  | some failure =>
    rw [← hnone, hfind]
    simp
  | none =>
    rw [← hnone, hfind]
    simp [eq_comm]

def nat (width : Nat) : FrameReader Nat := ⟨fgetNat width, by
  intro l n rest h m
  obtain ⟨hlt, rfl⟩ := fgetNat_eq_ok.1 h
  rw [List.append_assoc]
  exact fgetNat_eq_ok.2 ⟨hlt, rfl⟩⟩

def text : FrameReader Text := ⟨fgetString, by
  intro l value rest h m
  obtain ⟨hlength, rfl⟩ := fgetString_eq_ok.1 h
  rw [List.append_assoc]
  exact fgetString_eq_ok.2 ⟨hlength, rfl⟩⟩

def int32 : FrameReader Int32 := do
  let n ← nat 4
  pure (Int32.ofNat n)

def int64 : FrameReader Int64 := do
  let n ← nat 8
  pure (Int64.ofNat n)

def uint8 : FrameReader UInt8 := do
  let n ← nat 1
  pure (UInt8.ofNat n)

def uint32 : FrameReader UInt32 := do
  let n ← nat 4
  pure (UInt32.ofNat n)

def uint64 : FrameReader UInt64 := do
  let n ← nat 8
  pure (UInt64.ofNat n)

theorem run_nat_eq_ok : (nat width).run l = .ok (n, rest) ↔
    n < 256 ^ width ∧ l = bigEndian width n ++ rest := fgetNat_eq_ok

theorem run_text_eq_ok : text.run l = .ok (value, rest) ↔
    value.length ≤ protocolV3MaxPayload ∧ l = (Item.text value).bytes ++ rest := fgetString_eq_ok

theorem run_converted {ofNat : Nat → α} (toInt : α → Int) {width : Nat}
    (hread : ∀ a, ofNat (toInt a % 256 ^ width).toNat = a)
    (hwrite : ∀ n, toInt (ofNat n) % 256 ^ width = n % 256 ^ width) :
    (do let n ← nat width; pure (ofNat n) : FrameReader α).run l = .ok (a, rest) ↔
      l = bigEndian width (toInt a) ++ rest := by
  rw [run_bind_eq_ok]
  constructor
  · rintro ⟨n, l', hn, hpure⟩
    obtain ⟨-, rfl⟩ := run_nat_eq_ok.1 hn
    cases hpure
    rw [bigEndian_congr (hwrite n)]
  · rintro rfl
    have hpos : (0 : Int) < 256 ^ width := Int.pow_pos (by decide)
    have hlow := Int.emod_nonneg (toInt a) (Int.ne_of_gt hpos)
    have hhigh := Int.emod_lt_of_pos (toInt a) hpos
    have hcast : (((toInt a % 256 ^ width).toNat : Nat) : Int) = toInt a % 256 ^ width :=
      Int.toNat_of_nonneg hlow
    refine ⟨(toInt a % 256 ^ width).toNat, rest, run_nat_eq_ok.2 ⟨?_, ?_⟩, ?_⟩
    · rw [← hcast] at hhigh
      exact_mod_cast hhigh
    · rw [hcast, bigEndian_emod]
    · rw [hread, run_pure]

theorem run_int32_eq_ok : int32.run l = .ok (a, rest) ↔ l = (Item.int32 a).bytes ++ rest := by
  apply run_converted Int32.toInt
  · intro a
    rw [← Int32.toInt_inj, Int32.toInt_ofNat', Int.toNat_of_nonneg (by omega)]
    exact (Int.emod_bmod a.toInt Int32.size).trans a.toInt_bmod
  · intro n
    rw [Int32.toInt_ofNat']
    exact Int.bmod_emod

theorem run_int64_eq_ok : int64.run l = .ok (a, rest) ↔ l = (Item.int64 a).bytes ++ rest := by
  apply run_converted Int64.toInt
  · intro a
    rw [← Int64.toInt_inj, Int64.toInt_ofNat', Int.toNat_of_nonneg (by omega)]
    exact (Int.emod_bmod a.toInt Int64.size).trans a.toInt_bmod
  · intro n
    rw [Int64.toInt_ofNat']
    exact Int.bmod_emod

theorem run_uint8_eq_ok : uint8.run l = .ok (a, rest) ↔ l = (Item.uint8 a).bytes ++ rest := by
  apply run_converted (fun a : UInt8 => (a.toNat : Int))
  · intro a
    have hlt := a.toNat_lt
    rw [Int.emod_eq_of_lt (by omega) (by omega), Int.toNat_natCast, UInt8.ofNat_toNat]
  · intro n
    rw [UInt8.toNat_ofNat']
    omega

theorem run_uint32_eq_ok : uint32.run l = .ok (a, rest) ↔ l = (Item.uint32 a).bytes ++ rest := by
  apply run_converted (fun a : UInt32 => (a.toNat : Int))
  · intro a
    have hlt := a.toNat_lt
    rw [Int.emod_eq_of_lt (by omega) (by omega), Int.toNat_natCast, UInt32.ofNat_toNat]
  · intro n
    rw [UInt32.toNat_ofNat']
    omega

theorem run_uint64_eq_ok : uint64.run l = .ok (a, rest) ↔ l = (Item.uint64 a).bytes ++ rest := by
  apply run_converted (fun a : UInt64 => (a.toNat : Int))
  · intro a
    have hlt := a.toNat_lt
    rw [Int.emod_eq_of_lt (by omega) (by omega), Int.toNat_natCast, UInt64.ofNat_toNat]
  · intro n
    rw [UInt64.toNat_ofNat']
    omega

theorem bytes_nil (rest : List UInt8) : ([] : List Item).flatMap Item.bytes ++ rest = rest :=
  List.nil_append rest

theorem bytes_cons (item : Item) (items : List Item) (rest : List UInt8) :
    (item :: items).flatMap Item.bytes ++ rest = item.bytes ++
    (items.flatMap Item.bytes ++ rest) := by
  rw [List.flatMap_cons, List.append_assoc]

theorem bytes_append (items items' : List Item) (rest : List UInt8) :
    (items ++ items').flatMap Item.bytes ++ rest =
      items.flatMap Item.bytes ++ (items'.flatMap Item.bytes ++ rest) := by
  rw [List.flatMap_append, List.append_assoc]

/-- `read_bool`. -/
def readBool (field : String) : FrameReader Bool := do
  let value ← int32
  refuseIf (value ≠ 0 ∧ value ≠ 1) field
  pure (value != 0)

def appendStrings (failure : Failure) (values : List Text) : List Item :=
  .check (values.length ≤ 2147483647) failure :: .num 4 values.length :: values.map .text

def readStrings (limit : Int32) (field : String) : FrameReader (List Text) := do
  let count ← int32
  refuseIf (count < 0 ∨ limit < count) field
  text.many count.toNatClampNeg

theorem run_readBool_eq_ok {value : Bool} : (readBool field).run l = .ok (value, rest) ↔
    l = (Item.bool value).bytes ++ rest := by
  simp only [readBool, run_bind_eq_ok, run_int32_eq_ok, run_refuseIf_eq_ok, run_pure, Item.bool]
  constructor
  · rintro ⟨n, l', rfl, u, l'', ⟨hbit, rfl⟩, h⟩
    cases h
    by_cases hzero : n = 0
    · subst hzero
      rfl
    · have hone : n = 1 := by
        by_contra hone
        exact hbit ⟨hzero, hone⟩
      subst hone
      rfl
  · rintro rfl
    cases value with
    | false => exact ⟨0, rest, rfl, (), rest, ⟨by decide, rfl⟩, rfl⟩
    | true => exact ⟨1, rest, rfl, (), rest, ⟨by decide, rfl⟩, rfl⟩

/-- The strings that a reader with a limit on their number accepts. -/
structure Fits (limit : Int32) (values : List Text) : Prop where
  count : (values.length : Int) ≤ limit.toInt
  texts : ∀ value ∈ values, value.length ≤ protocolV3MaxPayload

theorem flatMap_text (values : List Text) : (values.map Item.text).flatMap Item.bytes =
    values.flatMap fun value => (Item.text value).bytes := List.flatMap_map ..

theorem run_readStrings_eq_ok (failure : Failure) :
    (readStrings limit field).run l = .ok (values, rest) ↔
      Fits limit values ∧ l = (appendStrings failure values).flatMap Item.bytes ++ rest := by
  have hmany : ∀ {n l values rest}, (text.many n).run l = .ok (values, rest) ↔
      values.length = n ∧ (∀ value ∈ values, value.length ≤ protocolV3MaxPayload) ∧
        l = values.flatMap (fun value => (Item.text value).bytes) ++ rest :=
    run_many_eq_ok run_text_eq_ok
  have hbytes : (appendStrings failure values).flatMap Item.bytes =
      bigEndian 4 values.length ++ values.flatMap fun value => (Item.text value).bytes := by
    rw [appendStrings, List.flatMap_cons, List.flatMap_cons, flatMap_text]
    rfl
  simp only [readStrings, run_bind_eq_ok, run_int32_eq_ok, run_refuseIf_eq_ok, hmany, hbytes,
    Int32.lt_iff_toInt_lt, not_or, Int.not_lt]
  constructor
  · rintro ⟨count, l', rfl, u, l'', ⟨⟨hlow, hhigh⟩, rfl⟩, hlength, htexts, rfl⟩
    have hcount : (values.length : Int) = count.toInt := by
      rw [hlength]
      exact Int.toNat_of_nonneg hlow
    rw [← List.append_assoc]
    exact ⟨⟨by omega, htexts⟩, by rw [hcount]; rfl⟩
  · rintro ⟨⟨hcount, htexts⟩, rfl⟩
    have hlimit := limit.toInt_lt
    have hvalue : (Int32.ofNat values.length).toInt = values.length :=
      Int32.toInt_ofNat_of_lt (by omega)
    rw [List.append_assoc]
    refine ⟨Int32.ofNat values.length, _, ?_, (), _, ⟨⟨?_, ?_⟩, rfl⟩, ?_, htexts, rfl⟩
    · rw [Item.int32, hvalue]
      rfl
    · rw [hvalue]
      exact Int.natCast_nonneg _
    · rw [hvalue]
      exact hcount
    · rw [Int32.toNatClampNeg, hvalue]
      exact (Int.toNat_natCast _).symm

theorem passes_appendStrings {failure : Failure} (h : Fits limit values) :
    ∀ item ∈ appendStrings failure values, item.Passes := by
  obtain ⟨hcount, htexts⟩ := h
  have hmax := limit.toInt_lt
  intro item hitem
  rw [appendStrings, List.mem_cons, List.mem_cons, List.mem_map] at hitem
  rcases hitem with rfl | rfl | ⟨value, hvalue, rfl⟩
  · rw [Item.passes_check, decide_eq_true_iff]
    omega
  · exact Item.passes_num
  · exact Item.passes_text.2 (htexts value hvalue)

/-- What is written can be read back, whatever follows it, and not once it is cut off. -/
def Carries (items : List Item) (r : FrameReader α) (a : α) : Prop :=
  ∃ frame, fappend items = .ok frame ∧ (∀ m, r.run (frame ++ m) = .ok (a, m)) ∧
    ∀ l m, m ≠ [] → frame = l ++ m → ∃ what, r.run l = .error what

theorem carries_of_reads {r : FrameReader α} (hpasses : ∀ item ∈ items, item.Passes)
    (h : r.Reads (items.flatMap Item.bytes) a) : Carries items r a := by
  refine ⟨_, fappend_eq_ok.2 ⟨hpasses, rfl⟩, h.append, ?_⟩
  intro l m hm hframe
  rw [hframe] at h
  exact h.truncated hm

section
variable {α : Type} {rest : List UInt8}

theorem run_int32_bind {k : Int32 → FrameReader α} :
    (int32 >>= k).run ((Item.int32 a).bytes ++ rest) = (k a).run rest :=
  run_bind (run_int32_eq_ok.2 rfl)

theorem run_int64_bind {k : Int64 → FrameReader α} :
    (int64 >>= k).run ((Item.int64 a).bytes ++ rest) = (k a).run rest :=
  run_bind (run_int64_eq_ok.2 rfl)

theorem run_uint8_bind {k : UInt8 → FrameReader α} :
    (uint8 >>= k).run ((Item.uint8 a).bytes ++ rest) = (k a).run rest :=
  run_bind (run_uint8_eq_ok.2 rfl)

theorem run_uint32_bind {k : UInt32 → FrameReader α} :
    (uint32 >>= k).run ((Item.uint32 a).bytes ++ rest) = (k a).run rest :=
  run_bind (run_uint32_eq_ok.2 rfl)

theorem run_uint64_bind {k : UInt64 → FrameReader α} :
    (uint64 >>= k).run ((Item.uint64 a).bytes ++ rest) = (k a).run rest :=
  run_bind (run_uint64_eq_ok.2 rfl)

theorem run_text_bind {k : Text → FrameReader α} (h : value.length ≤ protocolV3MaxPayload) :
    (text >>= k).run ((Item.text value).bytes ++ rest) = (k value).run rest :=
  run_bind (run_text_eq_ok.2 ⟨h, rfl⟩)

theorem run_readBool_bind {k : Bool → FrameReader α} {value : Bool} :
    (readBool field >>= k).run ((Item.bool value).bytes ++ rest) = (k value).run rest :=
  run_bind (run_readBool_eq_ok.2 rfl)

theorem run_readStrings_bind {k : List Text → FrameReader α} {failure : Failure}
    (h : Fits limit values) :
    (readStrings limit field >>= k).run
    ((appendStrings failure values).flatMap Item.bytes ++ rest) =
      (k values).run rest :=
  run_bind ((run_readStrings_eq_ok failure).2 ⟨h, rfl⟩)

variable {post : α → List UInt8 → Prop}

theorem leaves_int32 {k : Int32 → FrameReader α}
    (h : ∀ a, (k a).Leaves fun c used => post c ((Item.int32 a).bytes ++ used)) :
    (int32 >>= k).Leaves post :=
  Leaves.bind (fun hr => ⟨trivial, run_int32_eq_ok.1 hr⟩) fun a _ => h a

theorem leaves_text {k : Text → FrameReader α}
    (h : ∀ value, value.length ≤ protocolV3MaxPayload →
      (k value).Leaves fun c used => post c ((Item.text value).bytes ++ used)) :
    (text >>= k).Leaves post := Leaves.bind run_text_eq_ok.1 h

theorem leaves_readBool {k : Bool → FrameReader α}
    (h : ∀ value, (k value).Leaves fun c used => post c ((Item.bool value).bytes ++ used)) :
    (readBool field >>= k).Leaves post :=
  Leaves.bind (fun hr => ⟨trivial, run_readBool_eq_ok.1 hr⟩) fun a _ => h a

theorem leaves_readStrings {k : List Text → FrameReader α} (failure : Failure)
    (h : ∀ values, Fits limit values → (k values).Leaves fun c used =>
      post c ((appendStrings failure values).flatMap Item.bytes ++ used)) :
    (readStrings limit field >>= k).Leaves post :=
  Leaves.bind (run_readStrings_eq_ok failure).1 h

end

end PmTiny.Wire
