import Mathlib.Algebra.Ring.Nat
import Mathlib.Data.List.GetD
import PmTiny.Lib.Incremental
import PmTiny.Protocol.ProtocolV3

namespace PmTiny
set_option autoImplicit true

namespace ProtocolV3

def beNat (l : List UInt8) : Nat := l.foldl (fun n b => n * 256 + b.toNat) 0

theorem or_eq_add (a : Nat) (h : b < 2 ^ i) : a * 2 ^ i ||| b = a * 2 ^ i + b := by
  rw [Nat.mul_comm, Nat.two_pow_add_eq_or_of_lt h]

theorem toNat_get16 (a b : UInt8) (l : List UInt8) :
    (get16 (a :: b :: l)).toNat = beNat [a, b] := by
  have ha := a.toNat_lt
  have hb := b.toNat_lt
  have hword : (get16 (a :: b :: l)).toNat = a.toNat * 2 ^ 8 % 2 ^ 16 ||| b.toNat := by
    simp [get16, Nat.shiftLeft_eq]
  rw [hword, Nat.mod_eq_of_lt (by omega), or_eq_add _ hb]
  simp [beNat]

theorem toNat_get32 (a b c d : UInt8) (l : List UInt8) :
    (get32 (a :: b :: c :: d :: l)).toNat = beNat [a, b, c, d] := by
  have ha := a.toNat_lt
  have hb := b.toNat_lt
  have hc := c.toNat_lt
  have hd := d.toNat_lt
  have hword : (get32 (a :: b :: c :: d :: l)).toNat =
      a.toNat * 2 ^ 24 % 2 ^ 32 ||| b.toNat * 2 ^ 16 % 2 ^ 32 ||| c.toNat * 2 ^ 8 % 2 ^ 32 |||
        d.toNat := by
    simp [get32, Nat.shiftLeft_eq]
  rw [hword, Nat.mod_eq_of_lt (by omega), Nat.mod_eq_of_lt (by omega), Nat.mod_eq_of_lt (by omega),
    or_eq_add _ (by omega : b.toNat * 2 ^ 16 < 2 ^ 24),
    show a.toNat * 2 ^ 24 + b.toNat * 2 ^ 16 = (a.toNat * 2 ^ 8 + b.toNat) * 2 ^ 16 by omega,
    or_eq_add _ (by omega : c.toNat * 2 ^ 8 < 2 ^ 16),
    show (a.toNat * 2 ^ 8 + b.toNat) * 2 ^ 16 + c.toNat * 2 ^ 8 =
      ((a.toNat * 2 ^ 8 + b.toNat) * 2 ^ 8 + c.toNat) * 2 ^ 8 by omega, or_eq_add _ hd]
  simp [beNat]

theorem exists_pair {p : List UInt8} (h : 2 ≤ p.length) : ∃ a b l, p = a :: b :: l := by
  obtain ⟨a, p, rfl⟩ := List.exists_cons_of_length_pos (l := p) (by omega)
  rw [List.length_cons] at h
  obtain ⟨b, p, rfl⟩ := List.exists_cons_of_length_pos (l := p) (by omega)
  exact ⟨a, b, p, rfl⟩

theorem get16_eq (h : 2 ≤ p.length) : get16 p = UInt16.ofNat (beNat (p.take 2)) := by
  obtain ⟨a, b, l, rfl⟩ := exists_pair h
  simp only [List.take_succ_cons, List.take_zero]
  rw [← toNat_get16 a b l, UInt16.ofNat_toNat]

theorem toNat_get32_eq (h : 4 ≤ p.length) : (get32 p).toNat = beNat (p.take 4) := by
  obtain ⟨a, b, l, rfl⟩ := exists_pair (p := p) (by omega)
  simp only [List.length_cons] at h
  obtain ⟨c, d, l, rfl⟩ := exists_pair (p := l) (by omega)
  simp only [List.take_succ_cons, List.take_zero]
  exact toNat_get32 a b c d l

theorem get32_eq (h : 4 ≤ p.length) : get32 p = UInt32.ofNat (beNat (p.take 4)) := by
  rw [← toNat_get32_eq h, UInt32.ofNat_toNat]

theorem get16_put16 (v : UInt16) (l : List UInt8) : get16 (put16 v ++ l) = v := by
  have hv := v.toNat_lt
  apply UInt16.toNat_inj.1
  rw [put16, List.cons_append, List.cons_append, toNat_get16]
  simp [beNat, Nat.shiftRight_eq_div_pow]
  omega

theorem get32_put32 (v : UInt32) (l : List UInt8) : get32 (put32 v ++ l) = v := by
  have hv := v.toNat_lt
  apply UInt32.toNat_inj.1
  rw [put32, List.cons_append, List.cons_append, List.cons_append, List.cons_append, toNat_get32]
  simp [beNat, Nat.shiftRight_eq_div_pow]
  omega

def payloadSize (bytes : List UInt8) : Nat := beNat ((bytes.drop 12).take 4)

def BadHeader (bytes : List UInt8) : Prop :=
  bytes.take 4 ≠ magic ∨ bytes.getD 4 0 ≠ protocolV3Version ∨
    validFlags (bytes.getD 5 0) = false ∨ protocolV3MaxPayload < payloadSize bytes

instance : DecidablePred BadHeader := fun _ => inferInstanceAs (Decidable (_ ∨ _))

def frameMessage (bytes : List UInt8) : ProtocolMessage where
  type := UInt16.ofNat (beNat ((bytes.drop 6).take 2))
  flags := bytes.getD 5 0
  requestId := UInt32.ofNat (beNat ((bytes.drop 8).take 4))
  payload := (bytes.drop headerSize).take (payloadSize bytes)

/-- The reference parse: the whole frames at the front, and whether a bad header ends them. -/
def parseFrames (bytes : List UInt8) : List ProtocolMessage × Bool :=
  if bytes.length < headerSize then ([], false)
  else if BadHeader bytes then ([], true)
  else if bytes.length < headerSize + payloadSize bytes then ([], false)
  else
    let parsed := parseFrames (bytes.drop (headerSize + payloadSize bytes))
    (frameMessage bytes :: parsed.1, parsed.2)
termination_by bytes.length
decreasing_by
  simp only [headerSize, List.length_drop] at *
  omega

/-- The first check of a header that fails, in the order of the source. -/
def headerError (bytes : List UInt8) : Option ProtocolError :=
  if bytes.take 4 ≠ magic then some .magic
  else if bytes.getD 4 0 ≠ protocolV3Version then some .version
  else if !validFlags (bytes.getD 5 0) then some .flags
  else if payloadSize bytes > protocolV3MaxPayload then some .payloadSize
  else none

theorem headerError_eq_none : headerError bytes = none ↔ ¬BadHeader bytes := by
  unfold headerError BadHeader
  split
  · simp_all
  · split
    · simp_all
    · split
      · simp_all
      · split
        · simp_all
        · simp_all

def frontFrame (bytes : List UInt8) : Front UInt8 ProtocolMessage ProtocolError :=
  if bytes.length < headerSize then .more
  else match headerError bytes with
    | some error => .bad error
    | none =>
      if bytes.length < headerSize + payloadSize bytes then .more
      else .item (frameMessage bytes) (bytes.drop (headerSize + payloadSize bytes))

theorem frontFrame_eq_bad :
    frontFrame bytes = .bad e ↔ headerSize ≤ bytes.length ∧ headerError bytes = some e := by
  unfold frontFrame
  split
  · simp
    omega
  · split
    · simp_all
    · split <;> simp_all

theorem frontFrame_eq_item : frontFrame bytes = .item message rest ↔
    headerSize + payloadSize bytes ≤ bytes.length ∧ ¬BadHeader bytes ∧
      message = frameMessage bytes ∧ rest = bytes.drop (headerSize + payloadSize bytes) := by
  unfold frontFrame
  split
  · simp
    omega
  · split
    · rename_i h
      have hbad : BadHeader bytes := by
        by_contra hgood
        rw [headerError_eq_none.2 hgood] at h
        cases h
      simp [hbad]
    · rename_i h
      have hgood := headerError_eq_none.1 h
      split
      · simp
        omega
      · simp [hgood, eq_comm]
        omega

theorem header_append (h : headerSize ≤ l.length) (m : List UInt8) :
    payloadSize (l ++ m) = payloadSize l ∧ (BadHeader (l ++ m) ↔ BadHeader l) ∧
      headerError (l ++ m) = headerError l := by
  rw [headerSize] at h
  have hsize : payloadSize (l ++ m) = payloadSize l := by
    rw [payloadSize, payloadSize, List.drop_append_of_le_length (by omega),
      List.take_append_of_le_length (by rw [List.length_drop]; omega)]
  have hmagic : (l ++ m).take 4 = l.take 4 := List.take_append_of_le_length (by omega)
  have hget : ∀ i, i < 16 → (l ++ m).getD i 0 = l.getD i 0 :=
    fun i hi => List.getD_append l m 0 i (by omega)
  refine ⟨hsize, ?_, ?_⟩
  · rw [BadHeader, BadHeader, hsize, hmagic, hget 4 (by omega), hget 5 (by omega)]
  · rw [headerError, headerError, hsize, hmagic, hget 4 (by omega), hget 5 (by omega)]

theorem incremental_frontFrame : Incremental frontFrame where
  shorter := by
    intro l b rest h
    obtain ⟨hl, -, -, rfl⟩ := frontFrame_eq_item.1 h
    rw [List.length_drop]
    rw [headerSize] at hl ⊢
    omega
  item := by
    intro l b rest h m
    obtain ⟨hl, hgood, rfl, rfl⟩ := frontFrame_eq_item.1 h
    obtain ⟨hsize, hbad, -⟩ := header_append (l := l) (by omega) m
    rw [frontFrame_eq_item, hsize, hbad]
    refine ⟨by rw [List.length_append]; omega, hgood, ?_, ?_⟩
    · rw [headerSize] at hl
      rw [frameMessage, frameMessage, hsize, headerSize, List.drop_append_of_le_length (by omega),
        List.drop_append_of_le_length (by omega), List.drop_append_of_le_length (by omega),
        List.take_append_of_le_length (by rw [List.length_drop]; omega),
        List.take_append_of_le_length (by rw [List.length_drop]; omega),
        List.take_append_of_le_length (by rw [List.length_drop]; omega),
        List.getD_append _ _ _ _ (by omega)]
    · rw [List.drop_append_of_le_length (by omega)]
  bad := by
    intro l e h m
    obtain ⟨hl, he⟩ := frontFrame_eq_bad.1 h
    rw [frontFrame_eq_bad, (header_append hl m).2.2, List.length_append]
    exact ⟨by omega, he⟩

end ProtocolV3

end PmTiny
