import Mathlib.Algebra.Ring.Int.Defs
import PmTiny.Protocol.Framing
import PmTiny.Protocol.FrameStream

namespace PmTiny
set_option autoImplicit true

open ProtocolV3

/-- `iframe_stream::fget_value` of an unsigned number; the stream is what is left of its frame. -/
def fgetNat (width : Nat) (stream : List UInt8) : Except String (Nat × List UInt8) :=
  if stream.length < width then
    .error "Insufficient buffer data to complete the read operation."
  else .ok (beNat (stream.take width), stream.drop width)

def toSigned (width value : Nat) : Int :=
  if value < 2 ^ (8 * width - 1) then value else value - 2 ^ (8 * width)

def fgetInt (width : Nat) (stream : List UInt8) : Except String (Int × List UInt8) :=
  (fgetNat width stream).map fun (value, rest) => (toSigned width value, rest)

def fgetString (stream : List UInt8) : Except String (List UInt8 × List UInt8) :=
  match fgetNat 4 stream with
  | .error what => .error what
  | .ok (len, rest) =>
    if len > protocolV3MaxPayload then .error "String length exceeds protocol maximum."
    else if rest.length < len then
      .error "Insufficient buffer data to complete the read operation."
    else .ok (rest.take len, rest.drop len)

theorem beNat_append_singleton (l : List UInt8) (b : UInt8) :
    beNat (l ++ [b]) = beNat l * 256 + b.toNat := by
  rw [beNat, List.foldl_append, List.foldl_cons, List.foldl_nil, beNat]

theorem beNat_bigEndian (width : Nat) (value : Int) :
    (beNat (bigEndian width value) : Int) = value % 256 ^ width := by
  induction width generalizing value with
  | zero =>
    rw [Int.pow_zero, Int.emod_one]
    rfl
  | succ width ih =>
    have hbyte : ((UInt8.ofNat (value % 256).toNat).toNat : Int) = value % 256 := by
      rw [UInt8.toNat_ofNat']
      omega
    rw [bigEndian, beNat_append_singleton, Int.natCast_add, Int.natCast_mul, ih, hbyte,
      Int.pow_succ, Int.mul_comm (256 ^ width), Int.emod_def value (256 * 256 ^ width),
      ← Int.ediv_ediv_of_nonneg (by omega), Int.emod_def (value / 256), Int.emod_def value 256,
      Int.mul_assoc, Int.sub_mul]
    omega

theorem fgetNat_bigEndian (width : Nat) (value : Int) (rest : List UInt8) :
    fgetNat width (bigEndian width value ++ rest) = .ok ((value % 256 ^ width).toNat, rest) := by
  have hlength := length_bigEndian width value
  have hvalue : beNat (bigEndian width value) = (value % 256 ^ width).toNat := by
    have := beNat_bigEndian width value
    omega
  rw [fgetNat, if_neg (by rw [List.length_append, hlength]; omega), List.take_left' hlength,
    List.drop_left' hlength, hvalue]

theorem fgetNat_append (h₀ : 0 ≤ value) (h : value < 256 ^ width) (rest : List UInt8) :
    fgetNat width (bigEndian width value ++ rest) = .ok (value.toNat, rest) := by
  rw [fgetNat_bigEndian, Int.emod_eq_of_lt h₀ h]

theorem fgetInt_append (h : toSigned width (value % 256 ^ width).toNat = value)
    (rest : List UInt8) :
    fgetInt width (bigEndian width value ++ rest) = .ok (value, rest) := by
  rw [fgetInt, fgetNat_bigEndian]
  simp only [Except.map, h]

theorem fgetInt_four (hlow : -2 ^ 31 ≤ value) (hhigh : value < 2 ^ 31) (rest : List UInt8) :
    fgetInt 4 (bigEndian 4 value ++ rest) = .ok (value, rest) := by
  apply fgetInt_append
  rw [toSigned]
  split
  all_goals omega

theorem fgetInt_eight (hlow : -2 ^ 63 ≤ value) (hhigh : value < 2 ^ 63) (rest : List UInt8) :
    fgetInt 8 (bigEndian 8 value ++ rest) = .ok (value, rest) := by
  apply fgetInt_append
  rw [toSigned]
  split
  all_goals omega

theorem fgetString_append (h : text.length ≤ protocolV3MaxPayload) (rest : List UInt8) :
    fgetString (bigEndian 4 text.length ++ text ++ rest) = .ok (text, rest) := by
  have hlimit : protocolV3MaxPayload < 256 ^ 4 := by decide
  rw [fgetString, List.append_assoc, fgetNat_append (by omega) (by omega)]
  simp only [Int.toNat_natCast]
  rw [if_neg (by omega), if_neg (by rw [List.length_append]; omega), List.take_left, List.drop_left]

end PmTiny
