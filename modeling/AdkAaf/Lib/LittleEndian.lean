import Mathlib.Algebra.Group.Nat.Defs

/-! Little-endian encodings of fixed width. -/

set_option autoImplicit false

namespace AdkAaf.Lib.LittleEndian

def encode : Nat → Nat → List UInt8
  | 0, _ => []
  | width + 1, value => UInt8.ofNat value :: encode width (value / 256)

def decode : List UInt8 → Nat
  | [] => 0
  | byte :: rest => byte.toNat + 256 * decode rest

@[simp] theorem length_encode (width val : Nat) : (encode width val).length = width := by
  induction width generalizing val with
  | zero => rfl
  | succ width ih => simp [encode, List.length_cons, ih]

theorem decode_encode (width val : Nat) : decode (encode width val) = val % 256 ^ width := by
  induction width generalizing val with
  | zero => simp only [encode, decode, Nat.pow_zero, Nat.mod_one]
  | succ width ih =>
    have byte : (UInt8.ofNat val).toNat = val % 256 := UInt8.toNat_ofNat'
    rw [encode, decode, ih, byte, Nat.pow_succ, Nat.mul_comm (256 ^ width), Nat.mod_mul]

theorem decode_encode_of_lt {width value : Nat} (fits : value < 256 ^ width) :
    decode (encode width value) = value := by
  rw [decode_encode, Nat.mod_eq_of_lt fits]

def encode32 (value : UInt32) : List UInt8 := encode 4 value.toNat

def encode64 (value : UInt64) : List UInt8 := encode 8 value.toNat

def decode32 (bytes : List UInt8) : UInt32 := UInt32.ofNat (decode bytes)

def decode64 (bytes : List UInt8) : UInt64 := UInt64.ofNat (decode bytes)

@[simp] theorem length_encode32 (val : UInt32) : (encode32 val).length = 4 := length_encode 4 _

@[simp] theorem length_encode64 (val : UInt64) : (encode64 val).length = 8 := length_encode 8 _

@[simp] theorem decode32_encode32 (value : UInt32) : decode32 (encode32 value) = value := by
  rw [decode32, encode32, decode_encode_of_lt value.toNat_lt, UInt32.ofNat_toNat]

@[simp] theorem decode64_encode64 (value : UInt64) : decode64 (encode64 value) = value := by
  rw [decode64, encode64, decode_encode_of_lt value.toNat_lt, UInt64.ofNat_toNat]

end AdkAaf.Lib.LittleEndian
