import Mathlib.Data.List.TakeWhile

/-! Character arrays of a fixed size, which hold strings that end at their first zero. -/

set_option autoImplicit false

namespace AdkAaf.Lib

open List

def cString (buffer : List UInt8) : List UInt8 := buffer.takeWhile (· ≠ 0)

def charArray (size : Nat) (string : List UInt8) : List UInt8 :=
  string.take size ++ replicate (size - string.length) 0

theorem length_charArray (size : Nat) (string : List UInt8) :
    (charArray size string).length = size := by
  rw [charArray, length_append, length_take, length_replicate]
  omega

theorem cString_of_plain {string : List UInt8} (plain : 0 ∉ string) : cString string = string := by
  rw [cString, takeWhile_eq_self_iff]
  intro byte mem
  have nonzero : byte ≠ 0 := fun zero => plain (zero ▸ mem)
  exact decide_eq_true nonzero

theorem cString_charArray {size : Nat} {string : List UInt8} (short : string.length < size)
    (plain : 0 ∉ string) : cString (charArray size string) = string := by
  have whole : string.take size = string := take_of_length_le short.le
  have ends : size - string.length = (size - string.length - 1) + 1 := by omega
  have kept := cString_of_plain plain
  rw [cString, takeWhile_eq_self_iff] at kept
  rw [cString, charArray, whole, takeWhile_append_of_pos kept, ends, replicate_succ,
    takeWhile_cons_of_neg (by simp), append_nil]

end AdkAaf.Lib
