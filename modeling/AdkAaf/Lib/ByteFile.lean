import Mathlib.Algebra.Group.Nat.Defs

/-! A file as a list of bytes, read and written at positions. A write behind the end leaves
zeros in between. -/

set_option autoImplicit false

namespace AdkAaf.Lib.ByteFile

open List

variable {before old new behind file : List UInt8} {position count : Nat}

def readAt (file : List UInt8) (position count : Nat) : List UInt8 :=
  (file.drop position).take count

def writeAt (file : List UInt8) (position : Nat) (bytes : List UInt8) : List UInt8 :=
  file.take position ++ replicate (position - file.length) 0 ++ bytes ++
    file.drop (position + bytes.length)

theorem length_readAt (within : position + count ≤ file.length) :
    (readAt file position count).length = count := by
  rw [readAt, length_take, length_drop]
  omega

theorem readAt_append (start : position = before.length) (size : count = old.length) :
    readAt (before ++ (old ++ behind)) position count = old := by
  subst start size
  rw [readAt, drop_left, take_left]

theorem writeAt_end (start : position = file.length) (bytes : List UInt8) :
    writeAt file position bytes = file ++ bytes := by
  subst start
  simp [writeAt]

theorem writeAt_append (start : position = before.length) (size : new.length = old.length) :
    writeAt (before ++ (old ++ behind)) position new = before ++ (new ++ behind) := by
  subst start
  have behind_ : (before ++ (old ++ behind)).drop (before.length + new.length) = behind := by
    rw [size, ← append_assoc, ← length_append, drop_left]
  rw [writeAt, behind_, take_left, length_append, Nat.sub_add_eq, Nat.sub_self,
    Nat.zero_sub, replicate_zero, append_nil, append_assoc]

end AdkAaf.Lib.ByteFile
