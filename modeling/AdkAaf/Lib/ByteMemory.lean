import Mathlib.Algebra.Group.Nat.Defs

/-! Byte-addressed memory with little-endian words. What a load returns depends
only on the bytes it covers, which is how stores elsewhere are framed out. -/

set_option autoImplicit false

namespace AdkAaf.Lib

open List

abbrev Memory := Nat → UInt8

namespace Memory

def AgreeOn (low high : Nat) (memory other : Memory) : Prop :=
  ∀ address, low ≤ address → address < high → memory address = other address

theorem AgreeOn.mono {low high low' high' : Nat} {memory other : Memory}
    (agree : AgreeOn low high memory other) (lower : low ≤ low') (upper : high' ≤ high) :
    AgreeOn low' high' memory other :=
  fun addr above below =>
    agree addr (Nat.le_trans lower above) (Nat.lt_of_lt_of_le below upper)

variable (memory : Memory)

def storeByte (address : Nat) (byte : UInt8) : Memory :=
  fun other => if other = address then byte else memory other

def storeBytes (memory : Memory) (address : Nat) : List UInt8 → Memory
  | [] => memory
  | byte :: rest => (memory.storeBytes (address + 1) rest).storeByte address byte

def loadBytes (memory : Memory) (address : Nat) : Nat → List UInt8
  | 0 => []
  | count + 1 => memory address :: loadBytes memory (address + 1) count

def loadWord (memory : Memory) (address : Nat) : Nat → Nat
  | 0 => 0
  | size + 1 => (memory address).toNat + 256 * loadWord memory (address + 1) size

def storeWord (memory : Memory) (address : Nat) : Nat → Nat → Memory
  | 0, _ => memory
  | size + 1, value =>
    (memory.storeWord (address + 1) size (value / 256)).storeByte address (UInt8.ofNat value)

section Frame

variable {memory other : Memory} {low high : Nat}

theorem storeByte_agreeOn (memory : Memory) (addr : Nat) (byte : UInt8)
    (outside : addr < low ∨ high ≤ addr) :
    AgreeOn low high (memory.storeByte addr byte) memory := by
  intro i above below
  simp [storeByte, if_neg (show i ≠ addr by omega)]

theorem AgreeOn.trans {third : Memory} (left : AgreeOn low high memory other)
    (right : AgreeOn low high other third) : AgreeOn low high memory third :=
  fun addr above below => (left addr above below).trans (right addr above below)

theorem storeWord_agreeOn (memory : Memory) {addr size : Nat} (val : Nat)
    (outside : addr + size ≤ low ∨ high ≤ addr) :
    AgreeOn low high (memory.storeWord addr size val) memory := by
  induction size generalizing addr val with
  | zero => exact fun _ _ _ => rfl
  | succ size ih =>
    by_cases empty : high ≤ low
    · exact fun i above below => absurd below (by omega)
    · exact (storeByte_agreeOn _ _ _ (by omega)).trans (ih (val / 256) (by omega))

theorem storeBytes_agreeOn (memory : Memory) {addr : Nat} (bytes : List UInt8)
    (outside : high ≤ addr) : AgreeOn low high (memory.storeBytes addr bytes) memory := by
  induction bytes generalizing addr with
  | nil => exact fun _ _ _ => rfl
  | cons byte rest ih =>
    exact (storeByte_agreeOn _ _ _ (.inr outside)).trans (ih (Nat.le_succ_of_le outside))

theorem loadBytes_congr {address count : Nat}
    (agree : AgreeOn address (address + count) memory other) :
    memory.loadBytes address count = other.loadBytes address count := by
  induction count generalizing address with
  | zero => rfl
  | succ count ih =>
    have rest : AgreeOn (address + 1) (address + 1 + count) memory other :=
      agree.mono (by omega) (by omega)
    simp [loadBytes, agree address .refl (by omega), ih rest]

theorem loadWord_congr {address size : Nat}
    (agree : AgreeOn address (address + size) memory other) :
    memory.loadWord address size = other.loadWord address size := by
  induction size generalizing address with
  | zero => rfl
  | succ size ih =>
    have rest : AgreeOn (address + 1) (address + 1 + size) memory other :=
      agree.mono (by omega) (by omega)
    simp [loadWord, agree address .refl (by omega), ih rest]

end Frame

theorem loadWord_storeWord (addr size value : Nat) :
    (memory.storeWord addr size value).loadWord addr size = value % 256 ^ size := by
  induction size generalizing addr value with
  | zero => simp [loadWord, Nat.mod_one]
  | succ size ih =>
    have rest : (memory.storeWord addr (size + 1) value).loadWord (addr + 1) size =
        value / 256 % 256 ^ size := by
      rw [← ih (addr + 1) (value / 256)]
      exact loadWord_congr (storeByte_agreeOn _ _ _ (by omega))
    have first : memory.storeWord addr (size + 1) value addr = UInt8.ofNat value :=
      if_pos rfl
    have byte : (UInt8.ofNat value).toNat = value % 256 := UInt8.toNat_ofNat'
    rw [loadWord, rest, first, byte, Nat.pow_succ', Nat.mod_mul]

theorem loadBytes_storeBytes (addr : Nat) (bytes : List UInt8) :
    (memory.storeBytes addr bytes).loadBytes addr bytes.length = bytes := by
  induction bytes generalizing addr with
  | nil => rfl
  | cons byte rest ih =>
    have later : (memory.storeBytes addr (byte :: rest)).loadBytes (addr + 1) rest.length = rest :=
      (loadBytes_congr (storeByte_agreeOn _ _ _ (.inl (Nat.lt_succ_self _)))).trans (ih _)
    have first : memory.storeBytes addr (byte :: rest) addr = byte := if_pos rfl
    rw [length_cons, loadBytes, first, later]

theorem loadBytes_storeByte (address count index : Nat) (byte : UInt8) (within : index < count) :
    (memory.storeByte (address + index) byte).loadBytes address count =
      (memory.loadBytes address count).set index byte := by
  induction count generalizing address index with
  | zero => cases within
  | succ count ih =>
    cases index with
    | zero =>
      have first : memory.storeByte (address + 0) byte address = byte := if_pos rfl
      have rest : (memory.storeByte (address + 0) byte).loadBytes (address + 1) count =
          memory.loadBytes (address + 1) count :=
        loadBytes_congr (storeByte_agreeOn _ _ _ (by omega))
      simp only [loadBytes, first, rest, set_cons_zero]
    | succ index =>
      have first : memory.storeByte (address + (index + 1)) byte address = memory address :=
        if_neg (by omega)
      have rest := ih (address + 1) index (by omega)
      rw [Nat.add_right_comm, Nat.add_assoc] at rest
      simp only [loadBytes, first, rest, set_cons_succ]

theorem loadBytes_add (addr first second : Nat) :
    memory.loadBytes addr (first + second) =
      memory.loadBytes addr first ++ memory.loadBytes (addr + first) second := by
  induction first generalizing addr with
  | zero => simp [loadBytes]
  | succ first ih =>
    rw [Nat.succ_add, loadBytes, loadBytes, ih, cons_append, Nat.add_right_comm, Nat.add_assoc]

theorem length_loadBytes (addr count : Nat) : (memory.loadBytes addr count).length = count := by
  induction count generalizing addr with
  | zero => rfl
  | succ count ih => simp [loadBytes, length_cons, ih]

def slice (low high : Nat) : List UInt8 := memory.loadBytes low (high - low)

section Slices

variable {memory other : Memory} {low middle high : Nat}

@[simp] theorem slice_self (memory : Memory) (low : Nat) : memory.slice low low = [] := by
  rw [slice, Nat.sub_self]
  rfl

@[simp] theorem length_slice (memory : Memory) (low high : Nat) :
    (memory.slice low high).length = high - low := length_loadBytes _ _ _

theorem slice_append (memory : Memory) (lower : low ≤ middle) (upper : middle ≤ high) :
    memory.slice low middle ++ memory.slice middle high = memory.slice low high := by
  have whole : high - low = (middle - low) + (high - middle) := by omega
  rw [slice, slice, slice, whole, loadBytes_add, Nat.add_sub_cancel' lower]

theorem slice_succ (memory : Memory) (within : low ≤ high) :
    memory.slice low (high + 1) = memory.slice low high ++ [memory high] := by
  rw [← slice_append memory within (Nat.le_succ high)]
  rw [show memory.slice high (high + 1) = [memory high] by
    rw [slice, Nat.add_sub_cancel_left]
    rfl]

theorem slice_congr (agree : AgreeOn low high memory other) :
    memory.slice low high = other.slice low high := by
  by_cases order : low ≤ high
  · apply loadBytes_congr
    rwa [Nat.add_sub_cancel' order]
  · rw [slice, slice, Nat.sub_eq_zero_of_le (by omega)]
    rfl

theorem slice_storeByte (memory : Memory) {addr : Nat} (byte : UInt8)
    (outside : addr < low ∨ high ≤ addr) :
    (memory.storeByte addr byte).slice low high = memory.slice low high :=
  slice_congr (storeByte_agreeOn memory addr byte outside)

theorem slice_storeBytes (memory : Memory) (addr : Nat) (bytes : List UInt8) :
    (memory.storeBytes addr bytes).slice addr (addr + bytes.length) = bytes := by
  rw [slice, Nat.add_sub_cancel_left, loadBytes_storeBytes]

theorem take_slice (memory : Memory) (lower : low ≤ middle) (upper : middle ≤ high) :
    (memory.slice low high).take (middle - low) = memory.slice low middle := by
  rw [← slice_append memory lower upper, take_append_of_le_length (by simp)]
  exact take_of_length_le (by simp)

theorem drop_slice (memory : Memory) (lower : low ≤ middle) (upper : middle ≤ high) :
    (memory.slice low high).drop (middle - low) = memory.slice middle high := by
  rw [← slice_append memory lower upper]
  exact drop_left' (by simp)

theorem getElem?_slice (memory : Memory) {i : Nat} (within : low + i < high) :
    (memory.slice low high)[i]? = some (memory (low + i)) := by
  rw [← slice_append memory (Nat.le_add_right low i) (Nat.le_of_lt within),
    getElem?_append_right (by simp), length_slice, Nat.add_sub_cancel_left, Nat.sub_self,
    slice, show high - (low + i) = (high - (low + i) - 1) + 1 by omega]
  rfl

end Slices

end Memory

end AdkAaf.Lib
