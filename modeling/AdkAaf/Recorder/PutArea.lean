import AdkAaf.Recorder.FlushChain.Flushing

/-! A `FileBuffer` on its own, without a `tiee_`. The put pointers only count the bytes, which
stay with the caller, and `pbump` counts them in an `int`. -/

set_option autoImplicit false

namespace AdkAaf.Recorder.PutArea

open FlushChain Lib.CrashTriple Lib.CrashTriple.Program Keeps List

/-- `filled` is `pptr() - pbase()`, and `writeSize` that of the last `WriteUntilExit` until it has
written everything. `accepted` are the bytes of the calls of `sputn`, as history. -/
structure FileBuffer where
  disk : List UInt8 := []
  bufVec : List Chunk := []
  filled : Int := 0
  writeSize : Nat := 0
  accepted : List UInt8 := []

/-- `wrote none` is a failure of `writev`, and `missing` what it leaves of a direct write. -/
inductive Answer where
  | wrote (count : Option Nat)
  | toExit (answer : Bool)
  | missing (count : Nat)

namespace Answer

def wrote? : Answer → Option (Option Nat)
  | wrote count => some count
  | _ => none

def toExit? : Answer → Option Bool
  | toExit answer => some answer
  | _ => none

def missing? : Answer → Option Nat
  | missing count => some count
  | _ => none

/-- The exit flag is not raised and the direct writes are complete. -/
def Allowed : Answer → Prop
  | wrote _ => True
  | toExit answer => answer = false
  | missing count => count = 0

end Answer

abbrev Call (Value : Type) : Type := Program Answer FileBuffer Value

def writev : Call Int := do
  let count ← ask Answer.wrote?
  let buffer ← get
  let pending := bytesOf buffer.bufVec
  let written := min (count.getD 0) pending.length
  modify fun buffer => { buffer with disk := buffer.disk ++ pending.take written }
  return if count = none then -1 else written

/-- `TrimBufVector` and the sum of `write_size`, behind a `writev` that was not all. -/
def trim (writeSize : Nat) (writevRet : Int) : Call Unit :=
  modify fun buffer => { buffer with
    bufVec := trimBufVector buffer.bufVec writevRet.toNat
    writeSize := writeSize + writevRet.toNat }

def setp : Call Unit :=
  modify fun buffer => { buffer with bufVec := [], filled := 0, writeSize := 0 }

def writeUntilExit : Unit → Call Bool :=
  loop fun _ => do
    let writevRet ← writev
    let buffer ← get
    if writevRet + buffer.writeSize = buffer.filled then
      setp
      return .inr true
    else
      trim buffer.writeSize writevRet
      if ← ask Answer.toExit? then
        return .inr false
      else
        return .inl ()

/-- False is `eof`. -/
def overflow : Call Bool := do
  let buffer ← get
  if 0 < buffer.filled then
    let writevRet ← writev
    if writevRet = buffer.filled then
      setp
      return true
    else
      trim 0 writevRet
      writeUntilExit ()
  else
    return true

def sync : Call Bool := do
  let buffer ← get
  if 0 < buffer.filled then
    overflow
  else
    return true

/-- `buf_vec_.push_back` and `pbump`, which takes an `int`. -/
def pushBack (bytes : List UInt8) : Call Unit :=
  modify fun buffer => { buffer with
    bufVec := buffer.bufVec ++ [⟨bytes, false⟩]
    filled := buffer.filled + (bytes.length : Int).bmod (2 ^ 32)
    accepted := buffer.accepted ++ bytes }

def writeDirectly (bytes : List UInt8) : Call Nat := do
  let missing ← ask Answer.missing?
  modify fun buffer => { buffer with
    disk := buffer.disk ++ bytes.take (bytes.length - missing)
    accepted := if missing = 0 then buffer.accepted ++ bytes else buffer.accepted }
  return if missing = 0 then bytes.length else 0

def xsputn (bufLen : Nat) (bytes : List UInt8) : Call Nat := do
  let buffer ← get
  let bufAvail := bufLen - buffer.filled
  if bytes.length = 0 then
    return 0
  else if bufLen ≤ bytes.length then
    if ← overflow then
      writeDirectly bytes
    else
      return 0
  else if bufAvail < bytes.length then
    if ← overflow then
      pushBack bytes
      return bytes.length
    else
      return 0
  else if bytes.length = bufAvail then
    pushBack bytes
    let _ ← overflow
    return bytes.length
  else
    pushBack bytes
    return bytes.length

inductive Operation where
  | sputn (bytes : List UInt8)
  | pubsync

def Operation.bytes : Operation → List UInt8
  | sputn bytes => bytes
  | pubsync => []

/-- Whether a call does what it should: `sputn` returns the length, `pubsync` does not fail. -/
def perform (bufLen : Nat) : Operation → Call Bool
  | .sputn bytes => do
    let written ← xsputn bufLen bytes
    return decide (written = bytes.length)
  | .pubsync => sync

def performAll (bufLen : Nat) : List Operation → Call Unit
  | [] => return ()
  | operation :: rest => do
    let _ ← perform bufLen operation
    performAll bufLen rest

/-- The file and what waits for it are what was accepted, and the pointers count what waits with
what a pending retry has written. -/
structure FileBuffer.Intact (buffer : FileBuffer) : Prop where
  stream : buffer.disk ++ bytesOf buffer.bufVec = buffer.accepted
  filled : buffer.filled = (bytesOf buffer.bufVec).length + buffer.writeSize
  idle : buffer.filled = 0 → buffer.bufVec = []

/-- Between two calls. -/
structure FileBuffer.Holds (buffer : FileBuffer) (bytes : List UInt8) : Prop
    extends buffer.Intact where
  accepted : buffer.accepted = bytes
  noRetry : buffer.writeSize = 0

/-- `buf_len_` is cut from memory of this size, or of less for the files of an index. -/
def kDataFileBufferSize : Nat := 2 ^ 20

variable {bufLen : Nat} {buffer : FileBuffer} {bytes given : List UInt8}

section

variable (intact : buffer.Intact)
include intact

theorem writev_keeps : Keeps Answer.Allowed FileBuffer.Intact writev buffer fun writevRet final =>
    writevRet ≤ (bytesOf buffer.bufVec).length ∧ final =
      { buffer with disk := buffer.disk ++ (bytesOf buffer.bufVec).take writevRet.toNat } := by
  refine ask_bind intact fun answer count _ _ => get_bind (modify_bind (pure ?_))
  cases count with
  | none => exact ⟨by simp, by simp⟩
  | some count => exact ⟨Int.ofNat_le.mpr (Nat.min_le_right _ _), rfl⟩

theorem trimmed {writevRet : Int} (some : writevRet ≤ (bytesOf buffer.bufVec).length) :
    FileBuffer.Intact { buffer with
      disk := buffer.disk ++ (bytesOf buffer.bufVec).take writevRet.toNat
      bufVec := trimBufVector buffer.bufVec writevRet.toNat
      writeSize := buffer.writeSize + writevRet.toNat } := by
  have filled := intact.filled
  constructor
  · simpa only [bytesOf_trimBufVector, append_assoc, take_append_drop] using intact.stream
  · simp only [bytesOf_trimBufVector, length_drop]
    omega
  · intro empty
    rw [intact.idle empty]
    rfl

theorem written {writevRet : Int} (all : writevRet + buffer.writeSize = buffer.filled) :
    FileBuffer.Holds ⟨buffer.disk ++ (bytesOf buffer.bufVec).take writevRet.toNat, [], 0, 0,
      buffer.accepted⟩ buffer.accepted := by
  have filled := intact.filled
  refine ⟨⟨?_, rfl, fun _ => rfl⟩, rfl, rfl⟩
  rw [take_of_length_le (by omega)]
  exact (append_nil _).trans intact.stream

/-- What a flush leaves. -/
def Flushed (given : List UInt8) (ok : Bool) (final : FileBuffer) : Prop :=
  ok = true ∧ final.Holds given ∧ final.bufVec = []

theorem writeUntilExit_keeps : Keeps Answer.Allowed FileBuffer.Intact (writeUntilExit ()) buffer
    (Flushed buffer.accepted) := by
  refine loop (fun _ now => now.Intact ∧ now.accepted = buffer.accepted) (fun _ _ now => now.1) ?_
    ⟨intact, rfl⟩
  rintro _ now ⟨intact, same⟩
  refine bind (writev_keeps intact) ?_
  rintro writevRet _ ⟨some, rfl⟩
  refine get_bind (ite (fun all => modify_bind (pure ?_)) fun _ => ?_)
  · exact ⟨rfl, same ▸ written intact all, rfl⟩
  refine modify_bind (ask_bind (trimmed intact some) ?_)
  rintro (_ | answer | _) value may reads <;> cases reads
  cases may
  exact pure ⟨trimmed intact some, same⟩

theorem overflow_keeps (noRetry : buffer.writeSize = 0) :
    Keeps Answer.Allowed FileBuffer.Intact overflow buffer (Flushed buffer.accepted) := by
  have filled := intact.filled
  refine get_bind (ite (fun _ => bind (writev_keeps intact) ?_) fun empty =>
    pure ⟨rfl, ⟨intact, rfl, noRetry⟩, intact.idle (by omega)⟩)
  rintro writevRet _ ⟨some, rfl⟩
  refine ite (fun all => modify_bind (pure ⟨rfl, written intact (by omega), rfl⟩)) fun _ => ?_
  have later := trimmed intact some
  rw [noRetry] at later
  exact modify_bind (writeUntilExit_keeps later)

end

theorem pushed (holds : buffer.Holds given) (some : bytes.length ≠ 0)
    (fits : bytes.length < 2 ^ 31) :
    FileBuffer.Holds { buffer with
      bufVec := buffer.bufVec ++ [⟨bytes, false⟩]
      filled := buffer.filled + (bytes.length : Int).bmod (2 ^ 32)
      accepted := buffer.accepted ++ bytes } (given ++ bytes) := by
  have filled := holds.filled
  have counted : (bytes.length : Int).bmod (2 ^ 32) = bytes.length :=
    Int.bmod_eq_of_le (by omega) (by omega)
  have one : bytesOf [⟨bytes, false⟩] = bytes := append_nil bytes
  refine ⟨⟨?_, ?_, fun empty => ?_⟩, by rw [holds.accepted], holds.noRetry⟩
  · rw [bytesOf_append, one, ← append_assoc, holds.stream]
  · simp only [counted, bytesOf_append, one, length_append]
    omega
  · simp only [counted] at empty
    omega

section

variable (built : bufLen ≤ kDataFileBufferSize) (holds : buffer.Holds given)
include built holds

theorem xsputn_keeps :
    Keeps Answer.Allowed FileBuffer.Intact (xsputn bufLen bytes) buffer fun written final =>
      written = bytes.length ∧ final.Holds (given ++ bytes) := by
  have flush := holds.accepted ▸ overflow_keeps holds.toIntact holds.noRetry
  refine get_bind (ite (fun none => pure ?_) fun some => ite (fun large => ?_) fun small => ?_)
  · rw [length_eq_zero_iff.mp none, append_nil]
    exact ⟨rfl, holds⟩
  · refine bind flush ?_
    rintro _ final ⟨rfl, flushed, empty⟩
    refine ask_bind flushed.toIntact ?_
    rintro (_ | _ | missing) value may reads <;> cases reads
    cases may
    refine modify_bind (pure ⟨rfl, ⟨⟨?_, flushed.filled, flushed.idle⟩, ?_, flushed.noRetry⟩⟩)
    · have stream := flushed.stream
      rw [empty] at stream
      simp [empty, ← stream, bytesOf]
    · simp [flushed.accepted]
  · -- what is put into the buffer fits the `int` of `pbump`
    have fits : bytes.length < 2 ^ 31 :=
      Nat.lt_of_lt_of_le (Nat.lt_of_not_le small) (Nat.le_trans built (by decide))
    refine ite (fun _ => bind flush ?_) fun _ => ite (fun _ => ?_) fun _ => ?_
    · rintro _ final ⟨rfl, flushed, _⟩
      exact modify_bind (pure ⟨rfl, pushed flushed some fits⟩)
    · have holds := pushed holds some fits
      refine modify_bind (bind (overflow_keeps holds.toIntact holds.noRetry) ?_)
      rintro _ final ⟨rfl, flushed, _⟩
      exact pure ⟨rfl, holds.accepted ▸ flushed⟩
    · exact modify_bind (pure ⟨rfl, pushed holds some fits⟩)

theorem perform_keeps (operation : Operation) :
    Keeps Answer.Allowed FileBuffer.Intact (perform bufLen operation) buffer fun ok final =>
      ok = true ∧ final.Holds (given ++ operation.bytes) ∧
        (operation = .pubsync → final.bufVec = []) := by
  cases operation with
  | sputn bytes =>
    refine bind (xsputn_keeps built holds) ?_
    rintro written final ⟨all, holds⟩
    exact pure ⟨decide_eq_true all, holds, nofun⟩
  | pubsync =>
    have filled := holds.filled
    have flush := holds.accepted ▸ overflow_keeps holds.toIntact holds.noRetry
    refine get_bind (ite (fun _ => consequence flush (fun _ => id) ?_) fun empty => pure ?_)
    · rintro ok final ⟨rfl, flushed, empty⟩
      exact ⟨rfl, (append_nil given).symm ▸ flushed, fun _ => empty⟩
    · refine ⟨rfl, (append_nil given).symm ▸ holds, fun _ => holds.idle ?_⟩
      omega

theorem performAll_keeps (operations : List Operation) :
    Keeps Answer.Allowed FileBuffer.Intact (performAll bufLen operations) buffer fun _ final =>
      final.Holds (given ++ operations.flatMap Operation.bytes) := by
  induction operations generalizing buffer given with
  | nil => exact pure ((append_nil given).symm ▸ holds)
  | cons operation rest ih =>
    refine bind (perform_keeps built holds operation) ?_
    rintro _ final ⟨-, holds, -⟩
    rw [flatMap_cons, ← append_assoc]
    exact ih holds

end

/-- The calls write what they are given in its order, however `writev` answers. -/
theorem writes_stream (built : bufLen ≤ kDataFileBufferSize) (operations : List Operation)
    (operation : Operation) :
    Keeps Answer.Allowed FileBuffer.Intact
      (do performAll bufLen operations; perform bufLen operation) {} fun ok final =>
        ok = true ∧ final.Holds ((operations ++ [operation]).flatMap Operation.bytes) ∧
          (operation = .pubsync → final.bufVec = []) := by
  have start : FileBuffer.Holds {} [] := ⟨⟨rfl, rfl, fun _ => rfl⟩, rfl, rfl⟩
  refine bind (performAll_keeps built start operations) fun _ final holds => ?_
  rw [flatMap_append, flatMap_singleton]
  exact perform_keeps built holds operation

/-- The first `writev` fails, the second is short. -/
theorem shortWrite_writes : ∃ final,
    (do performAll 4 [.sputn [1, 2], .sputn [3]]; perform 4 .pubsync : Call Bool) {}
      [.wrote none, .wrote (some 2), .toExit false, .wrote (some 1)] = .done true final [] ∧
        final.Holds [1, 2, 3] ∧ final.bufVec = [] := by
  have ends := @writes_stream 4 (by decide) [.sputn [1, 2], .sputn [3]] .pubsync
    [.wrote none, .wrote (some 2), .toExit false, .wrote (some 1)] (by simp [Answer.Allowed])
  have ran : (do performAll 4 [.sputn [1, 2], .sputn [3]]; perform 4 .pubsync : Call Bool) {}
      [.wrote none, .wrote (some 2), .toExit false, .wrote (some 1)] =
        .done true ⟨[1, 2, 3], [], 0, 0, [1, 2, 3]⟩ [] := rfl
  rw [ran] at ends
  exact ⟨_, ran, ends.1.2.1, ends.1.2.2 rfl⟩

end AdkAaf.Recorder.PutArea
