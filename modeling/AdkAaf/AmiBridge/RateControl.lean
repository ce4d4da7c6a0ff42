import AdkAaf.AmiBridge.Msg
import Mathlib.Data.List.Basic

/-! How a bridge sends a packet with and without rate control. Every `Send` succeeds. The clock
gives a time each time it is read. -/

set_option autoImplicit false

namespace AdkAaf.AmiBridge.RateControl

open List

/-- What `Init` makes of `NetBandWidth` and `RateCtlInvMicro`. -/
structure RateCtl where
  netBandwidthPermicro : Int32
  ratectlInvMicro : Int32
  fragmentSize : UInt32

/-- The part of `Init`. A product that overflows is what the processor makes of it. -/
def init (netBandWidth rateCtlInvMicro : Int32) : Option RateCtl :=
  if netBandWidth = 0 ∨ rateCtlInvMicro = 0 then
    none
  else
    some ⟨netBandWidth, rateCtlInvMicro, (netBandWidth * rateCtlInvMicro / 8).toUInt32⟩

/-- An `AmiMsgPacket` in memory, and the bytes of the compressed buffer or of the message. -/
structure TxPacket where
  header : List UInt8
  data : List UInt8
  headerLen : header.length = AmiMsgPacket.headerLen
  dataLen : data.length < 2 ^ 32

namespace TxPacket

def totalLen (packet : TxPacket) : Nat := (AmiMsgPacket.headerLen + packet.data.length) % 2 ^ 32

/-- What `DirectSendMsg` passes to `Send`: a message of `total_len` bytes. -/
def directSendMsg (packet : TxPacket) : List UInt8 :=
  (packet.header ++ packet.data).take packet.totalLen

end TxPacket

variable (rate : RateCtl) (clock : Nat → Int)

/-- The first branch of `FragmentSendMsg`. The fuel counts the turns of the loop that waits. -/
def directAfterPause (nextSendTime : Int) (packet : TxPacket) :
    (fuel reading : Nat) → Option (List (List UInt8))
  | 0, _ => none
  | fuel + 1, reading =>
    if clock reading < nextSendTime then
      directAfterPause nextSendTime packet fuel (reading + 1)
    else
      some [packet.directSendMsg]

/-- How long to wait behind a fragment. -/
def interval (buffSize : Nat) : Int :=
  if buffSize ≠ rate.fragmentSize.toNat then
    (UInt32.ofNat buffSize * 8 / rate.netBandwidthPermicro.toUInt32).toNat
  else
    rate.ratectlInvMicro.toInt

/-- `left_len > fragment_size_ ? fragment_size_ : left_len`. -/
def buffSize (left : List UInt8) : Nat :=
  if rate.fragmentSize.toNat < left.length then rate.fragmentSize.toNat else left.length

/-- The loop behind the header, which sends once at least. The fuel counts its turns and those
of the loop that waits. -/
def fragmentLoop : (fuel : Nat) → (left : List UInt8) → (reading : Nat) → (nextSendTime : Int) →
    Option (List (List UInt8))
  | 0, _, _, _ => none
  | fuel + 1, left, reading, nextSendTime =>
    if clock reading < nextSendTime then
      fragmentLoop fuel left (reading + 1) nextSendTime
    else
      let buffSize := buffSize rate left
      if left.drop buffSize = [] then
        some [left.take buffSize]
      else
        (fragmentLoop fuel (left.drop buffSize) (reading + 2)
          (clock (reading + 1) + interval rate buffSize)).map (left.take buffSize :: ·)

/-- What `FragmentSendMsg` passes to `Send`. -/
def fragmentSendMsg (fuel reading : Nat) (nextSendTime : Int) (packet : TxPacket) :
    Option (List (List UInt8)) :=
  if packet.totalLen < rate.fragmentSize.toNat then
    directAfterPause clock nextSendTime packet fuel reading
  else
    (fragmentLoop rate clock fuel packet.data reading nextSendTime).map (packet.header :: ·)

/-- Whenever it is called, `FragmentSendMsg` comes to its end, and has sent what `DirectSendMsg`
sends in fragments that are not too long. -/
def SendsAsDirect (packet : TxPacket) : Prop :=
  ∀ reading nextSendTime, ∃ fuel fragments,
    fragmentSendMsg rate clock fuel reading nextSendTime packet = some fragments ∧
      fragments.flatten = packet.directSendMsg ∧
      ∀ fragment ∈ fragments,
        fragment.length ≤ max rate.fragmentSize.toNat AmiMsgPacket.headerLen

def Advances : Prop := ∀ time, ∃ number, ∀ reading, number ≤ reading → time ≤ clock reading

variable {rate clock}

theorem Advances.reached (advances : Advances clock) (reading : Nat) (time : Int) :
    ∃ turns, time ≤ clock (reading + turns) := by
  obtain ⟨n, passed⟩ := advances time
  exact ⟨n, passed _ (Nat.le_add_left n reading)⟩

theorem directAfterPause_ends (advances : Advances clock) (packet : TxPacket) (reading : Nat)
    (nextSendTime : Int) : ∃ fuel, directAfterPause clock nextSendTime packet fuel reading =
      some [packet.directSendMsg] := by
  obtain ⟨turns, passed⟩ := advances.reached reading nextSendTime
  induction turns generalizing reading with
  | zero => exact ⟨1, if_neg (Int.not_lt.mpr passed)⟩
  | succ turns ih =>
    by_cases early : clock reading < nextSendTime
    · obtain ⟨fuel, ends⟩ := ih (reading + 1) (by rwa [Nat.add_assoc, Nat.add_comm 1])
      exact ⟨fuel + 1, (if_pos early).trans ends⟩
    · exact ⟨1, if_neg early⟩

theorem fragmentLoop_waits (advances : Advances clock) (left : List UInt8) (reading : Nat)
    (nextSendTime : Int) : ∃ turns later, nextSendTime ≤ clock later ∧ ∀ fuel,
      fragmentLoop rate clock (fuel + turns) left reading nextSendTime =
        fragmentLoop rate clock fuel left later nextSendTime := by
  obtain ⟨turns, passed⟩ := advances.reached reading nextSendTime
  induction turns generalizing reading with
  | zero => exact ⟨0, reading, passed, fun _ => rfl⟩
  | succ turns ih =>
    by_cases early : clock reading < nextSendTime
    · obtain ⟨turns, later, passed, waits⟩ :=
        ih (reading + 1) (by rwa [Nat.add_assoc, Nat.add_comm 1])
      exact ⟨turns + 1, later, passed, fun fuel => (if_pos early).trans (waits fuel)⟩
    · exact ⟨0, reading, Int.not_lt.mp early, fun _ => rfl⟩

variable {left : List UInt8}

theorem fragmentLoop_flatten {fuel reading : Nat} {nextSendTime : Int}
    {fragments : List (List UInt8)}
    (sent : fragmentLoop rate clock fuel left reading nextSendTime = some fragments) :
    fragments.flatten = left := by
  induction fuel generalizing left reading nextSendTime fragments with
  | zero => cases sent
  | succ fuel ih =>
    rw [fragmentLoop] at sent
    split at sent
    next => exact ih sent
    next =>
      dsimp only at sent
      split at sent
      next last =>
        cases sent
        rw [flatten_singleton, ← append_nil (left.take _), ← last, take_append_drop]
      next =>
        obtain ⟨later, ran, rfl⟩ := Option.map_eq_some_iff.mp sent
        rw [flatten_cons, ih ran, take_append_drop]

/-- With a fragment that is not empty each turn leaves less to send. -/
theorem fragmentLoop_ends (advances : Advances clock)
    (progress : rate.fragmentSize.toNat ≠ 0 ∨ left = []) (reading : Nat) (nextSendTime : Int) :
    ∃ fuel fragments, fragmentLoop rate clock fuel left reading nextSendTime = some fragments ∧
      ∀ fragment ∈ fragments, fragment.length ≤ rate.fragmentSize.toNat := by
  induction size : left.length using Nat.strongRecOn generalizing left reading nextSendTime with
  | ind _ shorter =>
    obtain ⟨turns, later, passed, waits⟩ := fragmentLoop_waits advances left reading nextSendTime
    have short : (left.take (buffSize rate left)).length ≤ rate.fragmentSize.toNat := by
      rw [length_take, buffSize]
      grind
    by_cases last : left.drop (buffSize rate left) = []
    · refine ⟨1 + turns, [left.take (buffSize rate left)], ?_, ?_⟩
      · rw [waits, fragmentLoop, if_neg (Int.not_lt.mpr passed)]
        dsimp only
        rw [if_pos last]
      · rintro fragment mem
        exact mem_singleton.mp mem ▸ short
    · have less : (left.drop (buffSize rate left)).length < left.length := by
        have some : left ≠ [] := fun empty => last (by rw [empty, drop_nil])
        have positive := length_pos_iff.mpr some
        have nonzero := progress.resolve_right some
        rw [length_drop, buffSize]
        grind
      obtain ⟨fuel, fragments, ended, sizes⟩ := shorter _ (size ▸ less)
        (progress.imp_right fun empty => by rw [empty, drop_nil]) (later + 2)
        (clock (later + 1) + interval rate (buffSize rate left)) rfl
      refine ⟨fuel + 1 + turns, left.take (buffSize rate left) :: fragments, ?_,
        forall_mem_cons.mpr ⟨short, sizes⟩⟩
      rw [waits, fragmentLoop, if_neg (Int.not_lt.mpr passed)]
      dsimp only
      rw [if_neg last, ended]
      rfl

/-- An empty fragment leaves everything to send. -/
theorem fragmentLoop_endless (empty : rate.fragmentSize.toNat = 0) (some : left ≠ [])
    (fuel reading : Nat) (nextSendTime : Int) :
    fragmentLoop rate clock fuel left reading nextSendTime = none := by
  induction fuel generalizing reading nextSendTime with
  | zero => rfl
  | succ fuel ih =>
    rw [fragmentLoop]
    split
    next => exact ih _ _
    next => simp [buffSize, empty, length_pos_iff.mpr some, drop_zero, if_neg some, ih, Option.map_none]

theorem fragmentSize_eq_zero_iff {netBandWidth rateCtlInvMicro : Int32}
    (enabled : init netBandWidth rateCtlInvMicro = some rate) :
    rate.fragmentSize.toNat = 0 ↔ (netBandWidth * rateCtlInvMicro).toInt.natAbs < 8 := by
  rw [init] at enabled
  split at enabled <;> cases enabled
  have quotient : ((netBandWidth * rateCtlInvMicro) / 8).toInt =
      (netBandWidth * rateCtlInvMicro).toInt.tdiv 8 :=
    Int32.toInt_div_of_ne_right _ _ (by decide)
  have zero : ((netBandWidth * rateCtlInvMicro) / 8).toUInt32.toNat = 0 ↔
      ((netBandWidth * rateCtlInvMicro) / 8).toInt = 0 := by
    rw [← UInt32.toNat_zero, UInt32.toNat_inj, ← Int32.toInt_zero, Int32.toInt_inj]
    exact ⟨congrArg Int32.ofUInt32, congrArg Int32.toUInt32⟩
  rw [zero, quotient, ← Int.natAbs_eq_zero, Int.natAbs_tdiv]
  exact Nat.div_eq_zero_iff.trans (or_iff_right (by decide))

theorem TxPacket.length_stream (packet : TxPacket) :
    (packet.header ++ packet.data).length = AmiMsgPacket.headerLen + packet.data.length := by
  rw [length_append, packet.headerLen]

theorem TxPacket.directSendMsg_eq_iff (packet : TxPacket) :
    packet.header ++ packet.data = packet.directSendMsg ↔
      AmiMsgPacket.headerLen + packet.data.length < 2 ^ 32 := by
  have length := packet.length_stream
  constructor
  · intro same
    have short := congrArg List.length same
    rw [directSendMsg, length_take, totalLen, length] at short
    have bound := Nat.mod_lt (AmiMsgPacket.headerLen + packet.data.length) (Nat.two_pow_pos 32)
    omega
  · intro fits
    rw [directSendMsg, totalLen, Nat.mod_eq_of_lt fits, ← length, take_length]

/-- A packet is sent as without rate control if and only if it is smaller than a fragment, or a
fragment is not empty where there is data to send, and the length of the packet is a
`uint32_t`. -/
theorem sendsAsDirect_iff {netBandWidth rateCtlInvMicro : Int32}
    (enabled : init netBandWidth rateCtlInvMicro = some rate) (advances : Advances clock)
    (packet : TxPacket) : SendsAsDirect rate clock packet ↔
      packet.totalLen < rate.fragmentSize.toNat ∨
        (8 ≤ (netBandWidth * rateCtlInvMicro).toInt.natAbs ∨ packet.data = []) ∧
          AmiMsgPacket.headerLen + packet.data.length < 2 ^ 32 := by
  have zero := fragmentSize_eq_zero_iff enabled
  by_cases small : packet.totalLen < rate.fragmentSize.toNat
  · refine iff_of_true (fun reading nextSendTime => ?_) (.inl small)
    obtain ⟨fuel, ends⟩ := directAfterPause_ends advances packet reading nextSendTime
    refine ⟨fuel, _, (if_pos small).trans ends, flatten_singleton, fun fragment member => ?_⟩
    rw [mem_singleton.mp member, TxPacket.directSendMsg, length_take]
    omega
  · rw [or_iff_right small]
    constructor
    · intro sends
      obtain ⟨fuel, fragments, ran, whole, -⟩ := sends 0 0
      rw [fragmentSendMsg, if_neg small] at ran
      obtain ⟨sent, looped, rfl⟩ := Option.map_eq_some_iff.mp ran
      rw [flatten_cons, fragmentLoop_flatten looped] at whole
      refine ⟨?_, packet.directSendMsg_eq_iff.mp whole⟩
      by_contra neither
      obtain ⟨empty, some⟩ := not_or.mp neither
      rw [fragmentLoop_endless (zero.mpr (Nat.not_le.mp empty)) some] at looped
      cases looped
    · rintro ⟨progress, fits⟩ reading nextSendTime
      obtain ⟨fuel, fragments, ended, sizes⟩ := fragmentLoop_ends advances
        (progress.imp_left fun some => mt zero.mp (Nat.not_lt.mpr some)) reading nextSendTime
      refine ⟨fuel, packet.header :: fragments, ?_, ?_, ?_⟩
      · rw [fragmentSendMsg, if_neg small, ended]
        rfl
      · rw [flatten_cons, fragmentLoop_flatten ended, packet.directSendMsg_eq_iff.mpr fits]
      · refine forall_mem_cons.mpr ⟨?_, fun fragment member => ?_⟩
        · exact packet.headerLen ▸ Nat.le_max_right ..
        · exact Nat.le_trans (sizes fragment member) (Nat.le_max_left ..)

def onePacket : TxPacket where
  header := replicate AmiMsgPacket.headerLen 0
  data := [7]
  headerLen := length_replicate
  dataLen := by decide

def oneMbps (rateCtlInvMicro : Int32) : RateCtl :=
  ⟨1, rateCtlInvMicro, (1 * rateCtlInvMicro / 8).toUInt32⟩

theorem advances_cast : Advances fun reading => (reading : Int) := by
  intro time
  refine ⟨time.toNat, fun reading later => ?_⟩
  exact Int.le_trans (Int.self_le_toNat time) (Int.ofNat_le.mpr later)

theorem sendsAsDirect_of_eight_bytes : init 1 64 = some (oneMbps 64) ∧
      SendsAsDirect (oneMbps 64) (fun reading => (reading : Int)) onePacket :=
  ⟨rfl, (@sendsAsDirect_iff (oneMbps 64) _ 1 64 rfl advances_cast onePacket).mpr
    (.inr ⟨.inl (by decide), by decide⟩)⟩

/-- At one bit in a microsecond and an interval of one microsecond the fragment is empty, and
the loop sends it again and again. -/
theorem empty_fragment_never_ends : init 1 1 = some (oneMbps 1) ∧
      (∀ fuel, fragmentSendMsg (oneMbps 1) (fun reading => (reading : Int)) fuel 0 0 onePacket =
        none) ∧ ¬ SendsAsDirect (oneMbps 1) (fun reading => (reading : Int)) onePacket := by
  have endless : ∀ fuel, fragmentSendMsg (oneMbps 1) (fun reading => (reading : Int)) fuel 0 0
      onePacket = none := fun fuel =>
    congrArg (Option.map (onePacket.header :: ·))
      (fragmentLoop_endless (by decide) (cons_ne_nil _ _) fuel 0 0)
  refine ⟨rfl, endless, fun sends => ?_⟩
  obtain ⟨fuel, fragments, ran, -⟩ := sends 0 0
  cases (endless fuel).symm.trans ran

end AdkAaf.AmiBridge.RateControl
