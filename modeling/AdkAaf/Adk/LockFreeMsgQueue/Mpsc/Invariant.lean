import AdkAaf.Adk.LockFreeMsgQueue.Mpsc.Basic
import AdkAaf.Lib.RingLaps
import AdkAaf.Lib.Tickets

/-! The invariant of the queue: the indices from `tail` up to `reserve` are tickets of the
producers, an entry that was granted or published keeps its bytes until it is released, and the
consumer has the entries from `release` up to `head`. -/

set_option autoImplicit false

namespace AdkAaf.Adk.LockFreeMsgQueue.Mpsc

open Lib

/-- An entry holds a payload of this size, and a lap has an entry for each index. -/
structure Ring.Holds (ring : Ring) (payloadSize : Nat) : Prop where
  mask : ring.queueSize = 0 ∨
    ∃ exponent, ring.queueSize = 2 ^ exponent ∧ ring.queueMask = 2 ^ exponent - 1
  room : 8 + payloadSize ≤ 2 ^ ring.entryBits

namespace Ring.Holds

variable {ring : Ring} {payloadSize : Nat}

private theorem apart_of_lt (holds : ring.Holds payloadSize) {first second : Nat}
    (before : first < second) (window : second < first + ring.queueSize) :
    RangesApart (ring.entry first) (8 + payloadSize) (ring.entry second) (8 + payloadSize) := by
  obtain empty | ⟨exp, size, mask⟩ := holds.mask
  · omega
  have slot : ∀ i, ring.entry i = i % ring.queueSize * 2 ^ ring.entryBits := by
    intro i
    rw [entry, mask, Nat.and_two_pow_sub_one_eq_mod, Nat.shiftLeft_eq, size]
  have different := mod_ne_of_window before window
  have strided : ∀ {low high : Nat}, low < high →
      low * 2 ^ ring.entryBits + (8 + payloadSize) ≤ high * 2 ^ ring.entryBits := by
    intro low high less
    have scaled := Nat.mul_le_mul_right (2 ^ ring.entryBits) (Nat.succ_le_of_lt less)
    rw [Nat.succ_mul] at scaled
    exact Nat.le_trans (Nat.add_le_add_left holds.room _) scaled
  rw [slot, slot]
  rcases Nat.lt_or_gt_of_ne different with less | greater
  · exact .inl (strided less)
  · exact .inr (strided greater)

theorem apart (holds : ring.Holds payloadSize) {first second low : Nat} (apart : first ≠ second)
    (above : low ≤ first ∧ low ≤ second)
    (below : first < low + ring.queueSize ∧ second < low + ring.queueSize) :
    RangesApart (ring.entry first) (8 + payloadSize) (ring.entry second) (8 + payloadSize) := by
  rcases Nat.lt_or_gt_of_ne apart with less | greater
  · exact holds.apart_of_lt less (by omega)
  · exact (holds.apart_of_lt greater (by omega)).symm

end Ring.Holds

def ProducerPc.reserved (family : Family) : ProducerPc → Option Nat
  | .idle | .load => none
  | .check index | .readRelease index | .store index _ | .recheck index | .swap index
  | .rollBack index => if family = .exp then some index else none
  | .setPos index | .write index _ _ => some index
  | .readPos message | .wait message _ | .stamp message _ | .publish message _ =>
    some message.index

def Producer.reservations (family : Family) (producer : Producer) : List Nat :=
  (producer.pc.reserved family).toList ++ producer.held.map Granted.index

/-- 1 while the consumer has moved `head` and has not been given the entry. -/
def ConsumerPc.taken : ConsumerPc → Nat
  | .give _ | .copy _ _ => 1
  | _ => 0

namespace State

variable {Thread : Type} (usage : Usage Thread) (state : State Thread)

def limit : Nat := state.release + usage.ring.queueSize

def messages : List Message := state.posted.map Prod.snd

structure Ready (index : Nat) : Prop where
  lt : index < state.limit usage
  pos : usage.family ≠ .exp → state.pos (usage.ring.entry index) = index

/-- The entry has the payload, and `pos` is what `FreeEntry` reads. -/
structure Kept (message : Message) : Prop where
  payload : state.payload usage message.index = message.payload
  pos : usage.family = .plain → state.pos (usage.ring.entry message.index) = message.index

structure HeldValid (entry : Granted) : Prop where
  ready : state.Ready usage entry.index
  written : ∀ payload ∈ entry.payload, state.payload usage entry.index = payload

def PcValid : ProducerPc → Prop
  | .store _ threshold => threshold ≤ state.limit usage
  | .swap index | .setPos index => usage.family ≠ .exp ∧ index < state.limit usage
  | .rollBack _ => usage.family = .exp
  | .write index payload written =>
    state.Ready usage index ∧ payload.length = usage.payloadSize ∧ written ≤ payload.length ∧
      (state.payload usage index).take written = payload.take written
  | .readPos message =>
    usage.family ≠ .exp ∧ state.HeldValid usage ⟨message.index, some message.payload⟩
  | .wait message pos =>
    pos = message.index ∧ state.HeldValid usage ⟨message.index, some message.payload⟩
  | .stamp message pos =>
    usage.family = .tsc ∧ pos = message.index ∧ state.tail = message.index ∧
      state.HeldValid usage ⟨message.index, some message.payload⟩
  | .publish message pos =>
    pos = message.index ∧ state.tail = message.index ∧ message.index < state.limit usage ∧
      state.Kept usage message
  | .idle | .load | .check _ | .readRelease _ | .recheck _ => True

structure ProducerValid (producer : Producer) : Prop where
  pc : state.PcValid usage producer.pc
  held : ∀ entry ∈ producer.held, state.HeldValid usage entry

def Has (consumer : Consumer) (upto : Nat) : Prop :=
  consumer.held = List.range' state.release consumer.held.length ∧
    match consumer.peeked with
    | none => state.release + consumer.held.length = upto
    | some index =>
      consumer.held = [] ∧ index = state.release ∧ upto = state.release ∧ index < state.tail

def Suits (consumer : Consumer) : Form → Prop
  | .pop => consumer.held = [] ∧ consumer.peeked = none
  | .wait => usage.family = .plain ∧ consumer.peeked = none
  | .peek => usage.family = .plain ∧ consumer.held = []

def Frees (consumer : Consumer) : Prop := consumer.held ≠ [] ∨ consumer.peeked ≠ none

def ConsumerPcValid (consumer : Consumer) : ConsumerPc → Prop
  | .idle => state.Has consumer state.head
  | .load form => state.Has consumer state.head ∧ Suits usage consumer form
  | .check form index | .readTail form index =>
    index = state.head ∧ state.Has consumer state.head ∧ Suits usage consumer form
  | .take form index =>
    index = state.head ∧ index < state.tail ∧ state.Has consumer state.head ∧
      Suits usage consumer form
  | .give index =>
    usage.family = .plain ∧ state.head = index + 1 ∧ consumer.peeked = none ∧
      state.Has consumer index
  | .copy index copied =>
    state.head = index + 1 ∧ index = state.release ∧ Suits usage consumer .pop ∧
      copied.length ≤ usage.payloadSize ∧
      copied = (state.payload usage index).take copied.length
  | .readPos index _ =>
    index = state.release ∧ Frees consumer ∧ state.Has consumer state.head
  | .setHead index pos _ =>
    index = state.release ∧ pos = index ∧ consumer.peeked ≠ none ∧
      state.Has consumer state.head
  | .waitRelease pos | .setRelease pos =>
    pos = state.release ∧ Frees consumer ∧
      match consumer.peeked with
      | none => state.Has consumer state.head
      | some _ => consumer.held = [] ∧ state.head = state.release + 1

structure ConsumerValid : Prop where
  family : usage.family ≠ .plain → state.consumer.peeked = none ∧ state.consumer.held = []
  threshold : state.consumer.headThreshold ≤ state.tail
  pc : state.ConsumerPcValid usage state.consumer state.consumer.pc

structure Valid [DecidableEq Thread] : Prop where
  first_pos : 1 ≤ state.first
  first_le : state.first ≤ state.release
  release_le : state.release ≤ state.head
  head_le : state.head ≤ state.tail
  tail_le : state.tail ≤ state.reserve
  window : state.tail ≤ state.limit usage
  reserve_le : usage.family ≠ .exp → state.reserve ≤ state.limit usage
  threshold : ∀ handle, state.threshold handle ≤ state.limit usage
  tickets : Tickets (fun thread => (state.producers thread).reservations usage.family)
    state.tail state.reserve
  producers : ∀ thread, state.ProducerValid usage (state.producers thread)
  numbered : state.messages.map Message.index = List.range' 1 (state.tail - 1)
  kept : ∀ message ∈ state.messages, state.release ≤ message.index → state.Kept usage message
  consumer : state.ConsumerValid usage
  popped : state.popped = (state.messages.drop (state.first - 1)).take state.popped.length
  count : state.first + state.popped.length + state.consumer.pc.taken = state.head

variable {usage state} {next : State Thread}

structure Same (usage : Usage Thread) (state next : State Thread) (index : Nat) : Prop where
  pos : next.pos (usage.ring.entry index) = state.pos (usage.ring.entry index)
  payload : next.payload usage index = state.payload usage index

theorem Ready.mono {i : Nat} (ready : state.Ready usage i)
    (forward : state.release ≤ next.release) (same : Same usage state next i) :
    next.Ready usage i where
  lt := Nat.lt_of_lt_of_le ready.lt (Nat.add_le_add_right forward _)
  pos other := same.pos.trans (ready.pos other)

theorem Kept.mono {message : Message} (kept : state.Kept usage message)
    (same : Same usage state next message.index) : next.Kept usage message where
  payload := same.payload.trans kept.payload
  pos plain := same.pos.trans (kept.pos plain)

theorem HeldValid.mono {entry : Granted} (ok : state.HeldValid usage entry)
    (forward : state.release ≤ next.release) (same : Same usage state next entry.index) :
    next.HeldValid usage entry where
  ready := ok.ready.mono forward same
  written payload mem := same.payload.trans (ok.written payload mem)

/-- What else happens in the queue leaves a producer as it is, as long as nobody writes to its
entries and `tail` stays where it has seen it. -/
theorem PcValid.mono {pc : ProducerPc} (ok : state.PcValid usage pc)
    (forward : state.release ≤ next.release)
    (same : ∀ i ∈ pc.reserved usage.family, i < state.limit usage →
      Same usage state next i)
    (tail : ∀ i ∈ pc.reserved usage.family, state.tail = i → next.tail = i) :
    next.PcValid usage pc := by
  have limit : state.limit usage ≤ next.limit usage := Nat.add_le_add_right forward _
  cases pc with
  | store i threshold => exact ok.trans limit
  | swap i | setPos i => exact ⟨ok.1, ok.2.trans_le limit⟩
  | rollBack i => exact ok
  | write i payload written =>
    obtain ⟨ready, length, bound, prefix_⟩ := ok
    have kept := same i rfl ready.lt
    exact ⟨ready.mono forward kept, length, bound, kept.payload ▸ prefix_⟩
  | readPos message | wait message pos =>
    exact ⟨ok.1, ok.2.mono forward (same message.index rfl ok.2.ready.lt)⟩
  | stamp message pos =>
    obtain ⟨family, equal, turn, held⟩ := ok
    exact ⟨family, equal, tail message.index rfl turn,
      held.mono forward (same message.index rfl held.ready.lt)⟩
  | publish message pos =>
    obtain ⟨equal, turn, below, kept⟩ := ok
    exact ⟨equal, tail message.index rfl turn, below.trans_le limit,
      kept.mono (same message.index rfl below)⟩
  | _ => trivial

theorem ProducerValid.mono {producer : Producer} (ok : state.ProducerValid usage producer)
    (forward : state.release ≤ next.release)
    (same : ∀ i ∈ producer.reservations usage.family, i < state.limit usage →
      Same usage state next i)
    (tail : ∀ i ∈ producer.reservations usage.family, state.tail = i →
      next.tail = i) : next.ProducerValid usage producer where
  pc := by
    refine ok.pc.mono forward (fun i mem => ?_) fun i mem => ?_
    · exact same i (List.mem_append_left _ (Option.mem_toList.mpr mem))
    · exact tail i (List.mem_append_left _ (Option.mem_toList.mpr mem))
  held entry mem := by
    have held := ok.held entry mem
    have own : entry.index ∈ producer.reservations usage.family :=
      List.mem_append_right _ (List.mem_map.mpr ⟨entry, mem, rfl⟩)
    exact held.mono forward (same entry.index own held.ready.lt)

theorem Has.mono {consumer : Consumer} {upto : Nat} (has : state.Has consumer upto)
    (release : next.release = state.release) (tail : state.tail ≤ next.tail) :
    next.Has consumer upto := by
  unfold Has at has ⊢
  rw [release]
  refine ⟨has.1, ?_⟩
  cases peeked : consumer.peeked with simp only [peeked] at has
  | none => exact has.2
  | some i => exact ⟨has.2.1, has.2.2.1, has.2.2.2.1, has.2.2.2.2.trans_le tail⟩

theorem ConsumerValid.mono (ok : state.ConsumerValid usage)
    (consumer : next.consumer = state.consumer) (release : next.release = state.release)
    (head : next.head = state.head) (tail : state.tail ≤ next.tail)
    (same : ∀ i, state.release ≤ i → i < state.tail → Same usage state next i)
    (order : state.head ≤ state.tail) : next.ConsumerValid usage where
  family := consumer ▸ ok.family
  threshold := by
    rw [consumer]
    exact ok.threshold.trans tail
  pc := by
    have known := ok.pc
    rw [consumer]
    unfold ConsumerPcValid at known ⊢
    rw [head, release]
    split at known
    case h_1 => exact known.mono release tail
    case h_2 => exact ⟨known.1.mono release tail, known.2⟩
    case h_3 => exact ⟨known.1, known.2.1.mono release tail, known.2.2⟩
    case h_4 => exact ⟨known.1, known.2.1.mono release tail, known.2.2⟩
    case h_5 =>
      exact ⟨known.1, known.2.1.trans_le tail, known.2.2.1.mono release tail, known.2.2.2⟩
    case h_6 => exact ⟨known.1, known.2.1, known.2.2.1, known.2.2.2.mono release tail⟩
    case h_7 i copied _ =>
      obtain ⟨moved, first, suits, length, equal⟩ := known
      have kept := same i first.symm.le (by omega)
      exact ⟨moved, first, suits, length, kept.payload ▸ equal⟩
    case h_8 => exact ⟨known.1, known.2.1, known.2.2.mono release tail⟩
    case h_9 => exact ⟨known.1, known.2.1, known.2.2.1, known.2.2.2.mono release tail⟩
    all_goals
      refine ⟨known.1, known.2.1, ?_⟩
      have rest := known.2.2
      split at rest
      · exact rest.mono release tail
      · exact rest

end State

end AdkAaf.Adk.LockFreeMsgQueue.Mpsc
