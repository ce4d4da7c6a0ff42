import AdkAaf.Adk.LockFreeMsgQueue.Mpsc.Consuming
import Mathlib.Data.UInt

/-! The queue is a bounded first-in-first-out queue, for each family of functions, when the
sizes that `Create` computes do not wrap around. -/

set_option autoImplicit false

namespace AdkAaf.Adk.LockFreeMsgQueue.Mpsc

open Lib State Option List

def Fits (entryPayloadSize queueSize : UInt32) : Prop :=
  entryPayloadSize.toNat + 8 ≤ 2 ^ 31 ∧
    pageSize.toNat + (roundToPowerOf2 queueSize).toNat * (calcEntrySize entryPayloadSize).toNat <
      2 ^ 32

instance (entryPayloadSize queueSize : UInt32) : Decidable (Fits entryPayloadSize queueSize) :=
  inferInstanceAs (Decidable (_ ∧ _))

variable {entryPayloadSize : UInt32}

theorem calcEntrySize_pow (small : entryPayloadSize.toNat + 8 ≤ 2 ^ 31) :
    ∃ exponent, (calcEntrySize entryPayloadSize).toNat = 2 ^ exponent ∧
      entryPayloadSize.toNat + 8 ≤ 2 ^ exponent := by
  have sum : (entryPayloadSize.toUInt64 + 8).toUInt32.toNat = entryPayloadSize.toNat + 8 := by
    rw [UInt64.toNat_toUInt32, UInt64.toNat_add, UInt32.toNat_toUInt64]
    simp only [UInt64.reduceToNat]
    omega
  obtain ⟨exponent, -, power, above⟩ :=
    @roundToPowerOf2_of_le (entryPayloadSize.toUInt64 + 8).toUInt32 (by omega) (by omega)
  exact ⟨exponent, power, sum ▸ above⟩

theorem roundToPowerOf2_zero_or_pow (size : UInt32) :
    (roundToPowerOf2 size).toNat = 0 ∨ ∃ exponent, (roundToPowerOf2 size).toNat = 2 ^ exponent := by
  by_cases pos : 1 ≤ size.toNat
  · by_cases small : size.toNat ≤ 2 ^ 31
    · obtain ⟨exponent, -, power, -⟩ := roundToPowerOf2_of_le pos small
      exact .inr ⟨exponent, power⟩
    · rw [roundToPowerOf2_of_gt (Nat.lt_of_not_le small)]
      exact .inl rfl
  · have zero : size = 0 := UInt32.toNat_inj.mp (Nat.eq_zero_of_not_pos pos)
    subst zero
    exact .inl (by decide)

variable {payloadSize : Nat}

theorem create_holds {queueSize : UInt32} (fits : Fits entryPayloadSize queueSize)
    (sized : payloadSize ≤ entryPayloadSize.toNat) :
    (Ring.create entryPayloadSize queueSize).Holds payloadSize where
  mask := by
    rcases roundToPowerOf2_zero_or_pow queueSize with zero | ⟨exp, power⟩
    · exact .inl zero
    · refine .inr ⟨exp, power, ?_⟩
      have pos : (1 : UInt32) ≤ roundToPowerOf2 queueSize := by
        rw [UInt32.le_iff_toNat_le, power]
        exact Nat.two_pow_pos exp
      rw [Ring.create, UInt32.toNat_sub_of_le _ _ pos, power]
      rfl
  room := by
    obtain ⟨exp, power, above⟩ := calcEntrySize_pow fits.1
    rw [Ring.create, getBits_of_pow power]
    exact (Nat.add_comm 8 payloadSize ▸ Nat.add_le_add_right sized 8).trans above

def Inside (entryPayloadSize queueSize : UInt32) (payloadSize : Nat) : Prop :=
  ∀ index, 0 < (Ring.create entryPayloadSize queueSize).queueSize →
    pageSize.toNat + (Ring.create entryPayloadSize queueSize).entry index + (8 + payloadSize) ≤
      (createdSize entryPayloadSize queueSize).toNat

theorem create_inside {queueSize : UInt32} (fits : Fits entryPayloadSize queueSize)
    (sized : payloadSize ≤ entryPayloadSize.toNat) :
    Inside entryPayloadSize queueSize payloadSize := by
  intro i some_
  have holds := create_holds fits sized
  obtain empty | ⟨exponent, size, mask⟩ := holds.mask
  · rw [empty] at some_
    cases some_
  obtain ⟨bits, power, -⟩ := calcEntrySize_pow fits.1
  have rounded : (roundToPowerOf2 queueSize).toNat = 2 ^ exponent := size
  have whole : (createdSize entryPayloadSize queueSize).toNat =
      pageSize.toNat + 2 ^ exponent * 2 ^ bits := by
    have below := fits.2
    rw [rounded, power] at below
    rw [createdSize, UInt32.toNat_add, UInt32.toNat_mul, rounded, power,
      Nat.mod_eq_of_lt (Nat.lt_of_le_of_lt (Nat.le_add_left _ _) below), Nat.mod_eq_of_lt below]
  have slot : i % 2 ^ exponent + 1 ≤ 2 ^ exponent := Nat.mod_lt _ (Nat.two_pow_pos _)
  have scaled := Nat.mul_le_mul_right (2 ^ bits) slot
  have room := holds.room
  have width : (Ring.create entryPayloadSize queueSize).entryBits = bits := getBits_of_pow power
  rw [Nat.succ_mul] at scaled
  rw [width] at room
  rw [Ring.entry, mask, width, Nat.and_two_pow_sub_one_eq_mod, Nat.shiftLeft_eq, whole]
  omega

/-- The indices that were granted to a producer and not published yet: those that are reserved
by a function which does not roll back. -/
def Producer.granted (producer : Producer) : List Nat := producer.reservations .plain

namespace State

variable {Thread : Type} [DecidableEq Thread] {usage : Usage Thread} {state next : State Thread}

structure Fifo (usage : Usage Thread) (state : State Thread) : Prop where
  cursors : state.release ≤ state.head ∧ state.head ≤ state.tail ∧ state.tail ≤ state.reserve
  numbered : state.messages.map Message.index = range' 1 (state.tail - 1)
  popped : state.popped <+: state.messages
  complete : 1 + state.popped.length + state.consumer.pc.taken = state.head
  granted : ∀ thread, ∀ index ∈ (state.producers thread).granted,
    state.tail ≤ index ∧ index < state.limit usage
  unread : ∀ message ∈ state.messages, state.release ≤ message.index →
    state.payload usage message.index = message.payload
  owned : ∀ index, state.tail ≤ index → index < state.reserve →
    ∃! thread, index ∈ (state.producers thread).reservations usage.family

variable {thread : Thread}

theorem Valid.granted (ok : state.Valid usage) {index : Nat}
    (mem : index ∈ (state.producers thread).granted) :
    state.tail ≤ index ∧ index < state.limit usage := by
  have known := (ok.producers thread).pc
  rcases mem_append.mp mem with own | held
  · have here : (state.producers thread).pc.reserved .plain = some index := mem_toList.mp own
    have mine : (state.producers thread).pc.reserved usage.family = some index ∧
        index < state.limit usage := by
      cases pc : (state.producers thread).pc with
      | setPos other =>
        rw [pc] at here known
        cases here
        exact ⟨rfl, known.2⟩
      | write other payload written =>
        rw [pc] at here known
        cases here
        exact ⟨rfl, known.1.lt⟩
      | readPos message | wait message pos =>
        rw [pc] at here known
        cases here
        exact ⟨rfl, known.2.ready.lt⟩
      | stamp message pos =>
        rw [pc] at here known
        cases here
        exact ⟨rfl, known.2.2.2.ready.lt⟩
      | publish message pos =>
        rw [pc] at here known
        cases here
        exact ⟨rfl, known.2.2.1⟩
      | _ =>
        rw [pc] at here
        cases here
    exact ⟨ok.tickets.le (mem_append_left _ (mem_toList.mpr mine.1)), mine.2⟩
  · obtain ⟨entry, found, rfl⟩ := mem_map.mp held
    exact ⟨ok.tickets.le (mem_append_right _ held),
      ((ok.producers thread).held entry found).ready.lt⟩

theorem Valid.fifo (ok : state.Valid usage) (first : state.first = 1) : state.Fifo usage where
  cursors := ⟨ok.release_le, ok.head_le, ok.tail_le⟩
  numbered := ok.numbered
  popped := by
    have given := ok.popped
    rw [first, Nat.sub_self, drop_zero] at given
    rw [given]
    exact take_prefix _ _
  complete := first ▸ ok.count
  granted _ _ mem := ok.granted mem
  unread message mem above := (ok.kept message mem above).payload
  owned index above below := by
    obtain ⟨thread, mem⟩ := ok.tickets.owned index above below
    exact ⟨thread, mem, fun other found => ok.tickets.alone found mem⟩

def IsCall : Action Thread → Prop
  | .producer _ _ | .consumer _ => True
  | .kill _ | .killConsumer | .restoreConsumer _ | .restoreProducers => False

instance : ∀ action : Action Thread, Decidable (IsCall action)
  | .producer _ _ | .consumer _ => inferInstanceAs (Decidable True)
  | .kill _ | .killConsumer | .restoreConsumer _ | .restoreProducers =>
    inferInstanceAs (Decidable False)

structure SameSession (state next : State Thread) : Prop where
  first : next.first = state.first
  earlier : next.earlier = state.earlier
  posted : state.posted <+: next.posted

theorem sameSession_reserved (thread : Thread) (i : Nat) :
    SameSession state (state.reserved usage thread i) := by
  unfold reserved
  cases usage.family <;> exact ⟨rfl, rfl, prefix_rfl⟩

theorem sameSession_produce {ticks : Nat} (went : state.produce usage thread ticks = some next) :
    SameSession state next := by
  unfold produce at went
  split at went
  case h_1 => cases went
  case h_2 => split at went <;> cases went <;> exact ⟨rfl, rfl, prefix_rfl⟩
  case h_3 =>
    split at went <;> cases went
    · exact ⟨rfl, rfl, prefix_rfl⟩
    · exact sameSession_reserved _ _
  case h_6 =>
    split at went
    · split at went <;> cases went <;> exact ⟨rfl, rfl, prefix_rfl⟩
    · cases went
      exact sameSession_reserved _ _
  case h_7 => split at went <;> cases went <;> exact ⟨rfl, rfl, prefix_rfl⟩
  case h_8 => split at went <;> cases went <;> exact ⟨rfl, rfl, prefix_rfl⟩
  case h_10 => split at went <;> cases went <;> exact ⟨rfl, rfl, prefix_rfl⟩
  case h_12 =>
    split at went
    · split at went <;> cases went <;> exact ⟨rfl, rfl, prefix_rfl⟩
    · cases went
      exact ⟨rfl, rfl, prefix_rfl⟩
  case h_14 =>
    cases went
    exact ⟨rfl, rfl, prefix_append _ _⟩
  all_goals
    cases went
    exact ⟨rfl, rfl, prefix_rfl⟩

theorem sameSession_produceMove {move : ProducerMove}
    (went : state.produceMove usage thread move = some next) : SameSession state next := by
  cases move with
  | alloc =>
    simp only [produceMove] at went
    split at went <;> cases went
    exact ⟨rfl, rfl, prefix_rfl⟩
  | fill i payload =>
    simp only [produceMove] at went
    split at went
    · obtain ⟨entry, -, rfl⟩ := map_eq_some_iff.mp went
      exact ⟨rfl, rfl, prefix_rfl⟩
    · cases went
  | post i =>
    simp only [produceMove] at went
    split at went
    · obtain ⟨entry, -, posting⟩ := bind_eq_some_iff.mp went
      obtain ⟨payload, -, rfl⟩ := map_eq_some_iff.mp posting
      exact ⟨rfl, rfl, prefix_rfl⟩
    · cases went
  | next ticks => exact sameSession_produce went

omit [DecidableEq Thread] in
theorem sameSession_consumeMove {move : ConsumerMove}
    (went : state.consumeMove usage move = some next) : SameSession state next := by
  cases move with
  | start form =>
    cases form with
    | pop | wait | peek =>
      simp only [consumeMove] at went
      split at went <;> cases went
      exact ⟨rfl, rfl, prefix_rfl⟩
  | free ordered =>
    simp only [consumeMove] at went
    split at went
    · obtain ⟨i, -, rfl⟩ := map_eq_some_iff.mp went
      exact ⟨rfl, rfl, prefix_rfl⟩
    · cases went
  | next =>
    simp only [consumeMove, consume] at went
    split at went
    case h_1 => cases went
    case h_5 => split at went <;> cases went <;> exact ⟨rfl, rfl, prefix_rfl⟩
    case h_3 => split at went <;> cases went <;> exact ⟨rfl, rfl, prefix_rfl⟩
    case h_7 => split at went <;> cases went <;> exact ⟨rfl, rfl, prefix_rfl⟩
    case h_8 => split at went <;> cases went <;> exact ⟨rfl, rfl, prefix_rfl⟩
    case h_10 =>
      cases went
      split <;> exact ⟨rfl, rfl, prefix_rfl⟩
    all_goals
      cases went
      exact ⟨rfl, rfl, prefix_rfl⟩

theorem sameSession_of_call {action : Action Thread} (call : IsCall action)
    (went : state.step usage action = some next) : SameSession state next := by
  cases action with
  | producer thread move =>
    simp only [step] at went
    split at went
    · cases went
    · exact sameSession_produceMove went
  | consumer move =>
    simp only [step] at went
    split at went
    · cases went
    · exact sameSession_consumeMove went
  | _ => cases call

end State

def Usage.created {Thread : Type} (entryPayloadSize queueSize : UInt32) (family : Family)
    (payloadSize : Nat) (handle : Thread → Nat) : Usage Thread where
  ring := Ring.create entryPayloadSize queueSize
  family := family
  payloadSize := payloadSize
  handle := handle

/-- Whatever the producers and the consumer do with a queue, its messages come out as they were
published. -/
theorem popped_as_published {Thread : Type} [DecidableEq Thread]
    (entryPayloadSize queueSize : UInt32) (family : Family) (payloadSize : Nat)
    (handle : Thread → Nat) (bytes : Memory) (actions : List (Action Thread))
    (final : State Thread) (sized : payloadSize ≤ entryPayloadSize.toNat)
    (fits : Fits entryPayloadSize queueSize) (calls : ∀ action ∈ actions, IsCall action)
    (ran : execute (step (Usage.created entryPayloadSize queueSize family payloadSize handle))
      (start (Usage.created entryPayloadSize queueSize family payloadSize handle) bytes)
      actions = some final) :
    final.Fifo (Usage.created entryPayloadSize queueSize family payloadSize handle) ∧
      Inside entryPayloadSize queueSize payloadSize := by
  have steps : ∀ {state : State Thread} {action : Action Thread} {next : State Thread},
      state.Valid (Usage.created entryPayloadSize queueSize family payloadSize handle) ∧
        state.first = 1 → IsCall action →
      state.step (Usage.created entryPayloadSize queueSize family payloadSize handle) action =
        some next →
      next.Valid (Usage.created entryPayloadSize queueSize family payloadSize handle) ∧
        next.first = 1 := by
    intro state action next known call stepped
    have contract : state.Contract action := by
      cases action with
      | producer | consumer => trivial
      | _ => cases call
    exact ⟨known.1.step (create_holds fits sized) contract stepped,
      (sameSession_of_call call stepped).first.trans known.2⟩
  have reached := invariant_of_guarded steps ⟨start_valid _ bytes, rfl⟩
    (guarded_of_forall (fun action member _ => calls action member) _) ran
  exact ⟨reached.1.fifo reached.2, create_inside fits sized⟩

def twoProducers (family : Family) : Usage Bool :=
  Usage.created 8 1 family 2 fun thread => thread.toNat

def moves {Thread : Type} (thread : Thread) (number : Nat) : List (Action Thread) :=
  replicate number (.producer thread (.next 0))

def fillAndPost {Thread : Type} (thread : Thread) (index : Nat) (payload : List UInt8)
    (number : Nat) : List (Action Thread) :=
  [.producer thread (.fill index payload)] ++ moves thread (payload.length + 1) ++
    [.producer thread (.post index)] ++ moves thread number

def popOne {Thread : Type} (number : Nat) : List (Action Thread) :=
  .consumer (.start .pop) :: replicate number (.consumer .next)

/-- While one producer is to give index 2 back, the other one reserves index 3, and a message
is popped. -/
def rollBackRun : List (Action Bool) :=
  [.producer false .alloc] ++ moves false 5 ++ fillAndPost false 1 [7, 8] 2 ++
    [.producer true .alloc] ++ moves true 5 ++
    [.producer false .alloc] ++ moves false 5 ++ moves true 1 ++ popOne 7 ++
    moves true 4 ++ moves false 1 ++ fillAndPost true 2 [9, 9] 2 ++ popOne 7

theorem rollBackRun_popped_as_published :
    ∃ final, execute (step (twoProducers .exp)) (start (twoProducers .exp) fun _ => 0)
        rollBackRun = some final ∧
      (final.popped = [⟨1, [7, 8]⟩, ⟨2, [9, 9]⟩] ∧ final.tail = 3 ∧ final.reserve = 3) ∧
        final.Fifo (twoProducers .exp) := by
  obtain ⟨final, ran, facts⟩ :
      ∃ final, execute (step (twoProducers .exp))
          (start (twoProducers .exp) fun _ => 0) rollBackRun = some final ∧
        (final.popped = [⟨1, [7, 8]⟩, ⟨2, [9, 9]⟩] ∧ final.tail = 3 ∧ final.reserve = 3) :=
    execute_check (by decide +kernel)
  have holds := popped_as_published 8 1 .exp 2 _ _ rollBackRun final (by decide)
    (by decide +kernel) (by decide +kernel) ran
  exact ⟨final, ran, facts, holds.1⟩

def overlapping : Usage Unit := Usage.created (2 ^ 31) 4 .plain 2 fun _ => 0

def overlappingRun : List (Action Unit) :=
  [.producer () .alloc] ++ moves () 4 ++ fillAndPost () 1 [0, 2] 3 ++
    [.producer () .alloc] ++ moves () 4 ++ fillAndPost () 2 [3, 4] 3 ++ popOne 7

theorem overlappingRun_not_popped_as_published :
    ∃ final, execute (step overlapping) (start overlapping fun _ => 0) overlappingRun = some final ∧
      (final.messages = [⟨1, [0, 2]⟩, ⟨2, [3, 4]⟩] ∧ final.popped = [⟨1, [0, 3]⟩]) ∧
        ¬ final.Fifo overlapping := by
  obtain ⟨final, ran, messages, popped⟩ :
      ∃ final, execute (step overlapping) (start overlapping fun _ => 0)
          overlappingRun = some final ∧
        (final.messages = [⟨1, [0, 2]⟩, ⟨2, [3, 4]⟩] ∧ final.popped = [⟨1, [0, 3]⟩]) :=
    execute_check (by decide +kernel)
  refine ⟨final, ran, ⟨messages, popped⟩, fun fifo => ?_⟩
  have first := fifo.popped
  rw [messages, popped] at first
  exact absurd first (by decide)

end AdkAaf.Adk.LockFreeMsgQueue.Mpsc
