import AdkAaf.Adk.LockFreeMsgQueue.Mpsc.Producing

/-! The statements of the consumer keep the invariant, and so do the end of a process and the
restoration of its side of the queue. -/

set_option autoImplicit false

namespace AdkAaf.Adk.LockFreeMsgQueue.Mpsc.State

open Lib Option List

variable {Thread : Type} [DecidableEq Thread] {usage : Usage Thread} {state next : State Thread}

variable {index : Nat}

variable {consumer : Consumer}
variable {pc : ConsumerPc}

section

variable (ok : state.Valid usage)
include ok

theorem Valid.message_at (above : state.release ≤ index) (below : index < state.tail) :
    state.messages[index - 1]? = some ⟨index, state.payload usage index⟩ := by
  have positive : 1 ≤ index := ok.first_pos.trans (ok.first_le.trans above)
  have inside : index - 1 < state.messages.length := by
    rw [ok.length_messages]
    omega
  obtain ⟨message, found⟩ : ∃ message, state.messages[index - 1]? = some message :=
    ⟨_, getElem?_eq_getElem inside⟩
  have numbered := congrArg (·[index - 1]?) ok.numbered
  rw [getElem?_map, getElem?_range' (by omega), found, map_some,
    some.injEq] at numbered
  obtain rfl : message.index = index := by omega
  rw [found, (ok.kept message (mem_of_getElem? found) above).payload]

theorem Valid.give (at_ : state.first + state.popped.length = index) (above : state.release ≤ index)
    (below : index < state.tail) {payload : List UInt8}
    (same : state.payload usage index = payload) :
    state.popped ++ [({ index := index, payload := payload } : Message)] =
      (state.messages.drop (state.first - 1)).take
        (state.popped ++ [({ index := index, payload := payload } : Message)]).length := by
  have found := ok.message_at above below
  have positive := ok.first_pos
  rw [length_append, length_singleton, take_add_one, ← ok.popped,
    getElem?_drop, show state.first - 1 + state.popped.length = index - 1 by omega, found,
    same]
  rfl

theorem Valid.consumed (head release : Nat) (consumer : Consumer) (popped : List Message)
    (forward : state.release ≤ release) (ordered : release ≤ head) (ahead : head ≤ state.tail)
    (own : ConsumerValid usage
      { state with head := head, release := release, consumer := consumer })
    (given : popped = (state.messages.drop (state.first - 1)).take popped.length)
    (count : state.first + popped.length + consumer.pc.taken = head) :
    Valid usage { state with
        head := head
        release := release
        consumer := consumer
        popped := popped } where
  __ := ok
  first_le := Nat.le_trans ok.first_le forward
  release_le := ordered
  head_le := ahead
  window := Nat.le_trans ok.window (Nat.add_le_add_right forward _)
  reserve_le family := Nat.le_trans (ok.reserve_le family) (Nat.add_le_add_right forward _)
  threshold handle := Nat.le_trans (ok.threshold handle) (Nat.add_le_add_right forward _)
  producers thread :=
    (ok.producers thread).mono forward (fun _ _ _ => ⟨rfl, rfl⟩) fun _ _ => id
  kept message mem above :=
    (ok.kept message mem (forward.trans above)).mono ⟨rfl, rfl⟩
  consumer := own.mono rfl rfl rfl .refl (fun _ _ _ => ⟨rfl, rfl⟩) ahead
  popped := given
  count := count

theorem Valid.setConsumer
    (family : usage.family ≠ .plain → consumer.peeked = none ∧ consumer.held = [])
    (threshold : consumer.headThreshold ≤ state.tail)
    (own : state.ConsumerPcValid usage consumer consumer.pc)
    (taken : consumer.pc.taken = state.consumer.pc.taken) :
    Valid usage { state with consumer := consumer } := by
  refine ok.consumed state.head state.release consumer state.popped .refl
    ok.release_le ok.head_le ⟨family, threshold, ?_⟩ ok.popped (taken ▸ ok.count)
  exact own

theorem Valid.consumerPc (at_ : state.consumer.pc = pc) :
    state.ConsumerPcValid usage state.consumer pc :=
  at_ ▸ ok.consumer.pc

theorem Valid.consumerAt (own : state.ConsumerPcValid usage state.consumer pc)
    (taken : pc.taken = state.consumer.pc.taken) : (state.setConsumer pc).Valid usage :=
  ok.setConsumer ok.consumer.family ok.consumer.threshold own taken

theorem Valid.plain_of_frees (frees : Frees state.consumer) : usage.family = .plain := by
  by_contra other
  have none := ok.consumer.family other
  rcases frees with held | peeked
  · exact held none.2
  · exact peeked none.1

end

omit [DecidableEq Thread] in
theorem Has.release_lt {upto : Nat} (has : state.Has consumer upto) (frees : Frees consumer)
    (ahead : upto ≤ state.tail) : state.release < state.tail := by
  obtain ⟨-, rest⟩ := has
  cases peeked : consumer.peeked with simp only [peeked] at rest
  | none =>
    rcases frees with held | other
    · have positive := length_pos_iff.mpr held
      omega
    · exact absurd peeked other
  | some i => exact rest.2.1 ▸ rest.2.2.2

theorem Valid.pos_eq (ok : state.Valid usage) (frees : Frees state.consumer)
    (below : state.release < state.tail) :
    state.pos (usage.ring.entry state.release) = state.release := by
  have found := ok.message_at .refl below
  exact (ok.kept _ (mem_of_getElem? found) .refl).pos (ok.plain_of_frees frees)

omit [DecidableEq Thread] in
theorem has_peeked (has : state.Has consumer state.head) (empty : consumer.held = [])
    (below : state.head < state.tail) :
    state.Has { consumer with peeked := some state.head, pc := .idle } state.head := by
  unfold Has at has ⊢
  dsimp only
  refine ⟨has.1, empty, ?_⟩
  cases peeked : consumer.peeked with
  | none =>
    simp only [peeked, empty, length_nil, Nat.add_zero] at has
    exact ⟨has.2.symm, has.2.symm, below⟩
  | some i =>
    simp only [peeked] at has
    exact ⟨has.2.2.2.1, has.2.2.2.1, below⟩

theorem Valid.take (ok : state.Valid usage) {form : Form}
    (at_ : state.consumer.pc = .take form index) (went : state.consume usage = some next) :
    next.Valid usage := by
  obtain ⟨rfl, below, has, suits⟩ := ok.consumerPc at_
  have count := ok.count
  rw [at_] at count
  have release := ok.release_le
  simp only [consume, at_] at went
  cases form with cases went
  | pop =>
    refine ok.consumed (state.head + 1) state.release _ state.popped .refl
      (Nat.le_succ_of_le release) below
      ⟨ok.consumer.family, ok.consumer.threshold, ?_⟩ ok.popped
      (congrArg (· + 1) count)
    refine ⟨rfl, ?_, suits, Nat.zero_le _, rfl⟩
    have upto := has.2
    simp only [suits.2, suits.1, length_nil, Nat.add_zero] at upto
    exact upto.symm
  | wait =>
    refine ok.consumed (state.head + 1) state.release _ state.popped .refl
      (Nat.le_succ_of_le release) below
      ⟨ok.consumer.family, ok.consumer.threshold, ?_⟩ ok.popped
      (congrArg (· + 1) count)
    exact ⟨suits.1, rfl, suits.2, has.mono rfl .refl⟩
  | peek =>
    refine ok.setConsumer (fun other => absurd suits.1 other) ok.consumer.threshold
      (has_peeked has suits.2 below) ?_
    rw [at_]
    rfl

theorem Valid.given (ok : state.Valid usage) (at_ : state.consumer.pc = .give index)
    (went : state.consume usage = some next) : next.Valid usage := by
  obtain ⟨family, moved, none, has⟩ := ok.consumerPc at_
  have count := ok.count
  rw [at_, moved] at count
  have position : state.first + state.popped.length = index := Nat.succ.inj count
  have upto := has.2
  simp only [none] at upto
  have above : state.release ≤ index := upto ▸ Nat.le_add_right _ _
  have below : index < state.tail := Nat.lt_of_lt_of_le (moved ▸ Nat.lt_succ_self _) ok.head_le
  simp only [consume, at_] at went
  cases went
  refine ok.consumed state.head state.release _ _ .refl ok.release_le
    ok.head_le ⟨fun other => absurd family other, ok.consumer.threshold, ?_⟩
    (ok.give position above below rfl) ?_
  · refine ⟨?_, ?_⟩
    · dsimp only
      rw [length_append, length_singleton]
      have held := has.1
      rw [range'_concat, Nat.one_mul, upto, ← held]
    · simp only [none, length_append, length_singleton]
      omega
  · dsimp only [ConsumerPc.taken]
    rw [length_append, length_singleton, moved]
    omega

theorem Valid.copy (ok : state.Valid usage) {copied : List UInt8}
    (at_ : state.consumer.pc = .copy index copied) (went : state.consume usage = some next) :
    next.Valid usage := by
  obtain ⟨moved, rfl, suits, length, equal⟩ := ok.consumerPc at_
  have whole : (state.payload usage state.release).length = usage.payloadSize :=
    Memory.length_loadBytes _ _ _
  have below : state.release < state.tail :=
    Nat.lt_of_lt_of_le (moved ▸ Nat.lt_succ_self _) ok.head_le
  simp only [consume, at_] at went
  split at went
  · next more =>
    cases went
    refine ok.consumerAt ⟨moved, rfl, suits, ?_, ?_⟩ (by rw [at_]; rfl)
    · rw [length_append, length_singleton]
      exact more
    · have byte : (state.payload usage state.release)[copied.length]? =
          some (state.bytes (usage.ring.entry state.release + 8 + copied.length)) := by
        have slice := @Lib.Memory.getElem?_slice (usage.ring.entry state.release + 8)
          (usage.ring.entry state.release + 8 + usage.payloadSize) state.bytes copied.length
          (Nat.add_lt_add_left more _)
        rwa [Memory.slice, Nat.add_sub_cancel_left] at slice
      rw [length_append, length_singleton, take_add_one, ← equal, byte]
      rfl
  · next done =>
    cases went
    have all : copied.length = usage.payloadSize := length.antisymm (Nat.le_of_not_lt done)
    rw [all, ← whole, take_length] at equal
    have count := ok.count
    rw [at_, moved] at count
    have position : state.first + state.popped.length = state.release := Nat.succ.inj count
    refine ok.consumed state.head (state.release + 1) _ _ (Nat.le_succ _)
      moved.symm.le ok.head_le
      ⟨ok.consumer.family, ok.consumer.threshold, ?_⟩
      (ok.give position .refl below equal.symm) ?_
    · obtain ⟨held, peeked⟩ := suits
      dsimp only [State.setConsumer]
      refine ⟨by simp [held], ?_⟩
      simp only [peeked, held, length_nil, Nat.add_zero]
      exact moved.symm
    · dsimp only [State.setConsumer, ConsumerPc.taken]
      rw [length_append, length_singleton, moved]
      omega

theorem taken_freeing (ordered : Bool) (pos : Nat) :
    ConsumerPc.taken (if ordered then .setRelease pos else .waitRelease pos) = 0 := by
  cases ordered <;> rfl

variable {ordered : Bool}

theorem Valid.freeing (ok : state.Valid usage) (frees : Frees state.consumer)
    (upto : match state.consumer.peeked with
      | none => state.Has state.consumer state.head
      | some _ => state.consumer.held = [] ∧ state.head = state.release + 1)
    (taken : state.consumer.pc.taken = 0) : (state.freeing state.release ordered).Valid usage := by
  refine ok.consumerAt ?_ ((taken_freeing ordered _).trans taken.symm)
  cases ordered with
  | true | false => exact ⟨rfl, frees, upto⟩

theorem Valid.readPos (ok : state.Valid usage) (at_ : state.consumer.pc = .readPos index ordered)
    (went : state.consume usage = some next) : next.Valid usage := by
  obtain ⟨rfl, frees, has⟩ := ok.consumerPc at_
  have pos := ok.pos_eq frees (has.release_lt frees ok.head_le)
  simp only [consume, at_, pos] at went
  cases peeked : state.consumer.peeked with simp only [peeked] at went
  | none =>
    cases went
    refine ok.freeing frees ?_ (by rw [at_]; rfl)
    rw [peeked]
    exact has
  | some index =>
    cases went
    refine ok.consumerAt ⟨rfl, rfl, ?_, has⟩ (by rw [at_]; rfl)
    rw [peeked]
    exact some_ne_none index

variable {pos : Nat}

section

variable (ok : state.Valid usage)
include ok

theorem Valid.setHead (at_ : state.consumer.pc = .setHead index pos ordered)
    (went : state.consume usage = some next) : next.Valid usage := by
  obtain ⟨rfl, rfl, some_, has⟩ := ok.consumerPc at_
  have below := has.release_lt (.inr some_) ok.head_le
  have family := ok.plain_of_frees (.inr some_)
  obtain ⟨index, peeked⟩ := ne_none_iff_exists'.mp some_
  have upto := has.2
  simp only [peeked] at upto
  have count := ok.count
  rw [at_, upto.2.2.1] at count
  simp only [consume, at_] at went
  cases went
  refine ok.consumed (state.release + 1) state.release _ _ .refl (Nat.le_succ _)
    below ⟨fun other => absurd family other, ok.consumer.threshold, ?_⟩
    (ok.give count .refl below rfl) ?_
  · dsimp only [State.freeing, State.setConsumer]
    cases ordered with
    | true | false =>
      refine ⟨rfl, .inr some_, ?_⟩
      simp only [peeked]
      exact ⟨upto.1, trivial⟩
  · dsimp only [State.freeing, State.setConsumer]
    rw [length_append, length_singleton, taken_freeing]
    dsimp only [ConsumerPc.taken] at count
    omega

theorem Valid.setRelease (at_ : state.consumer.pc = .setRelease pos)
    (went : state.consume usage = some next) : next.Valid usage := by
  obtain ⟨rfl, frees, upto⟩ := ok.consumerPc at_
  have family := ok.plain_of_frees frees
  have count := ok.count
  rw [at_] at count
  simp only [consume, at_] at went
  cases went
  have ahead : state.release + 1 ≤ state.head := by
    cases peeked : state.consumer.peeked with simp only [peeked] at upto
    | none =>
      have sum := upto.2
      simp only [peeked] at sum
      rcases frees with held | other
      · have positive := length_pos_iff.mpr held
        omega
      · exact absurd peeked other
    | some i => exact upto.2.symm.le
  refine ok.consumed state.head (state.release + 1) _ _ (Nat.le_succ _) ahead ok.head_le
    ⟨fun other => absurd family other, ok.consumer.threshold, ?_⟩ ok.popped count
  change Has _ _ _
  cases peeked : state.consumer.peeked with simp only [peeked] at upto
  | none =>
    obtain ⟨held, sum⟩ := upto
    simp only [peeked] at sum
    refine ⟨?_, ?_⟩
    · dsimp only
      rw [length_tail]
      conv_lhs => rw [held]
      rw [tail_range']
    · simp only [length_tail]
      omega
  | some i =>
    obtain ⟨held, head⟩ := upto
    simp only [Has, held, tail_nil, length_nil, range'_zero, Nat.add_zero, true_and]
    exact head.symm

theorem Valid.consume (went : state.consume usage = some next) : next.Valid usage := by
  cases at_ : state.consumer.pc with
  | idle =>
    simp only [State.consume, at_] at went
    cases went
  | load form =>
    obtain ⟨has, suits⟩ := ok.consumerPc at_
    simp only [State.consume, at_] at went
    cases went
    exact ok.consumerAt ⟨rfl, has, suits⟩ (by rw [at_]; rfl)
  | check form index =>
    obtain ⟨rfl, has, suits⟩ := ok.consumerPc at_
    simp only [State.consume, at_] at went
    split at went
    · cases went
      exact ok.consumerAt ⟨rfl, has, suits⟩ (by rw [at_]; rfl)
    · next below =>
      cases went
      refine ok.consumerAt ⟨rfl, ?_, has, suits⟩ (by rw [at_]; rfl)
      exact (Nat.lt_of_not_le below).trans_le ok.consumer.threshold
  | readTail form index =>
    obtain ⟨rfl, has, suits⟩ := ok.consumerPc at_
    simp only [State.consume, at_] at went
    cases went
    refine ok.setConsumer ok.consumer.family .refl ?_ ?_
    · dsimp only
      split
      · exact has
      · next below => exact ⟨rfl, Nat.lt_of_not_le below, has, suits⟩
    · rw [at_]
      split <;> rfl
  | take form index => exact ok.take at_ went
  | give index => exact ok.given at_ went
  | copy index copied => exact ok.copy at_ went
  | readPos index ordered => exact ok.readPos at_ went
  | setHead index pos ordered => exact ok.setHead at_ went
  | waitRelease pos =>
    have known := ok.consumerPc at_
    simp only [State.consume, at_] at went
    cases went
    split
    · exact ok.consumerAt known (by rw [at_]; rfl)
    · exact ok
  | setRelease pos => exact ok.setRelease at_ went

theorem Valid.consumeMove {move : ConsumerMove}
    (went : state.consumeMove usage move = some next) : next.Valid usage := by
  cases move with
  | start form =>
    cases form with
    | pop | wait | peek =>
      simp only [State.consumeMove, decide_eq_true_eq] at went
      split at went
      · next may =>
        cases went
        exact ok.consumerAt ⟨ok.consumerPc may.1, may.2⟩ (by rw [may.1]; rfl)
      · cases went
  | free ordered =>
    simp only [State.consumeMove] at went
    split at went
    · next may =>
      obtain ⟨i, found, rfl⟩ := map_eq_some_iff.mp went
      have has := ok.consumerPc may.1
      have frees : i = state.release ∧ Frees state.consumer := by
        obtain ⟨held, rest⟩ := has
        cases peeked : state.consumer.peeked with
        | some other =>
          simp only [peeked] at rest found
          cases found
          exact ⟨rest.2.1, .inr (by rw [peeked]; exact some_ne_none _)⟩
        | none =>
          simp only [peeked, none_or] at found
          cases entries : state.consumer.held with
          | nil =>
            rw [entries] at found
            cases found
          | cons first others =>
            rw [entries] at found held
            cases found
            exact ⟨(cons.inj held).1, .inl (by rw [entries]; simp)⟩
      exact ok.consumerAt ⟨frees.1, frees.2, has⟩ (by rw [may.1]; rfl)
    · cases went
  | next => exact ok.consume went

theorem Valid.kill (thread : Thread) :
    (state.setProducer thread { state.producers thread with dead := true }).Valid usage :=
  ok.update (Perm.refl _) ⟨(ok.producers thread).pc, (ok.producers thread).held⟩

theorem Valid.killConsumer :
    Valid usage { state with consumer := { state.consumer with dead := true } } :=
  ok.setConsumer ok.consumer.family ok.consumer.threshold ok.consumer.pc rfl

theorem Valid.restart {cursor : Nat} (above : state.release ≤ cursor) (below : cursor ≤ state.head)
    (earlier : List Session) :
    Valid usage { state with
        head := cursor
        release := cursor
        consumer := {}
        popped := []
        first := cursor
        earlier := earlier } where
  first_pos := Nat.le_trans ok.first_pos (Nat.le_trans ok.first_le above)
  first_le := .refl
  release_le := .refl
  head_le := Nat.le_trans below ok.head_le
  __ := ok
  window := Nat.le_trans ok.window (Nat.add_le_add_right above _)
  reserve_le family := Nat.le_trans (ok.reserve_le family) (Nat.add_le_add_right above _)
  threshold handle := Nat.le_trans (ok.threshold handle) (Nat.add_le_add_right above _)
  producers thread :=
    (ok.producers thread).mono above (fun _ _ _ => ⟨rfl, rfl⟩) fun _ _ => id
  kept message mem above' :=
    (ok.kept message mem (above.trans above')).mono ⟨rfl, rfl⟩
  consumer := ⟨fun _ => ⟨rfl, rfl⟩, Nat.zero_le _, rfl, rfl⟩
  popped := rfl
  count := rfl

end

/-- `ProducerEndConsistent` is called when no producer is left that has reserved an entry. -/
def ProducersEnded (state : State Thread) : Prop :=
  ∀ thread, (state.producers thread).dead = true ∨
    (state.producers thread).pc = .idle ∧ (state.producers thread).held = []

theorem Valid.restoreProducers (ok : state.Valid usage) (ended : state.ProducersEnded) :
    Valid usage { state with
        reserve := state.tail
        producers := fun thread =>
          if (state.producers thread).dead then { dead := true }
          else state.producers thread } :=
  { ok with
    tail_le := .refl
    reserve_le := fun _ => ok.window
    tickets := by
      refine Tickets.none (fun thread => ?_) _
      dsimp only
      rcases ended thread with dead | ⟨idle, held⟩
      · rw [if_pos dead]
        rfl
      · split
        · rfl
        · rw [Producer.reservations, idle, held]
          rfl
    producers := fun thread => by
      dsimp only
      split
      · exact ⟨trivial, fun _ mem => absurd mem not_mem_nil⟩
      · exact (ok.producers thread).mono .refl (fun _ _ _ => ⟨rfl, rfl⟩)
          fun _ _ => id
    kept := fun message mem above => (ok.kept message mem above).mono ⟨rfl, rfl⟩
    consumer := ok.consumer.mono rfl rfl rfl .refl (fun _ _ _ => ⟨rfl, rfl⟩)
      ok.head_le }

/-- The producer side is restored when its processes have ended. -/
def Contract (state : State Thread) : Action Thread → Prop
  | .restoreProducers => state.ProducersEnded
  | .producer _ _ | .consumer _ | .kill _ | .killConsumer | .restoreConsumer _ => True

theorem Valid.step (ok : state.Valid usage) (holds : usage.ring.Holds usage.payloadSize)
    {action : Action Thread} (contract : state.Contract action)
    (went : state.step usage action = some next) : next.Valid usage := by
  cases action with
  | producer thread move =>
    simp only [State.step] at went
    split at went
    · cases went
    · exact ok.produceMove holds went
  | consumer move =>
    simp only [State.step] at went
    split at went
    · cases went
    · exact ok.consumeMove went
  | kill thread =>
    cases went
    exact ok.kill thread
  | killConsumer =>
    cases went
    exact ok.killConsumer
  | restoreConsumer fixElemLeak =>
    simp only [State.step] at went
    split at went <;> cases went
    refine ok.restart ?_ ?_ _
    · cases fixElemLeak with
      | true => exact .refl
      | false => exact ok.release_le
    · cases fixElemLeak with
      | true => exact ok.release_le
      | false => exact .refl
  | restoreProducers =>
    cases went
    exact ok.restoreProducers contract

theorem start_valid (usage : Usage Thread) (bytes : Memory) : (start usage bytes).Valid usage where
  first_pos := .refl
  first_le := .refl
  release_le := .refl
  head_le := .refl
  tail_le := .refl
  window := Nat.le_add_right _ _
  reserve_le _ := Nat.le_add_right _ _
  threshold _ := Nat.le_add_left _ _
  tickets := Tickets.none (fun _ => rfl) 1
  producers _ := ⟨trivial, fun _ mem => absurd mem not_mem_nil⟩
  numbered := rfl
  kept _ mem := absurd mem not_mem_nil
  consumer := ⟨fun _ => ⟨rfl, rfl⟩, Nat.zero_le _, rfl, rfl⟩
  popped := rfl
  count := rfl

end AdkAaf.Adk.LockFreeMsgQueue.Mpsc.State
