import AdkAaf.Adk.LockFreeMsgQueue.Mpsc.Consuming

/-! What a call does that is not interrupted: `AllocEntry` and `WaitEntry` succeed when there is
room and when there is a message, `PostEntry` when it is its turn, and `FreeEntry` in order. -/

set_option autoImplicit false

namespace AdkAaf.Adk.LockFreeMsgQueue.Mpsc.State

open Function List

variable {Thread : Type} [DecidableEq Thread] {usage : Usage Thread}
variable {state next : State Thread} {thread : Thread} {result : State Thread → Prop}

/-- A thread goes on alone until its call returns with this result. -/
def Alone (usage : Usage Thread) (action : Action Thread) (result : State Thread → Prop)
    (state : State Thread) : Prop :=
  ∃ count final, Lib.execute (step usage) state (replicate count action) = some final ∧
    result final

namespace Alone

variable {action : Action Thread}

theorem now (holds : result state) : Alone usage action result state :=
  ⟨0, state, rfl, holds⟩

theorem after (went : state.step usage action = some next)
    (later : Alone usage action result next) : Alone usage action result state := by
  obtain ⟨count, final, ran, holds⟩ := later
  exact ⟨count + 1, final, Lib.execute_cons.mpr ⟨next, went, ran⟩, holds⟩

theorem mono {other : State Thread → Prop} (returns : Alone usage action result state)
    (implied : ∀ final, result final → other final) : Alone usage action other state := by
  obtain ⟨count, final, ran, holds⟩ := returns
  exact ⟨count, final, ran, implied final holds⟩

theorem produced (alive : (state.producers thread).dead = false)
    (went : state.produce usage thread 0 = some next)
    (later : Alone usage (.producer thread (.next 0)) result next) :
    Alone usage (.producer thread (.next 0)) result state := by
  refine after ?_ later
  rw [step, alive]
  exact went

theorem consumed (alive : state.consumer.dead = false) (went : state.consume usage = some next)
    (later : Alone usage (.consumer .next) result next) :
    Alone usage (.consumer .next) result state := by
  refine after ?_ later
  rw [step, alive]
  exact went

end Alone

@[simp] theorem producers_goto (pc : ProducerPc) :
    (state.goto thread pc).producers thread = { state.producers thread with pc := pc } :=
  update_self ..

@[simp] theorem goto_goto (pc other : ProducerPc) :
    (state.goto thread pc).goto thread other = state.goto thread other := by
  simp [goto, setProducer]

structure Allocated (thread : Thread) (state final : State Thread) : Prop where
  idle : (final.producers thread).pc = .idle
  reserve : final.reserve = state.reserve + 1
  held : (final.producers thread).held =
    (state.producers thread).held ++ [{ index := state.reserve }]

structure Refused (thread : Thread) (state final : State Thread) : Prop where
  idle : (final.producers thread).pc = .idle
  reserve : final.reserve = state.reserve
  held : (final.producers thread).held = (state.producers thread).held

theorem alone_swap (alive : (state.producers thread).dead = false) :
    Alone usage (.producer thread (.next 0)) (Allocated thread state)
      (state.goto thread (.swap state.reserve)) := by
  have swapped : (state.goto thread (.swap state.reserve)).produce usage thread 0 =
      some { state.goto thread (.setPos state.reserve) with reserve := state.reserve + 1 } := by
    simp only [produce, producers_goto, goto_goto]
    exact if_pos rfl
  refine .produced (by simpa using alive) swapped ?_
  apply Alone.produced
  · simpa using alive
  · simp only [produce, producers_goto]
    rfl
  · apply Alone.now
    constructor <;> simp [grant, setProducer]

theorem alone_reserved (plain : usage.family = .plain)
    (alive : (state.producers thread).dead = false) (pc : ProducerPc) :
    Alone usage (.producer thread (.next 0)) (Allocated thread state)
      ((state.goto thread pc).reserved usage thread state.reserve) := by
  rw [State.reserved, plain]
  rw [goto_goto]
  exact alone_swap alive

theorem alone_alloc (plain : usage.family = .plain) (alive : (state.producers thread).dead = false)
    (idle : (state.producers thread).pc = .idle)
    (threshold : ∀ handle, state.threshold handle ≤ state.limit usage) :
    ∃ next, state.step usage (.producer thread .alloc) = some next ∧
      Alone usage (.producer thread (.next 0))
        (if state.reserve < state.limit usage then Allocated thread state
          else Refused thread state) next := by
  refine ⟨state.goto thread .load, ?_, ?_⟩
  · simp [step, alive, produceMove, idle, Bool.false_eq_true]
  have alive_ : ∀ pc, ((state.goto thread pc).producers thread).dead = false := by
    intro pc
    simpa using alive
  have loaded : (state.goto thread .load).produce usage thread 0 =
      some (state.goto thread (.check state.reserve)) := by
    simp only [produce, producers_goto, plain]
    rw [goto_goto]
    rfl
  refine .produced (alive_ _) loaded ?_
  by_cases below : state.reserve < state.threshold (usage.handle thread)
  · rw [if_pos (below.trans_le (threshold _))]
    refine .produced (alive_ _) ?_ (alone_reserved plain alive (.check state.reserve))
    simp only [produce, producers_goto]
    exact if_neg (Nat.not_le_of_lt below)
  -- the handle reads `release` again
  have reading : (state.goto thread (.check state.reserve)).produce usage thread 0 =
      some (state.goto thread (.readRelease state.reserve)) := by
    simp only [produce, producers_goto, goto_goto]
    exact if_pos (Nat.le_of_not_lt below)
  have read : (state.goto thread (.readRelease state.reserve)).produce usage thread 0 =
      some (state.goto thread (.store state.reserve (state.limit usage))) := by
    simp only [produce, producers_goto, goto_goto]
    rfl
  let cached : State Thread := { state with
      threshold := update state.threshold (usage.handle thread) (state.limit usage) }
  have stored : (state.goto thread (.store state.reserve (state.limit usage))).produce usage
      thread 0 = some (cached.goto thread (.recheck state.reserve)) := by
    simp only [produce, producers_goto, goto_goto]
    rfl
  have current : (cached.goto thread (.recheck state.reserve)).threshold (usage.handle thread) =
      state.limit usage := update_self ..
  refine .produced (alive_ _) reading (.produced (alive_ _) read (.produced (alive_ _) stored ?_))
  split
  next room =>
    have allocated := @alone_reserved _ _ usage cached thread plain alive (.recheck state.reserve)
    refine .produced (by simpa using alive) ?_ (allocated.mono fun final holds => ?_)
    · simp only [produce, producers_goto, current]
      exact if_neg (Nat.not_le_of_lt room)
    · exact { holds with }
  next room =>
    apply Alone.produced
    · simpa using alive
    · simp only [produce, producers_goto, current, plain, goto_goto]
      exact if_pos (Nat.le_of_not_lt room)
    · apply Alone.now
      constructor <;> simp [cached, goto, setProducer]

structure Published (thread : Thread) (message : Message) (state final : State Thread) :
    Prop where
  idle : (final.producers thread).pc = .idle
  tail : final.tail = state.tail + 1
  posted : final.posted = state.posted ++ [(thread, message)]

theorem Valid.alone_post (ok : state.Valid usage) (plain : usage.family = .plain)
    (alive : (state.producers thread).dead = false)
    (idle : (state.producers thread).pc = .idle) {payload : List UInt8}
    (held : { index := state.tail, payload := some payload } ∈ (state.producers thread).held) :
    ∃ next, state.step usage (.producer thread (.post state.tail)) = some next ∧
      Alone usage (.producer thread (.next 0))
        (Published thread { index := state.tail, payload := payload } state) next := by
  have distinct := ok.tickets.nodup thread
  rw [Producer.reservations, idle] at distinct
  have found : (state.producers thread).held.find? (fun entry => entry.index = state.tail) =
      some { index := state.tail, payload := some payload } := by
    obtain ⟨entry, found⟩ : ∃ entry,
        (state.producers thread).held.find? (fun entry => entry.index = state.tail) =
          some entry := by
      rw [← Option.isSome_iff_exists, find?_isSome]
      exact ⟨_, held, decide_eq_true rfl⟩
    have same : entry.index = state.tail := by simpa using find?_some found
    have equal := inj_on_of_nodup_map distinct (mem_of_find?_eq_some found) held same
    rw [found, equal]
  have pos := ((ok.producers thread).held _ held).ready.pos (by rw [plain]; decide)
  let message : Message := { index := state.tail, payload := payload }
  let started : State Thread := state.setProducer thread { state.producers thread with
      pc := .readPos message
      held := (state.producers thread).held.erase
        { index := state.tail, payload := some payload } }
  have own : ∀ pc, (started.goto thread pc).producers thread = { state.producers thread with
        pc := pc
        held := (state.producers thread).held.erase
          { index := state.tail, payload := some payload } } := by
    intro pc
    simp [started, State.setProducer]
  refine ⟨started, ?_, ?_⟩
  · rw [State.step, if_neg (by rw [alive]; exact Bool.false_ne_true)]
    simp only [State.produceMove, idle, if_true, found, plain]
    rfl
  · have read : started.produce usage thread 0 =
        some (started.goto thread (.wait message state.tail)) := by
      simp only [State.produce, started, State.setProducer, update_self, message]
      rw [pos]
    have waited : (started.goto thread (.wait message state.tail)).produce usage thread 0 =
        some (started.goto thread (.publish message state.tail)) := by
      simp only [State.produce, own, plain, goto_goto]
      exact if_pos rfl
    refine .produced (by simpa [started, State.setProducer] using alive) read
      (.produced (by rw [own]; exact alive) waited ?_)
    apply Alone.produced
    · rw [own]
      exact alive
    · simp only [State.produce, own, goto_goto]
      rfl
    · apply Alone.now
      constructor
      · simp
      all_goals rfl

structure Waited (usage : Usage Thread) (state final : State Thread) : Prop where
  idle : final.consumer.pc = .idle
  head : final.head = state.head + 1
  held : final.consumer.held = state.consumer.held ++ [state.head]
  popped : final.popped =
    state.popped ++ [{ index := state.head, payload := state.payload usage state.head }]

structure Empty (state final : State Thread) : Prop where
  idle : final.consumer.pc = .idle
  head : final.head = state.head
  held : final.consumer.held = state.consumer.held
  popped : final.popped = state.popped

theorem alone_take (alive : state.consumer.dead = false) :
    Alone usage (.consumer .next) (Waited usage state)
      (state.setConsumer (.take .wait state.head)) := by
  apply Alone.consumed
  · exact alive
  · simp only [consume]
    rfl
  apply Alone.consumed
  · exact alive
  · simp only [consume, setConsumer]
    rfl
  · apply Alone.now
    constructor <;> rfl

section

variable (ok : state.Valid usage) (plain : usage.family = .plain)
  (alive : state.consumer.dead = false) (idle : state.consumer.pc = .idle)
include ok plain alive idle

theorem Valid.alone_wait (none : state.consumer.peeked = none) :
    ∃ next, state.step usage (.consumer (.start .wait)) = some next ∧ Alone usage (.consumer .next)
        (if state.head < state.tail then Waited usage state else Empty state) next := by
  refine ⟨state.setConsumer (.load .wait), ?_, ?_⟩
  · simp [State.step, alive, State.consumeMove, idle, plain, none]
  have loaded : (state.setConsumer (.load .wait)).consume usage =
      some (state.setConsumer (.check .wait state.head)) := rfl
  refine .consumed alive loaded ?_
  by_cases cached : state.head < state.consumer.headThreshold
  · rw [if_pos (cached.trans_le ok.consumer.threshold)]
    refine .consumed alive ?_ (alone_take alive)
    exact if_neg (Nat.not_le_of_lt cached)
  have reading : (state.setConsumer (.check .wait state.head)).consume usage =
      some (state.setConsumer (.readTail .wait state.head)) := by
    exact if_pos (Nat.le_of_not_lt cached)
  refine .consumed alive reading ?_
  let fresh : State Thread :=
    { state with consumer := { state.consumer with headThreshold := state.tail } }
  split
  next below =>
    have waited : Alone usage (.consumer .next) (Waited usage fresh)
        (fresh.setConsumer (.take .wait fresh.head)) := alone_take alive
    refine .consumed alive ?_ (waited.mono fun final holds => ?_)
    · simp only [State.consume, State.setConsumer, ge_iff_le, if_neg (Nat.not_le_of_lt below)]
      rfl
    · exact { holds with }
  next below =>
    apply Alone.consumed
    · exact alive
    · simp only [State.consume, State.setConsumer, ge_iff_le, if_pos (Nat.le_of_not_lt below)]
      rfl
    · apply Alone.now
      constructor <;> rfl

structure Freed (state final : State Thread) : Prop where
  idle : final.consumer.pc = .idle
  release : final.release = state.release + 1
  held : final.consumer.held = state.consumer.held.tail

theorem Valid.alone_free (none : state.consumer.peeked = none) (held : state.consumer.held ≠ [])
    (ordered : Bool) :
    ∃ next, state.step usage (.consumer (.free ordered)) = some next ∧
      Alone usage (.consumer .next) (Freed state) next := by
  have frees : Frees state.consumer := .inl held
  have has := ok.consumerPc idle
  have pos := ok.pos_eq frees (has.release_lt frees ok.head_le)
  have oldest : state.consumer.held.head? = some state.release := by
    have numbered := has.1
    rw [numbered]
    cases entries : state.consumer.held with
    | nil => exact absurd entries held
    | cons first rest => rw [length_cons, range'_succ, head?_cons]
  refine ⟨state.setConsumer (.readPos state.release ordered), ?_, ?_⟩
  · simp only [State.step, alive, State.consumeMove, idle, plain, none, oldest, Option.none_or]
    rfl
  have released : Alone usage (.consumer .next) (Freed state)
      (state.setConsumer (.setRelease state.release)) := by
    apply Alone.consumed
    · exact alive
    · simp only [State.consume, State.setConsumer]
      rfl
    · apply Alone.now
      constructor <;> rfl
  have read : (state.setConsumer (.readPos state.release ordered)).consume usage =
      some (state.freeing state.release ordered) := by
    simp only [State.consume, State.setConsumer, pos]
    split
    · next i found =>
      rw [none] at found
      cases found
    · rfl
  refine .consumed alive read ?_
  cases ordered with
  | true => exact released
  | false =>
    refine .consumed alive ?_ released
    simp [State.consume, State.freeing, State.setConsumer, Bool.false_eq_true]

end

end AdkAaf.Adk.LockFreeMsgQueue.Mpsc.State
