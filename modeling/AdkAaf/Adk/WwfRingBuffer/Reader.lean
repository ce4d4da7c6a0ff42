import AdkAaf.Adk.WwfRingBuffer.Basic
import AdkAaf.Lib.RingLaps

/-! A reader of a ring whose writer never waits. The sequence number of a slot counts
the writes completed on it, so it tells whether the payload a reader copied is the one
of its own index. -/

set_option autoImplicit false

namespace AdkAaf.Adk.WwfRingBuffer

open Function Lib State Option List

variable {Word : Type} {ring : Ring} {state : State Word}

@[simp] theorem length_payloadAt (state : State Word) (slot : Nat) :
    (state.payloadAt ring slot).length = ring.words := by
  simp [payloadAt]

variable {slot : Nat}

theorem take_payloadAt_succ {count : Nat} (inside : count < ring.words) :
    (state.payloadAt ring slot).take (count + 1) =
      (state.payloadAt ring slot).take count ++ [state.buffer slot count] := by
  rw [take_succ_eq_append_getElem (by simpa using inside)]
  simp [payloadAt]

variable {word : Nat} {value : Word}

theorem payloadAt_setWord_of_ne {other : Nat} (apart : other ≠ slot) :
    (state.setWord slot word value).payloadAt ring other = state.payloadAt ring other := by
  simp [payloadAt, setWord, update_of_ne apart]

theorem take_payloadAt_setWord (inside : word < ring.words) :
    ((state.setWord slot word value).payloadAt ring slot).take (word + 1) =
      (state.payloadAt ring slot).take word ++ [value] := by
  rw [take_payloadAt_succ inside]
  simp only [payloadAt, setWord, update_self]
  congr 1
  rw [← map_take, ← map_take]
  apply map_congr_left
  intro earlier mem
  have below : earlier < word := by
    simp only [mem_take_iff_getElem, getElem_range] at mem
    obtain ⟨pos, bound, rfl⟩ := mem
    omega
  exact update_of_ne below.ne _ _

def Stage.busy : Stage Word → Bool
  | .idle => false
  | .storing .. => true
  | .ending .. => true

def Stage.published : Stage Word → Nat
  | .idle => 0
  | .storing .. => 0
  | .ending .. => 1

def StageValid (ring : Ring) (state : State Word) : Prop :=
  match state.stage with
  | .idle => True
  | .storing payload stored =>
    payload.length = ring.words ∧ stored ≤ ring.words ∧
      (state.payloadAt ring (state.completed.length % ring.size)).take stored =
        payload.take stored
  | .ending payload slot =>
    slot = state.completed.length % ring.size ∧ state.payloadAt ring slot = payload

def ReaderValid (ring : Ring) (state : State Word) : Prop :=
  match state.reader with
  | .idle | .beginning _ _ => True
  | .copying _ start words =>
    let slot := state.head % ring.size
    start = 2 * (state.head / ring.size + 1) ∧ start ≤ state.sequence slot ∧
      words.length ≤ ring.words ∧
      (state.sequence slot = start → words = (state.payloadAt ring slot).take words.length)
  | .accepting words => state.completed[state.head]? = some words
  | .throwing _ => state.head + ring.size ≤ state.tail

/-- The count of completed writes determines every sequence number, and an index that
is complete and not being overwritten still has its payload in the ring. -/
structure Valid (ring : Ring) (state : State Word) : Prop where
  tail : state.tail = state.completed.length + state.stage.published
  sequence : ∀ slot < ring.size, state.sequence slot =
    2 * laps ring.size state.completed.length slot +
      if state.stage.busy = true ∧ slot = state.completed.length % ring.size then 1 else 0
  contents : ∀ index < state.completed.length, state.completed.length ≤ index + ring.size →
    (state.stage.busy = true → state.completed.length ≠ index + ring.size) →
    state.completed[index]? = some (state.payloadAt ring (index % ring.size))
  stage : StageValid ring state
  reader : ReaderValid ring state
  head : state.head ≤ state.completed.length
  returned : state.returned.Sublist (state.completed.take state.head)
  failures : ∀ failure ∈ state.failures, failure.mode = .read → failure.head = failure.completed

theorem valid_initial (ring : Ring) (buffer : Nat → Nat → Word) :
    Valid ring (initialState buffer) where
  tail := rfl
  sequence := by
    intro slot inside
    have none : laps ring.size (initialState buffer).completed.length slot = 0 := laps_zero inside
    rw [none]
    rfl
  contents := by
    intro i below
    exact absurd below (Nat.not_lt_zero i)
  stage := trivial
  reader := trivial
  head := Nat.le_refl 0
  returned := List.Sublist.refl []
  failures := by
    nofun

/-- The reader relies on nothing that the writer changes: sequence numbers, `tail` and
the list of completed writes grow, and an unlocked slot keeps its payload as long as its
sequence number stays. -/
theorem ReaderValid.write {after : State Word} (valid : ReaderValid ring state)
    (sameReader : after.reader = state.reader) (sameHead : after.head = state.head)
    (grows : ∀ slot, state.sequence slot ≤ after.sequence slot)
    (kept : ∀ slot, after.sequence slot = state.sequence slot → state.sequence slot % 2 = 0 →
      after.payloadAt ring slot = state.payloadAt ring slot) (tail : state.tail ≤ after.tail)
    (completed : ∀ (i : Nat) (payload : List Word), state.completed[i]? = some payload →
      after.completed[i]? = some payload) : ReaderValid ring after := by
  unfold ReaderValid at valid ⊢
  rw [sameReader, sameHead]
  cases reading : state.reader with
  | idle | beginning => trivial
  | copying mode start words =>
    rw [reading] at valid
    obtain ⟨first, low, short, copied⟩ := valid
    refine ⟨first, low.trans (grows _), short, fun same => ?_⟩
    have unmoved : state.sequence (state.head % ring.size) = start :=
      Nat.le_antisymm (same ▸ grows _) low
    rw [kept _ (same.trans unmoved.symm) (by omega)]
    exact copied unmoved
  | accepting words =>
    rw [reading] at valid
    exact completed _ _ valid
  | throwing mode =>
    rw [reading] at valid
    exact valid.trans tail

namespace Valid

theorem busy_slot (valid : Valid ring state) (busy : state.stage.busy = true) :
    state.sequence (state.completed.length % ring.size) =
      2 * laps ring.size state.completed.length (state.completed.length % ring.size) + 1 := by
  rw [valid.sequence _ (Nat.mod_lt _ ring.size_pos), if_pos ⟨busy, rfl⟩]

variable {payload : List Word}

theorem beginWrite (valid : Valid ring state) (idle : state.stage = .idle)
    (sized : payload.length = ring.words) : Valid ring (beginWrite ring state payload) := by
  have tail : ring.slotOf state.tail = state.completed.length % ring.size := by
    rw [ring.slotOf_eq, valid.tail, idle]
    rfl
  have sequence : ∀ slot, (WwfRingBuffer.beginWrite ring state payload).sequence slot =
      state.sequence slot + if slot = state.completed.length % ring.size then 1 else 0 := by
    intro slot
    simp only [WwfRingBuffer.beginWrite, setSequence, tail, update_apply]
    split
    next here => rw [here]
    next => rfl
  constructor
  · rw [show (WwfRingBuffer.beginWrite ring state payload).tail = state.tail from rfl, valid.tail,
      idle]
    rfl
  · intro slot inside
    rw [sequence, valid.sequence slot inside, idle]
    simp [Stage.busy, WwfRingBuffer.beginWrite, setSequence]
  · intro i below within _
    exact valid.contents i below within (by simp [idle, Stage.busy])
  · exact ⟨sized, Nat.zero_le _, rfl⟩
  · refine valid.reader.write rfl rfl ?_ ?_ ?_ ?_
    · intro slot
      rw [sequence]
      exact Nat.le_add_right _ _
    · exact fun _ _ _ => rfl
    · exact .refl
    · exact fun _ _ => id
  · exact valid.head
  · exact valid.returned
  · exact valid.failures

variable {stored : Nat}

section

variable (valid : Valid ring state)
include valid

theorem storeWord {word : Word} (storing : state.stage = .storing payload stored)
    (next : payload[stored]? = some word) {listed : List (List Word)} :
    Valid ring { state.setWord (ring.slotOf state.tail) stored word with
      stage := .storing payload (stored + 1), stored := listed } := by
  have busy : state.stage.busy = true := by rw [storing]; rfl
  have tail : ring.slotOf state.tail = state.completed.length % ring.size := by
    rw [ring.slotOf_eq, valid.tail, storing]
    rfl
  have stage := valid.stage
  simp only [StageValid, storing] at stage
  obtain ⟨sized, _, partly⟩ := stage
  have inside : stored < ring.words := sized ▸ (List.getElem?_eq_some_iff.mp next).1
  rw [tail]
  constructor
  · have total := valid.tail
    rw [storing] at total
    exact total
  · intro slot below
    have before := valid.sequence slot below
    rw [storing] at before
    exact before
  · intro index below within apart
    have window := Nat.lt_of_le_of_ne within (apart rfl)
    have elsewhere := mod_ne_of_window below window
    exact (valid.contents index below within fun _ => apart rfl).trans
      (congrArg some (payloadAt_setWord_of_ne elsewhere).symm)
  · refine ⟨sized, inside, ?_⟩
    have extended : payload.take (stored + 1) = payload.take stored ++ [word] := by
      rw [List.take_add_one, next]
      rfl
    rw [extended, ← partly]
    exact take_payloadAt_setWord inside
  · refine valid.reader.write rfl rfl ?_ ?_ ?_ ?_
    · exact fun _ => .refl
    · intro slot _ unlocked
      have elsewhere : slot ≠ state.completed.length % ring.size := by
        rintro rfl
        rw [valid.busy_slot busy] at unlocked
        omega
      exact payloadAt_setWord_of_ne elsewhere
    · exact .refl
    · exact fun _ _ => id
  · exact valid.head
  · exact valid.returned
  · exact valid.failures

theorem publish (storing : state.stage = .storing payload stored) (all : payload[stored]? = none) :
    Valid ring { state with
      tail := state.tail + 1, stage := .ending payload (ring.slotOf state.tail) } := by
  have tail : ring.slotOf state.tail = state.completed.length % ring.size := by
    rw [ring.slotOf_eq, valid.tail, storing]
    rfl
  have stage := valid.stage
  simp only [StageValid, storing] at stage
  obtain ⟨sized, bound, whole⟩ := stage
  have full : stored = ring.words := by
    have past := List.getElem?_eq_none_iff.mp all
    omega
  constructor
  · have total := valid.tail
    rw [storing] at total
    exact congrArg (· + 1) total
  · intro slot below
    have before := valid.sequence slot below
    rw [storing] at before
    exact before
  · intro i below within apart
    exact valid.contents i below within fun _ => apart rfl
  · refine ⟨tail, ?_⟩
    rw [full, take_of_length_le (Nat.le_of_eq (length_payloadAt _ _)),
      take_of_length_le sized.le] at whole
    rw [tail]
    exact whole
  · refine valid.reader.write rfl rfl ?_ ?_ ?_ ?_
    · exact fun _ => .refl
    · exact fun _ _ _ => rfl
    · exact Nat.le_succ _
    · exact fun _ _ => id
  · exact valid.head
  · exact valid.returned
  · exact valid.failures

theorem endWrite (ending : state.stage = .ending payload slot) :
    Valid ring { state.setSequence slot (state.sequence slot + 1) with
      stage := .idle, completed := state.completed ++ [payload] } := by
  have busy : state.stage.busy = true := by rw [ending]; rfl
  have stage := valid.stage
  simp only [StageValid, ending] at stage
  obtain ⟨here, whole⟩ := stage
  have count : (state.completed ++ [payload]).length = state.completed.length + 1 := by simp
  have sequence : ∀ other, (state.setSequence slot (state.sequence slot + 1)).sequence other =
      if other = slot then state.sequence slot + 1 else state.sequence other := by
    intro other
    exact update_apply _ _ _ _
  constructor
  · have total := valid.tail
    rw [ending] at total
    exact total.trans count.symm
  · intro other inside
    rw [show (_ : Nat) = _ from sequence other]
    rw [count]
    by_cases same : other = slot
    · rw [if_pos same, same, here, valid.busy_slot busy, laps_succ_self ring.size_pos]
      simp [Stage.busy]
      omega
    · rw [if_neg same, valid.sequence other inside, laps_succ_of_ne inside (here ▸ same)]
      simp [Stage.busy, here ▸ same]
  · intro i below within _
    rw [count] at below within
    cases Nat.lt_or_eq_of_le (Nat.le_of_lt_succ below) with
    | inl earlier =>
      rw [List.getElem?_append_left earlier]
      exact valid.contents i earlier (by omega) fun _ => by omega
    | inr newest =>
      rw [newest, List.getElem?_concat_length]
      exact congrArg some (here ▸ whole).symm
  · trivial
  · refine valid.reader.write rfl rfl ?_ ?_ ?_ ?_
    · intro other
      rw [sequence]
      split
      next same => rw [same]; exact Nat.le_succ _
      next => exact .refl
    · exact fun _ _ _ => rfl
    · exact .refl
    · intro i present listed
      rw [List.getElem?_append_left (List.getElem?_eq_some_iff.mp listed).1]
      exact listed
  · dsimp only
    rw [count]
    exact Nat.le_succ_of_le valid.head
  · have longer : (state.completed ++ [payload]).take state.head =
        state.completed.take state.head := take_append_of_le_length valid.head
    exact longer ▸ valid.returned
  · exact valid.failures

theorem setReader {reader : Reader Word}
    (readerValid : ReaderValid ring { state with reader := reader }) :
    Valid ring { state with reader := reader } :=
  { valid with reader := readerValid }

theorem sequence_of_even (inside : slot < ring.size) (even : state.sequence slot % 2 = 0) :
    state.sequence slot = 2 * laps ring.size state.completed.length slot ∧
      ¬(state.stage.busy = true ∧ slot = state.completed.length % ring.size) := by
  have formula := valid.sequence slot inside
  split at formula
  next => omega
  next free => exact ⟨formula, free⟩

theorem completed_of_sequence {i : Nat}
    (lap : state.sequence (i % ring.size) = 2 * (i / ring.size + 1)) :
    state.completed[i]? = some (state.payloadAt ring (i % ring.size)) := by
  have positive := ring.size_pos
  obtain ⟨formula, free⟩ :=
    valid.sequence_of_even (Nat.mod_lt i positive) (by rw [lap]; exact Nat.mul_mod_right _ _)
  have below : i < state.completed.length := (div_lt_laps_iff positive i).mp (by omega)
  have within : ¬i + ring.size < state.completed.length := by
    intro past
    have further := (succ_div_lt_laps_iff positive i).mpr past
    omega
  apply valid.contents i below (Nat.le_of_not_lt within)
  intro busy next
  exact free ⟨busy, by rw [next, Nat.add_mod_right]⟩

end

variable {mode : Mode}

variable {next : State Word}

section

variable (valid : Valid ring state)
include valid

theorem fail (empty : mode = .read → state.head = state.completed.length) :
    Valid ring (fail state mode) where
  __ := valid
  reader := trivial
  failures := by
    intro failure mem
    cases mem_append.mp mem with
    | inl earlier => exact valid.failures failure earlier
    | inr this =>
      cases mem_singleton.mp this
      exact empty

theorem stepBeginning {retry : Nat} : Valid ring (stepBeginning ring state mode retry) := by
  have positive := ring.size_pos
  have slot := ring.slotOf_eq state.head
  have loop := ring.loopOf_eq state.head
  unfold WwfRingBuffer.stepBeginning
  dsimp only
  rw [slot, loop]
  split
  next =>
    cases mode with
    | read => exact valid
    | tryRead =>
      dsimp only
      split
      next => exact valid.fail (by simp)
      next => exact valid.setReader trivial
  next even =>
    obtain ⟨formula, _⟩ := valid.sequence_of_even (Nat.mod_lt state.head positive) (by omega)
    split
    next same =>
      apply valid.setReader
      refine ⟨?_, .refl, Nat.zero_le _, fun _ => rfl⟩
      dsimp only
      omega
    next apart =>
      split
      next behind =>
        apply valid.fail
        intro _
        have unread : ¬state.head < state.completed.length := by
          rw [← div_lt_laps_iff positive]
          omega
        exact valid.head.antisymm (Nat.le_of_not_lt unread)
      next ahead =>
        apply valid.setReader
        have past : state.head + ring.size < state.completed.length := by
          rw [← succ_div_lt_laps_iff positive]
          omega
        have total := valid.tail
        simp only [ReaderValid]
        omega

/-- The reader was overtaken: the sequence number moved on since the copy began. -/
theorem overtaken
    (later : 2 * (state.head / ring.size + 1) < state.sequence (state.head % ring.size)) :
    state.head + ring.size ≤ state.tail := by
  have positive := ring.size_pos
  have formula := valid.sequence _ (Nat.mod_lt state.head positive)
  have total := valid.tail
  split at formula
  next writing =>
    -- the slot is being overwritten by the write one lap further on
    have lap := laps_self positive state.completed.length
    rw [← writing.2] at lap
    have quotient := Nat.div_add_mod' state.completed.length ring.size
    have own := Nat.div_add_mod' state.head ring.size
    have reached : state.head / ring.size + 1 ≤ state.completed.length / ring.size := by omega
    have scaled := Nat.mul_le_mul_right ring.size reached
    rw [Nat.succ_mul] at scaled
    omega
  next =>
    have beyond : state.head + ring.size < state.completed.length := by
      rw [← succ_div_lt_laps_iff positive]
      omega
    omega

theorem stepReader (went : stepReader ring state = some next) : Valid ring next := by
  have reader := valid.reader
  unfold ReaderValid at reader
  unfold WwfRingBuffer.stepReader at went
  rw [ring.slotOf_eq] at went
  cases reading : state.reader with
  | idle => simp [reading] at went
  | beginning mode retry =>
    simp only [reading, some.injEq] at went
    exact went ▸ valid.stepBeginning
  | copying mode start words =>
    rw [reading] at reader
    obtain ⟨first, low, short, copied⟩ := reader
    simp only [reading] at went
    split at went
    next more =>
      cases went
      apply valid.setReader
      refine ⟨first, low, by simpa using Nat.succ_le_of_lt more, fun same => ?_⟩
      rw [length_append, length_singleton, take_payloadAt_succ more]
      exact congrArg (· ++ _) (copied same)
    next full =>
      have whole : words.length = ring.words := by omega
      split at went <;> cases went
      next same =>
        apply valid.setReader
        have payload := valid.completed_of_sequence (same.symm.trans first)
        have exact := copied same.symm
        rw [whole, take_of_length_le (Nat.le_of_eq (length_payloadAt _ _))] at exact
        rw [← exact] at payload
        exact payload
      · apply valid.setReader
        apply valid.overtaken
        omega
  | accepting words =>
    rw [reading] at reader
    simp only [reading] at went
    cases went
    have below := (List.getElem?_eq_some_iff.mp reader).1
    refine { valid with reader := trivial, head := below, returned := ?_ }
    rw [List.take_add_one, reader]
    exact valid.returned.append (List.Sublist.refl _)
  | throwing mode =>
    rw [reading] at reader
    simp only [reading] at went
    cases went
    have positive := ring.size_pos
    have total := valid.tail
    have published : state.stage.published ≤ 1 := by
      cases state.stage <;> simp [Stage.published]
    have forward : state.head ≤ state.tail - ring.size + ring.size / 4 := by omega
    refine { valid with reader := trivial, head := ?_, returned := ?_ }
    · dsimp only
      omega
    · exact valid.returned.trans (take_sublist_take_left forward)

theorem stepWriter (went : stepWriter ring state = some next) : Valid ring next := by
  unfold WwfRingBuffer.stepWriter at went
  split at went
  next => cases went
  next storing =>
    split at went
    next word =>
      split at went
      all_goals
        cases went
        exact valid.storeWord storing word
    next all =>
      cases went
      exact valid.publish storing all
  next ending =>
    cases went
    exact valid.endWrite ending

theorem step_valid {action : Action Word} (went : step ring state action = some next) :
    Valid ring next := by
  cases action with
  | write payload =>
    simp only [step] at went
    split at went
    next may =>
      cases stage : state.stage with
      | idle =>
        simp only [stage, some.injEq] at went
        exact went ▸ valid.beginWrite stage may.2
      | storing | ending => simp [stage] at went
    next => cases went
  | writer =>
    simp only [step] at went
    split at went
    next => exact valid.stepWriter went
    next => cases went
  | call mode =>
    simp only [step] at went
    split at went <;> cases went
    exact valid.setReader trivial
  | reader => exact valid.stepReader went

end

end Valid

variable {next : State Word}

theorem stepWriter_head (went : stepWriter ring state = some next) : next.head = state.head := by
  unfold stepWriter at went
  split at went
  next => cases went
  next =>
    split at went
    next => split at went <;> cases went <;> rfl
    next => cases went; rfl
  next => cases went; rfl

theorem stepBeginning_head (state : State Word) (mode : Mode) (retry : Nat) :
    (stepBeginning ring state mode retry).head = state.head := by
  unfold stepBeginning
  dsimp only
  split
  next =>
    cases mode with
    | read => rfl
    | tryRead =>
      dsimp only
      split <;> rfl
  next =>
    split
    next => rfl
    next => split <;> rfl

theorem Valid.head_le_of_step {action : Action Word} (valid : Valid ring state)
    (went : step ring state action = some next) : state.head ≤ next.head := by
  cases action with
  | write payload =>
    simp only [step] at went
    split at went
    next =>
      split at went
      next => cases went; exact .refl
      next => cases went
    next => cases went
  | writer =>
    simp only [step] at went
    split at went
    next => exact (stepWriter_head went).symm.le
    next => cases went
  | call mode =>
    simp only [step] at went
    split at went
    next => cases went; exact .refl
    next => cases went
  | reader =>
    simp only [step, WwfRingBuffer.stepReader] at went
    have reader := valid.reader
    unfold ReaderValid at reader
    cases reading : state.reader with
    | idle => simp [reading] at went
    | beginning mode retry =>
      simp only [reading, some.injEq] at went
      apply Nat.le_of_eq
      rw [← went, stepBeginning_head]
    | copying mode start words =>
      simp only [reading] at went
      split at went
      next => cases went; exact .refl
      next => split at went <;> cases went <;> exact .refl
    | accepting words =>
      simp only [reading, some.injEq] at went
      rw [← went]
      exact Nat.le_succ _
    | throwing mode =>
      rw [reading] at reader
      simp only [reading, some.injEq] at went
      rw [← went]
      dsimp only
      omega

theorem Valid.head_le_of_execute {actions : List (Action Word)} {final : State Word}
    (valid : Valid ring state) (ran : execute (step ring) state actions = some final) :
    state.head ≤ final.head := by
  induction actions generalizing state with
  | nil =>
    cases ran
    exact .refl
  | cons action rest ih =>
    obtain ⟨next, went, continued⟩ := execute_cons.mp ran
    exact (valid.head_le_of_step went).trans (ih (valid.step_valid went) continued)

/-- In every run the payloads returned are completed writes, in order and each at most
once; `head` only grows and stays behind `tail`; and `Read` fails only when everything
completed has been passed. -/
theorem reads_follow_completed_writes (ring : Ring) (buffer : Nat → Nat → Word)
    {first second : List (Action Word)} {middle final : State Word}
    (reached : execute (step ring) (initialState buffer) first = some middle)
    (continued : execute (step ring) middle second = some final) :
    final.returned.Sublist final.completed ∧ middle.head ≤ final.head ∧ final.head ≤ final.tail ∧
      ∀ failure ∈ final.failures, failure.mode = .read → failure.head = failure.completed := by
  have between : Valid ring middle :=
    invariant_of_execute (fun valid stepped => valid.step_valid stepped)
      (valid_initial ring buffer) reached
  have valid : Valid ring final :=
    invariant_of_execute (fun valid stepped => valid.step_valid stepped) between continued
  have total := valid.tail
  refine ⟨valid.returned.trans (take_sublist _ _), between.head_le_of_execute continued, ?_,
    valid.failures⟩
  exact valid.head.trans (total ▸ Nat.le_add_right _ _)

/-- Two entries of two words. The reader has copied one word of the first payload. -/
def overtakenStart : List (Action Nat) :=
  flatten [[.write [1, 1]], replicate 4 .writer, [.call .read, .reader, .reader]]

/-- Two more writes overtake it; its next attempts return what is left. -/
def overtakenRest : List (Action Nat) :=
  flatten [[.write [2, 2]], replicate 4 .writer, [.write [3, 3]],
    replicate 4 .writer, replicate 8 .reader, [.call .read], replicate 5 .reader,
    [.call .read, .reader]]

theorem overtaken_reads_follow_completed_writes : ∃ middle final : State Nat,
      execute (step ⟨1, 2, by decide⟩) (initialState fun _ _ => 0) overtakenStart = some middle ∧
      execute (step ⟨1, 2, by decide⟩) middle overtakenRest = some final ∧
      final.returned = [[2, 2], [3, 3]] ∧ final.failures.length = 1 ∧
      final.returned.Sublist final.completed ∧ middle.head ≤ final.head ∧ final.head ≤ final.tail ∧
      ∀ failure ∈ final.failures, failure.mode = .read → failure.head = failure.completed := by
  have checked : ∃ final, execute (step ⟨1, 2, by decide⟩) (initialState fun _ _ => 0)
      (overtakenStart ++ overtakenRest) = some final ∧
        final.returned = [[2, 2], [3, 3]] ∧ final.failures.length = 1 :=
    execute_check (by decide +kernel)
  obtain ⟨final, ran, payloads, failed⟩ := checked
  obtain ⟨middle, reached, continued⟩ := execute_append.mp ran
  exact ⟨middle, final, reached, continued, payloads, failed,
    reads_follow_completed_writes _ _ reached continued⟩

end AdkAaf.Adk.WwfRingBuffer
