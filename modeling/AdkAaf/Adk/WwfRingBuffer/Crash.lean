import AdkAaf.Adk.WwfRingBuffer.Reader

/-! Death of the writer process and recovery by `ShareWWFRingBuffer::Create`, which
attaches to the ring and rolls back the sequence number of one slot, that of `tail`. -/

set_option autoImplicit false

namespace AdkAaf.Adk.WwfRingBuffer

open Function Lib Option List

inductive CrashAction (Word : Type) where
  | run (action : Action Word)
  | crash
  | create

variable {Word : Type}

/-- `RollBack` on the entry of `tail`; the new writer has no write under way. -/
def rollBack (ring : Ring) (state : State Word) : State Word :=
  let slot := ring.slotOf state.tail
  { state.setSequence slot (state.sequence slot >>> 1 <<< 1) with
    alive := true
    stage := .idle }

/-- The stage of a dead writer is the one in which it died. -/
def crashStep (ring : Ring) (state : State Word) : CrashAction Word → Option (State Word)
  | .run action => step ring state action
  | .crash => if state.alive = true then some { state with alive := false } else none
  | .create => if state.alive = true then none else some (rollBack ring state)

/-- A reader is copying the payload that the entry of `tail` had before this write. -/
def copiesOld (ring : Ring) (state : State Word) : Bool :=
  match state.reader with
  | .copying _ start _ =>
    ring.slotOf state.head == ring.slotOf state.tail &&
      start + 1 == state.sequence (ring.slotOf state.tail)
  | _ => false

/-- The writer dies where `RollBack` repairs the ring: outside a write; before its first
payload store; on the first lap of the slot, before `tail` moves; or between its last
payload store and the move of `tail`, unless a reader is copying the old payload. -/
def HarmlessAt (ring : Ring) (state : State Word) : Stage Word → Prop
  | .idle => True
  | .storing _ stored =>
    stored = 0 ∨ state.sequence (ring.slotOf state.tail) = 1 ∨
      stored = ring.words ∧ copiesOld ring state = false
  | .ending _ _ => False

instance harmlessAtDecidable (ring : Ring) (state : State Word) :
    ∀ stage, Decidable (HarmlessAt ring state stage)
  | .idle => inferInstanceAs (Decidable True)
  | .storing _ _ => inferInstanceAs (Decidable (_ ∨ _ ∨ _))
  | .ending _ _ => inferInstanceAs (Decidable False)

def HarmlessCrash (ring : Ring) (state : State Word) : CrashAction Word → Prop
  | .run _ => True
  | .crash => HarmlessAt ring state state.stage
  | .create => True

instance harmlessCrashDecidable (ring : Ring) (state : State Word) :
    ∀ action, Decidable (HarmlessCrash ring state action)
  | .run _ => inferInstanceAs (Decidable True)
  | .crash => inferInstanceAs (Decidable (HarmlessAt ring state state.stage))
  | .create => inferInstanceAs (Decidable True)

/-- Every sequence number is even while no write is under way, and every payload
returned was stored completely. -/
def Recovered (state : State Word) : Prop :=
  (state.alive = true → state.stage = .idle → ∀ slot, state.sequence slot % 2 = 0) ∧
    ∀ payload ∈ state.returned, payload ∈ state.stored

variable {ring : Ring} {state : State Word}

def busySlot (ring : Ring) (state : State Word) : Option Nat :=
  match state.stage with
  | .idle => none
  | .storing _ _ => some (ring.slotOf state.tail)
  | .ending _ slot => some slot

/-- The payload of the slot is neither that of one write nor of another. -/
def Mixed (ring : Ring) (state : State Word) (slot : Nat) : Prop :=
  match state.stage with
  | .idle | .ending _ _ => False
  | .storing _ stored => slot = ring.slotOf state.tail ∧ 0 < stored ∧ stored < ring.words

/-- The slot still has the payload it had at sequence number `start`: nobody has begun
to write it, or the write has stored nothing yet, or it died harmlessly. -/
def Untouched (state : State Word) (slot start : Nat) : Prop :=
  state.sequence slot = start ∨
    state.sequence slot = start + 1 ∧
      (state.alive = false ∨ ∃ payload, state.stage = .storing payload 0)

def CopySound (ring : Ring) (state : State Word) : Prop :=
  match state.reader with
  | .idle | .beginning _ _ | .throwing _ => True
  | .copying _ start words =>
    let slot := ring.slotOf state.head
    2 ≤ start ∧ start % 2 = 0 ∧ start ≤ state.sequence slot ∧ words.length ≤ ring.words ∧
      (Untouched state slot start → words = (state.payloadAt ring slot).take words.length)
  | .accepting words => words ∈ state.stored

def WriteSound (ring : Ring) (state : State Word) : Prop :=
  match state.stage with
  | .idle => True
  | .storing payload stored =>
    payload.length = ring.words ∧ stored ≤ ring.words ∧
      (state.payloadAt ring (ring.slotOf state.tail)).take stored = payload.take stored ∧
      (stored = ring.words → payload ∈ state.stored) ∧
      (state.alive = false →
        stored = 0 ∨ state.sequence (ring.slotOf state.tail) = 1 ∨ stored = ring.words)
  | .ending _ slot => state.alive = true ∧ state.payloadAt ring slot ∈ state.stored

structure Sound (ring : Ring) (state : State Word) : Prop where
  parity : ∀ slot, state.sequence slot % 2 = if busySlot ring state = some slot then 1 else 0
  contents : ∀ slot, 2 ≤ state.sequence slot → ¬Mixed ring state slot →
    state.payloadAt ring slot ∈ state.stored
  write : WriteSound ring state
  copy : CopySound ring state
  returned : ∀ payload ∈ state.returned, payload ∈ state.stored

theorem sound_initial (ring : Ring) (buffer : Nat → Nat → Word) :
    Sound ring (initialState buffer) where
  parity := by
    intro slot
    rfl
  contents := by
    intro slot written
    exact absurd written (by simp [initialState])
  write := trivial
  copy := trivial
  returned := by
    nofun

theorem CopySound.transfer {after : State Word} (copy : CopySound ring state)
    (sameReader : after.reader = state.reader) (sameHead : after.head = state.head)
    (stored : ∀ payload ∈ state.stored, payload ∈ after.stored)
    (keeps : ∀ mode start words, state.reader = .copying mode start words → 2 ≤ start →
      start % 2 = 0 → start ≤ state.sequence (ring.slotOf state.head) →
      start ≤ after.sequence (ring.slotOf state.head) ∧
        (Untouched after (ring.slotOf state.head) start →
          Untouched state (ring.slotOf state.head) start ∧
            after.payloadAt ring (ring.slotOf state.head) =
              state.payloadAt ring (ring.slotOf state.head))) : CopySound ring after := by
  unfold CopySound at copy ⊢
  rw [sameReader, sameHead]
  cases reading : state.reader with
  | idle | beginning | throwing => trivial
  | accepting words =>
    rw [reading] at copy
    exact stored words copy
  | copying mode start words =>
    rw [reading] at copy
    obtain ⟨first, aligned, low, short, copied⟩ := copy
    obtain ⟨lower, untouched⟩ := keeps mode start words reading first aligned low
    refine ⟨first, aligned, lower, short, fun still => ?_⟩
    obtain ⟨before, same⟩ := untouched still
    rw [same]
    exact copied before

namespace Sound

variable {slot : Nat}

theorem even_of_not_busy (sound : Sound ring state) (free : busySlot ring state ≠ some slot) :
    state.sequence slot % 2 = 0 := by
  rw [sound.parity, if_neg free]

variable {payload : List Word}

theorem beginWrite (sound : Sound ring state) (idle : state.stage = .idle)
    (sized : payload.length = ring.words) : Sound ring (beginWrite ring state payload) := by
  have sequence : ∀ slot, (WwfRingBuffer.beginWrite ring state payload).sequence slot =
      if slot = ring.slotOf state.tail then state.sequence slot + 1 else state.sequence slot := by
    intro slot
    simp only [WwfRingBuffer.beginWrite, State.setSequence, update_apply]
    split
    next here => rw [here]
    next => rfl
  have even : ∀ slot, state.sequence slot % 2 = 0 := by
    intro slot
    exact sound.even_of_not_busy (by simp [busySlot, idle])
  constructor
  · intro slot
    rw [sequence]
    simp only [busySlot, WwfRingBuffer.beginWrite, State.setSequence, some.injEq]
    have before := even slot
    split
    next here => rw [if_pos here.symm]; omega
    next apart => rw [if_neg fun same => apart same.symm]; exact before
  · intro slot written _
    have before := even slot
    apply sound.contents slot
    · rw [sequence] at written
      split at written <;> omega
    · simp [Mixed, idle]
  · refine ⟨sized, Nat.zero_le _, rfl, fun none => ?_, fun _ => .inl rfl⟩
    exact absurd ring.words_pos (by omega)
  · refine sound.copy.transfer rfl rfl (fun _ => id) ?_
    intro _ start _ _ _ aligned low
    have before := even (ring.slotOf state.head)
    have now := sequence (ring.slotOf state.head)
    refine ⟨by split at now <;> omega, fun untouched => ⟨.inl ?_, rfl⟩⟩
    cases untouched with
    | inl same => split at now <;> omega
    | inr begun =>
      split at now <;> omega
  · exact sound.returned

variable {stored : Nat}

section

variable (sound : Sound ring state)
include sound

theorem storeWord (alive : state.alive = true) {word : Word}
    (storing : state.stage = .storing payload stored) (next : payload[stored]? = some word)
    {listed : List (List Word)} (kept : ∀ payload ∈ state.stored, payload ∈ listed)
    (last : stored + 1 = ring.words → payload ∈ listed) :
    Sound ring { state.setWord (ring.slotOf state.tail) stored word with
      stage := .storing payload (stored + 1), stored := listed } := by
  have write := sound.write
  simp only [WriteSound, storing] at write
  obtain ⟨sized, _, partly, _⟩ := write
  have inside : stored < ring.words := sized ▸ (List.getElem?_eq_some_iff.mp next).1
  have extended : payload.take (stored + 1) = payload.take stored ++ [word] := by
    rw [List.take_add_one, next]
    rfl
  have begun : ((state.setWord (ring.slotOf state.tail) stored word).payloadAt ring
      (ring.slotOf state.tail)).take (stored + 1) = payload.take (stored + 1) := by
    rw [extended, ← partly]
    exact take_payloadAt_setWord inside
  have locked : state.sequence (ring.slotOf state.tail) % 2 = 1 := by
    rw [sound.parity, busySlot, storing]
    exact if_pos rfl
  constructor
  · intro slot
    have parity := sound.parity slot
    rw [busySlot, storing] at parity
    exact parity
  · intro slot written pure
    by_cases here : slot = ring.slotOf state.tail
    · -- not mixed, so this was the last word
      have complete : stored + 1 = ring.words := by
        have not_mixed : ¬(slot = ring.slotOf state.tail ∧ 0 < stored + 1 ∧
          stored + 1 < ring.words) := pure
        omega
      rw [complete, take_of_length_le (Nat.le_of_eq (length_payloadAt _ _)),
        take_of_length_le sized.le] at begun
      subst here
      exact (congrArg (· ∈ listed) begun).mpr (last complete)
    · have same : (state.setWord (ring.slotOf state.tail) stored word).payloadAt ring slot =
          state.payloadAt ring slot := payloadAt_setWord_of_ne here
      have before := sound.contents slot written (by simp [Mixed, storing, here])
      exact kept _ ((congrArg (· ∈ state.stored) same).mpr before)
  · exact ⟨sized, inside, begun, last, fun dead => absurd (alive.symm.trans dead) (by simp)⟩
  · refine sound.copy.transfer rfl rfl kept ?_
    intro _ start _ _ _ aligned low
    refine ⟨low, fun untouched => ?_⟩
    have unlocked : state.sequence (ring.slotOf state.head) = start := by
      cases untouched with
      | inl same => exact same
      | inr begun =>
        obtain ⟨_, dead | ⟨_, storing⟩⟩ := begun
        · exact absurd (alive.symm.trans dead) (by simp)
        · simp at storing
    have elsewhere : ring.slotOf state.head ≠ ring.slotOf state.tail := by
      intro here
      rw [here] at unlocked
      omega
    exact ⟨.inl unlocked, payloadAt_setWord_of_ne elsewhere⟩
  · exact fun payload mem => kept _ (sound.returned payload mem)

theorem publish (alive : state.alive = true) (storing : state.stage = .storing payload stored)
    (all : payload[stored]? = none) :
    Sound ring { state with
      tail := state.tail + 1, stage := .ending payload (ring.slotOf state.tail) } := by
  have write := sound.write
  simp only [WriteSound, storing] at write
  obtain ⟨sized, bound, whole, complete, _⟩ := write
  have full : stored = ring.words := by
    have past := List.getElem?_eq_none_iff.mp all
    omega
  rw [full, take_of_length_le (Nat.le_of_eq (length_payloadAt _ _)),
    take_of_length_le sized.le] at whole
  constructor
  · intro slot
    have parity := sound.parity slot
    rw [busySlot, storing] at parity
    exact parity
  · intro slot written _
    apply sound.contents slot written
    simp only [Mixed, storing]
    omega
  · exact ⟨alive, (congrArg (· ∈ state.stored) whole).mpr (complete full)⟩
  · refine sound.copy.transfer rfl rfl (fun _ => id) ?_
    intro _ start _ _ _ _ low
    refine ⟨low, fun untouched => ⟨?_, rfl⟩⟩
    cases untouched with
    | inl same => exact .inl same
    | inr begun =>
      obtain ⟨_, dead | ⟨_, storing⟩⟩ := begun
      · exact absurd (alive.symm.trans dead) (by simp)
      · cases storing
  · exact sound.returned

theorem endWrite (ending : state.stage = .ending payload slot) :
    Sound ring { state.setSequence slot (state.sequence slot + 1) with
      stage := .idle, completed := state.completed ++ [payload] } := by
  have write := sound.write
  simp only [WriteSound, ending] at write
  have parity : ∀ other, state.sequence other % 2 = if slot = other then 1 else 0 := by
    intro other
    have before := sound.parity other
    simpa only [busySlot, ending, some.injEq] using before
  have sequence : ∀ other, (state.setSequence slot (state.sequence slot + 1)).sequence other =
      if slot = other then state.sequence other + 1 else state.sequence other := by
    intro other
    simp only [State.setSequence, update_apply]
    by_cases here : slot = other
    · rw [if_pos here.symm, if_pos here, here]
    · rw [if_neg fun same => here same.symm, if_neg here]
  constructor
  · intro other
    have before := parity other
    have now := sequence other
    have even : (state.setSequence slot (state.sequence slot + 1)).sequence other % 2 = 0 := by
      split at before <;> split at now <;> omega
    exact even
  · intro other written _
    by_cases here : slot = other
    · exact here ▸ write.2
    · have now := sequence other
      rw [if_neg here] at now
      exact sound.contents other (now ▸ written) (by simp [Mixed, ending])
  · trivial
  · refine sound.copy.transfer rfl rfl (fun _ => id) ?_
    intro _ start _ _ _ aligned low
    have before := parity (ring.slotOf state.head)
    have now := sequence (ring.slotOf state.head)
    refine ⟨?_, fun untouched => ⟨.inl ?_, rfl⟩⟩
    · split at now
      · exact now ▸ Nat.le_succ_of_le low
      · exact now ▸ low
    · cases untouched with
      | inl same =>
        have still : (state.setSequence slot (state.sequence slot + 1)).sequence
          (ring.slotOf state.head) = start := same
        split at before <;> split at now <;> omega
      | inr begun =>
        obtain ⟨_, dead | ⟨_, storing⟩⟩ := begun
        · exact absurd (write.1.symm.trans dead) (by simp)
        · cases storing
  · exact sound.returned

theorem crash (harmless : HarmlessAt ring state state.stage) :
    Sound ring { state with alive := false } := by
  constructor
  · exact sound.parity
  · exact sound.contents
  · have write := sound.write
    unfold WriteSound at write ⊢
    cases stage : state.stage with
    | idle => trivial
    | storing payload stored =>
      rw [stage] at write harmless
      obtain ⟨sized, bound, partly, complete, _⟩ := write
      refine ⟨sized, bound, partly, complete, fun _ => ?_⟩
      obtain none | first | ⟨last, _⟩ := harmless
      · exact .inl none
      · exact .inr (.inl first)
      · exact .inr (.inr last)
    | ending payload slot =>
      rw [stage] at harmless
      exact harmless.elim
  · refine sound.copy.transfer rfl rfl (fun _ => id) ?_
    intro mode start words reading begins aligned low
    refine ⟨low, fun untouched => ⟨?_, rfl⟩⟩
    have parity := sound.parity (ring.slotOf state.head)
    cases untouched with
    | inl same => exact .inl same
    | inr begun =>
      have moved : state.sequence (ring.slotOf state.head) = start + 1 := begun.1
      -- the odd n belongs to the slot of the dying write
      have busy : busySlot ring state = some (ring.slotOf state.head) := by
        by_cases writing : busySlot ring state = some (ring.slotOf state.head)
        · exact writing
        · rw [if_neg writing] at parity
          omega
      cases stage : state.stage with
      | idle => simp [busySlot, stage] at busy
      | ending payload slot =>
        rw [stage] at harmless
        exact harmless.elim
      | storing payload stored =>
        rw [stage] at harmless
        simp only [busySlot, stage, some.injEq] at busy
        obtain none | first | ⟨_, uncopied⟩ := harmless
        · exact .inr ⟨moved, .inr ⟨payload, none ▸ stage⟩⟩
        · rw [busy] at first
          omega
        · simp [copiesOld, reading, busy, moved] at uncopied
  · exact sound.returned

theorem rollBack (dead : state.alive = false) : Sound ring (rollBack ring state) := by
  have write := sound.write
  have settled : ∀ slot, busySlot ring state = some slot → slot = ring.slotOf state.tail := by
    intro slot busy
    cases stage : state.stage with
    | idle => simp [busySlot, stage] at busy
    | storing payload stored =>
      simp only [busySlot, stage, some.injEq] at busy
      exact busy.symm
    | ending payload slot =>
      simp only [WriteSound, stage, dead] at write
      exact absurd write.1 (by simp)
  have sequence : ∀ slot, (WwfRingBuffer.rollBack ring state).sequence slot =
      state.sequence slot / 2 * 2 := by
    intro slot
    simp only [WwfRingBuffer.rollBack, State.setSequence, update_apply,
      Nat.shiftRight_eq_div_pow, Nat.shiftLeft_eq, Nat.pow_one]
    by_cases here : slot = ring.slotOf state.tail
    · rw [if_pos here, here]
    · have even := sound.even_of_not_busy fun busy => here (settled slot busy)
      rw [if_neg here]
      omega
  constructor
  · intro slot
    rw [sequence]
    exact Nat.mul_mod_left _ _
  · intro slot written _
    rw [sequence] at written
    apply sound.contents slot (by omega)
    intro mixed
    cases stage : state.stage with
    | idle | ending payload other => simp [Mixed, stage] at mixed
    | storing payload stored =>
      simp only [Mixed, stage] at mixed
      simp only [WriteSound, stage] at write
      obtain ⟨here, started, unfinished⟩ := mixed
      obtain none | first | all := write.2.2.2.2 dead
      · omega
      · rw [here] at written
        omega
      · omega
  · trivial
  · refine sound.copy.transfer rfl rfl (fun _ => id) ?_
    intro _ start _ _ _ aligned low
    rw [sequence]
    refine ⟨by omega, fun untouched => ⟨?_, rfl⟩⟩
    cases untouched with
    | inl same =>
      rw [sequence] at same
      have before : state.sequence (ring.slotOf state.head) = start ∨
          state.sequence (ring.slotOf state.head) = start + 1 := by omega
      cases before with
      | inl still => exact .inl still
      | inr begun => exact .inr ⟨begun, .inl dead⟩
    | inr begun =>
      obtain ⟨_, wrong | ⟨_, storing⟩⟩ := begun
      · cases wrong
      · cases storing
  · exact sound.returned

theorem setReader {reader : Reader Word} {failures : List Failure}
    (copy : CopySound ring { state with reader := reader, failures := failures }) :
    Sound ring { state with reader := reader, failures := failures } :=
  { sound with copy := copy }

theorem stepBeginning {mode : Mode} {retry : Nat} :
    Sound ring (stepBeginning ring state mode retry) := by
  unfold WwfRingBuffer.stepBeginning
  dsimp only
  split
  next =>
    cases mode with
    | read => exact sound
    | tryRead =>
      dsimp only
      split <;> exact sound.setReader trivial
  next unlocked =>
    split
    next same =>
      apply sound.setReader
      refine ⟨?_, ?_, .refl, Nat.zero_le _, fun _ => rfl⟩
      all_goals omega
    next =>
      split <;> exact sound.setReader trivial

end

variable {next : State Word}

theorem stepReader (sound : Sound ring state) (went : stepReader ring state = some next) :
    Sound ring next := by
  have copy := sound.copy
  unfold CopySound at copy
  unfold WwfRingBuffer.stepReader at went
  cases reading : state.reader with
  | idle => simp [reading] at went
  | beginning mode retry =>
    simp only [reading, some.injEq] at went
    exact went ▸ sound.stepBeginning
  | copying mode start words =>
    rw [reading] at copy
    obtain ⟨first, aligned, low, short, copied⟩ := copy
    simp only [reading] at went
    split at went
    next more =>
      cases went
      apply sound.setReader
      refine ⟨first, aligned, low, by simpa using Nat.succ_le_of_lt more, fun untouched => ?_⟩
      rw [length_append, length_singleton, take_payloadAt_succ more]
      exact congrArg (· ++ _) (copied untouched)
    next full =>
      split at went
      next same =>
        cases went
        apply sound.setReader
        have whole : words.length = ring.words := by omega
        have exact := copied (.inl same.symm)
        rw [whole, take_of_length_le (Nat.le_of_eq (length_payloadAt _ _))] at exact
        -- an even sequence n is not that of a slot being written
        have pure : ¬Mixed ring state (ring.slotOf state.head) := by
          intro mixed
          have parity := sound.parity (ring.slotOf state.head)
          cases stage : state.stage with
          | idle | ending => simp [Mixed, stage] at mixed
          | storing payload stored =>
            simp only [Mixed, stage] at mixed
            simp only [busySlot, stage, mixed.1] at parity
            rw [mixed.1] at same
            simp only [if_true] at parity
            omega
        have complete := sound.contents _ (same ▸ first) pure
        rw [← exact] at complete
        exact complete
      next =>
        cases went
        exact sound.setReader trivial
  | accepting words =>
    rw [reading] at copy
    simp only [reading] at went
    cases went
    refine { sound with copy := trivial, returned := fun payload mem => ?_ }
    cases mem_append.mp mem with
    | inl earlier => exact sound.returned payload earlier
    | inr this => exact mem_singleton.mp this ▸ copy
  | throwing mode =>
    simp only [reading] at went
    cases went
    exact { sound with copy := trivial }

theorem stepWriter (sound : Sound ring state) (alive : state.alive = true)
    (went : stepWriter ring state = some next) : Sound ring next := by
  unfold WwfRingBuffer.stepWriter at went
  split at went
  next => cases went
  next storing =>
    split at went
    next word =>
      split at went <;> cases went
      · exact sound.storeWord alive storing word (fun _ mem => mem_append_left _ mem)
          fun _ => mem_append_right _ mem_cons_self
      next more =>
        exact sound.storeWord alive storing word (fun _ => id)
          fun last => absurd last more
    next all =>
      cases went
      exact sound.publish alive storing all
  next ending =>
    cases went
    exact sound.endWrite ending

theorem crashStep_sound {action : CrashAction Word} (sound : Sound ring state)
    (harmless : HarmlessCrash ring state action)
    (went : crashStep ring state action = some next) : Sound ring next := by
  cases action with
  | crash =>
    simp only [crashStep] at went
    split at went <;> cases went
    exact sound.crash harmless
  | create =>
    simp only [crashStep] at went
    split at went <;> cases went
    next dead => exact sound.rollBack (Bool.not_eq_true _ ▸ dead)
  | run action =>
    cases action with
    | write payload =>
      simp only [crashStep, step] at went
      split at went
      next may =>
        cases stage : state.stage with
        | idle =>
          simp only [stage, some.injEq] at went
          exact went ▸ sound.beginWrite stage may.2
        | storing | ending => simp [stage] at went
      next => cases went
    | writer =>
      simp only [crashStep, step] at went
      split at went
      next alive => exact sound.stepWriter alive went
      next => cases went
    | call mode =>
      simp only [crashStep, step] at went
      split at went <;> cases went
      exact sound.setReader trivial
    | reader => exact sound.stepReader went

end Sound

theorem harmless_crashes_recover (ring : Ring) (buffer : Nat → Nat → Word)
    {actions : List (CrashAction Word)} {final : State Word}
    (ran : execute (crashStep ring) (initialState buffer) actions = some final)
    (harmless : Guarded (crashStep ring) (HarmlessCrash ring) (initialState buffer) actions) :
    Recovered final := by
  have sound : Sound ring final := invariant_of_guarded
      (fun sound allowed stepped => sound.crashStep_sound allowed stepped)
      (sound_initial ring buffer) harmless ran
  refine ⟨fun _ idle slot => ?_, sound.returned⟩
  exact sound.even_of_not_busy (by simp [busySlot, idle])

/-- Two words a payload, two entries: the writer dies on the first lap with one word
stored, is replaced, and the reader gets what the new writer wrote. -/
def firstLapCrash : List (CrashAction Nat) :=
  flatten [[.run (.write [1, 2]), .run .writer, .crash, .run (.call .tryRead), .create],
    [.run .reader, .run (.write [3, 4])], replicate 4 (.run .writer),
    [.run (.call .read)], replicate 5 (.run .reader)]

theorem first_lap_crash_recovers : ∃ final : State Nat,
    execute (crashStep ⟨1, 2, by decide⟩) (initialState fun _ _ => 0) firstLapCrash =
      some final ∧ final.returned = [[3, 4]] ∧ Recovered final := by
  have checked : ∃ final : State Nat,
      execute (crashStep ⟨1, 2, by decide⟩) (initialState fun _ _ => 0) firstLapCrash =
        some final ∧ final.returned = [[3, 4]] :=
    execute_check (by decide +kernel)
  obtain ⟨final, ran, payloads⟩ := checked
  exact ⟨final, ran, payloads, harmless_crashes_recover _ _ ran (by decide +kernel)⟩

def publishedCrash : List (CrashAction Nat) :=
  flatten [[.run (.write [1, 2])], replicate 3 (.run .writer), [.crash, .create]]

/-- The writer dies on the second lap with one of two words stored; the entry keeps the
sequence number of the first lap. -/
def secondLapCrash : List (CrashAction Nat) :=
  flatten [[.run (.write [1, 2])], replicate 4 (.run .writer),
    [.run (.write [3, 4]), .run .writer, .crash, .create, .run (.call .read)],
    replicate 5 (.run .reader)]

/-- A crash after the move of `tail` leaves an odd sequence number behind, and one
between two payload stores lets the reader return a payload nobody wrote. -/
theorem crash_is_not_recovered :
    (∃ final : State Nat, execute (crashStep ⟨1, 2, by decide⟩) (initialState fun _ _ => 0)
      publishedCrash = some final ∧ ¬Recovered final) ∧
    ∃ final : State Nat, execute (crashStep ⟨0, 2, by decide⟩) (initialState fun _ _ => 0)
      secondLapCrash = some final ∧ ¬Recovered final := by
  have published : ∃ final : State Nat, execute (crashStep ⟨1, 2, by decide⟩)
      (initialState fun _ _ => 0) publishedCrash = some final ∧
        final.alive = true ∧ final.stage = .idle ∧ final.sequence 0 % 2 = 1 :=
    execute_check (by decide +kernel)
  have torn : ∃ final : State Nat, execute (crashStep ⟨0, 2, by decide⟩)
      (initialState fun _ _ => 0) secondLapCrash = some final ∧
        final.returned = [[3, 2]] ∧ final.stored = [[1, 2]] :=
    execute_check (by decide +kernel)
  constructor
  · obtain ⟨final, ran, alive, idle, odd⟩ := published
    refine ⟨final, ran, fun recovered => ?_⟩
    have even := recovered.1 alive idle 0
    omega
  · obtain ⟨final, ran, payloads, stored⟩ := torn
    refine ⟨final, ran, fun recovered => ?_⟩
    have member := recovered.2 [3, 2] (by simp [payloads])
    simp [stored] at member

end AdkAaf.Adk.WwfRingBuffer
