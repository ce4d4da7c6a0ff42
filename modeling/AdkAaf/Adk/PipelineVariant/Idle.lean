import AdkAaf.Lib.Transition
import Mathlib.Algebra.Group.Nat.Defs

/-! What the worker thread of a stage of `adk/include/adk/pipeline_variant.h` polls in `Idle()`, and
what a producer gets back from `Pre_Message_UnOrdered` and `Pre_Message_Ordered`.

A step is what others see of a call: the publication of a message, the end of `WaitEntry` and
`FreeEntry`. The cursors are naturals, and `length()` takes the difference of their 64 bits. -/

set_option autoImplicit false

namespace AdkAaf.Adk.PipelineVariant.Idling

open Function Lib

/-- `queue_size_` is rounded to a power of two. Sizes above 2^31, which are rounded to 0, and
sizes whose block wraps around, which has no room for the entries, are left out. -/
structure Config where
  isOrdered : Bool
  queueBits : Fin 32

def Config.queueSize (config : Config) : Nat := 2 ^ config.queueBits.val

/-- `filled` has the sign bits of `pos`, which an ordered stage uses, and `codes` what the calls
of the producers returned, as history. -/
structure State where
  isRunning : Bool := true
  tail : Nat := 1
  head : Nat := 1
  release : Nat := 1
  filled : Nat → Bool := fun _ => false
  holding : Bool := false
  codes : List Nat := []

def kSuccess : Nat := 0

inductive Action where
  | preMessage (order : Nat)
  | waitEntry
  | freeEntry
  | stop

section

variable (config : Config) (state : State)

def length : Nat :=
  min (UInt64.ofNat state.tail - UInt64.ofNat state.release).toNat config.queueSize

/-- Whether the condition that `Idle()` waits for is satisfied. -/
def idle : Bool := !(state.isRunning && length config state == 0)

/-- The code is that of the lambda, which returns true in both callers. -/
def tryNotify (ec : Nat) : Nat := if ec ≠ kSuccess then ec else kSuccess

/-- A call returns when the message is in the queue. -/
def preMessage (order : Nat) : Option State :=
  if config.isOrdered then
    if order < state.release + config.queueSize then
      some { state with
        filled := update state.filled (order % config.queueSize) true
        codes := tryNotify 1 :: state.codes }
    else
      none
  else if state.tail < state.release + config.queueSize then
    some { state with tail := state.tail + 1, codes := tryNotify 1 :: state.codes }
  else
    none

/-- Whether `RecorderWaitEntry`, or `WaitEntry`, succeeds. -/
def CanTake : Prop :=
  if config.isOrdered then state.filled (state.head % config.queueSize) = true
  else state.head < state.tail

instance : Decidable (CanTake config state) := by
  unfold CanTake
  infer_instance

def step : Action → Option State
  | .preMessage order => preMessage config state order
  | .waitEntry =>
    if state.holding then none
    else if CanTake config state then some { state with head := state.head + 1, holding := true }
    else some state
  | .freeEntry =>
    if state.holding then
      some { state with
        release := state.release + 1
        filled := if config.isOrdered then
          update state.filled (state.release % config.queueSize) false else state.filled
        holding := false }
    else
      none
  | .stop => some { state with isRunning := false }

def IdleAgrees : Prop := idle config state = true ↔ state.isRunning = false ∨ CanTake config state

/-- Every call that has returned has placed its message. -/
def CodesAgree : Prop := ∀ code ∈ state.codes, code = kSuccess

/-- The cursors of an ordered stage but `tail` move. -/
structure Valid : Prop where
  taken : state.head = state.release + state.holding.toNat
  ordered : config.isOrdered = true → state.tail = 1 ∧ 1 ≤ state.release
  unordered : config.isOrdered = false →
    state.head ≤ state.tail ∧ state.tail ≤ state.release + config.queueSize
  codes : ∀ code ∈ state.codes, code = 1

end

variable {config : Config} {state next : State} {action : Action}

theorem step_valid (valid : Valid config state) (went : step config state action = some next) :
    Valid config next := by
  obtain ⟨taken, ordered, unordered, codes⟩ := valid
  have more : ∀ code ∈ tryNotify 1 :: state.codes, code = 1 :=
    List.forall_mem_cons.mpr ⟨rfl, codes⟩
  cases action with
  | preMessage order =>
    rw [step, preMessage] at went
    split at went
    next isOrdered =>
      split at went <;> cases went
      exact ⟨taken, ordered, unordered, more⟩
    next isOrdered =>
      split at went <;> cases went
      next room =>
        refine ⟨taken, fun yes => absurd yes isOrdered, fun no => ⟨?_, room⟩, more⟩
        exact Nat.le_succ_of_le (unordered no).1
  | waitEntry =>
    simp only [step] at went
    split at went
    next => cases went
    next free =>
      split at went <;> cases went
      next can =>
        refine ⟨by simpa [free] using taken, ordered, fun no => ⟨?_, (unordered no).2⟩, codes⟩
        rwa [CanTake, no, if_neg nofun] at can
      next => exact ⟨taken, ordered, unordered, codes⟩
  | freeEntry =>
    simp only [step] at went
    split at went <;> cases went
    next holding =>
      rw [holding] at taken
      refine ⟨taken, fun yes => ⟨(ordered yes).1, Nat.le_add_left 1 _⟩, fun no => ?_, codes⟩
      have bounds := unordered no
      exact ⟨bounds.1, by dsimp only; omega⟩
  | stop =>
    cases went
    exact ⟨taken, ordered, unordered, codes⟩

theorem length_eq_zero_iff (config : Config) (state : State) : length config state = 0 ↔
    (2 ^ 64 - state.release % 2 ^ 64 + state.tail % 2 ^ 64) % 2 ^ 64 = 0 := by
  have size : 0 < config.queueSize := Nat.two_pow_pos _
  rw [length, UInt64.toNat_sub, UInt64.toNat_ofNat', UInt64.toNat_ofNat']
  omega

theorem idle_eq_true_iff :
    idle config state = true ↔ state.isRunning = false ∨ length config state ≠ 0 := by
  cases running : state.isRunning <;> simp [idle, running]

theorem Valid.length_eq_zero_iff (valid : Valid config state) (polls : state.holding = false)
    (unordered : config.isOrdered = false) :
    length config state = 0 ↔ ¬ CanTake config state := by
  have taken := valid.taken
  rw [polls] at taken
  have size : config.queueSize < 2 ^ 32 := Nat.pow_lt_pow_right (by decide) config.queueBits.isLt
  obtain ⟨head, tail⟩ := valid.unordered unordered
  rw [Idling.length_eq_zero_iff, CanTake, unordered, if_neg nofun]
  simp only [Bool.toNat_false] at taken
  omega

/-- Where the worker polls, an ordered stage agrees with its queue only by chance: it takes the
queue for empty until a message is freed, and for filled afterwards. No call of a producer
returns `kSuccess`. -/
theorem idle_agrees_iff {actions : List Action}
    (ran : execute (step config) {} actions = some state) (polls : state.holding = false) :
    (IdleAgrees config state ↔ config.isOrdered = false ∨ state.isRunning = false ∨
      (2 ^ 64 ∣ state.release - 1 ↔ ¬ CanTake config state)) ∧
    (CodesAgree state ↔ state.codes = []) := by
  have valid : Valid config state := invariant_of_execute step_valid
    ⟨rfl, fun _ => ⟨rfl, .refl⟩, fun _ => ⟨.refl, Nat.le_add_right 1 _⟩, by simp⟩ ran
  constructor
  · rw [IdleAgrees, idle_eq_true_iff]
    cases running : state.isRunning with
    | false => simp
    | true =>
      cases isOrdered : config.isOrdered with
      | false => simp [valid.length_eq_zero_iff polls isOrdered]
      | true =>
        obtain ⟨tail, release⟩ := valid.ordered isOrdered
        have empty : length config state = 0 ↔ 2 ^ 64 ∣ state.release - 1 := by
          rw [length_eq_zero_iff, tail]
          omega
        rw [← empty]
        by_cases zero : length config state = 0 <;> simp [zero]
  · constructor
    · intro agree
      cases codes : state.codes with
      | nil => rfl
      | cons code rest =>
        have mem : code ∈ state.codes := codes ▸ List.mem_cons_self
        cases (valid.codes code mem).symm.trans (agree code mem)
    · intro none
      simp [CodesAgree, none]

theorem posted_unordered : ∃ state,
    execute (step ⟨false, 2⟩) {} [.preMessage 0] = some state ∧ CanTake ⟨false, 2⟩ state ∧
      IdleAgrees ⟨false, 2⟩ state :=
  ⟨_, rfl, by decide, (@idle_agrees_iff ⟨false, 2⟩ _ [.preMessage 0] rfl rfl).1.mpr (.inl rfl)⟩

/-- What is posted to an ordered stage does not end `Idle()`, and its call does not return
`kSuccess`. When it is freed the worker does not sleep any more. -/
theorem ordered_disagrees :
    (∃ state, execute (step ⟨true, 2⟩) {} [.preMessage 1] = some state ∧
      ¬ IdleAgrees ⟨true, 2⟩ state ∧ ¬ CodesAgree state) ∧
    ∃ state, execute (step ⟨true, 2⟩) {} [.preMessage 1, .waitEntry, .freeEntry] = some state ∧
      ¬ IdleAgrees ⟨true, 2⟩ state := by
  refine ⟨⟨_, rfl, ?_, ?_⟩, _, rfl, ?_⟩
  · unfold IdleAgrees
    decide
  · exact fun agree => nomatch agree 1 List.mem_cons_self
  · unfold IdleAgrees
    decide

end AdkAaf.Adk.PipelineVariant.Idling
