import Mathlib.Data.Nat.Basic
import Mathlib.Order.Basic

/-! Finite runs of a partial step function. A system is a state type, an action
type and `step : State → Action → Option State`, where `none` means that the
action is not enabled. Guards restrict the runs that are considered; they are
evaluated in the state before the step. -/

set_option autoImplicit false

namespace AdkAaf.Lib

open Option

variable {State Action : Type}

def execute (step : State → Action → Option State) : State → List Action → Option State
  | state, [] => some state
  | state, action :: rest => (step state action).bind fun next => execute step next rest

/-- Every action of the run is taken in a state in which the guard allows it. -/
def Guarded (step : State → Action → Option State) (guard : State → Action → Prop) :
    State → List Action → Prop
  | _, [] => True
  | state, action :: rest =>
    guard state action ∧
      match step state action with
      | none => True
      | some next => Guarded step guard next rest

instance Guarded.decidable (step : State → Action → Option State)
    (guard : State → Action → Prop) [∀ state action, Decidable (guard state action)] :
    ∀ (state : State) (actions : List Action), Decidable (Guarded step guard state actions)
  | _, [] => inferInstanceAs (Decidable True)
  | state, action :: rest =>
    let _tail : Decidable (match step state action with
        | none => True
        | some next => Guarded step guard next rest) :=
      match step state action with
      | none => inferInstanceAs (Decidable True)
      | some next => Guarded.decidable step guard next rest
    inferInstanceAs (Decidable (guard state action ∧ _))

@[simp] theorem execute_nil (step : State → Action → Option State) (state : State) :
    execute step state [] = some state := rfl

section

variable {step : State → Action → Option State}

variable {state : State}

theorem execute_cons {final : State} {action : Action} {rest : List Action} :
    execute step state (action :: rest) = some final ↔
      ∃ next, step state action = some next ∧ execute step next rest = some final := by
  simp [execute, bind_eq_some_iff]

theorem execute_append {final : State} {first second : List Action} :
    execute step state (first ++ second) = some final ↔
      ∃ middle, execute step state first = some middle ∧
        execute step middle second = some final := by
  induction first generalizing state with
  | nil => simp
  | cons action rest ih =>
    simp only [List.cons_append, execute_cons, ih]
    constructor
    · rintro ⟨next, went, middle, ran, finished⟩
      exact ⟨middle, ⟨next, went, ran⟩, finished⟩
    · rintro ⟨middle, ⟨next, went, ran⟩, finished⟩
      exact ⟨next, went, middle, ran, finished⟩

theorem execute_check {actions : List Action} {fact : State → Prop} [DecidablePred fact]
    (checked : (execute step state actions).any (fun final => fact final) = true) :
    ∃ final, execute step state actions = some final ∧ fact final := by
  obtain ⟨final, ran, holds⟩ := (any_eq_true _ _).mp checked
  exact ⟨final, ran, of_decide_eq_true holds⟩

section

variable {guard : State → Action → Prop}

variable {state : State}

theorem Guarded.cons {next : State} {action : Action} {rest : List Action}
    (guarded : Guarded step guard state (action :: rest)) (went : step state action = some next) :
    guard state action ∧ Guarded step guard next rest := by
  refine ⟨guarded.1, ?_⟩
  have tail := guarded.2
  simpa only [went] using tail

theorem Guarded.append {middle : State} {first second : List Action}
    (guarded : Guarded step guard state first) (ran : execute step state first = some middle)
    (later : Guarded step guard middle second) : Guarded step guard state (first ++ second) := by
  induction first generalizing state with
  | nil =>
    simp only [execute_nil, some.injEq] at ran
    exact ran ▸ later
  | cons action rest ih =>
    obtain ⟨next, went, finished⟩ := execute_cons.mp ran
    obtain ⟨may, remaining⟩ := guarded.cons went
    refine ⟨may, ?_⟩
    simp only [went]
    exact ih remaining finished

theorem guarded_of_forall {actions : List Action}
    (may : ∀ action ∈ actions, ∀ state, guard state action) (state : State) :
    Guarded step guard state actions := by
  induction actions generalizing state with
  | nil => trivial
  | cons action rest ih =>
    refine ⟨may action List.mem_cons_self state, ?_⟩
    have tail := ih fun later mem => may later (List.mem_cons_of_mem _ mem)
    split
    next => trivial
    next next _ => exact tail next

theorem invariant_of_guarded {Invariant : State → Prop}
    (preserved : ∀ {state action next}, Invariant state → guard state action →
      step state action = some next → Invariant next) {initial final : State}
    {actions : List Action} (start : Invariant initial)
    (guarded : Guarded step guard initial actions)
    (ran : execute step initial actions = some final) : Invariant final := by
  induction actions generalizing initial with
  | nil =>
    simp only [execute_nil, some.injEq] at ran
    exact ran ▸ start
  | cons action rest ih =>
    obtain ⟨next, went, finished⟩ := execute_cons.mp ran
    obtain ⟨may, remaining⟩ := guarded.cons went
    exact ih (preserved start may went) remaining finished

end

theorem invariant_of_execute {Invariant : State → Prop}
    (preserved : ∀ {state action next}, Invariant state →
      step state action = some next → Invariant next) {initial final : State}
    {actions : List Action} (start : Invariant initial)
    (ran : execute step initial actions = some final) : Invariant final := by
  induction actions generalizing initial with
  | nil =>
    simp only [execute_nil, some.injEq] at ran
    exact ran ▸ start
  | cons action rest ih =>
    obtain ⟨next, went, finished⟩ := execute_cons.mp ran
    exact ih (preserved start went) finished

theorem guarded_iff_of_invariant {first second : State → Action → Prop} {Invariant : State → Prop}
    (agree : ∀ {state action}, Invariant state → (first state action ↔ second state action))
    (preserved : ∀ {state action next}, Invariant state → second state action →
      step state action = some next → Invariant next) {initial : State} {actions : List Action}
    (start : Invariant initial) :
    Guarded step first initial actions ↔ Guarded step second initial actions := by
  induction actions generalizing initial with
  | nil => exact .rfl
  | cons action rest ih =>
    refine and_congr_left_iff.mpr ?_ |>.trans (and_congr_right fun may => ?_)
    · exact fun _ => agree start
    · split
      next => exact .rfl
      next next went => exact ih (preserved start may went)

end

def Always (step : State → Action → Option State) (property : State → Prop) :
    State → List Action → Prop
  | state, [] => property state
  | state, action :: rest =>
    property state ∧
      match step state action with
      | none => True
      | some next => Always step property next rest

section

variable {step : State → Action → Option State}

variable {property : State → Prop} {actions : List Action}

theorem Always.start {initial : State} (always : Always step property initial actions) :
    property initial := by
  cases actions with
  | nil => exact always
  | cons action rest => exact always.1

/-- Where a step from a state with a property keeps an invariant, and the property if and only
if a guard allows it, the property holds in every state of a run if and only if the guard allows
every step. -/
theorem always_iff_guarded_of_invariant {guard : State → Action → Prop}
    {property Invariant : State → Prop}
    (kept : ∀ {state action next}, Invariant state → property state →
      step state action = some next → Invariant next ∧ (property next ↔ guard state action))
    {initial final : State} {actions : List Action} (inv : Invariant initial)
    (start : property initial) (ran : execute step initial actions = some final) :
    Always step property initial actions ↔ Guarded step guard initial actions := by
  induction actions generalizing initial with
  | nil => exact ⟨fun _ => trivial, fun _ => start⟩
  | cons action rest ih =>
    obtain ⟨next, went, finished⟩ := execute_cons.mp ran
    obtain ⟨later, exactly⟩ := kept inv start went
    rw [Always, Guarded, went]
    constructor
    · rintro ⟨_, always⟩
      exact ⟨exactly.mp always.start, (ih later always.start finished).mp always⟩
    · rintro ⟨may, guarded⟩
      have holds := exactly.mpr may
      exact ⟨start, (ih later holds finished).mpr guarded⟩

theorem always_iff_guarded {guard : State → Action → Prop}
    (kept : ∀ {state action next}, property state → step state action = some next →
      (property next ↔ guard state action)) {initial final : State} (start : property initial)
    (ran : execute step initial actions = some final) :
    Always step property initial actions ↔ Guarded step guard initial actions :=
  @always_iff_guarded_of_invariant _ _ step guard property (fun _ => True)
    (fun _ holds went => ⟨trivial, kept holds went⟩) _ _ _ trivial start ran

theorem reaches_of_measure {action : Action} {Invariant Goal : State → Prop} {measure : State → Nat}
    (progress : ∀ {state}, Invariant state → ¬Goal state →
      ∃ next, step state action = some next ∧ Invariant next ∧ measure next < measure state)
    {initial : State} (start : Invariant initial) :
    ∃ count final, execute step initial (List.replicate count action) = some final ∧
      Invariant final ∧ Goal final := by
  induction left : measure initial using Nat.strongRecOn generalizing initial with
  | ind _ ih =>
    by_cases reached : Goal initial
    · exact ⟨0, initial, rfl, start, reached⟩
    · obtain ⟨next, went, kept, less⟩ := progress start reached
      obtain ⟨count, final, ran, holds⟩ := ih _ (left ▸ less) kept rfl
      exact ⟨count + 1, final, execute_cons.mpr ⟨next, went, ran⟩, holds⟩

end

end AdkAaf.Lib
