/-! Programs that can be killed whenever they call into the system, and triples for them.

A program transforms a state and asks the system in between. The answers are a list that
is given beforehand; when it ends, the program is killed in the state it has then. A list
of answers is thus a run, and its prefixes are the kills in the middle of the run. -/

set_option autoImplicit false

namespace AdkAaf.Lib.CrashTriple

inductive Outcome (Answer State Value : Type) where
  | done (value : Value) (state : State) (rest : List Answer)
  | killed (state : State)

def Program (Answer State Value : Type) : Type :=
  State → List Answer → Outcome Answer State Value

namespace Program

variable {Answer State Value Next Acc : Type}

instance : Monad (Program Answer State) where
  pure value := fun state answers => .done value state answers
  bind program next := fun state answers =>
    match program state answers with
    | .done value state rest => next value state rest
    | .killed state => .killed state

def get : Program Answer State State := fun state answers => .done state state answers

def modify (update : State → State) : Program Answer State Unit :=
  fun state answers => .done () (update state) answers

/-- Ask the system; an answer to another question ends the run like no answer. -/
def ask (read : Answer → Option Value) : Program Answer State Value
  | state, [] => .killed state
  | state, answer :: rest =>
    match read answer with
    | some value => .done value state rest
    | none => .killed state

def iterate (body : Acc → Program Answer State (Acc ⊕ Value)) :
    Nat → Acc → Program Answer State Value
  | 0, _ => fun state _ => .killed state
  | rounds + 1, acc => do
      match ← body acc with
      | .inl next => iterate body rounds next
      | .inr value => pure value

/-- A loop whose body asks at least once: there are as many rounds as answers. -/
def loop (body : Acc → Program Answer State (Acc ⊕ Value)) (acc : Acc) :
    Program Answer State Value :=
  fun state answers => iterate body (answers.length + 1) acc state answers

theorem bind_done {program : Program Answer State Value} {next : Value → Program Answer State Next}
    {state final : State} {answers rest : List Answer} {value : Value}
    (ran : program state answers = .done value final rest) :
    (program >>= next) state answers = next value final rest := by
  change (match program state answers with
    | .done value state rest => next value state rest
    | .killed state => .killed state) = _
  rw [ran]

/-- Started in a state, and given answers that are all allowed, the program ends in the
postcondition, and wherever it is killed the state satisfies `crash`. -/
def Keeps (allowed : Answer → Prop) (crash : State → Prop) (program : Program Answer State Value)
    (state : State) (post : Value → State → Prop) : Prop :=
  ∀ answers, (∀ answer ∈ answers, allowed answer) →
    match program state answers with
    | .done value final rest => post value final ∧ ∀ answer ∈ rest, allowed answer
    | .killed final => crash final

namespace Keeps

variable {allowed : Answer → Prop} {crash : State → Prop} {state : State}

variable {post : Value → State → Prop}

theorem pure {val : Value} (holds : post val state) :
    Keeps allowed crash (Pure.pure val) state post := by
  intro answers all
  exact ⟨holds, all⟩

variable {program : Program Answer State Value}

variable {next : Value → Program Answer State Next}

theorem bind {middle : Value → State → Prop} {post : Next → State → Prop}
    (first : Keeps allowed crash program state middle)
    (second : ∀ val final, middle val final → Keeps allowed crash (next val) final post) :
    Keeps allowed crash (program >>= next) state post := by
  intro answers all
  have ran := first answers all
  change match (match program state answers with
    | .done val state rest => next val state rest
    | .killed state => .killed state) with
    | .done val final rest => post val final ∧ ∀ answer ∈ rest, allowed answer
    | .killed final => crash final
  split at ran
  next val final rest _ => exact second val final ran.1 rest ran.2
  next final _ => exact ran

theorem consequence {stronger : State → Prop} {weaker : Value → State → Prop}
    (keeps : Keeps allowed stronger program state post)
    (kill : ∀ final, stronger final → crash final)
    (weaken : ∀ val final, post val final → weaker val final) :
    Keeps allowed crash program state weaker := by
  intro answers all
  have ran := keeps answers all
  split at ran
  next val final rest equation => exact ⟨weaken val final ran.1, ran.2⟩
  next final equation => exact kill final ran

theorem get_bind {next : State → Program Answer State Value}
    (keeps : Keeps allowed crash (next state) state post) :
    Keeps allowed crash (get >>= next) state post := keeps

variable {update : State → State}

theorem modify_bind {next : Unit → Program Answer State Value}
    (keeps : Keeps allowed crash (next ()) (update state) post) :
    Keeps allowed crash (modify update >>= next) state post := keeps

variable {read : Answer → Option Value}

theorem ask (kill : crash state)
    (reads : ∀ answer val, allowed answer → read answer = some val → post val state) :
    Keeps allowed crash (ask read) state post := by
  intro answers all
  cases answers with
  | nil => exact kill
  | cons answer rest =>
    simp only [Program.ask]
    cases known : read answer with
    | none => exact kill
    | some val =>
      refine ⟨reads answer val (all answer List.mem_cons_self) known, ?_⟩
      exact fun other mem => all other (List.mem_cons_of_mem _ mem)

theorem ask_bind {post : Next → State → Prop} (kill : crash state)
    (second : ∀ answer value, allowed answer → read answer = some value →
      Keeps allowed crash (next value) state post) :
    Keeps allowed crash (Program.ask read >>= next) state post := by
  have first : Keeps allowed crash (Program.ask read) state fun value final =>
      final = state ∧ ∃ answer, allowed answer ∧ read answer = some value :=
    ask kill fun answer value given known => ⟨rfl, answer, given, known⟩
  refine bind first ?_
  rintro value final ⟨same, answer, given, known⟩
  subst same
  exact second answer value given known

theorem ite {condition : Prop} [Decidable condition] {yes no : Program Answer State Value}
    (whenYes : condition → Keeps allowed crash yes state post)
    (whenNo : ¬ condition → Keeps allowed crash no state post) :
    Keeps allowed crash (if condition then yes else no) state post := by
  split
  next holds => exact whenYes holds
  next fails => exact whenNo fails

variable {body : Acc → Program Answer State (Acc ⊕ Value)}

variable {acc : Acc}

section

variable (inv : Acc → State → Prop) (kill : ∀ acc final, inv acc final → crash final)
  (round : ∀ acc state, inv acc state → Keeps allowed crash (body acc) state fun result final =>
    match result with | .inl next => inv next final | .inr value => post value final)
include inv kill round

theorem iterate (rounds : Nat) (start : inv acc state) :
    Keeps allowed crash (iterate body rounds acc) state post := by
  induction rounds generalizing acc state with
  | zero =>
    intro answers all
    exact kill acc state start
  | succ rounds ih =>
    refine bind (round acc state start) ?_
    intro result final holds
    cases result with
    | inl next => exact ih holds
    | inr val => exact pure holds

theorem loop (start : inv acc state) : Keeps allowed crash (loop body acc) state post :=
  fun answers all => iterate inv kill round (answers.length + 1) start answers all

end

end Keeps

end Program

end AdkAaf.Lib.CrashTriple
