import AdkAaf.Lib.RingWindow
import AdkAaf.Lib.Transition

/-! A queue whose items together stay below a capacity, and the rule by which a
guarded system refines an abstract one. -/

set_option autoImplicit false

namespace AdkAaf.Lib

structure BoundedFifo (Item : Type) where
  items : List Item := []
  taken : List Item := []

inductive FifoOperation (Item : Type) where
  | push (item : Item)
  | pop

def BoundedFifo.step {Item : Type} (size : Item → Nat) (capacity : Nat)
    (fifo : BoundedFifo Item) : FifoOperation Item → Option (BoundedFifo Item)
  | .push item =>
    if extent size fifo.items + size item < capacity then
      some { fifo with items := fifo.items ++ [item] }
    else
      none
  | .pop =>
    match fifo.items with
    | [] => none
    | item :: rest => some { items := rest, taken := fifo.taken ++ [item] }

/-- Every allowed step of the concrete system, seen through `abstraction`, is a
sequence of abstract operations. -/
def Simulates {State Action Abstract Operation : Type} (step : State → Action → Option State)
    (guard : State → Action → Prop) (Invariant : State → Prop)
    (abstraction : State → Abstract) (operate : Abstract → Operation → Option Abstract) : Prop :=
  ∀ state action next, Invariant state → guard state action → step state action = some next →
    Invariant next ∧
      ∃ operations, execute operate (abstraction state) operations = some (abstraction next)

theorem Simulates.run {State Action Abstract Operation : Type}
    {step : State → Action → Option State} {guard : State → Action → Prop}
    {Invariant : State → Prop} {abstraction : State → Abstract}
    {operate : Abstract → Operation → Option Abstract}
    (simulates : Simulates step guard Invariant abstraction operate)
    {initial final : State} {actions : List Action} (start : Invariant initial)
    (guarded : Guarded step guard initial actions)
    (ran : execute step initial actions = some final) : Invariant final ∧ ∃ operations,
        execute operate (abstraction initial) operations = some (abstraction final) := by
  induction actions generalizing initial with
  | nil =>
    simp only [execute_nil] at ran
    cases ran
    exact ⟨start, [], rfl⟩
  | cons action rest ih =>
    obtain ⟨next, went, finished⟩ := execute_cons.mp ran
    obtain ⟨may, remaining⟩ := guarded.cons went
    obtain ⟨ok, first, moved⟩ := simulates _ _ _ start may went
    obtain ⟨ends, later, reached⟩ := ih ok remaining finished
    exact ⟨ends, first ++ later, execute_append.mpr ⟨_, moved, reached⟩⟩

end AdkAaf.Lib
