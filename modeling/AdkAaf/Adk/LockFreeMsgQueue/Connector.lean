import AdkAaf.Lib.Transition
import Mathlib.Data.List.Infix

/-! `Connector` of `adk/include/adk/lock_free_msg_queue.h`: `fanout` queues of one producer and one
consumer each, and the cursors with which both sides walk them. A push that waits for room is a
step that is not taken yet. -/

set_option autoImplicit false

namespace AdkAaf.Adk.LockFreeMsgQueue.Connector

open Function Lib List

variable {Element : Type}

/-- `SequencialForward` and `SequencialReceive`. What was forwarded and received is history. -/
structure Sequential (Element : Type) where
  queues : Nat → List Element := fun _ => []
  producerCursor : Nat := 0
  lbCursor : Nat := 0
  forwarded : List Element := []
  received : List Element := []

inductive SequentialAction (Element : Type) where
  | sequencialForward (element : Element)
  | sequencialReceive

/-- `Push` of `ConcurrentQueue` leaves the cursor where there is one queue. -/
def Sequential.step (fanout : Nat) (connector : Sequential Element) :
    SequentialAction Element → Option (Sequential Element)
  | .sequencialForward element =>
    let cursor := if fanout = 1 ∨ connector.producerCursor = fanout then 0
      else connector.producerCursor
    some { connector with
      queues := update connector.queues cursor (connector.queues cursor ++ [element])
      producerCursor := if fanout = 1 then connector.producerCursor else cursor + 1
      forwarded := connector.forwarded ++ [element] }
  | .sequencialReceive =>
    match connector.queues connector.lbCursor with
    | [] => some connector
    | element :: rest => some { connector with
        queues := update connector.queues connector.lbCursor rest
        lbCursor := if connector.lbCursor + 1 = fanout then 0 else connector.lbCursor + 1
        received := connector.received ++ [element] }

structure Task (Element : Type) where
  element : Element
  dim : Nat
  idx : Nat
  deriving DecidableEq

/-- `Fanout` into one connector, the workers and `Assemble` on another. `filling` is the task of a
`Fanout` that is not done, and `popped` what an `Assemble` that is not done has taken. What was
fanned out, with its `dim`, and what was assembled, with the tasks that were taken for it, is
history. -/
structure Pair (Element : Type) where
  first : Nat → List (Task Element) := fun _ => []
  second : Nat → List (Task Element) := fun _ => []
  producerCursor : Nat := 0
  filling : Option (Task Element) := none
  consumerCursor : Nat := 0
  popped : List (Task Element) := []
  fanned : List (Element × Nat) := []
  assembled : List (Element × List (Task Element)) := []

inductive PairAction (Element : Type) where
  | fanout (element : Element) (dim : Nat)
  | push
  | worker (index : Nat)
  | assemble

/-- `Pop` of the queue at the cursor, and the loop of `Assemble`. An `Assemble` that has taken
nothing starts at the first queue. -/
def Pair.assemble (fanout : Nat) (pair : Pair Element) : Pair Element :=
  let cursor := if pair.popped = [] then 0 else pair.consumerCursor
  match pair.second cursor with
  | [] => pair
  | task :: rest =>
    let pair := { pair with second := update pair.second cursor rest }
    if task.idx + 1 = task.dim then
      { pair with
        popped := []
        assembled := pair.assembled ++ [(task.element, pair.popped ++ [task])] }
    else
      { pair with
        popped := pair.popped ++ [task]
        consumerCursor := if cursor + 1 = fanout then 0 else cursor + 1 }

def Pair.step (fanout : Nat) (pair : Pair Element) :
    PairAction Element → Option (Pair Element)
  | .fanout element dim =>
    if pair.filling = none ∧ 1 ≤ dim ∧ dim ≤ fanout then some { pair with
      producerCursor := 0
      filling := some ⟨element, dim, 0⟩
      fanned := pair.fanned ++ [(element, dim)] }
    else none
  | .push =>
    pair.filling.map fun task =>
      let cursor := if pair.producerCursor + 1 = fanout then 0 else pair.producerCursor + 1
      { pair with
        first := update pair.first cursor (pair.first cursor ++ [task])
        producerCursor := cursor
        filling := if task.idx + 1 = task.dim then none
          else some { task with idx := task.idx + 1 } }
  | .worker index =>
    match pair.first index with
    | [] => none
    | task :: rest => some { pair with
        first := update pair.first index rest
        second := update pair.second index (pair.second index ++ [task]) }
  | .assemble => some (pair.assemble fanout)

/-- The elements of a queue, when they are dealt out from the `start`-th on. -/
def share (fanout index : Nat) : Nat → List Element → List Element
  | _, [] => []
  | start, element :: rest =>
    if start % fanout = index then element :: share fanout index (start + 1) rest
    else share fanout index (start + 1) rest

theorem share_concat (fanout i start : Nat) (elements : List Element) (elem : Element) :
    share fanout i start (elements ++ [elem]) = share fanout i start elements ++
      if (start + elements.length) % fanout = i then [elem] else [] := by
  induction elements generalizing start with
  | nil => rfl
  | cons head rest ih =>
    rw [cons_append, share, share, ih, length_cons, Nat.add_right_comm start 1, ← Nat.add_assoc]
    split <;> rfl

structure Sequential.Valid (fanout : Nat) (connector : Sequential Element)
    (pending : List Element) : Prop where
  forwarded : connector.forwarded = connector.received ++ pending
  queues : ∀ index < fanout,
    connector.queues index = share fanout index connector.received.length pending
  producer : connector.producerCursor ≤ fanout ∧
    connector.producerCursor % fanout = connector.forwarded.length % fanout
  consumer : connector.lbCursor = connector.received.length % fanout

theorem succ_mod_eq {fanout : Nat} (positive : 0 < fanout) (n : Nat) :
    (if n % fanout + 1 = fanout then 0 else n % fanout + 1) = (n + 1) % fanout := by
  have below := Nat.mod_lt n positive
  rw [← Nat.mod_add_mod]
  split
  next whole => rw [whole, Nat.mod_self]
  next => exact (Nat.mod_eq_of_lt (by omega)).symm

section

variable {fanout : Nat} (positive : 0 < fanout) {connector next : Sequential Element}
  {pending : List Element}
include positive

theorem Sequential.cursor_eq (valid : connector.Valid fanout pending) :
    (if fanout = 1 ∨ connector.producerCursor = fanout then 0 else connector.producerCursor) =
      connector.forwarded.length % fanout := by
  obtain ⟨-, -, ⟨most, producer⟩, -⟩ := valid
  rw [← producer]
  split
  next start =>
    obtain rfl | rfl := start
    · exact (Nat.mod_one _).symm
    · exact (Nat.mod_self _).symm
  next inside =>
    exact (Nat.mod_eq_of_lt (Nat.lt_of_le_of_ne most fun same => inside (.inr same))).symm

theorem Sequential.forward_valid (valid : connector.Valid fanout pending) {elem : Element}
    (went : connector.step fanout (.sequencialForward elem) = some next) :
    next.Valid fanout (pending ++ [elem]) := by
  have cursor := cursor_eq positive valid
  obtain ⟨forwarded, queues, ⟨most, producer⟩, consumer⟩ := valid
  have len : connector.forwarded.length = connector.received.length + pending.length := by
    rw [forwarded, length_append]
  rw [step, cursor] at went
  cases went
  refine ⟨by rw [forwarded, append_assoc], fun i below => ?_, ?_, consumer⟩
  · rw [share_concat, ← len, ← queues i below]
    dsimp only
    split
    next here => rw [here, update_self]
    next apart => rw [update_of_ne (Ne.symm apart), append_nil]
  · dsimp only
    rw [length_append, length_singleton]
    split
    next one =>
      subst one
      exact ⟨most, by rw [Nat.mod_one, Nat.mod_one]⟩
    next => exact ⟨Nat.mod_lt _ positive, Nat.mod_add_mod _ _ _⟩

theorem Sequential.receive_valid (valid : connector.Valid fanout pending)
    (went : connector.step fanout .sequencialReceive = some next) :
    ∃ pending, next.Valid fanout pending := by
  have ⟨forwarded, queues, producer, consumer⟩ := valid
  have here := queues _ (consumer ▸ Nat.mod_lt _ positive)
  rw [step] at went
  split at went <;> cases went
  next => exact ⟨pending, valid⟩
  next elem rest found =>
    rw [found] at here
    cases pending with
    | nil => cases here
    | cons head pending =>
      rw [share, if_pos consumer.symm, cons.injEq] at here
      obtain ⟨rfl, rfl⟩ := here
      refine ⟨pending, by simp [forwarded], fun i below => ?_, producer, ?_⟩
      · rw [length_append, length_singleton]
        dsimp only
        by_cases same : i = connector.lbCursor
        · rw [same, update_self]
        · rw [update_of_ne same, queues i below, share, if_neg]
          exact fun turn => same (turn.symm.trans consumer.symm)
      · rw [length_append, length_singleton, consumer]
        exact succ_mod_eq positive _

theorem Sequential.step_valid {action : SequentialAction Element}
    (valid : ∃ pending, connector.Valid fanout pending)
    (went : connector.step fanout action = some next) : ∃ pending, next.Valid fanout pending := by
  obtain ⟨pending, valid⟩ := valid
  cases action with
  | sequencialForward => exact ⟨_, forward_valid positive valid went⟩
  | sequencialReceive => exact receive_valid positive valid went

end

/-- The parts that `Fanout` sends. -/
def parts (sent : Element × Nat) : List (Task Element) :=
  (List.range sent.2).map fun idx => ⟨sent.1, sent.2, idx⟩

/-- Every `Assemble` has taken the parts of the next element and of no other, does not wait, and
leaves nothing when everything is assembled. -/
structure Pair.Assembles (fanout : Nat) (pair : Pair Element) : Prop where
  inOrder : pair.assembled <+: pair.fanned.map fun sent => (sent.1, parts sent)
  done : pair.popped = []
  empty : pair.assembled.length = pair.fanned.length → pair.filling = none ∧
    ∀ index < fanout, pair.first index = [] ∧ pair.second index = []

/-- What is on the way, with one queue: every element has one part. -/
def Pair.onTheWay (pair : Pair Element) : List (Task Element) :=
  pair.second 0 ++ (pair.first 0 ++ pair.filling.toList)

structure Pair.Valid (pair : Pair Element) : Prop where
  fanned : (pair.fanned.map fun sent => (sent.1, parts sent)) =
    pair.assembled ++ pair.onTheWay.map fun task => (task.element, [task])
  single : ∀ task ∈ pair.onTheWay, task.dim = 1 ∧ task.idx = 0
  done : pair.popped = []
  cursor : pair.producerCursor = 0

theorem Pair.Valid.assembles {pair : Pair Element} (valid : pair.Valid) : pair.Assembles 1 where
  inOrder := valid.fanned ▸ prefix_append _ _
  done := valid.done
  empty all := by
    have length := congrArg List.length valid.fanned
    rw [length_append, length_map, length_map, all, Nat.left_eq_add, length_eq_zero_iff] at length
    obtain ⟨second, rest⟩ := append_eq_nil_iff.mp length
    obtain ⟨first, filling⟩ := append_eq_nil_iff.mp rest
    refine ⟨Option.toList_eq_nil_iff.mp filling, fun i below => ?_⟩
    rw [Nat.lt_one_iff.mp below]
    exact ⟨first, second⟩

/-- The step moves what is on the way to the next queue, or sends or assembles an element. -/
theorem Pair.step_valid {pair next : Pair Element} {action : PairAction Element}
    (valid : pair.Valid) (went : pair.step 1 action = some next) : next.Valid := by
  obtain ⟨fanned, single, done, cursor⟩ := valid
  cases action with
  | fanout elem dim =>
    rw [step] at went
    split at went <;> cases went
    next idle =>
      obtain ⟨none, some, most⟩ := idle
      obtain rfl : dim = 1 := most.antisymm some
      have way : onTheWay { pair with
          producerCursor := 0
          filling := Option.some ⟨elem, 1, 0⟩
          fanned := pair.fanned ++ [(elem, 1)] } = pair.onTheWay ++ [⟨elem, 1, 0⟩] := by
        simp [onTheWay, none]
      refine ⟨?_, way ▸ forall_mem_append.mpr ⟨single, by simp⟩, done, rfl⟩
      rw [way, map_append, fanned, map_append, append_assoc]
      rfl
  | push =>
    obtain ⟨task, filling, rfl⟩ := Option.map_eq_some_iff.mp went
    have one := single task (by simp [onTheWay, filling])
    have way (cursor : Nat) : onTheWay { pair with
        first := update pair.first 0 (pair.first 0 ++ [task])
        producerCursor := cursor
        filling := none } = pair.onTheWay := by simp [onTheWay, filling]
    simp only [cursor, one, if_true]
    exact ⟨(way 0).symm ▸ fanned, (way 0).symm ▸ single, done, rfl⟩
  | worker j =>
    rw [step] at went
    split at went <;> cases went
    next task rest found =>
      have way : onTheWay { pair with
          first := update pair.first j rest
          second := update pair.second j (pair.second j ++ [task]) } = pair.onTheWay := by
        by_cases same : j = 0
        · subst same
          simp [onTheWay, found]
        · simp [onTheWay, update_of_ne (Ne.symm same)]
      exact ⟨way.symm ▸ fanned, way.symm ▸ single, done, cursor⟩
  | assemble =>
    rw [step, assemble, done, if_pos rfl] at went
    split at went <;> cases went
    next => exact ⟨fanned, single, done, cursor⟩
    next task rest found =>
      have way : pair.onTheWay = task :: onTheWay { pair with
          second := update pair.second 0 rest
          popped := []
          assembled := pair.assembled ++ [(task.element, [task])] } := by simp [onTheWay, found]
      rw [way] at single fanned
      obtain ⟨one, single⟩ := forall_mem_cons.mp single
      simp only [one, if_true]
      exact ⟨by rw [fanned, map_cons, append_assoc]; rfl, single, rfl, cursor⟩

/-- What is dealt out in turn comes back in turn. Elements that are fanned out come back if there
is one queue only. -/
theorem connector_in_order {fanout : Nat} (positive : 0 < fanout) :
    (∀ actions (connector : Sequential Element),
      execute (Sequential.step fanout) {} actions = some connector →
        connector.received <+: connector.forwarded) ∧
    (fanout = 1 → ∀ actions (pair : Pair Element),
      execute (Pair.step fanout) {} actions = some pair → pair.Assembles fanout) := by
  constructor
  · intro actions connector ran
    have valid : ∃ pending, connector.Valid fanout pending :=
      invariant_of_execute (Sequential.step_valid positive)
        ⟨[], rfl, fun _ _ => rfl, ⟨Nat.zero_le _, rfl⟩, (Nat.zero_mod _).symm⟩ ran
    obtain ⟨pending, valid⟩ := valid
    exact valid.forwarded ▸ prefix_append _ _
  · rintro rfl actions pair ran
    have valid : pair.Valid :=
      invariant_of_execute Pair.step_valid ⟨rfl, by simp [Pair.onTheWay], rfl, rfl⟩ ran
    exact valid.assembles

/-- Three elements over two queues, and two elements through one. -/
theorem elements_in_order :
    (∃ connector, execute (Sequential.step 2) {} [.sequencialForward 5, .sequencialForward 6,
        .sequencialReceive, .sequencialForward 7, .sequencialReceive] = some connector ∧
      connector.received = [5, 6] ∧ connector.received <+: connector.forwarded) ∧
    ∃ pair, execute (Pair.step 1) {} [.fanout 5 1, .push, .fanout 6 1, .worker 0, .push,
        .assemble, .worker 0, .assemble] = some pair ∧
      pair.assembled.length = 2 ∧ pair.Assembles 1 := by
  have dealt : execute (Sequential.step 2) {} [.sequencialForward 5, .sequencialForward 6,
      .sequencialReceive, .sequencialForward 7, .sequencialReceive] = some _ := rfl
  have fanned : execute (Pair.step 1) {} [.fanout 5 1, .push, .fanout 6 1, .worker 0, .push,
      .assemble, .worker 0, .assemble] = some _ := rfl
  exact ⟨⟨_, dealt, rfl, (connector_in_order Nat.two_pos).1 _ _ dealt⟩,
    ⟨_, fanned, rfl, (connector_in_order Nat.one_pos).2 rfl _ _ fanned⟩⟩

/-- The first of two parts goes to the second queue, and `Assemble` takes the last one alone. -/
theorem last_part_alone : ∃ pair, execute (Pair.step 2) {}
    [.fanout 5 2, .push, .push, .worker 0, .assemble] = some pair ∧ ¬ pair.Assembles 2 := by
  refine ⟨_, rfl, fun assembles => ?_⟩
  have wrong := assembles.inOrder
  revert wrong
  decide

end AdkAaf.Adk.LockFreeMsgQueue.Connector
