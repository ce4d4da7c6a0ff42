import AdkAaf.Lib.Transition
import Mathlib.Algebra.Group.Nat.Defs

/-! `ArrayQueue` of `adk/include/adk/array_queue.h`: queues of their own for the first producers,
queues that the others share, and a consumer that visits them in the order of `prio_`. The
calls of `Push` and `Pop` come one after another. -/

set_option autoImplicit false

namespace AdkAaf.Adk.ArrayQueue

open Function List

structure Slot where
  index : Nat
  buget : Nat := 0
  heat : Nat := 0
  deriving DecidableEq

/-- `N`, and the sizes of the queues that `createQueue` makes. -/
structure Config where
  n : Nat
  queueSize : Nat → Nat

namespace Config

variable (config : Config)

def nrMpQueue : Nat :=
  if config.n / 4 = 0 then 1 else (config.n + 3) / 4

def capacity : Nat :=
  config.n + config.nrMpQueue

end Config

/-- `queue` is `queue_` of a thread, as the number of the queue; `curr` and `nrPop` are the static
variables of `Pop`. -/
structure State (T Producer : Type) where
  nrQueueUsed : Nat := 0
  nrThreads : Nat := 0
  prio : List Slot
  queues : List (List T)
  queue : Producer → Option Nat := fun _ => none
  curr : Nat := 0
  nrPop : Nat := 0

/-- `sorted` is what `std::sort` makes of `prio_`, where `Pop` calls it. -/
inductive Action (T Producer : Type) where
  | push (producer : Producer) (payload : T)
  | pop (sorted : List Slot)

variable {T Producer : Type} {config : Config}

def init (config : Config) : State T Producer where
  prio := (range config.capacity).map fun index => { index }
  queues := List.replicate config.capacity []

namespace State

section Calls

variable (config : Config) (state : State T Producer)

def contents (index : Nat) : List T :=
  state.queues.getD index []

def pushQueue (payload : T) (index : Nat) : State T Producer :=
  if (state.contents index).length < config.queueSize index then
    { state with queues := state.queues.modify index (· ++ [payload]) }
  else
    state

/-- `none` is the assertion that fails. -/
def allocQueue [DecidableEq Producer] (producer : Producer) : Option (State T Producer) :=
  let nrThreads := (state.nrThreads + 1) % 2 ^ 32
  if nrThreads ≤ config.n then
    some { state with
      nrThreads
      queue := update state.queue producer (some state.nrQueueUsed)
      nrQueueUsed := state.nrQueueUsed + 1 }
  else
    let rbOffset := (nrThreads - 1 - config.n) % config.nrMpQueue
    let queue := update state.queue producer (some (config.n + rbOffset))
    if nrThreads ≤ config.capacity then
      some { state with nrThreads, queue, nrQueueUsed := state.nrQueueUsed + 1 }
    else if state.nrQueueUsed = config.capacity then
      some { state with nrThreads, queue }
    else
      none

def push [DecidableEq Producer] (producer : Producer) (payload : T) : Option (State T Producer) :=
  match state.queue producer with
  | some index => some (state.pushQueue config payload index)
  | none => (state.allocQueue config producer).bind fun bound =>
      (bound.queue producer).map (bound.pushQueue config payload)

def slot (position : Nat) : Slot :=
  state.prio.getD position { index := 0 }

/-- What `Pop` of the queue at a position of `prio_` returns. -/
def front (position : Nat) : Option T :=
  (state.contents (state.slot position).index).head?

/-- The loop of `Pop`, and where `curr` is behind it. -/
def search : Nat → Nat → Nat × Option T
  | 0, curr => (curr, none)
  | left + 1, curr =>
    let curr := if curr + 1 = state.nrQueueUsed then 0 else curr + 1
    match state.front curr with
    | some payload => (curr, some payload)
    | none => search left curr

def find : Nat × Option T :=
  match state.front state.curr with
  | some payload => (state.curr, some payload)
  | none => state.search (state.nrQueueUsed - 1) state.curr

/-- An element of the queue at the position `curr` has been popped. -/
def popped (curr : Nat) : State T Producer :=
  let spent := (state.slot curr).buget + 1 = 64
  { state with
    queues := state.queues.modify (state.slot curr).index tail
    nrPop := (state.nrPop + 1) % 2 ^ 32
    prio := state.prio.modify curr fun slot =>
      { slot with buget := if spent then 0 else slot.buget + 1, heat := (slot.heat + 1) % 2 ^ 32 }
    curr :=
      if spent then if state.nrQueueUsed ≤ curr + 1 then 0 else curr + 1
      else curr }

/-- `sorted` takes the place of `prio_`, and the counts of the queues in use begin anew. -/
def resorted (sorted : List Slot) : State T Producer :=
  { state with
    prio := (sorted.take state.nrQueueUsed).map (fun slot => { slot with heat := 0, buget := 0 }) ++
      sorted.drop state.nrQueueUsed
    nrPop := 0
    curr := 0 }

def pop (sorted : List Slot) : Option (Option T × State T Producer) :=
  match state.find with
  | (curr, some payload) => some (some payload, state.popped curr)
  | (curr, none) =>
    if state.nrPop < 1000000 then
      some (none, { state with curr })
    else if sorted.Perm state.prio ∧ sorted.Pairwise (fun a b => b.heat ≤ a.heat) then
      some (none, state.resorted sorted)
    else
      none

end Calls

def step [DecidableEq Producer] (config : Config) (state : State T Producer) :
    Action T Producer → Option (State T Producer)
  | .push producer payload => state.push config producer payload
  | .pop sorted => (state.pop sorted).map Prod.snd

def names (state : State T Producer) : List Nat :=
  state.prio.map Slot.index

def NamesUsed (state : State T Producer) : Prop :=
  (state.names.take state.nrQueueUsed).Perm (range state.nrQueueUsed)

/-- `Pop` fails only if the queues of all producers are empty. -/
def OverlooksNone (state : State T Producer) : Prop :=
  ∀ sorted next, state.pop sorted = some (none, next) →
    ∀ producer index, state.queue producer = some index → state.contents index = []

/-- Fewer than 2^32 threads ever push, and when a `Pop` that finds nothing sorts, the slots of
the queues that are not in use stay where they are. -/
def Allowed (state : State T Producer) : Action T Producer → Prop
  | .push producer _ => state.queue producer = none → state.nrThreads + 1 < 2 ^ 32
  | .pop sorted => 1000000 ≤ state.nrPop →
      (∀ position < state.nrQueueUsed, state.front position = none) →
        sorted.drop state.nrQueueUsed = state.prio.drop state.nrQueueUsed

structure Valid (config : Config) (state : State T Producer) : Prop where
  used : state.nrQueueUsed = min state.nrThreads config.capacity
  bound : ∀ producer index, state.queue producer = some index → index < state.nrQueueUsed
  curr : state.curr < max state.nrQueueUsed 1
  named : state.NamesUsed
  unused : state.names.drop state.nrQueueUsed =
    (range config.capacity).drop state.nrQueueUsed

variable {state next : State T Producer}

theorem valid_init : Valid config (init config : State T Producer) where
  used := (Nat.zero_min _).symm
  bound producer index bound := by cases bound
  curr := Nat.one_pos
  named := Perm.nil
  unused := by simp [names, init, comp_def]

theorem search_none {left curr : Nat} (inside : curr < state.nrQueueUsed)
    (nothing : (state.search left curr).2 = none) {off : Nat} (positive : 0 < off)
    (within : off ≤ left) : state.front ((curr + off) % state.nrQueueUsed) = none := by
  induction left generalizing curr off with
  | zero => omega
  | succ left ih =>
    have forward : (if curr + 1 = state.nrQueueUsed then 0 else curr + 1) =
        (curr + 1) % state.nrQueueUsed := by
      split
      next last => rw [last, Nat.mod_self]
      next => exact (Nat.mod_eq_of_lt (by omega)).symm
    simp only [search, forward] at nothing
    cases here : state.front ((curr + 1) % state.nrQueueUsed) with
    | some payload => simp [here] at nothing
    | none =>
      simp only [here] at nothing
      by_cases first : off = 1
      · exact first ▸ here
      · have later := ih (Nat.mod_lt _ (Nat.zero_lt_of_lt inside)) nothing
          (show 0 < off - 1 by omega) (by omega)
        rwa [Nat.mod_add_mod, Nat.add_assoc, Nat.add_sub_cancel' positive] at later

namespace Valid

variable (valid : Valid config state)

include valid

theorem front_none (nothing : state.find.2 = none) {place : Nat}
    (inside : place < state.nrQueueUsed) : state.front place = none := by
  have curr := valid.curr
  unfold find at nothing
  cases here : state.front state.curr with
  | some payload => simp [here] at nothing
  | none =>
    simp only [here] at nothing
    have found {off : Nat} := @search_none _ _ state _ _ (by omega) nothing off
    rcases Nat.lt_trichotomy place state.curr with before | rfl | behind
    · have empty := found (show 0 < place + state.nrQueueUsed - state.curr by omega) (by omega)
      rwa [show state.curr + (place + state.nrQueueUsed - state.curr) =
        place + state.nrQueueUsed by omega, Nat.add_mod_right, Nat.mod_eq_of_lt inside] at empty
    · exact here
    · have empty := found (show 0 < place - state.curr by omega) (by omega)
      rwa [show state.curr + (place - state.curr) = place by omega,
        Nat.mod_eq_of_lt inside] at empty

theorem overlooksNone : state.OverlooksNone := by
  intro sorted next returned producer index bound
  have nothing : state.find.2 = none := by
    unfold pop at returned
    split at returned
    next => cases returned
    next found => rw [found]
  have mem := valid.named.mem_iff.mpr (mem_range.mpr (valid.bound producer index bound))
  obtain ⟨place, inside, here⟩ := mem_iff_getElem.mp mem
  rw [length_take] at inside
  have empty := valid.front_none nothing (inside.trans_le (Nat.min_le_left _ _))
  have len : place < state.prio.length := by
    rw [names, length_map] at inside
    omega
  have name : (state.slot place).index = index := by
    rw [← here, getElem_take, slot, getD_eq_getElem?_getD,
      getElem?_eq_getElem len]
    exact (getElem_map _).symm
  rw [front, name] at empty
  exact head?_eq_none_iff.mp empty

variable {producer : Producer}

theorem bind [DecidableEq Producer] {index used threads : Nat} (more : state.nrQueueUsed ≤ used)
    (inside : index < used) (counted : used = min threads config.capacity)
    (named : (state.names.take used).Perm (range used))
    (unused : state.names.drop used = (range config.capacity).drop used) :
    Valid config { state with
      nrThreads := threads
      queue := update state.queue producer (some index)
      nrQueueUsed := used } where
  used := counted
  bound other number held := by
    dsimp only at held ⊢
    rw [update_apply] at held
    split at held
    next =>
      cases held
      exact inside
    next => exact (valid.bound other number held).trans_le more
  curr := by
    have curr := valid.curr
    change state.curr < max used 1
    omega
  named := named
  unused := unused

/-- The next queue comes into use. -/
theorem bindNext [DecidableEq Producer] {index threads : Nat}
    (more : state.nrQueueUsed < config.capacity) (inside : index ≤ state.nrQueueUsed)
    (counted : state.nrQueueUsed + 1 = min threads config.capacity) :
    Valid config { state with
      nrThreads := threads
      queue := update state.queue producer (some index)
      nrQueueUsed := state.nrQueueUsed + 1 } := by
  have unused := valid.unused
  refine valid.bind (Nat.le_succ _) (Nat.lt_succ_of_le inside) counted ?_ ?_
  · have first := congrArg (·[0]?) unused
    simp only [getElem?_drop, Nat.add_zero, getElem?_range more] at first
    rw [take_add_one, first, range_succ]
    exact valid.named.append_right _
  · rw [← drop_drop, unused, drop_drop]

theorem pushQueue (payload : T) (index : Nat) :
    Valid config (state.pushQueue config payload index) := by
  unfold State.pushQueue
  split
  next => exact { valid with }
  next => exact valid

theorem allocQueue [DecidableEq Producer] (fits : state.nrThreads + 1 < 2 ^ 32)
    (allocated : state.allocQueue config producer = some next) : Valid config next := by
  have used := valid.used
  have positive : 0 < config.nrMpQueue := by
    unfold Config.nrMpQueue
    split <;> omega
  have capacity : config.capacity = config.n + config.nrMpQueue := rfl
  simp only [State.allocQueue, Nat.mod_eq_of_lt fits] at allocated
  split at allocated
  next own =>
    cases allocated
    exact valid.bindNext (by omega) .refl (by omega)
  next shared =>
    have offset := Nat.mod_lt (state.nrThreads + 1 - 1 - config.n) positive
    split at allocated
    next more =>
      cases allocated
      have first := Nat.mod_eq_of_lt
        (show state.nrThreads + 1 - 1 - config.n < config.nrMpQueue by omega)
      exact valid.bindNext (by omega) (by omega) (by omega)
    next full =>
      split at allocated <;> cases allocated
      exact valid.bind .refl (by omega) (by omega) valid.named valid.unused

theorem push [DecidableEq Producer] {payload : T} (may : state.Allowed (.push producer payload))
    (pushed : state.push config producer payload = some next) : Valid config next := by
  unfold State.push at pushed
  split at pushed
  next index _ =>
    cases pushed
    exact valid.pushQueue payload index
  next unbound =>
    obtain ⟨bound, allocated, pushed⟩ := Option.bind_eq_some_iff.mp pushed
    obtain ⟨index, _, rfl⟩ := Option.map_eq_some_iff.mp pushed
    exact (valid.allocQueue (may unbound) allocated).pushQueue payload index

variable {curr : Nat}

omit valid in
theorem search_lt {left : Nat} (inside : curr < state.nrQueueUsed) :
    (state.search left curr).1 < state.nrQueueUsed := by
  induction left generalizing curr with
  | zero => exact inside
  | succ left ih =>
    have forward : (if curr + 1 = state.nrQueueUsed then 0 else curr + 1) <
        state.nrQueueUsed := by
      split <;> omega
    rw [search]
    split
    next => exact forward
    next => exact ih forward

theorem find_lt : state.find.1 < max state.nrQueueUsed 1 := by
  have curr := valid.curr
  unfold find
  split
  next => exact curr
  next =>
    by_cases none : state.nrQueueUsed = 0
    · rw [none] at curr ⊢
      exact curr
    · exact Nat.lt_of_lt_of_le (search_lt (by omega)) (Nat.le_max_left _ _)

theorem popped (inside : curr < max state.nrQueueUsed 1) : Valid config (state.popped curr) := by
  have names : (state.popped curr).names = state.names := by
    refine ext_getElem? fun place => ?_
    simp only [names, State.popped, getElem?_map, getElem?_modify]
    cases state.prio[place]? <;> split <;> rfl
  refine ⟨valid.used, valid.bound, ?_, ?_, ?_⟩
  · simp only [State.popped]
    split
    next => split <;> omega
    next => exact inside
  · rw [NamesUsed, names]
    exact valid.named
  · rw [names]
    exact valid.unused

variable {sorted : List Slot}

theorem resorted (permuted : sorted.Perm state.prio)
    (kept : sorted.drop state.nrQueueUsed = state.prio.drop state.nrQueueUsed) :
    Valid config (state.resorted sorted) := by
  have front : ((sorted.take state.nrQueueUsed).map Slot.index).Perm
      (state.names.take state.nrQueueUsed) := by
    rw [names, ← map_take]
    refine Perm.map _ ((perm_append_right_iff (sorted.drop state.nrQueueUsed)).mp ?_)
    rw [take_append_drop, kept, take_append_drop]
    exact permuted
  have length := front.length_eq.trans (valid.named.length_eq.trans length_range)
  have names : (state.resorted sorted).names = (sorted.take state.nrQueueUsed).map Slot.index ++
      state.names.drop state.nrQueueUsed := by
    rw [State.names, State.names, State.resorted, map_append, map_map, kept,
      map_drop]
    rfl
  refine ⟨valid.used, valid.bound, Nat.one_pos.trans_le (Nat.le_max_right _ _), ?_, ?_⟩
  · change (take state.nrQueueUsed _).Perm _
    rw [names, take_left' length]
    exact front.trans valid.named
  · change drop state.nrQueueUsed _ = _
    rw [names, drop_left' length]
    exact valid.unused

theorem pop {result : Option T} (may : state.Allowed (.pop sorted))
    (returned : state.pop sorted = some (result, next)) : Valid config next := by
  have inside := valid.find_lt
  unfold State.pop at returned
  split at returned
  next curr payload found =>
    cases returned
    rw [found] at inside
    exact valid.popped inside
  next curr found =>
    rw [found] at inside
    split at returned
    next =>
      cases returned
      exact { valid with curr := inside }
    next often =>
      split at returned <;> cases returned
      next sorts =>
        exact valid.resorted sorts.1 (may (Nat.le_of_not_lt often) fun place within =>
          valid.front_none (by rw [found]) within)

theorem step [DecidableEq Producer] {action : Action T Producer} (may : state.Allowed action)
    (went : state.step config action = some next) : Valid config next := by
  cases action with
  | push producer payload => exact valid.push may went
  | pop sorted =>
    obtain ⟨⟨result, after⟩, returned, rfl⟩ := Option.map_eq_some_iff.mp went
    exact valid.pop may returned

end Valid

end State

variable [DecidableEq Producer] {actions : List (Action T Producer)} {state : State T Producer}

theorem overlooksNone_of_allowed
    (guarded : Lib.Guarded (State.step config) State.Allowed (init config) actions)
    (ran : Lib.execute (State.step config) (init config) actions = some state) :
    state.NamesUsed ∧ state.OverlooksNone := by
  have valid : state.Valid config :=
    Lib.invariant_of_guarded (fun valid => valid.step) State.valid_init guarded ran
  exact ⟨valid.named, valid.overlooksNone⟩

def sixteen : Config where
  n := 16
  queueSize _ := 8

/-- One producer has bound its queue and pushed so many elements that were popped. -/
def afterRounds (rounds : Nat) : State Nat Nat where
  nrQueueUsed := 1
  nrThreads := 1
  prio := ⟨0, rounds % 64, rounds⟩ :: (range' 1 19).map fun index => { index }
  queues := replicate 20 []
  queue := update (fun _ => none) 0 (some 0)
  nrPop := rounds

def round : List (Action Nat Nat) :=
  [.push 0 7, .pop []]

variable {rounds : Nat}

theorem execute_round (fits : rounds + 1 < 2 ^ 32) :
    Lib.execute (State.step sixteen) (afterRounds rounds) round =
      some (afterRounds (rounds + 1)) := by
  have pushed : State.step sixteen (afterRounds rounds) (.push 0 7) =
      some { afterRounds rounds with queues := [7] :: replicate 19 [] } := rfl
  have buget : (if rounds % 64 = 63 then 0 else rounds % 64 + 1) = (rounds + 1) % 64 := by
    split <;> omega
  simp only [round, Lib.execute, pushed, Option.bind_some]
  simp [State.step, State.pop, State.find, State.front, State.contents, State.slot, afterRounds,
    State.popped, List.modify, buget, replicate_succ]
  omega

theorem execute_rounds (fits : rounds + 1 < 2 ^ 32) :
    Lib.execute (State.step sixteen) (init sixteen) (replicate (rounds + 1) round).flatten =
      some (afterRounds (rounds + 1)) := by
  induction rounds with
  | zero => rfl
  | succ rounds ih =>
    rw [replicate_succ', flatten_concat]
    exact Lib.execute_append.mpr ⟨_, ih (by omega), execute_round fits⟩

theorem guarded_round :
    Lib.Guarded (State.step sixteen) State.Allowed (afterRounds rounds) round :=
  ⟨nofun, show _ ∧ _ from ⟨fun _ nothing => (nomatch nothing 0 Nat.one_pos), trivial⟩⟩

theorem guarded_rounds (fits : rounds + 1 < 2 ^ 32) :
    Lib.Guarded (State.step sixteen) State.Allowed (init sixteen)
      (replicate (rounds + 1) round).flatten := by
  induction rounds with
  | zero => exact ⟨fun _ => by decide, show _ ∧ _ from ⟨nofun, trivial⟩⟩
  | succ rounds ih =>
    rw [replicate_succ', flatten_concat]
    exact (ih (by omega)).append (execute_rounds (by omega)) guarded_round

/-- `prio_` after a million elements; the slots behind the first name these queues. -/
def sortedTo (queues : List Nat) : List Slot :=
  ⟨0, 0, 1000000⟩ :: queues.map fun index => { index }

/-- `std::sort` leaves the slots as they are. -/
theorem overlooksNone_of_sort : ∃ state : State Nat Nat,
    Lib.execute (State.step sixteen) (init sixteen) ((replicate 1000000 round).flatten ++
        [.pop (sortedTo (range' 1 19)), .push 1 7]) = some state ∧
      state.contents 1 = [7] ∧ state.NamesUsed ∧ state.OverlooksNone := by
  have guarded : Lib.Guarded (State.step sixteen) State.Allowed (afterRounds 1000000)
      [.pop (sortedTo (range' 1 19)), .push 1 7] :=
    ⟨fun _ _ => rfl, show _ ∧ _ from ⟨fun _ => by decide, trivial⟩⟩
  have rounds := @execute_rounds 999999 (by decide)
  have ran : Lib.execute (State.step sixteen) (afterRounds 1000000)
      [.pop (sortedTo (range' 1 19)), .push 1 7] = some _ := rfl
  have whole := Lib.execute_append.mpr ⟨_, rounds, ran⟩
  exact ⟨_, whole, rfl, overlooksNone_of_allowed
    ((guarded_rounds (by decide)).append rounds guarded) whole⟩

/-- `std::sort` puts the slots of the queues that are not in use into another order, and the
second producer binds the queue whose slot is now the last. -/
theorem overlooks_after_sort : ∃ state : State Nat Nat,
    Lib.execute (State.step sixteen) (init sixteen) ((replicate 1000000 round).flatten ++
        [.pop (sortedTo (10 :: (range' 11 9).reverse ++ (range' 1 9).reverse)), .push 1 7]) =
      some state ∧ ¬ state.NamesUsed ∧ ¬ state.OverlooksNone := by
  refine ⟨_, Lib.execute_append.mpr ⟨_, execute_rounds (by decide), rfl⟩, ?_, fun none => ?_⟩
  · intro named
    exact absurd named (by unfold State.NamesUsed; decide)
  have empty := none [] _ rfl 1 1 rfl
  cases empty

end AdkAaf.Adk.ArrayQueue
