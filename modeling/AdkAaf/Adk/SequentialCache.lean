import AdkAaf.Lib.Transition
import Mathlib.Data.UInt

/-! `SequentialCache` of `adk/include/adk/sequential_cache.h`: a cache that one
producer appends to and one master reads in order, with slaves that read the part
behind the master until they join it. A call is split where it reads a cursor of
another thread; `sc_lock_` makes `NewSlave`, `DeleteSlave` and `SignalJoin` one
step each.

`returned` and `received` are history: what `SlaveNext` returned and which join
events the master saw, each with the `head_` of that moment. No other call reads the
statistics, which are left out. -/

set_option autoImplicit false

namespace AdkAaf.Adk.SequentialCache

open Lib Option List

def kMaxSlaves : Nat := 1024

def kEventQueueSize : Nat := 1024

structure Config where
  nrMaxCacheData : UInt64
  joinThreshold : UInt64
  interruptInterval : UInt32 := 8

structure SlaveJoinEvent (Context : Type) where
  slave : Nat
  joinIndex : UInt64
  context : Context

inductive SlavePc where
  | idle
  | refreshing
  | joining
  deriving DecidableEq

structure SlaveCursor (Context : Type) where
  head : UInt64
  tailThreshold : UInt64
  context : Context
  pc : SlavePc := .idle

inductive MasterPc where
  | idle
  | checking
  | refreshing
  | taking
  deriving DecidableEq

structure Returned (Data : Type) where
  slave : Nat
  index : UInt64
  data : Option Data
  masterHead : UInt64

structure Received (Context : Type) where
  event : SlaveJoinEvent Context
  masterHead : UInt64

structure State (Data Context : Type) where
  tail : UInt64 := 1
  head : UInt64 := 1
  cacheData : UInt64 → Option Data := fun _ => none
  publishing : Bool := false
  tailThreshold : UInt64 := 1
  interruptCounter : UInt32 := 1
  master : MasterPc := .idle
  eventQueue : List (SlaveJoinEvent Context) := []
  slaveCursors : List (SlaveCursor Context) := []
  freeHdlList : List Nat := []
  returned : List (Returned Data) := []
  received : List (Received Context) := []

inductive Action (Data Context : Type) where
  | insert (data : Data)
  | publish
  | masterTryNext
  | masterCheck
  | masterRefresh
  | masterTake
  | newSlave (beginIndex : UInt64) (context : Context)
  | deleteSlave (slave : Nat)
  | slaveNext (slave : Nat)
  | slaveRefresh (slave : Nat)
  | signalJoin (slave : Nat)

variable {Data Context : Type}

/-- The constructor and `Init`, with memory to spare. -/
def init (config : Config) : Option (State Data Context) :=
  if config.nrMaxCacheData = 0 then none else some {}

def insert (config : Config) (state : State Data Context) (data : Data) : State Data Context :=
  if config.nrMaxCacheData ≤ state.tail then
    state
  else
    { state with
      cacheData := fun index => if index = state.tail then some data else state.cacheData index
      publishing := true }

/-- Every `interrupt_interval`-th call looks for a join event and hands it to the handler. -/
def masterTryNext (config : Config) (state : State Data Context) : State Data Context :=
  let counter := state.interruptCounter + 1
  let counted := { state with interruptCounter := counter, master := .checking }
  if counter &&& (config.interruptInterval - 1) = 0 then
    match state.eventQueue with
    | [] => counted
    | event :: rest =>
      { counted with
        eventQueue := rest
        received := state.received ++ [{ event, masterHead := state.head }] }
  else
    counted

/-- A deleted handler is used again before a new one is taken. -/
def newSlave (state : State Data Context) (beginIndex : UInt64) (context : Context) :
    State Data Context :=
  let cursor : SlaveCursor Context := { head := beginIndex, tailThreshold := state.tail, context }
  if beginIndex = 0 then
    state
  else
    match state.freeHdlList with
    | handler :: rest =>
      { state with freeHdlList := rest, slaveCursors := state.slaveCursors.set handler cursor }
    | [] =>
      if kMaxSlaves ≤ state.slaveCursors.length then
        state
      else
        { state with slaveCursors := state.slaveCursors ++ [cursor] }

/-- The comparison of `IsCatchUpWithMaster`, on `uint64_t`. -/
def isBehind (config : Config) (cursor : SlaveCursor Context) : Bool :=
  cursor.head + config.joinThreshold < cursor.tailThreshold

/-- The rest of `SlaveNext` after a comparison: the entry at the cursor is returned,
or the call goes on at `otherwise`. -/
def slaveAdvance (config : Config) (state : State Data Context) (slave : Nat)
    (cursor : SlaveCursor Context)
    (otherwise : SlavePc) : State Data Context :=
  if isBehind config cursor then
    { state with
      slaveCursors := state.slaveCursors.set slave
        { cursor with head := cursor.head + 1, pc := .idle }
      returned := state.returned ++
        [{ slave, index := cursor.head, data := state.cacheData cursor.head,
           masterHead := state.head }] }
  else
    { state with slaveCursors := state.slaveCursors.set slave { cursor with pc := otherwise } }

/-- A full queue loses the event, or ends the process where assertions are not compiled out. -/
def signalJoin (state : State Data Context) (slave : Nat) (cursor : SlaveCursor Context) :
    State Data Context :=
  let joined := state.slaveCursors.set slave { cursor with pc := .idle }
  if state.eventQueue.length < kEventQueueSize then
    { state with
      slaveCursors := joined
      eventQueue := state.eventQueue ++
        [{ slave, joinIndex := cursor.head, context := cursor.context }] }
  else
    { state with slaveCursors := joined }

def slaveAt (state : State Data Context) (slave : Nat) (pc : SlavePc) :
    Option (SlaveCursor Context) :=
  (state.slaveCursors[slave]?).filter fun cursor => cursor.pc = pc

def step (config : Config) (state : State Data Context) :
    Action Data Context → Option (State Data Context)
  | .insert data => if state.publishing then none else some (insert config state data)
  | .publish =>
    if state.publishing then
      some { state with tail := state.tail + 1, publishing := false }
    else
      none
  | .masterTryNext => if state.master = .idle then some (masterTryNext config state) else none
  | .masterCheck =>
    if state.master = .checking then
      some { state with
        master := if state.head < state.tailThreshold then .taking else .refreshing }
    else
      none
  | .masterRefresh =>
    if state.master = .refreshing then
      some { state with
        tailThreshold := state.tail
        master := if state.head < state.tail then .taking else .idle }
    else
      none
  | .masterTake =>
    if state.master = .taking then
      some { state with head := state.head + 1, master := .idle }
    else
      none
  | .newSlave beginIndex context => some (newSlave state beginIndex context)
  -- a handler is deleted by the thread that owns it, outside its other calls
  | .deleteSlave slave =>
    (slaveAt state slave .idle).map fun _ =>
      { state with freeHdlList := state.freeHdlList ++ [slave] }
  | .slaveNext slave =>
    (slaveAt state slave .idle).map fun cursor =>
      slaveAdvance config state slave cursor .refreshing
  | .slaveRefresh slave =>
    (slaveAt state slave .refreshing).map fun cursor =>
      slaveAdvance config state slave { cursor with tailThreshold := state.head } .joining
  | .signalJoin slave =>
    (slaveAt state slave .joining).map fun cursor => signalJoin state slave cursor

/-- The contract of the callers: a slave begins at or behind the master. -/
def BeginsBehind (state : State Data Context) : Action Data Context → Prop
  | .newSlave beginIndex _ => beginIndex ≤ state.head
  | _ => True

structure SlavesBehind (state : State Data Context) : Prop where
  consumed : ∀ entry ∈ state.returned, entry.index < entry.masterHead
  joined : ∀ entry ∈ state.received, entry.event.joinIndex ≤ entry.masterHead

/-- `NewSlave` takes the producer's `tail_` for the master's position, which is
harmless while the producer leads by at most the threshold; and the position to
compare has to fit 64 bits. -/
def KeepsDistance (config : Config) (state : State Data Context) : Action Data Context → Prop
  | .newSlave _ _ => state.tail.toNat ≤ state.head.toNat + config.joinThreshold.toNat
  | .slaveNext slave | .slaveRefresh slave =>
    ∀ cursor ∈ state.slaveCursors[slave]?,
      cursor.head.toNat + config.joinThreshold.toNat < 2 ^ 64
  | _ => True

instance (state : State Data Context) (action : Action Data Context) :
    Decidable (BeginsBehind state action) :=
  match action with
  | .newSlave beginIndex _ => inferInstanceAs (Decidable (beginIndex ≤ state.head))
  | .insert _ | .publish | .masterTryNext | .masterCheck | .masterRefresh | .masterTake
  | .deleteSlave _ | .slaveNext _ | .slaveRefresh _ | .signalJoin _ =>
    inferInstanceAs (Decidable True)

instance (config : Config) (state : State Data Context) (action : Action Data Context) :
    Decidable (KeepsDistance config state action) :=
  match action with
  | .newSlave _ _ =>
    inferInstanceAs
      (Decidable (state.tail.toNat ≤ state.head.toNat + config.joinThreshold.toNat))
  | .slaveNext slave | .slaveRefresh slave =>
    inferInstanceAs (Decidable (∀ cursor ∈ state.slaveCursors[slave]?,
      cursor.head.toNat + config.joinThreshold.toNat < 2 ^ 64))
  | .insert _ | .publish | .masterTryNext | .masterCheck | .masterRefresh | .masterTake
  | .deleteSlave _ | .signalJoin _ => inferInstanceAs (Decidable True)

structure SlaveCursor.Valid (config : Config) (masterHead : UInt64) (cursor : SlaveCursor Context) :
    Prop where
  head : cursor.head ≤ masterHead
  threshold : cursor.tailThreshold.toNat ≤ masterHead.toNat + config.joinThreshold.toNat

structure Invariant (config : Config) (state : State Data Context) : Prop where
  /-- The master takes an entry only after it saw that one was published. -/
  taking : state.master = .taking → state.head < state.tailThreshold
  threshold : state.tailThreshold ≤ state.tail
  publishing : state.publishing = true → state.tail < config.nrMaxCacheData
  cursors : ∀ cursor ∈ state.slaveCursors, cursor.Valid config state.head
  events : ∀ event ∈ state.eventQueue, event.joinIndex ≤ state.head
  behind : SlavesBehind state

variable {config : Config}

variable {state : State Data Context}

theorem init_invariant (started : init config = some state) : Invariant config state := by
  unfold init at started
  split at started <;> cases started
  constructor
  case behind => constructor <;> intro entry mem <;> cases mem
  all_goals simp

/-- An increment that does not wrap, because another counter is larger. -/
theorem toNat_succ_of_lt {val bound : UInt64} (below : val < bound) :
    (val + 1).toNat = val.toNat + 1 := by
  have order := UInt64.lt_iff_toNat_lt.mp below
  have limit := bound.toNat_lt
  rw [UInt64.toNat_add, UInt64.toNat_one]
  exact Nat.mod_eq_of_lt (by omega)

theorem le_succ_of_lt {val bound : UInt64} (below : val < bound) : val ≤ val + 1 := by
  apply UInt64.le_iff_toNat_le.mpr
  rw [toNat_succ_of_lt below]
  exact Nat.le_succ _

variable {cursor : SlaveCursor Context}

theorem SlaveCursor.Valid.mono {first second : UInt64}
    (valid : cursor.Valid config first) (later : first ≤ second) : cursor.Valid config second where
  head := UInt64.le_trans valid.head later
  threshold := Nat.le_trans valid.threshold
    (Nat.add_le_add_right (UInt64.le_iff_toNat_le.mp later) _)

variable {masterHead : UInt64}

theorem SlaveCursor.Valid.lt_of_isBehind (valid : cursor.Valid config masterHead)
    (fits : cursor.head.toNat + config.joinThreshold.toNat < 2 ^ 64)
    (behind : isBehind config cursor = true) : cursor.head < masterHead := by
  have compared := UInt64.lt_iff_toNat_lt.mp (of_decide_eq_true behind)
  rw [UInt64.toNat_add, Nat.mod_eq_of_lt fits] at compared
  have bound := valid.threshold
  exact UInt64.lt_iff_toNat_lt.mpr (by omega)

theorem cursors_set {cursors : List (SlaveCursor Context)}
    (valid : ∀ cursor ∈ cursors, cursor.Valid config masterHead) (slave : Nat)
    {replacement : SlaveCursor Context} (fine : replacement.Valid config masterHead) :
    ∀ cursor ∈ cursors.set slave replacement, cursor.Valid config masterHead := by
  intro cursor mem
  cases mem_or_eq_of_mem_set mem with
  | inl old => exact valid cursor old
  | inr new => exact new ▸ fine

theorem slaveAt_eq_some {slave : Nat} {pc : SlavePc}
    (found : slaveAt state slave pc = some cursor) :
    state.slaveCursors[slave]? = some cursor ∧ cursor ∈ state.slaveCursors := by
  have stored := (filter_eq_some_iff.mp found).1
  exact ⟨stored, mem_of_getElem? stored⟩

section Steps

variable {config : Config} {state : State Data Context}

section

variable (valid : Invariant config state)
include valid

theorem insert_invariant (data : Data) : Invariant config (insert config state data) := by
  unfold insert
  split
  next => exact valid
  next room =>
    exact { valid with
      publishing := fun _ => UInt64.not_le.mp room
      behind := ⟨valid.behind.consumed, valid.behind.joined⟩ }

theorem publish_invariant (waiting : state.publishing = true) :
    Invariant config { state with tail := state.tail + 1, publishing := false } := by
  have grown := le_succ_of_lt (valid.publishing waiting)
  exact { valid with
    threshold := UInt64.le_trans valid.threshold grown
    publishing := by intro contradictory; cases contradictory
    behind := ⟨valid.behind.consumed, valid.behind.joined⟩ }

theorem masterTryNext_invariant : Invariant config (masterTryNext config state) := by
  unfold masterTryNext
  dsimp only
  split
  next =>
    split
    next =>
      exact { valid with
        taking := by intro contradictory; cases contradictory
        behind := ⟨valid.behind.consumed, valid.behind.joined⟩ }
    next event rest queued =>
      have events := valid.events
      rw [queued] at events
      refine { valid with
        taking := by intro contradictory; cases contradictory
        events := fun other mem => events other (mem_cons_of_mem _ mem)
        behind := ⟨valid.behind.consumed, ?_⟩ }
      intro entry mem
      cases mem_append.mp mem with
      | inl old => exact valid.behind.joined entry old
      | inr new =>
        rw [mem_singleton.mp new]
        exact events event mem_cons_self
  next =>
    exact { valid with
      taking := by intro contradictory; cases contradictory
      behind := ⟨valid.behind.consumed, valid.behind.joined⟩ }

theorem masterTake_invariant (at_ : state.master = .taking) :
    Invariant config { state with head := state.head + 1, master := .idle } := by
  have grown := le_succ_of_lt (valid.taking at_)
  exact { valid with
    taking := by intro contradictory; cases contradictory
    cursors := fun cursor mem => (valid.cursors cursor mem).mono grown
    events := fun event mem => UInt64.le_trans (valid.events event mem) grown
    behind := ⟨valid.behind.consumed, valid.behind.joined⟩ }

theorem newSlave_invariant {beginIndex : UInt64} (starts : beginIndex ≤ state.head)
    (near : state.tail.toNat ≤ state.head.toNat + config.joinThreshold.toNat) (context : Context) :
    Invariant config (newSlave state beginIndex context) := by
  have fine : SlaveCursor.Valid config state.head
      { head := beginIndex, tailThreshold := state.tail, context } := ⟨starts, near⟩
  unfold newSlave
  split
  next => exact valid
  next =>
    split
    next handler rest _ =>
      exact { valid with
        cursors := cursors_set valid.cursors handler fine
        behind := ⟨valid.behind.consumed, valid.behind.joined⟩ }
    next =>
      split
      next => exact valid
      next =>
        refine { valid with
          cursors := ?_
          behind := ⟨valid.behind.consumed, valid.behind.joined⟩ }
        intro cursor mem
        cases mem_append.mp mem with
        | inl old => exact valid.cursors cursor old
        | inr new => exact mem_singleton.mp new ▸ fine

theorem slaveAdvance_invariant (slave : Nat) (fine : cursor.Valid config state.head)
    (fits : cursor.head.toNat + config.joinThreshold.toNat < 2 ^ 64) (otherwise : SlavePc) :
    Invariant config (slaveAdvance config state slave cursor otherwise) := by
  unfold slaveAdvance
  split
  next behind =>
    have before := fine.lt_of_isBehind fits behind
    have advanced : SlaveCursor.Valid config state.head
        { cursor with head := cursor.head + 1, pc := .idle } := by
      refine ⟨UInt64.le_iff_toNat_le.mpr ?_, fine.threshold⟩
      rw [toNat_succ_of_lt before]
      exact UInt64.lt_iff_toNat_lt.mp before
    refine { valid with
      cursors := cursors_set valid.cursors slave advanced
      behind := ⟨?_, valid.behind.joined⟩ }
    intro entry mem
    cases mem_append.mp mem with
    | inl old => exact valid.behind.consumed entry old
    | inr new =>
      rw [mem_singleton.mp new]
      exact before
  next =>
    exact { valid with
      cursors := cursors_set valid.cursors slave ⟨fine.head, fine.threshold⟩
      behind := ⟨valid.behind.consumed, valid.behind.joined⟩ }

theorem signalJoin_invariant (slave : Nat) (fine : cursor.Valid config state.head) :
    Invariant config (signalJoin state slave cursor) := by
  have idle : SlaveCursor.Valid config state.head { cursor with pc := .idle } :=
    ⟨fine.head, fine.threshold⟩
  have cursors := cursors_set valid.cursors slave idle
  unfold signalJoin
  split
  next =>
    refine { valid with
      cursors := cursors
      events := ?_
      behind := ⟨valid.behind.consumed, valid.behind.joined⟩ }
    intro event mem
    cases mem_append.mp mem with
    | inl old => exact valid.events event old
    | inr new =>
      rw [mem_singleton.mp new]
      exact fine.head
  next =>
    exact { valid with
      cursors := cursors
      behind := ⟨valid.behind.consumed, valid.behind.joined⟩ }

end

end Steps

theorem step_invariant {next : State Data Context} {action : Action Data Context}
    (valid : Invariant config state)
    (may : BeginsBehind state action ∧ KeepsDistance config state action)
    (went : step config state action = some next) : Invariant config next := by
  cases action with
  | insert data =>
    simp only [step, ite_none_left_eq_some, some.injEq] at went
    exact went.2 ▸ insert_invariant valid data
  | publish =>
    simp only [step, ite_none_right_eq_some, some.injEq] at went
    exact went.2 ▸ publish_invariant valid went.1
  | masterTryNext =>
    simp only [step, ite_none_right_eq_some, some.injEq] at went
    exact went.2 ▸ masterTryNext_invariant valid
  | masterCheck =>
    simp only [step, ite_none_right_eq_some, some.injEq] at went
    obtain ⟨_, rfl⟩ := went
    refine { valid with
      taking := ?_
      behind := ⟨valid.behind.consumed, valid.behind.joined⟩ }
    intro chosen
    by_contra late
    simp [late] at chosen
  | masterRefresh =>
    simp only [step, ite_none_right_eq_some, some.injEq] at went
    obtain ⟨_, rfl⟩ := went
    refine { valid with
      taking := ?_
      threshold := UInt64.le_refl _
      behind := ⟨valid.behind.consumed, valid.behind.joined⟩ }
    intro chosen
    by_contra late
    simp [late] at chosen
  | masterTake =>
    simp only [step, ite_none_right_eq_some, some.injEq] at went
    exact went.2 ▸ masterTake_invariant valid went.1
  | newSlave beginIndex context =>
    simp only [step, some.injEq] at went
    exact went ▸ newSlave_invariant valid may.1 may.2 context
  | deleteSlave slave =>
    obtain ⟨_, _, rfl⟩ := map_eq_some_iff.mp went
    exact { valid with behind := ⟨valid.behind.consumed, valid.behind.joined⟩ }
  | slaveNext slave =>
    obtain ⟨cursor, found, rfl⟩ := map_eq_some_iff.mp went
    obtain ⟨stored, mem⟩ := slaveAt_eq_some found
    exact slaveAdvance_invariant valid slave (valid.cursors cursor mem)
      (may.2 cursor stored) .refreshing
  | slaveRefresh slave =>
    obtain ⟨cursor, found, rfl⟩ := map_eq_some_iff.mp went
    obtain ⟨stored, mem⟩ := slaveAt_eq_some found
    have fresh : SlaveCursor.Valid config state.head { cursor with tailThreshold := state.head } :=
      ⟨(valid.cursors cursor mem).head, Nat.le_add_right _ _⟩
    exact slaveAdvance_invariant valid slave fresh (may.2 cursor stored) .joining
  | signalJoin slave =>
    obtain ⟨cursor, found, rfl⟩ := map_eq_some_iff.mp went
    exact signalJoin_invariant valid slave (valid.cursors cursor (slaveAt_eq_some found).2)

/-- In every interleaving in which slaves are created while the producer leads the
master by at most the threshold, and no compared position wraps, a slave returns
only what the master has consumed and joins at or behind the master. -/
theorem slaves_stay_behind {config : Config} {initial final : State Data Context}
    {actions : List (Action Data Context)} (started : init config = some initial)
    (guarded : Guarded (step config)
      (fun state action => BeginsBehind state action ∧ KeepsDistance config state action)
      initial actions)
    (ran : execute (step config) initial actions = some final) : SlavesBehind final :=
  (invariant_of_guarded step_invariant (init_invariant started) guarded ran).behind

def laggingRun : List (Action Nat Unit) := flatten
  [flatten (replicate 5 [.insert 7, .publish]),
    [.masterTryNext, .masterCheck, .masterRefresh, .masterTake],
    flatten (replicate 3 [.masterTryNext, .masterCheck, .masterTake]),
    [.newSlave 1 (), .slaveNext 0, .slaveNext 0, .slaveNext 0, .slaveNext 0,
      .slaveNext 0, .slaveRefresh 0, .signalJoin 0],
    [.masterTryNext, .masterCheck, .masterTake],
    flatten (replicate 2 [.masterTryNext, .masterCheck, .masterRefresh])]

theorem lagging_slave_stays_behind :
    ∃ initial final : State Nat Unit,
      init { nrMaxCacheData := 16, joinThreshold := 1 } = some initial ∧
      execute (step { nrMaxCacheData := 16, joinThreshold := 1 }) initial laggingRun = some final ∧
      final.returned.map (·.index) = [1, 2, 3, 4] ∧
      final.received.map (·.event.joinIndex) = [5] ∧ SlavesBehind final := by
  have guarded : Guarded (step { nrMaxCacheData := 16, joinThreshold := 1 })
      (fun state action => BeginsBehind state action ∧
        KeepsDistance { nrMaxCacheData := 16, joinThreshold := 1 } state action)
      {} laggingRun := by decide +kernel
  have checked : ∃ final, execute (step { nrMaxCacheData := 16, joinThreshold := 1 }) {}
      laggingRun = some final ∧ final.returned.map (·.index) = [1, 2, 3, 4] ∧
        final.received.map (·.event.joinIndex) = [5] := execute_check (by decide +kernel)
  obtain ⟨final, ran, returned, received⟩ := checked
  exact ⟨{}, final, rfl, ran, returned, received, slaves_stay_behind rfl guarded ran⟩

/-- The producer is three entries ahead of an idle master when the slave is created. -/
def overtakingRun : List (Action Nat Unit) := flatten
  [flatten (replicate 6 [.masterTryNext, .masterCheck, .masterRefresh]),
    flatten (replicate 3 [.insert 7, .publish]),
    [.newSlave 1 (), .slaveNext 0, .slaveNext 0, .slaveNext 0,
      .slaveNext 0, .slaveRefresh 0, .signalJoin 0, .masterTryNext]]

/-- The slave returns three entries that the master has not consumed, and the event
of its joining carries an index in front of the master. -/
theorem slave_overtakes_master :
    ∃ initial final : State Nat Unit,
      init { nrMaxCacheData := 16, joinThreshold := 0 } = some initial ∧
      Guarded (step { nrMaxCacheData := 16, joinThreshold := 0 }) BeginsBehind initial
        overtakingRun ∧
      execute (step { nrMaxCacheData := 16, joinThreshold := 0 }) initial overtakingRun =
        some final ∧
      (final.returned.map fun entry => (entry.index, entry.masterHead)) = [(1, 1), (2, 1), (3, 1)] ∧
      (final.received.map fun entry => (entry.event.joinIndex, entry.masterHead)) = [(4, 1)] ∧
      ¬SlavesBehind final := by
  have guarded : Guarded (step { nrMaxCacheData := 16, joinThreshold := 0 }) BeginsBehind
      {} overtakingRun := by decide +kernel
  have checked : ∃ final, execute (step { nrMaxCacheData := 16, joinThreshold := 0 }) {}
      overtakingRun = some final ∧
        (final.returned.map fun entry => (entry.index, entry.masterHead)) =
          [(1, 1), (2, 1), (3, 1)] ∧
        (final.received.map fun entry => (entry.event.joinIndex, entry.masterHead)) = [(4, 1)] ∧
        ∃ entry ∈ final.returned, ¬entry.index < entry.masterHead :=
    execute_check (by decide +kernel)
  obtain ⟨final, ran, returned, received, entry, member, ahead⟩ := checked
  exact ⟨{}, final, rfl, guarded, ran, returned, received,
    fun behind => ahead (behind.consumed entry member)⟩

end AdkAaf.Adk.SequentialCache
