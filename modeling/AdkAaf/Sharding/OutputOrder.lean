import AdkAaf.Lib.Transition

/-! The order in which the agent hands on what its shards produce.
`DeliverMessage<false>` queues the shard of each message in `sort_queue_` and
posts the message to the shard's rx ring; the shard appends its outputs and one
done marker to its tx ring; `SortRecvActor` takes the shards in queue order and
lets `ProcessTxMsg` drain the ring of each up to the next done marker.

The rings and the queue are unbounded FIFO channels. An entry stays in its
channel until the consumer has called `FreeEntry`. -/

set_option autoImplicit false

namespace AdkAaf.Sharding.OutputOrder

open Function Lib Option List

structure RxMessage (Body : Type) where
  totalOrderSqn : UInt64
  body : Body

/-- What a shard may append to its tx ring while it handles a message. -/
inductive Output (Body : Type) where
  | amiTxMsg (message : Body)
  | shmDiscardMsg (totalOrderSqn : UInt64)
  | shardingReq (request : Body)
  | invalid

inductive TxEntry (Body : Type) where
  | output (output : Output Body)
  | shmProcessDoneMsg (totalOrderSqn : UInt64)

/-- The calls `ProcessTxMsg` makes. -/
inductive AgentCall (Body : Type) where
  | onShmTxMessage (message : Body)
  | processMessageDone (totalOrderSqn : UInt64)
  | processMessageDiscard (totalOrderSqn : UInt64)
  | onRequest (request : Body)
  deriving DecidableEq

def TxEntry.calls {Body : Type} : TxEntry Body → List (AgentCall Body)
  | .output (.amiTxMsg message) => [.onShmTxMessage message]
  | .output (.shmDiscardMsg totalOrderSqn) => [.processMessageDiscard totalOrderSqn]
  | .output (.shardingReq request) => [.onRequest request]
  | .output .invalid => []
  | .shmProcessDoneMsg totalOrderSqn => [.processMessageDone totalOrderSqn]

structure SortElem (Shard : Type) where
  totalSqn : UInt64
  shardingIndex : Shard

/-- Where `PollingMessage` of a shard stands: between two messages, with the
listed outputs and the done marker still to send, or before `FreeEntry`. -/
inductive ShardPC (Body : Type) where
  | polling
  | delivering (remaining : List (Output Body))
  | processed

/-- The rings of one shard and the messages its application has been given. -/
structure ShardState (Body : Type) where
  rx : List (RxMessage Body) := []
  tx : List (TxEntry Body) := []
  pc : ShardPC Body := .polling
  seen : List (RxMessage Body) := []

inductive SorterPC (Shard : Type) where
  | waiting
  | draining (shard : Shard)
  | drained

structure System (Shard Body : Type) where
  posting : Option (RxMessage Body × Shard) := none
  sortQueue : List (SortElem Shard) := []
  shards : Shard → ShardState Body := fun _ => {}
  sorter : SorterPC Shard := .waiting
  calls : List (AgentCall Body) := []
  deliveries : List (RxMessage Body × Shard) := []

/-- One step of the agent's delivery, of a shard, or of the sorting actor. -/
inductive Action (Shard Body : Type) where
  | pushSortElem (message : RxMessage Body) (shard : Shard)
  | postEntry
  | tryWaitEntry (shard : Shard)
  | send (shard : Shard)
  | freeEntry (shard : Shard)
  | sortWaitEntry
  | processTxMsg
  | sortFreeEntry

section Steps

variable {Shard Body : Type} [DecidableEq Shard]

/-- What the application of a shard sends for the last of the given messages. -/
abbrev Application (Shard Body : Type) := Shard → List (RxMessage Body) → List (Output Body)

def ShardState.tryWaitEntry (application : List (RxMessage Body) → List (Output Body))
    (state : ShardState Body) : Option (ShardState Body) :=
  match state.pc, state.rx with
  | .polling, message :: _ => some
      { state with
        pc := .delivering (application (state.seen ++ [message]))
        seen := state.seen ++ [message] }
  | _, _ => none

def ShardState.send (state : ShardState Body) : Option (ShardState Body) :=
  match state.pc, state.rx with
  | .delivering (output :: remaining), _ => some
      { state with tx := state.tx ++ [.output output], pc := .delivering remaining }
  | .delivering [], message :: _ => some
      { state with
        tx := state.tx ++ [.shmProcessDoneMsg message.totalOrderSqn]
        pc := .processed }
  | _, _ => none

def ShardState.freeEntry (state : ShardState Body) : Option (ShardState Body) :=
  match state.pc with
  | .processed => some { state with rx := state.rx.tail, pc := .polling }
  | _ => none

def System.setShard (system : System Shard Body) (shard : Shard) (state : ShardState Body) :
    System Shard Body :=
  { system with shards := update system.shards shard state }

def System.step (application : Application Shard Body) (system : System Shard Body) :
    Action Shard Body → Option (System Shard Body)
  | .pushSortElem message shard =>
    match system.posting with
    | none => some
        { system with
          posting := some (message, shard)
          sortQueue := system.sortQueue ++ [⟨message.totalOrderSqn, shard⟩]
          deliveries := system.deliveries ++ [(message, shard)] }
    | some _ => none
  | .postEntry =>
    match system.posting with
    | some (message, shard) => some
        ({ system with posting := none }.setShard shard
          { system.shards shard with rx := (system.shards shard).rx ++ [message] })
    | none => none
  | .tryWaitEntry shard =>
    ((system.shards shard).tryWaitEntry (application shard)).map (system.setShard shard)
  | .send shard => (system.shards shard).send.map (system.setShard shard)
  | .freeEntry shard => (system.shards shard).freeEntry.map (system.setShard shard)
  | .sortWaitEntry =>
    match system.sorter, system.sortQueue with
    | .waiting, elem :: _ => some { system with sorter := .draining elem.shardingIndex }
    | _, _ => none
  | .processTxMsg =>
    match system.sorter with
    | .draining shard =>
      match (system.shards shard).tx with
      | .output output :: rest => some
          ({ system with calls := system.calls ++ (TxEntry.output output).calls }.setShard shard
            { system.shards shard with tx := rest })
      | .shmProcessDoneMsg totalOrderSqn :: rest => some
          ({ system with
              calls := system.calls ++ (TxEntry.shmProcessDoneMsg totalOrderSqn).calls
              sorter := .drained }.setShard shard
            { system.shards shard with tx := rest })
      | [] => none
    | _ => none
  | .sortFreeEntry =>
    match system.sorter with
    | .drained => some { system with sorter := .waiting, sortQueue := system.sortQueue.tail }
    | _ => none

end Steps

section Order

variable {Shard Body : Type} (application : Application Shard Body)

def segment (shard : Shard) (earlier : List (RxMessage Body)) (message : RxMessage Body) :
    List (TxEntry Body) :=
  (application shard (earlier ++ [message])).map .output ++
    [.shmProcessDoneMsg message.totalOrderSqn]

def segments (shard : Shard) : List (RxMessage Body) → List (RxMessage Body) → List (TxEntry Body)
  | _, [] => []
  | earlier, message :: rest =>
    segment application shard earlier message ++ segments shard (earlier ++ [message]) rest

theorem segments_append (shard : Shard) (earlier first second : List (RxMessage Body)) :
    segments application shard earlier (first ++ second) =
      segments application shard earlier first ++
        segments application shard (earlier ++ first) second := by
  induction first generalizing earlier with
  | nil => simp [segments]
  | cons message rest ih => simp [segments, ih]

variable {earlier : List (RxMessage Body)}

variable {shard : Shard} {message : RxMessage Body} {taken rest : List (TxEntry Body)}

theorem segment_after_done {totalOrderSqn : UInt64}
    (split : segment application shard earlier message =
      taken ++ .shmProcessDoneMsg totalOrderSqn :: rest) : rest = [] := by
  rcases rest.eq_nil_or_concat with rfl | ⟨rest, last, rfl⟩
  · rfl
  · rw [concat_eq_append, ← cons_append, ← append_assoc] at split
    have outputs := (append_inj' split rfl).1
    have mem : TxEntry.shmProcessDoneMsg totalOrderSqn ∈
        (application shard (earlier ++ [message])).map TxEntry.output := by
      rw [outputs]
      simp
    simp at mem

theorem segment_after_output {output : Output Body}
    (split : segment application shard earlier message = taken ++ .output output :: rest) :
    rest ≠ [] := by
  rintro rfl
  have last := (append_inj' split rfl).2
  simp at last

variable [DecidableEq Shard]

def messagesFor (shard : Shard) (deliveries : List (RxMessage Body × Shard)) :
    List (RxMessage Body) :=
  (deliveries.filter fun delivery => delivery.2 = shard).map fun delivery => delivery.1

/-- The calls for the listed deliveries, taken one after the other, when the
`earlier` ones have been made before. -/
def expectedCalls (earlier : List (RxMessage Body × Shard)) :
    List (RxMessage Body × Shard) → List (AgentCall Body)
  | [] => []
  | (message, shard) :: rest =>
    (segment application shard (messagesFor shard earlier) message).flatMap TxEntry.calls ++
      expectedCalls (earlier ++ [(message, shard)]) rest

theorem messagesFor_append (shard : Shard) (first second : List (RxMessage Body × Shard)) :
    messagesFor shard (first ++ second) = messagesFor shard first ++ messagesFor shard second := by
  simp [messagesFor]

@[simp] theorem messagesFor_nil (shard : Shard) :
    messagesFor shard ([] : List (RxMessage Body × Shard)) = [] := rfl

@[simp] theorem messagesFor_own (shard : Shard) (message : RxMessage Body)
    (rest : List (RxMessage Body × Shard)) :
    messagesFor shard ((message, shard) :: rest) = message :: messagesFor shard rest := by
  simp [messagesFor]

theorem messagesFor_other {other : Shard} (apart : other ≠ shard) (message : RxMessage Body)
    (rest : List (RxMessage Body × Shard)) :
    messagesFor shard ((message, other) :: rest) = messagesFor shard rest := by
  simp [messagesFor, apart]

theorem expectedCalls_append (earlier first second : List (RxMessage Body × Shard)) :
    expectedCalls application earlier (first ++ second) = expectedCalls application earlier first ++
        expectedCalls application (earlier ++ first) second := by
  induction first generalizing earlier with
  | nil => simp [expectedCalls]
  | cons delivery rest ih => simp [expectedCalls, ih]

end Order

section Invariant

variable {Shard Body : Type}

def ShardState.unstarted (state : ShardState Body) : List (RxMessage Body) :=
  match state.pc with
  | .polling => state.rx
  | .delivering _ | .processed => state.rx.tail

def ShardState.unsent (state : ShardState Body) : List (TxEntry Body) :=
  match state.pc, state.rx with
  | .delivering remaining, message :: _ =>
    remaining.map .output ++ [.shmProcessDoneMsg message.totalOrderSqn]
  | _, _ => []

/-- A shard keeps the entry it works on until `FreeEntry`. -/
def ShardState.KeepsEntry (state : ShardState Body) : Prop :=
  match state.pc with
  | .polling => True
  | .delivering _ | .processed => state.rx ≠ []

/-- All entries that will pass through the tx ring from now on, if `arriving` are
the messages on their way to the rx ring. -/
def ShardState.stream (application : Application Shard Body) (shard : Shard)
    (arriving : List (RxMessage Body)) (state : ShardState Body) : List (TxEntry Body) :=
  state.tx ++ state.unsent ++ segments application shard state.seen (state.unstarted ++ arriving)

/-- A step of a shard moves its work along and leaves everything else as it is. -/
structure ShardState.Advances (application : Application Shard Body) (shard : Shard)
    (state next : ShardState Body) : Prop where
  keepsEntry : next.KeepsEntry
  received : next.seen ++ next.unstarted = state.seen ++ state.unstarted
  stream : ∀ arriving, next.stream application shard arriving =
    state.stream application shard arriving

variable {shard : Shard}

variable {next : ShardState Body}

section

variable {application : Application Shard Body} {state : ShardState Body}

theorem ShardState.tryWaitEntry_advances
    (went : state.tryWaitEntry (application shard) = some next) :
    state.Advances application shard next := by
  obtain ⟨rx, tx, pc, seen⟩ := state
  unfold ShardState.tryWaitEntry at went
  split at went
  · next polling found =>
    cases went
    subst polling found
    refine ⟨by simp [KeepsEntry], by simp [unstarted], fun arriving => ?_⟩
    simp [ShardState.stream, unsent, unstarted, segments, segment]
  · cases went

theorem ShardState.send_advances (keeps : state.KeepsEntry) (went : state.send = some next) :
    state.Advances application shard next := by
  obtain ⟨rx, tx, pc, seen⟩ := state
  unfold ShardState.send at went
  split at went
  · next output remaining delivering =>
    cases went
    subst delivering
    obtain ⟨message, rest, rfl⟩ := exists_cons_of_ne_nil keeps
    refine ⟨by simp [KeepsEntry], by simp [unstarted], fun arriving => ?_⟩
    simp [ShardState.stream, unsent, unstarted]
  · next delivering found =>
    cases went
    subst delivering found
    refine ⟨by simp [KeepsEntry], by simp [unstarted], fun arriving => ?_⟩
    simp [ShardState.stream, unsent, unstarted]
  · cases went

theorem ShardState.freeEntry_advances (went : state.freeEntry = some next) :
    state.Advances application shard next := by
  obtain ⟨rx, tx, pc, seen⟩ := state
  unfold ShardState.freeEntry at went
  split at went
  · next processed =>
    cases went
    subst processed
    exact ⟨trivial, rfl, fun _ => by simp [ShardState.stream, unsent, unstarted]⟩
  · cases went

end

variable [DecidableEq Shard] {application : Application Shard Body} {system : System Shard Body}

def System.stream (application : Application Shard Body) (system : System Shard Body)
    (shard : Shard) : List (TxEntry Body) :=
  (system.shards shard).stream application shard (messagesFor shard system.posting.toList)

def sortElems (deliveries : List (RxMessage Body × Shard)) : List (SortElem Shard) :=
  deliveries.map fun delivery => ⟨delivery.1.totalOrderSqn, delivery.2⟩

def backlog (application : Application Shard Body)
    (completed pending : List (RxMessage Body × Shard)) (shard : Shard) : List (TxEntry Body) :=
  segments application shard (messagesFor shard completed) (messagesFor shard pending)

/-- How far the sorting actor is: it has handed on the `completed` deliveries
and, while draining, the `taken` entries of the first pending one. -/
inductive SorterOrdered (application : Application Shard Body) (system : System Shard Body) :
    SorterPC Shard → Prop where
  | waiting (completed pending : List (RxMessage Body × Shard))
      (split : system.deliveries = completed ++ pending)
      (queue : system.sortQueue = sortElems pending)
      (calls : system.calls = expectedCalls application [] completed)
      (streams : ∀ shard, system.stream application shard =
        backlog application completed pending shard) : SorterOrdered application system .waiting
  | draining (completed rest : List (RxMessage Body × Shard)) (message : RxMessage Body)
      {shard : Shard} (taken todo : List (TxEntry Body))
      (split : system.deliveries = completed ++ (message, shard) :: rest)
      (queue : system.sortQueue = sortElems ((message, shard) :: rest))
      (current : segment application shard (messagesFor shard completed) message = taken ++ todo)
      (unfinished : todo ≠ [])
      (calls : system.calls =
        expectedCalls application [] completed ++ taken.flatMap TxEntry.calls)
      (stream : system.stream application shard =
        todo ++ backlog application (completed ++ [(message, shard)]) rest shard)
      (others : ∀ other, other ≠ shard → system.stream application other =
        backlog application (completed ++ [(message, shard)]) rest other) :
      SorterOrdered application system (.draining shard)
  | drained (completed pending : List (RxMessage Body × Shard)) (elem : SortElem Shard)
      (split : system.deliveries = completed ++ pending)
      (queue : system.sortQueue = elem :: sortElems pending)
      (calls : system.calls = expectedCalls application [] completed)
      (streams : ∀ shard, system.stream application shard =
        backlog application completed pending shard) : SorterOrdered application system .drained

structure Ordered (application : Application Shard Body) (system : System Shard Body) : Prop where
  keepsEntry : ∀ shard, (system.shards shard).KeepsEntry
  received : ∀ shard, (system.shards shard).seen ++
    ((system.shards shard).unstarted ++ messagesFor shard system.posting.toList) =
      messagesFor shard system.deliveries
  sorter : SorterOrdered application system system.sorter

variable {pc : SorterPC Shard}

theorem SorterOrdered.transport {next : System Shard Body}
    (ordered : SorterOrdered application system pc)
    (deliveries : next.deliveries = system.deliveries) (queue : next.sortQueue = system.sortQueue)
    (calls : next.calls = system.calls)
    (streams : ∀ shard, next.stream application shard = system.stream application shard) :
    SorterOrdered application next pc := by
  cases ordered with
  | waiting completed pending split queued made kept =>
    exact .waiting completed pending (deliveries.trans split) (queue.trans queued)
      (calls.trans made) fun shard => (streams shard).trans (kept shard)
  | draining completed rest message taken todo split queued current unfinished made stream others =>
    exact .draining completed rest message taken todo (deliveries.trans split)
      (queue.trans queued) current unfinished (calls.trans made) ((streams _).trans stream)
      fun other apart => (streams other).trans (others other apart)
  | drained completed pending elem split queued made kept =>
    exact .drained completed pending elem (deliveries.trans split) (queue.trans queued)
      (calls.trans made) fun shard => (streams shard).trans (kept shard)

variable {state : ShardState Body}

theorem Ordered.advance (ordered : Ordered application system)
    (advances : (system.shards shard).Advances application shard state) :
    Ordered application (system.setShard shard state) := by
  have known : ∀ other, (system.setShard shard state).shards other =
      if other = shard then state else system.shards other := by
    intro other
    simp [System.setShard, update_apply]
  refine ⟨fun other => ?_, fun other => ?_, ordered.sorter.transport rfl rfl rfl fun other => ?_⟩
  · rw [known]
    split
    · exact advances.keepsEntry
    · exact ordered.keepsEntry other
  · have received := ordered.received other
    rw [known]
    split
    · next same =>
      subst same
      rw [← append_assoc, advances.received, append_assoc]
      exact received
    · exact received
  · simp only [System.stream, known]
    split
    · next same =>
      subst same
      exact advances.stream _
    · rfl

theorem backlog_append (application : Application Shard Body)
    (completed pending more : List (RxMessage Body × Shard)) (shard : Shard) :
    backlog application completed (pending ++ more) shard =
      backlog application completed pending shard ++
        segments application shard (messagesFor shard (completed ++ pending))
          (messagesFor shard more) := by
  simp [backlog, messagesFor_append, segments_append]

theorem backlog_own (application : Application Shard Body)
    (completed rest : List (RxMessage Body × Shard)) (message : RxMessage Body) (shard : Shard) :
    backlog application completed ((message, shard) :: rest) shard =
      segment application shard (messagesFor shard completed) message ++
        backlog application (completed ++ [(message, shard)]) rest shard := by
  simp [backlog, segments, messagesFor]

theorem backlog_other (application : Application Shard Body)
    (completed rest : List (RxMessage Body × Shard)) (message : RxMessage Body) {other : Shard}
    (apart : other ≠ shard) : backlog application completed ((message, shard) :: rest) other =
      backlog application (completed ++ [(message, shard)]) rest other := by
  simp [backlog, messagesFor, apart.symm]

theorem SorterOrdered.deliver {next : System Shard Body} {more : List (RxMessage Body × Shard)}
    (ordered : SorterOrdered application system pc)
    (deliveries : next.deliveries = system.deliveries ++ more)
    (queue : next.sortQueue = system.sortQueue ++ sortElems more)
    (calls : next.calls = system.calls)
    (streams : ∀ shard, next.stream application shard = system.stream application shard ++
      segments application shard (messagesFor shard system.deliveries) (messagesFor shard more)) :
    SorterOrdered application next pc := by
  cases ordered with
  | waiting completed pending split queued made kept =>
    refine .waiting completed (pending ++ more) (deliveries.trans ?_) (queue.trans ?_)
      (calls.trans made) fun shard => ?_
    · rw [split, append_assoc]
    · rw [queued, sortElems, sortElems, ← map_append]
      rfl
    · rw [streams, kept, backlog_append, split]
  | draining completed rest message taken todo split queued current unfinished made stream others =>
    refine .draining completed (rest ++ more) message taken todo (deliveries.trans ?_)
      (queue.trans ?_) current unfinished (calls.trans made) ?_ fun other apart => ?_
    · rw [split, append_assoc, cons_append]
    · rw [queued, sortElems, sortElems, ← map_append]
      rfl
    · rw [streams, stream, backlog_append, split, append_assoc, append_assoc,
        singleton_append]
    · rw [streams, others other apart, backlog_append, split, append_assoc,
        singleton_append]
  | drained completed pending elem split queued made kept =>
    refine .drained completed (pending ++ more) elem (deliveries.trans ?_) (queue.trans ?_)
      (calls.trans made) fun shard => ?_
    · rw [split, append_assoc]
    · rw [queued, sortElems, sortElems, cons_append, ← map_append]
      rfl
    · rw [streams, kept, backlog_append, split]

theorem Ordered.pushSortElem (ordered : Ordered application system)
    (free : system.posting = none) (message : RxMessage Body) (target : Shard) :
    Ordered application { system with
        posting := some (message, target)
        sortQueue := system.sortQueue ++ [⟨message.totalOrderSqn, target⟩]
        deliveries := system.deliveries ++ [(message, target)] } := by
  have received : ∀ shard, (system.shards shard).seen ++ (system.shards shard).unstarted =
      messagesFor shard system.deliveries := by
    intro shard
    simpa [free, messagesFor] using ordered.received shard
  refine ⟨ordered.keepsEntry, fun shard => ?_, ?_⟩
  · rw [← append_assoc, received, messagesFor_append]
    rfl
  · refine ordered.sorter.deliver rfl rfl rfl fun shard => ?_
    simp [System.stream, ShardState.stream, free, toList_none, toList_some,
      messagesFor_nil, append_nil, segments_append, received, append_assoc]

section

variable (keeps : state.KeepsEntry) (message : RxMessage Body)
include keeps message

theorem ShardState.post_unstarted :
    ({ state with rx := state.rx ++ [message] } : ShardState Body).unstarted =
      state.unstarted ++ [message] := by
  obtain ⟨rx, tx, pc, seen⟩ := state
  cases pc with
  | polling => rfl
  | delivering remaining | processed =>
    obtain ⟨first, rest, rfl⟩ := exists_cons_of_ne_nil keeps
    rfl

theorem ShardState.post_unsent :
    ({ state with rx := state.rx ++ [message] } : ShardState Body).unsent = state.unsent := by
  obtain ⟨rx, tx, pc, seen⟩ := state
  cases pc with
  | polling | processed => rfl
  | delivering remaining =>
    obtain ⟨first, rest, rfl⟩ := exists_cons_of_ne_nil keeps
    rfl

theorem ShardState.post_keepsEntry :
    ({ state with rx := state.rx ++ [message] } : ShardState Body).KeepsEntry := by
  obtain ⟨rx, tx, pc, seen⟩ := state
  cases pc with
  | polling => trivial
  | delivering remaining | processed => simp [KeepsEntry]

end

theorem Ordered.postEntry (ordered : Ordered application system) {message : RxMessage Body}
    {target : Shard} (posting : system.posting = some (message, target)) :
    Ordered application ({ system with posting := none }.setShard target
      { system.shards target with rx := (system.shards target).rx ++ [message] }) := by
  have keeps := ordered.keepsEntry target
  refine ⟨fun shard => ?_, fun shard => ?_, ordered.sorter.transport rfl rfl rfl fun shard => ?_⟩
  · simp only [System.setShard, update_apply]
    split
    · exact ShardState.post_keepsEntry keeps message
    · exact ordered.keepsEntry shard
  · have received := ordered.received shard
    rw [posting, toList_some] at received
    simp only [System.setShard, update_apply, toList_none, messagesFor_nil, append_nil]
    split
    · next same =>
      subst same
      rw [ShardState.post_unstarted keeps]
      simpa using received
    · next apart =>
      rw [messagesFor_other (Ne.symm apart)] at received
      simpa using received
  · simp only [System.stream, System.setShard, update_apply, toList_none, posting,
      toList_some, messagesFor_nil]
    split
    · next same =>
      subst same
      simp [ShardState.stream, ShardState.post_unstarted keeps, ShardState.post_unsent keeps]
    · next apart => rw [messagesFor_other (Ne.symm apart), messagesFor_nil]

theorem Ordered.sortWaitEntry (ordered : Ordered application system)
    (waiting : system.sorter = .waiting) {elem : SortElem Shard} {rest : List (SortElem Shard)}
    (found : system.sortQueue = elem :: rest) :
    Ordered application { system with sorter := .draining elem.shardingIndex } := by
  refine ⟨ordered.keepsEntry, ordered.received, ?_⟩
  have sorted := ordered.sorter
  rw [waiting] at sorted
  cases sorted with
  | waiting completed pending split queue calls streams =>
    cases pending with
    | nil => simp [sortElems, queue] at found
    | cons delivery pending =>
      obtain ⟨message, shard⟩ := delivery
      obtain rfl : elem = ⟨message.totalOrderSqn, shard⟩ := by
        simp only [queue, sortElems, map_cons, cons.injEq] at found
        exact found.1.symm
      refine .draining completed pending message [] _ split queue rfl (by simp)
        (by simpa using calls) ?_ fun other apart => ?_
      · exact (streams shard).trans (backlog_own application completed pending message shard)
      · exact (streams other).trans (backlog_other application completed pending message apart)

variable {rest : List (TxEntry Body)}

theorem System.stream_pop (application : Application Shard Body) {entry : TxEntry Body}
    (found : (system.shards shard).tx = entry :: rest) (other : Shard) :
    system.stream application other = (if other = shard then [entry] else []) ++
        (system.setShard shard { system.shards shard with tx := rest }).stream application
          other := by
  by_cases same : other = shard
  · subst same
    simp [System.stream, System.setShard, ShardState.stream, ShardState.unsent,
      ShardState.unstarted, found]
  · simp [System.stream, System.setShard, same]

section

variable (ordered : Ordered application system)
include ordered

theorem Ordered.pop_shards (shard : Shard) (rest : List (TxEntry Body)) (other : Shard) :
    ((system.setShard shard { system.shards shard with tx := rest }).shards other).KeepsEntry ∧
      ((system.setShard shard { system.shards shard with tx := rest }).shards other).seen ++
        (((system.setShard shard { system.shards shard with tx := rest }).shards other).unstarted ++
          messagesFor other system.posting.toList) = messagesFor other system.deliveries := by
  have keeps := ordered.keepsEntry other
  have received := ordered.received other
  by_cases same : other = shard
  · subst same
    simp only [System.setShard, update_self]
    exact ⟨keeps, received⟩
  · simp only [System.setShard, update_of_ne same]
    exact ⟨keeps, received⟩

theorem Ordered.processOutput (draining : system.sorter = .draining shard) {output : Output Body}
    (found : (system.shards shard).tx = .output output :: rest) :
    Ordered application
      ({ system with calls := system.calls ++ (TxEntry.output output).calls }.setShard shard
        { system.shards shard with tx := rest }) := by
  refine ⟨fun other => (ordered.pop_shards shard rest other).1,
    fun other => (ordered.pop_shards shard rest other).2, ?_⟩
  have popped := System.stream_pop application found
  have sorted := ordered.sorter
  simp only [System.setShard, draining] at sorted ⊢
  cases sorted with
  | draining completed pending message taken todo split queue current unfinished calls stream
      others =>
      obtain ⟨first, remaining, rfl⟩ := exists_cons_of_ne_nil unfinished
      have own := popped shard
      rw [stream, if_pos rfl, cons_append, singleton_append, cons.injEq] at own
      obtain ⟨rfl, streamed⟩ := own
      refine .draining completed pending message (taken ++ [.output output]) remaining split queue
        (by simpa using current) (segment_after_output application current) ?_ streamed.symm ?_
      · simp [calls]
      · intro other apart
        have unchanged := popped other
        rw [if_neg apart, nil_append] at unchanged
        exact unchanged.symm.trans (others other apart)

theorem Ordered.processDone (draining : system.sorter = .draining shard) {totalOrderSqn : UInt64}
    (found : (system.shards shard).tx = .shmProcessDoneMsg totalOrderSqn :: rest) :
    Ordered application ({ system with
          calls := system.calls ++ (TxEntry.shmProcessDoneMsg totalOrderSqn).calls
          sorter := .drained }.setShard shard { system.shards shard with tx := rest }) := by
  refine ⟨fun other => (ordered.pop_shards shard rest other).1,
    fun other => (ordered.pop_shards shard rest other).2, ?_⟩
  have popped := System.stream_pop application found
  have sorted := ordered.sorter
  simp only [System.setShard, draining] at sorted ⊢
  cases sorted with
  | draining completed pending message taken todo split queue current unfinished calls stream
      others =>
      obtain ⟨first, remaining, rfl⟩ := exists_cons_of_ne_nil unfinished
      have own := popped shard
      rw [stream, if_pos rfl, cons_append, singleton_append, cons.injEq] at own
      obtain ⟨rfl, streamed⟩ := own
      obtain rfl := segment_after_done application current
      refine .drained (completed ++ [(message, shard)]) pending ⟨message.totalOrderSqn, shard⟩
        (by simp [split]) queue ?_ fun other => ?_
      · simp [calls, expectedCalls_append, expectedCalls, current]
      · by_cases same : other = shard
        · subst same
          exact streamed.symm
        · have unchanged := popped other
          rw [if_neg same, nil_append] at unchanged
          exact unchanged.symm.trans (others other same)

theorem Ordered.sortFreeEntry (drained : system.sorter = .drained) :
    Ordered application { system with sorter := .waiting, sortQueue := system.sortQueue.tail } := by
  refine ⟨ordered.keepsEntry, ordered.received, ?_⟩
  have sorted := ordered.sorter
  rw [drained] at sorted
  cases sorted with
  | drained completed pending elem split queue calls streams =>
    exact .waiting completed pending split (by simp [queue]) calls streams

end

theorem Ordered.step {action : Action Shard Body} {next : System Shard Body}
    (ordered : Ordered application system) (went : system.step application action = some next) :
    Ordered application next := by
  cases action with
  | pushSortElem message shard =>
    simp only [System.step] at went
    split at went
    · next free =>
      cases went
      exact ordered.pushSortElem free message shard
    · cases went
  | postEntry =>
    simp only [System.step] at went
    split at went
    · next posting =>
      cases went
      exact ordered.postEntry posting
    · cases went
  | tryWaitEntry shard =>
    obtain ⟨state, waited, rfl⟩ := map_eq_some_iff.mp went
    exact ordered.advance (ShardState.tryWaitEntry_advances waited)
  | send shard =>
    obtain ⟨state, sent, rfl⟩ := map_eq_some_iff.mp went
    exact ordered.advance (ShardState.send_advances (ordered.keepsEntry shard) sent)
  | freeEntry shard =>
    obtain ⟨state, freed, rfl⟩ := map_eq_some_iff.mp went
    exact ordered.advance (ShardState.freeEntry_advances freed)
  | sortWaitEntry =>
    simp only [System.step] at went
    split at went
    · next waiting found =>
      cases went
      exact ordered.sortWaitEntry waiting found
    · cases went
  | processTxMsg =>
    simp only [System.step] at went
    split at went
    · next draining =>
      split at went
      · next found =>
        cases went
        exact ordered.processOutput draining found
      · next found =>
        cases went
        exact ordered.processDone draining found
      · cases went
    · cases went
  | sortFreeEntry =>
    simp only [System.step] at went
    split at went
    · next drained =>
      cases went
      exact ordered.sortFreeEntry drained
    · cases went

theorem ordered_initial (application : Application Shard Body) :
    Ordered application ({} : System Shard Body) :=
  ⟨fun _ => trivial, fun _ => rfl, .waiting [] [] rfl rfl rfl fun _ => rfl⟩

theorem SorterOrdered.calls_prefix (ordered : SorterOrdered application system pc) :
    system.calls <+: expectedCalls application [] system.deliveries := by
  cases ordered with
  | waiting completed pending split queue calls streams
  | drained completed pending elem split queue calls streams =>
    rw [split, calls, expectedCalls_append]
    exact prefix_append _ _
  | draining completed rest message taken todo split queue current unfinished calls stream others =>
      rw [split, calls, expectedCalls_append, expectedCalls, nil_append, current,
        flatMap_append, append_assoc, ← append_assoc]
      exact prefix_append _ _

theorem SorterOrdered.calls_complete (ordered : SorterOrdered application system pc)
    (idle : system.sortQueue = []) :
    system.calls = expectedCalls application [] system.deliveries := by
  cases ordered with
  | waiting completed pending split queue calls streams =>
    obtain rfl : pending = [] := by simpa [idle, sortElems] using queue.symm
    rw [calls, split, append_nil]
  | draining completed rest message taken todo split queue current unfinished calls stream
      others => simp [idle, sortElems] at queue
  | drained completed pending elem split queue calls streams => simp [idle] at queue

/-- The calls the agent makes are a prefix of the outputs and done numbers of the
deliveries, in delivery order, and all of them as soon as `sort_queue_` is
empty. -/
theorem calls_in_delivery_order (application : Application Shard Body)
    (actions : List (Action Shard Body)) (final : System Shard Body)
    (ran : execute (System.step application) {} actions = some final) :
    final.calls <+: expectedCalls application [] final.deliveries ∧
      (final.sortQueue = [] → final.calls = expectedCalls application [] final.deliveries) := by
  have ordered := invariant_of_execute Ordered.step (ordered_initial application) ran
  exact ⟨ordered.sorter.calls_prefix, ordered.sorter.calls_complete⟩

end Invariant

def crossedRun : List (Action Bool Nat) :=
  [.pushSortElem ⟨1, 10⟩ false, .postEntry, .pushSortElem ⟨2, 20⟩ true, .postEntry,
    .tryWaitEntry true, .send true, .send true, .freeEntry true,
    .sortWaitEntry, .tryWaitEntry false, .send false, .processTxMsg, .send false, .processTxMsg,
    .sortFreeEntry, .sortWaitEntry, .processTxMsg]

def echo : Application Bool Nat := fun _ seen =>
  seen.getLast?.toList.map fun message => .amiTxMsg message.body

theorem crossedRun_in_delivery_order : ∃ final,
    execute (System.step echo) {} crossedRun = some final ∧
      final.calls = [.onShmTxMessage 10, .processMessageDone 1, .onShmTxMessage 20] ∧
      final.calls <+: expectedCalls echo [] final.deliveries := by
  obtain ⟨final, ran, calls⟩ :
      ∃ final, execute (System.step echo) {} crossedRun = some final ∧
        final.calls = [.onShmTxMessage 10, .processMessageDone 1, .onShmTxMessage 20] :=
    execute_check (by decide)
  exact ⟨final, ran, calls, (calls_in_delivery_order echo crossedRun final ran).1⟩

end AdkAaf.Sharding.OutputOrder
