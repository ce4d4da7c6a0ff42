import AdkAaf.Lib.Token
import AdkAaf.Lib.Transition

/-! Who owns the messages and the compressed buffers of a bridge. A handler is the list of its
accesses to them, which it makes one by one while the other threads make theirs. -/

set_option autoImplicit false

namespace AdkAaf.AmiBridge.Ownership

open Lib List

/-- The threads: the one that AMI calls `OnMessage` on, the send thread, the backup thread, the one
that calls the TCP handlers, the one of the tier channel, and the one in `RetransmitMsg`. -/
inductive Thread where
  | ami
  | sendAmiMsg
  | backAmiMsg
  | tcp
  | tier
  | retransmitMsg
  deriving DecidableEq

/-- An access to a message or a buffer: `create` is `forward_acquire`, `NewMessage` or what
`Compress` allocates, `delete` is `DeleteMessage` or `delete[]`, and `push` puts the packet of it
to the queue of packets. -/
inductive Op where
  | read (object : Nat)
  | create (object : Nat)
  | delete (object : Nat)
  | pushEntry (object : Nat)
  | push (object : Nat)
  | freeEntry
  deriving DecidableEq

def creations : List Op → List Nat
  | [] => []
  | .create object :: ops => object :: creations ops
  | _ :: ops => creations ops

/-- What becomes of a message: its endpoint is unknown, the message is sent as it is or
compressed, or `Compress` throws. -/
inductive Branch where
  | unknown
  | plain
  | compressed
  | throws

/-- `OnMessage`; a full queue is given up when the bridge is stopped. -/
def onMessage (message : Nat) (isRunning : Bool) : List Op :=
  if isRunning then [.create message, .pushEntry message] else [.create message]

/-- The rest of `OnMessage` while the bridge recovers. -/
def recover (message buffer : Nat) : Branch → List Op
  | .unknown => [.read message, .delete message, .freeEntry]
  | .plain => [.read message, .push message, .freeEntry]
  | .compressed =>
    [.read message, .create buffer, .push buffer, .delete message, .freeEntry]
  | .throws => [.read message]

/-- One round of `SendAmiMsg`; it ends early when `DirectSendMsg` fails. The size of the message
is read at the end once more. -/
def sendAmiMsg (message buffer : Nat) (sent : Bool) : Branch → List Op
  | .unknown => [.read message, .delete message, .freeEntry]
  | .plain =>
    [.read message, .push message, .freeEntry, .read message] ++
      if sent then [.read message] else []
  | .compressed =>
    [.read message, .create buffer, .delete message, .read message, .push buffer, .freeEntry,
      .read buffer] ++ if sent then [.read message] else []
  | .throws => [.read message]

/-- One round of `BackAmiMsg`, up to where it pops a packet. -/
def backAmiMsg (message buffer : Nat) : Branch → List Op
  | .unknown => [.read message, .delete message]
  | .plain => [.read message, .push message, .freeEntry]
  | .compressed =>
    [.read message, .create buffer, .delete message, .read message, .push buffer, .freeEntry]
  | .throws => [.read message]

def handleSyncMsg (message : Nat) : List Op := [.read message, .delete message, .freeEntry]

def resend (object : Nat) : List Op := [.read object, .push object]

def retransmit (copy buffer : Nat) (toCompress : Bool) : List Op :=
  if toCompress then
    [.create copy, .read copy, .create buffer, .push buffer, .read buffer]
  else
    [.create copy, .push copy, .read copy]

/-- `amiRxQueue` are the messages of the entries, of which the first one may have been taken;
`packets` are the two queues of packets and `current` is the one that is `tcp_packets_queue_`.
Objects are numbered by `next`. `released` are those that were released, `readReleased` says that
one was read after that, and `misfreed` that an entry was freed by a thread that had not taken
it. -/
structure State where
  next : Nat := 0
  amiRxQueue : List Nat := []
  taken : Option Thread := none
  packets : Bool → List Nat := fun _ => []
  current : Bool := false
  held : Thread → List Nat := fun _ => []
  ops : Thread → List Op := fun _ => []
  released : List Nat := []
  readReleased : Bool := false
  misfreed : Bool := false

inductive Place where
  | reserved (thread : Thread)
  | handler (thread : Thread)
  | amiRxQueue
  | packets (queue : Bool)
  | released
  deriving DecidableEq

/-- The functions that take a message from the queue of AMI. -/
inductive Consumer where
  | recover (branch : Branch)
  | sendAmiMsg (sent : Bool) (branch : Branch)
  | backAmiMsg (branch : Branch)
  | handleSyncMsg

def Consumer.thread : Consumer → Thread
  | .recover _ => .ami
  | .sendAmiMsg _ _ => .sendAmiMsg
  | .backAmiMsg _ => .backAmiMsg
  | .handleSyncMsg => .tcp

def Consumer.ops (message buffer : Nat) : Consumer → List Op
  | .recover branch => Ownership.recover message buffer branch
  | .sendAmiMsg sent branch => Ownership.sendAmiMsg message buffer sent branch
  | .backAmiMsg branch => Ownership.backAmiMsg message buffer branch
  | .handleSyncMsg => Ownership.handleSyncMsg message

inductive Popper where
  | handleAckMsg
  | handleSyncMsg
  | backAmiMsg
  | onPeerSync

def Popper.thread : Popper → Thread
  | .handleAckMsg => .tcp
  | .handleSyncMsg => .tcp
  | .backAmiMsg => .backAmiMsg
  | .onPeerSync => .tier

inductive Action where
  | onMessage (isRunning : Bool)
  | waitEntry (consumer : Consumer)
  | pop (popper : Popper)
  | swap
  | resend
  | retransmit (toCompress : Bool)
  | next (thread : Thread)

namespace State

variable (state : State) (thread : Thread)

def setHeld (held : List Nat) : State :=
  { state with held := fun other => if other = thread then held else state.held other }

def setOps (ops : List Op) : State :=
  { state with ops := fun other => if other = thread then ops else state.ops other }

def setPackets (queue : Bool) (objects : List Nat) : State :=
  { state with packets := fun other => if other = queue then objects else state.packets other }

/-- A handler begins, and has numbers for what it may create. -/
def begins (ops : List Op) (numbers : Nat) : State :=
  { state.setOps thread ops with next := state.next + numbers }

/-- The entry that is taken is the first one until it is freed. A thread takes an entry when the
thread that consumed the queue before it has been joined. -/
def waitEntry (consumer : Consumer) : Option State :=
  if state.ops consumer.thread = [] ∧
      (state.taken.all fun thread => (state.ops thread).isEmpty) = true then
    match state.amiRxQueue with
    | [] => none
    | message :: _ =>
      let ops := consumer.ops message state.next
      some (({ state with taken := some consumer.thread }.setHeld consumer.thread
          (message :: state.held consumer.thread)).begins consumer.thread ops
        (if Op.create state.next ∈ ops then 1 else 0))
  else none

/-- A packet is popped, and the handler goes on with `ops`. -/
def pop (queue : Bool) (ops : Nat → List Op) : Option State :=
  if state.ops thread = [] then
    match state.packets queue with
    | [] => none
    | object :: rest =>
      some (((state.setPackets queue rest).setHeld thread
        (object :: state.held thread)).setOps thread (ops object))
  else none

def exec : Op → State
  | .read object =>
    { state with readReleased := state.readReleased || state.released.contains object }
  | .create object => state.setHeld thread (object :: state.held thread)
  | .delete object =>
    { state.setHeld thread ((state.held thread).erase object) with
      released := object :: state.released }
  | .pushEntry object =>
    { state.setHeld thread ((state.held thread).erase object) with
      amiRxQueue := state.amiRxQueue ++ [object] }
  | .push object =>
    (state.setHeld thread ((state.held thread).erase object)).setPackets state.current
      (state.packets state.current ++ [object])
  | .freeEntry =>
    { state with
      amiRxQueue := state.amiRxQueue.tail
      taken := none
      misfreed := state.misfreed || state.taken != some thread }

def run : Option State :=
  match state.ops thread with
  | [] => none
  | op :: rest => some ((state.exec thread op).setOps thread rest)

def step : Action → Option State
  | .onMessage isRunning =>
    if state.ops .ami = [] then
      some (state.begins .ami (Ownership.onMessage state.next isRunning) 1)
    else none
  | .waitEntry consumer => state.waitEntry consumer
  | .pop popper => state.pop popper.thread state.current fun object => [.delete object]
  | .swap =>
    if state.ops .retransmitMsg = [] then some { state with current := !state.current } else none
  | .resend => state.pop .retransmitMsg (!state.current) Ownership.resend
  | .retransmit toCompress =>
    if state.ops .retransmitMsg = [] then
      some (state.begins .retransmitMsg
        (Ownership.retransmit state.next (state.next + 1) toCompress)
        (if toCompress then 2 else 1))
    else none
  | .next thread => state.run thread

/-- The message of the first entry is no longer the queue's when it has been taken. -/
def untaken : List Nat :=
  if state.taken = none then state.amiRxQueue else state.amiRxQueue.tail

/-- The objects at each place; `reserved` are those that a handler is going to create. -/
def contents : Place → List Nat
  | .reserved thread => creations (state.ops thread)
  | .handler thread => state.held thread
  | .amiRxQueue => state.untaken
  | .packets queue => state.packets queue
  | .released => state.released

def Needs (object : Nat) : Prop :=
  ∃ thread, .read object ∈ state.ops thread

/-- `OnMessage` does not give up; `Compress` does not throw, and only `OnMessage` compresses;
`BackAmiMsg` gets messages of known endpoints only; and no packet is popped while the handler that
has pushed it still reads it. -/
def Sound : Action → Prop
  | .onMessage isRunning => isRunning = true
  | .waitEntry (.recover branch) => branch ≠ .throws
  | .waitEntry (.sendAmiMsg _ branch) => branch = .unknown ∨ branch = .plain
  | .waitEntry (.backAmiMsg branch) => branch = .plain
  | .pop _ => ∀ object ∈ (state.packets state.current).head?, ¬ state.Needs object
  | .resend => ∀ object ∈ (state.packets (!state.current)).head?, ¬ state.Needs object
  | .retransmit toCompress => toCompress = false
  | _ => True

end State

/-- The accesses of a handler that owns `held` and has an entry to free or not: it releases and
pushes only what it owns, does not read what it has released or given to the queue of AMI, and
owns nothing in the end. -/
def Safe : List Nat → Bool → List Op → Prop
  | held, entry, [] => held = [] ∧ entry = false
  | held, entry, .read _ :: ops => Safe held entry ops
  | held, entry, .create object :: ops => Safe (object :: held) entry ops
  | held, entry, .delete object :: ops =>
    object ∈ held ∧ .read object ∉ ops ∧ Safe (held.erase object) entry ops
  | held, entry, .pushEntry object :: ops =>
    object ∈ held ∧ .read object ∉ ops ∧ Safe (held.erase object) entry ops
  | held, entry, .push object :: ops => object ∈ held ∧ Safe (held.erase object) entry ops
  | _, false, .freeEntry :: _ => False
  | held, true, .freeEntry :: ops => Safe held false ops

namespace State

/-- What a handler still reads is its own, in a queue of packets, or to be created by it. -/
def Readable (state : State) (thread : Thread) (object : Nat) : Prop :=
  object ∈ state.held thread ∨ (∃ queue, object ∈ state.packets queue) ∨
    object ∈ creations (state.ops thread)

structure Invariant (state : State) : Prop where
  place : ∀ object < state.next, Placed state.contents object
  fresh : ∀ object, state.next ≤ object → ∀ place, object ∉ state.contents place
  safe : ∀ thread, Safe (state.held thread) (state.taken == some thread) (state.ops thread)
  readable : ∀ thread object, .read object ∈ state.ops thread → state.Readable thread object
  entry : state.taken ≠ none → state.amiRxQueue ≠ []
  unread : state.readReleased = false
  freed : state.misfreed = false

end State

section Kept

open State

variable {state next : State} {thread : Thread} {object : Nat} {ops : List Op}

theorem invariant_start : Invariant {} := by
  refine ⟨?_, ?_, ?_, ?_, ?_, rfl, rfl⟩
  · intro object small
    exact absurd small (Nat.not_lt_zero _)
  · intro object _ place mem
    cases place with
    | _ => cases mem
  · intro thread
    exact ⟨rfl, rfl⟩
  · nofun
  · intro taken
    exact absurd rfl taken

theorem State.Invariant.only (inv : Invariant state) {place : Place}
    (mem : object ∈ state.contents place) : OnlyAt (tokensOf state.contents object) place := by
  by_cases small : object < state.next
  · exact (inv.place object small).only mem
  · exact absurd mem (inv.fresh object (Nat.le_of_not_lt small) place)

theorem State.Readable.place (readable : state.Readable thread object) {place : Place}
    (only : OnlyAt (tokensOf state.contents object) place) :
    place = .handler thread ∨ (∃ queue, place = .packets queue) ∨ place = .reserved thread := by
  obtain held | ⟨queue, inside⟩ | creates := readable
  · have here : object ∈ state.contents (.handler thread) := held
    exact .inl (only.of_mem here).symm
  · have here : object ∈ state.contents (.packets queue) := inside
    exact .inr (.inl ⟨queue, (only.of_mem here).symm⟩)
  · have here : object ∈ state.contents (.reserved thread) := creates
    exact .inr (.inr (only.of_mem here).symm)

theorem State.Readable.not_released (readable : state.Readable thread object)
    (inv : Invariant state) : object ∉ state.released := by
  intro released
  have gone : object ∈ state.contents .released := released
  rcases readable.place (inv.only gone) with held | ⟨queue, inside⟩ | creates
  · cases held
  · cases inside
  · cases creates

structure Located (state : State) : Prop where
  place : ∀ object < state.next, Placed state.contents object
  fresh : ∀ object, state.next ≤ object → ∀ place, object ∉ state.contents place

theorem State.Invariant.located (inv : Invariant state) : Located state :=
  ⟨inv.place, inv.fresh⟩

variable {source target : Place}

theorem Located.passes (located : Located state)
    (passes : Passes state.contents next.contents object source target)
    (same : next.next = state.next) : Located next := by
  constructor
  · intro other small
    exact (located.place other (same ▸ small)).passes passes
  · intro other large
    exact passes.nowhere (located.fresh other (same ▸ large))

theorem Located.same (located : Located state) (contents : next.contents = state.contents)
    (same : next.next = state.next) : Located next := by
  constructor
  · rw [contents, same]
    exact located.place
  · rw [contents, same]
    exact located.fresh

variable {numbers : Nat}

theorem Located.begins (located : Located state) (ended : state.ops thread = [])
    (creates : creations ops = range' state.next numbers) :
    Located (state.begins thread ops numbers) := by
  have others : ∀ place, place ≠ .reserved thread →
      (state.begins thread ops numbers).contents place = state.contents place := by
    intro place apart
    cases place with
    | reserved other =>
      have away : other ≠ thread := fun same => apart (congrArg _ same)
      change creations (if other = thread then ops else state.ops other) = _
      rw [if_neg away]
      rfl
    | _ => rfl
  have here : (state.begins thread ops numbers).contents (.reserved thread) =
      range' state.next numbers := by
    change creations (if thread = thread then ops else state.ops thread) = _
    rw [if_pos rfl, creates]
  have before : state.contents (.reserved thread) = [] := by
    change creations (state.ops thread) = []
    rw [ended]
    rfl
  constructor
  · intro object small
    change object < state.next + numbers at small
    by_cases old : object < state.next
    · obtain ⟨place, only⟩ := located.place object old
      refine ⟨place, ?_⟩
      intro other
      have same : tokensOf (state.begins thread ops numbers).contents object other =
          tokensOf state.contents object other := by
        by_cases reserved : other = .reserved thread
        · have away : object ∉ range' state.next numbers := by
            rw [mem_range'_1]
            omega
          rw [reserved, tokensOf, tokensOf, here, before, count_eq_zero_of_not_mem away]
          rfl
        · rw [tokensOf, tokensOf, others other reserved]
      rw [same]
      exact only other
    · refine ⟨.reserved thread, ?_⟩
      intro other
      by_cases reserved : other = .reserved thread
      · have mem : object ∈ range' state.next numbers := by
          rw [mem_range'_1]
          omega
        rw [if_pos reserved, reserved, tokensOf, here, (nodup_range' 1).count, if_pos mem]
      · have away := located.fresh object (Nat.le_of_not_lt old) other
        rw [if_neg reserved, tokensOf, others other reserved]
        exact count_eq_zero_of_not_mem away
  · intro object large place mem
    change state.next + numbers ≤ object at large
    by_cases reserved : place = .reserved thread
    · rw [reserved, here, mem_range'_1] at mem
      omega
    · rw [others place reserved] at mem
      exact located.fresh object (by omega) place mem

variable {op : Op} {rest : List Op}

theorem ops_self (state : State) : (state.setOps thread ops).ops thread = ops := if_pos rfl

variable {other : Thread}

theorem ops_other (state : State) (away : other ≠ thread) :
    (state.setOps thread ops).ops other = state.ops other := if_neg away

structure Elsewhere (state next : State) (thread : Thread) : Prop where
  ops : ∀ other, other ≠ thread → next.ops other = state.ops other
  held : ∀ other, other ≠ thread → next.held other = state.held other

theorem Elsewhere.passes (elsewhere : Elsewhere state next thread) (apart : source ≠ target)
    (leaves : (state.contents source).Perm (object :: next.contents source))
    (arrives : (next.contents target).Perm (object :: state.contents target))
    (reserved : source ≠ .reserved thread →
      creations (next.ops thread) = creations (state.ops thread))
    (handler : source ≠ .handler thread → target ≠ .handler thread →
      next.held thread = state.held thread)
    (amiRxQueue : source ≠ .amiRxQueue → target ≠ .amiRxQueue → next.untaken = state.untaken)
    (packets : ∀ queue, source ≠ .packets queue → target ≠ .packets queue →
      next.packets queue = state.packets queue)
    (released : target ≠ .released → next.released = state.released) :
    Passes state.contents next.contents object source target := by
  refine ⟨apart, leaves, arrives, ?_⟩
  intro place notSource notTarget
  cases place with
  | reserved other =>
    by_cases same : other = thread
    · subst same
      exact reserved (Ne.symm notSource)
    · exact congrArg creations (elsewhere.ops other same)
  | handler other =>
    by_cases same : other = thread
    · subst same
      exact handler (Ne.symm notSource) (Ne.symm notTarget)
    · exact elsewhere.held other same
  | amiRxQueue => exact amiRxQueue (Ne.symm notSource) (Ne.symm notTarget)
  | packets queue => exact packets queue (Ne.symm notSource) (Ne.symm notTarget)
  | released => exact released (Ne.symm notTarget)

theorem elsewhere_exec : Elsewhere state ((state.exec thread op).setOps thread rest) thread := by
  constructor
  · intro other away
    rw [ops_other _ away]
    cases op with
    | freeEntry => rfl
    | _ => rfl
  · intro other away
    cases op with
    | read object | freeEntry => rfl
    | _ => exact if_neg away

theorem passes_create (before : state.ops thread = .create object :: rest) :
    Passes state.contents ((state.exec thread (.create object)).setOps thread rest).contents object
      (.reserved thread) (.handler thread) := by
  apply elsewhere_exec.passes
  · simp
  · change (creations (state.ops thread)).Perm (object :: creations (State.ops _ thread))
    exact .of_eq (by rw [ops_self, before]; rfl)
  · exact .of_eq (if_pos rfl)
  · intro away
    exact absurd rfl away
  · intro _ away
    exact absurd rfl away
  · intro _ _
    rfl
  · intro _ _ _
    rfl
  · intro _
    rfl

section

variable (mem : object ∈ state.held thread)
include mem

theorem passes_gives (before : state.ops thread = op :: rest)
    (creates : creations (op :: rest) = creations rest) (apart : .handler thread ≠ target)
    (held : (state.exec thread op).held thread = (state.held thread).erase object)
    (arrives : (((state.exec thread op).setOps thread rest).contents target).Perm
      (object :: state.contents target))
    (amiRxQueue : target ≠ .amiRxQueue → (state.exec thread op).untaken = state.untaken)
    (packets : ∀ queue, target ≠ .packets queue →
      (state.exec thread op).packets queue = state.packets queue)
    (released : target ≠ .released → (state.exec thread op).released = state.released) :
    Passes state.contents ((state.exec thread op).setOps thread rest).contents object
      (.handler thread) target := by
  apply elsewhere_exec.passes apart
  · change (state.held thread).Perm (object :: (state.exec thread op).held thread)
    rw [held]
    exact perm_cons_erase mem
  · exact arrives
  · intro _
    rw [ops_self, before, creates]
  · intro away _
    exact absurd rfl away
  · intro _ away
    exact amiRxQueue away
  · intro queue _ away
    exact packets queue away
  · exact released

theorem passes_delete (before : state.ops thread = .delete object :: rest) :
    Passes state.contents ((state.exec thread (.delete object)).setOps thread rest).contents object
      (.handler thread) .released := by
  apply passes_gives mem before rfl
  · simp
  · exact if_pos rfl
  · exact .refl _
  · intro _
    rfl
  · intro _ _
    rfl
  · intro away
    exact absurd rfl away

theorem passes_pushEntry (entry : state.taken ≠ none → state.amiRxQueue ≠ [])
    (before : state.ops thread = .pushEntry object :: rest) :
    Passes state.contents ((state.exec thread (.pushEntry object)).setOps thread rest).contents
      object (.handler thread) .amiRxQueue := by
  apply passes_gives mem before rfl
  · simp
  · exact if_pos rfl
  · change (if state.taken = none then state.amiRxQueue ++ [object]
      else (state.amiRxQueue ++ [object]).tail).Perm (object :: state.untaken)
    rw [untaken]
    split
    next => exact perm_append_singleton object _
    next taken =>
      rw [tail_append_of_ne_nil (entry taken)]
      exact perm_append_singleton object _
  · intro away
    exact absurd rfl away
  · intro _ _
    rfl
  · intro _
    rfl

theorem passes_push (before : state.ops thread = .push object :: rest) :
    Passes state.contents ((state.exec thread (.push object)).setOps thread rest).contents
      object (.handler thread) (.packets state.current) := by
  apply passes_gives mem before rfl
  · simp
  · exact if_pos rfl
  · change (if state.current = state.current then _ else _ : List Nat).Perm
      (object :: state.packets state.current)
    rw [if_pos rfl]
    exact perm_append_singleton object _
  · intro _
    rfl
  · intro queue away
    exact if_neg fun same => away (congrArg _ same.symm)
  · intro _
    rfl

end

theorem readable_iff : state.Readable thread object ↔ object ∈ state.contents (.handler thread) ∨
    (∃ queue, object ∈ state.contents (.packets queue)) ∨
      object ∈ state.contents (.reserved thread) := .rfl

theorem State.Readable.same (contents : next.contents = state.contents)
    (readable : state.Readable thread object) : next.Readable thread object := by
  rw [readable_iff, contents]
  exact readable

theorem State.Readable.passes (passes : Passes state.contents next.contents object source target)
    {other : Nat} (readable : state.Readable thread other) (apart : other ≠ object) :
    next.Readable thread other := by
  obtain held | ⟨queue, inside⟩ | creates := readable
  · have before : other ∈ state.contents (.handler thread) := held
    exact .inl ((passes.mem_iff apart).mpr before)
  · have before : other ∈ state.contents (.packets queue) := inside
    exact .inr (.inl ⟨queue, (passes.mem_iff apart).mpr before⟩)
  · have before : other ∈ state.contents (.reserved thread) := creates
    exact .inr (.inr ((passes.mem_iff apart).mpr before))

theorem reads_before (before : state.ops thread = op :: rest) {read : Nat}
    (reads : .read read ∈ ((state.exec thread op).setOps thread rest).ops other) :
    .read read ∈ state.ops other := by
  by_cases same : other = thread
  · subst same
    rw [ops_self] at reads
    rw [before]
    exact mem_cons_of_mem _ reads
  · rw [elsewhere_exec.ops other same] at reads
    exact reads

section

variable (inv : Invariant state)
include inv

/-- An access that takes an object from the place of a handler leaves the other objects, and the
object itself is read afterwards only where it can be. -/
theorem invariant_passes (before : state.ops thread = op :: rest)
    (passes : Passes state.contents ((state.exec thread op).setOps thread rest).contents object
      source target) (own : source = .handler thread ∨ source = .reserved thread)
    (same : (state.exec thread op).next = state.next)
    (taken : (state.exec thread op).taken = state.taken)
    (safe : Safe ((state.exec thread op).held thread) (state.taken == some thread) rest)
    (readable : .read object ∈ rest →
      ((state.exec thread op).setOps thread rest).Readable thread object)
    (entry : state.taken ≠ none → (state.exec thread op).amiRxQueue ≠ [])
    (unread : (state.exec thread op).readReleased = state.readReleased)
    (freed : (state.exec thread op).misfreed = state.misfreed) :
    Invariant ((state.exec thread op).setOps thread rest) := by
  obtain ⟨place, fresh⟩ := inv.located.passes passes same
  refine ⟨place, fresh, ?_, ?_, ?_, unread.trans inv.unread, freed.trans inv.freed⟩
  · intro other
    change Safe _ ((state.exec thread op).taken == some other) _
    rw [taken]
    by_cases own : other = thread
    · subst own
      rw [ops_self]
      exact safe
    · rw [elsewhere_exec.ops other own, elsewhere_exec.held other own]
      exact inv.safe other
  · intro other read reads
    have reading := inv.readable other read (reads_before before reads)
    by_cases moved : read = object
    · subst moved
      have mem : read ∈ state.contents source := passes.leaves.mem_iff.mpr mem_cons_self
      have owner : other = thread := by
        rcases reading.place (inv.only mem) with held | ⟨queue, inside⟩ | creates
        · cases own with
          | inl handler => exact (Place.handler.inj (handler.symm.trans held)).symm
          | inr reserved => exact absurd (reserved.symm.trans held) (by simp)
        · cases own with
          | inl handler | inr handler => exact absurd (handler.symm.trans inside) (by simp)
        · cases own with
          | inl handler => exact absurd (handler.symm.trans creates) (by simp)
          | inr reserved => exact (Place.reserved.inj (reserved.symm.trans creates)).symm
      subst owner
      rw [ops_self] at reads
      exact readable reads
    · exact reading.passes passes moved
  · change (state.exec thread op).taken ≠ none → (state.exec thread op).amiRxQueue ≠ []
    rw [taken]
    exact entry

theorem invariant_read (before : state.ops thread = .read object :: rest) :
    Invariant ((state.exec thread (.read object)).setOps thread rest) := by
  have contents : ((state.exec thread (.read object)).setOps thread rest).contents =
      state.contents := by
    funext place
    cases place with
    | reserved other =>
      change creations (State.ops _ other) = creations (state.ops other)
      by_cases same : other = thread
      · subst same
        rw [ops_self, before]
        rfl
      · rw [elsewhere_exec.ops other same]
    | _ => rfl
  obtain ⟨place, fresh⟩ := inv.located.same contents rfl
  refine ⟨place, fresh, ?_, ?_, inv.entry, ?_, inv.freed⟩
  · intro other
    have safe := inv.safe other
    by_cases same : other = thread
    · subst same
      rw [before, Safe] at safe
      rw [ops_self]
      exact safe
    · rw [elsewhere_exec.ops other same]
      exact safe
  · intro other read reads
    exact (inv.readable other read (reads_before before reads)).same contents
  · have readable := inv.readable thread object (before ▸ mem_cons_self)
    have unreleased := readable.not_released inv
    change (state.readReleased || state.released.contains object) = false
    rw [inv.unread, Bool.false_or]
    exact Bool.eq_false_iff.mpr fun contained => unreleased (contains_iff_mem.mp contained)

theorem invariant_freeEntry (before : state.ops thread = .freeEntry :: rest) :
    Invariant ((state.exec thread .freeEntry).setOps thread rest) := by
  have safe := inv.safe thread
  rw [before] at safe
  have taken : state.taken = some thread := by
    by_cases own : state.taken = some thread
    · exact own
    · have other : (state.taken == some thread) = false := beq_eq_false_iff_ne.mpr own
      rw [other] at safe
      exact safe.elim
  have contents : ((state.exec thread .freeEntry).setOps thread rest).contents =
      state.contents := by
    funext place
    cases place with
    | reserved other =>
      change creations (State.ops _ other) = creations (state.ops other)
      by_cases same : other = thread
      · subst same
        rw [ops_self, before]
        rfl
      · rw [elsewhere_exec.ops other same]
    | handler other | packets queue | released => rfl
    | amiRxQueue =>
      change state.amiRxQueue.tail = state.untaken
      rw [untaken, taken, if_neg (by simp)]
  obtain ⟨place, fresh⟩ := inv.located.same contents rfl
  refine ⟨place, fresh, ?_, ?_, ?_, inv.unread, ?_⟩
  · intro other
    by_cases same : other = thread
    · subst same
      rw [taken, beq_self_eq_true, Safe] at safe
      rw [ops_self]
      exact safe
    · have others := inv.safe other
      have not : (state.taken == some other) = false := by
        rw [taken]
        exact beq_eq_false_iff_ne.mpr fun equal => same (Option.some.inj equal).symm
      rw [not] at others
      rw [elsewhere_exec.ops other same]
      exact others
  · intro other read reads
    exact (inv.readable other read (reads_before before reads)).same contents
  · intro some
    exact absurd rfl some
  · change (state.misfreed || state.taken != some thread) = false
    rw [inv.freed, taken, bne_self_eq_false, Bool.false_or]

theorem invariant_run (went : state.run thread = some next) : Invariant next := by
  rw [run] at went
  cases before : state.ops thread with rw [before] at went
  | nil => cases went
  | cons op rest =>
    cases went
    have safe := inv.safe thread
    rw [before] at safe
    cases op with
    | read object => exact invariant_read inv before
    | create object =>
      have held : (state.exec thread (.create object)).held thread =
        object :: state.held thread := if_pos rfl
      refine invariant_passes inv before (passes_create before) (.inr rfl) rfl rfl ?_ ?_
        inv.entry rfl rfl
      · rw [held]
        exact safe
      · intro _
        exact .inl (mem_of_mem_head? (congrArg head? held))
    | delete object =>
      obtain ⟨mem, unread, safe⟩ := safe
      refine invariant_passes inv before (passes_delete mem before) (.inl rfl) rfl rfl
        ?_ ?_ inv.entry rfl rfl
      · have held : (state.exec thread (.delete object)).held thread =
          (state.held thread).erase object := if_pos rfl
        rw [held]
        exact safe
      · intro reads
        exact absurd reads unread
    | pushEntry object =>
      obtain ⟨mem, unread, safe⟩ := safe
      refine invariant_passes inv before
        (passes_pushEntry mem inv.entry before) (.inl rfl) rfl rfl ?_ ?_ ?_ rfl rfl
      · have held : (state.exec thread (.pushEntry object)).held thread =
          (state.held thread).erase object := if_pos rfl
        rw [held]
        exact safe
      · intro reads
        exact absurd reads unread
      · intro _
        exact append_ne_nil_of_right_ne_nil _ (cons_ne_nil _ _)
    | push object =>
      obtain ⟨mem, safe⟩ := safe
      refine invariant_passes inv before (passes_push mem before) (.inl rfl) rfl rfl
        ?_ ?_ inv.entry rfl rfl
      · have held : (state.exec thread (.push object)).held thread =
          (state.held thread).erase object := if_pos rfl
        rw [held]
        exact safe
      · intro _
        have packets : (((state.exec thread (.push object)).setOps thread rest).packets
            state.current) = state.packets state.current ++ [object] := if_pos rfl
        refine .inr (.inl ⟨state.current, ?_⟩)
        rw [packets]
        exact mem_append_right _ (mem_singleton.mpr rfl)
    | freeEntry => exact invariant_freeEntry inv before

theorem ended (ops : state.ops thread = []) :
    state.held thread = [] ∧ (state.taken == some thread) = false := by
  have safe := inv.safe thread
  rw [ops, Safe] at safe
  exact safe

theorem invariant_handler (located : Located next) (elsewhere : Elsewhere state next thread)
    (safe : Safe (next.held thread) (next.taken == some thread) (next.ops thread))
    (reads : ∀ object, .read object ∈ next.ops thread → next.Readable thread object)
    (others : ∀ other, other ≠ thread → (next.taken == some other) = (state.taken == some other) ∧
      ∀ object, .read object ∈ state.ops other → state.Readable other object →
        next.Readable other object) (entry : next.taken ≠ none → next.amiRxQueue ≠ [])
    (unread : next.readReleased = state.readReleased) (freed : next.misfreed = state.misfreed) :
    Invariant next := by
  refine ⟨located.place, located.fresh, ?_, ?_, entry, unread.trans inv.unread,
    freed.trans inv.freed⟩
  · intro other
    by_cases same : other = thread
    · subst same
      exact safe
    · rw [elsewhere.held other same, elsewhere.ops other same, (others other same).1]
      exact inv.safe other
  · intro other object reading
    by_cases same : other = thread
    · subst same
      exact reads object reading
    · rw [elsewhere.ops other same] at reading
      exact (others other same).2 object reading (inv.readable other object reading)

theorem invariant_begins (before : state.ops thread = [])
    (creates : creations ops = range' state.next numbers) (safe : Safe [] false ops)
    (reads : ∀ object, .read object ∈ ops → object ∈ creations ops) :
    Invariant (state.begins thread ops numbers) := by
  obtain ⟨held, taken⟩ := ended inv before
  have own : (state.begins thread ops numbers).ops thread = ops := if_pos rfl
  have elsewhere : Elsewhere state (state.begins thread ops numbers) thread :=
    ⟨fun _ away => if_neg away, fun _ _ => rfl⟩
  apply invariant_handler inv (inv.located.begins before creates) elsewhere
  · change Safe (state.held thread) (state.taken == some thread) _
    rw [own, held, taken]
    exact safe
  · intro object reading
    rw [own] at reading
    refine .inr (.inr ?_)
    rw [own]
    exact reads object reading
  · intro other away
    refine ⟨rfl, ?_⟩
    intro object _ readable
    obtain mine | inside | creates := readable
    · exact .inl mine
    · exact .inr (.inl inside)
    · refine .inr (.inr ?_)
      rw [elsewhere.ops other away]
      exact creates
  · exact inv.entry
  all_goals rfl

theorem invariant_pop {queue : Bool} {program : Nat → List Op}
    (unneeded : ∀ object ∈ (state.packets queue).head?, ¬ state.Needs object)
    (creates : ∀ object, creations (program object) = [])
    (safe : ∀ object, Safe [object] false (program object))
    (reads : ∀ object other, .read other ∈ program object → other = object)
    (went : state.pop thread queue program = some next) : Invariant next := by
  rw [State.pop] at went
  split at went
  next before =>
    split at went
    next => cases went
    next object rest holds =>
      generalize after : ((state.setPackets queue rest).setHeld thread
        (object :: state.held thread)).setOps thread (program object) = final at went
      cases went
      obtain ⟨held, taken⟩ := ended inv before
      have ops : next.ops thread = program object := by rw [← after]; exact ops_self _
      have owns : next.held thread = object :: state.held thread := by
        rw [← after]
        exact if_pos rfl
      have elsewhere : Elsewhere state next thread := by
        rw [← after]
        exact ⟨fun _ away => if_neg away, fun _ away => if_neg away⟩
      have passes : Passes state.contents next.contents object (.packets queue)
          (.handler thread) := by
        apply elsewhere.passes
        · simp
        · change (state.packets queue).Perm (object :: next.packets queue)
          have left : next.packets queue = rest := by rw [← after]; exact if_pos rfl
          exact .of_eq (by rw [left, holds])
        · change (next.held thread).Perm (object :: state.held thread)
          exact .of_eq owns
        · intro _
          rw [ops, creates, before]
          rfl
        · intro _ away
          exact absurd rfl away
        · intro _ _
          rw [← after]
          rfl
        · intro other away _
          rw [← after]
          exact if_neg fun same => away (congrArg _ same.symm)
        · intro _
          rw [← after]
          rfl
      have same : next.next = state.next ∧ next.taken = state.taken ∧
          next.amiRxQueue = state.amiRxQueue ∧ next.readReleased = state.readReleased ∧
          next.misfreed = state.misfreed := by
        rw [← after]
        exact ⟨rfl, rfl, rfl, rfl, rfl⟩
      obtain ⟨nextSame, takenSame, queueSame, unread, freed⟩ := same
      apply invariant_handler inv (inv.located.passes passes nextSame) elsewhere
      · rw [ops, owns, held, takenSame, taken]
        exact safe object
      · intro other reading
        rw [ops] at reading
        cases reads object other reading
        refine .inl ?_
        rw [owns]
        exact mem_cons_self
      · intro other _
        refine ⟨by rw [takenSame], ?_⟩
        intro read reading readable
        have apart : read ≠ object := by
          intro equal
          apply unneeded object
          · rw [holds]
            rfl
          · exact ⟨other, equal ▸ reading⟩
        exact readable.passes passes apart
      · rw [takenSame, queueSame]
        exact inv.entry
      · exact unread
      · exact freed
  next => cases went

end

theorem passes_waitEntry {rest : List Nat} (untaken : state.taken = none)
    (holds : state.amiRxQueue = object :: rest) :
    Passes state.contents ({ state with taken := some thread }.setHeld thread
      (object :: state.held thread)).contents object .amiRxQueue (.handler thread) := by
  have elsewhere : Elsewhere state ({ state with taken := some thread }.setHeld thread
      (object :: state.held thread)) thread :=
    ⟨fun _ _ => rfl, fun _ away => if_neg away⟩
  apply elsewhere.passes
  · simp
  · have left : state.untaken = state.amiRxQueue := if_pos untaken
    refine .of_eq ?_
    change state.untaken = object :: state.amiRxQueue.tail
    rw [left, holds]
    rfl
  · exact .of_eq (if_pos rfl)
  · intro _
    rfl
  · intro _ away
    exact absurd rfl away
  · intro away _
    exact absurd rfl away
  · intro _ _ _
    rfl
  · intro _
    rfl

theorem invariant_takes (inv : Invariant state) (before : state.ops thread = [])
    (untaken : state.taken = none) {rest : List Nat} (holds : state.amiRxQueue = object :: rest)
    (creates : creations ops = range' state.next numbers) (safe : Safe [object] true ops)
    (reads : ∀ other, .read other ∈ ops → other = object ∨ other ∈ creations ops) :
    Invariant (({ state with taken := some thread }.setHeld thread
      (object :: state.held thread)).begins thread ops numbers) := by
  have passes := @passes_waitEntry _ thread _ _ untaken holds
  have located := (inv.located.passes passes rfl).begins before creates
  generalize after : State.begins _ thread ops numbers = next at located ⊢
  have ops_next : next.ops thread = ops := by rw [← after]; exact if_pos rfl
  have held_next : next.held thread = [object] := by
    rw [← after]
    exact (if_pos rfl).trans (congrArg _ (ended inv before).1)
  have taken_next : next.taken = some thread := by rw [← after]; rfl
  have elsewhere : Elsewhere state next thread := by
    rw [← after]
    exact ⟨fun _ away => if_neg away, fun _ away => if_neg away⟩
  apply invariant_handler inv located elsewhere
  · rw [held_next, taken_next, ops_next, beq_self_eq_true]
    exact safe
  · intro other reading
    rw [ops_next] at reading
    cases reads other reading with
    | inl same =>
      refine .inl ?_
      rw [held_next, same]
      exact mem_singleton.mpr rfl
    | inr creates =>
      refine .inr (.inr ?_)
      rw [ops_next]
      exact creates
  · intro other away
    refine ⟨?_, ?_⟩
    · rw [taken_next, untaken]
      exact beq_eq_false_iff_ne.mpr fun same => away (Option.some.inj same).symm
    · intro read _ readable
      obtain mine | inside | creates := readable
      · refine .inl ?_
        rw [elsewhere.held other away]
        exact mine
      · refine .inr (.inl ?_)
        rw [← after]
        exact inside
      · refine .inr (.inr ?_)
        rw [elsewhere.ops other away]
        exact creates
  · intro _
    rw [← after]
    rw [holds]
    exact cons_ne_nil _ _
  · rw [← after]
    rfl
  · rw [← after]
    rfl

/-- A handler that can begin with the message of an entry. -/
structure Consumer.Keeps (consumer : Consumer) (message buffer : Nat) : Prop where
  creates : creations (consumer.ops message buffer) =
    range' buffer (if Op.create buffer ∈ consumer.ops message buffer then 1 else 0)
  safe : Safe [message] true (consumer.ops message buffer)
  reads : ∀ object, .read object ∈ consumer.ops message buffer →
    object = message ∨ object ∈ creations (consumer.ops message buffer)

variable {consumer : Consumer}

theorem invariant_waitEntry (inv : Invariant state)
    (keeps : ∀ message buffer, consumer.Keeps message buffer)
    (went : state.waitEntry consumer = some next) : Invariant next := by
  rw [waitEntry] at went
  split at went
  next conditions =>
    obtain ⟨before, joined⟩ := conditions
    have untaken : state.taken = none := by
      cases taken : state.taken with
      | none => rfl
      | some other =>
        rw [taken] at joined
        have others := (ended inv (isEmpty_iff.mp joined)).2
        rw [taken, beq_self_eq_true] at others
        cases others
    split at went <;> cases went
    next message rest holds =>
      obtain ⟨creates, safe, reads⟩ := keeps message state.next
      exact invariant_takes inv before untaken holds creates safe reads
  next => cases went

variable {message buffer : Nat}

theorem keeps_delete (consumer : Consumer)
    (program : consumer.ops message buffer = [.read message, .delete message, .freeEntry]) :
    consumer.Keeps message buffer := by
  refine ⟨?_, ?_, ?_⟩
  · simp [program, creations]
  · simp [program, Safe]
  · simp [program]

theorem keeps_push (consumer : Consumer) {after : List Op}
    (program : consumer.ops message buffer = .read message :: .push message :: .freeEntry :: after)
    (reads : ∀ op ∈ after, op = .read message) : consumer.Keeps message buffer := by
  have rest : creations after = [] ∧ Safe [] false after ∧ Op.create buffer ∉ after := by
    clear program
    induction after with
    | nil => exact ⟨rfl, ⟨rfl, rfl⟩, not_mem_nil⟩
    | cons op after ih =>
      obtain ⟨creates, safe, fresh⟩ := ih fun op mem => reads op (mem_cons_of_mem _ mem)
      cases reads op mem_cons_self
      refine ⟨creates, safe, ?_⟩
      simp [fresh]
  obtain ⟨creates, safe, fresh⟩ := rest
  refine ⟨?_, ?_, ?_⟩
  · simp [program, creations, creates, fresh]
  · simp [program, Safe, safe]
  · intro object reading
    rw [program] at reading
    simp only [mem_cons, Op.read.injEq, reduceCtorEq, false_or] at reading
    cases reading with
    | inl same => exact .inl same
    | inr later => exact .inl (Op.read.inj (reads _ later))

theorem keeps_compressed (message buffer : Nat) :
    (Consumer.recover .compressed).Keeps message buffer := by
  refine ⟨?_, ?_, ?_⟩
  · simp [Consumer.ops, Ownership.recover, creations]
  · simp [Consumer.ops, Ownership.recover, Safe]
  · simp [Consumer.ops, Ownership.recover]

theorem keeps_of_sound (sound : state.Sound (.waitEntry consumer)) (message buffer : Nat) :
    consumer.Keeps message buffer := by
  cases consumer with
  | recover branch =>
    cases branch with
    | unknown => exact keeps_delete _ rfl
    | plain =>
      apply keeps_push _ rfl
      nofun
    | compressed => exact keeps_compressed message buffer
    | throws => exact absurd rfl sound
  | sendAmiMsg sent branch =>
    cases sound with
    | inl unknown =>
      subst unknown
      exact keeps_delete _ rfl
    | inr plain =>
      subst plain
      apply keeps_push _ rfl
      intro op mem
      cases sent with
      | false | true => simpa using mem
  | backAmiMsg branch =>
    cases sound
    apply keeps_push _ rfl
    nofun
  | handleSyncMsg => exact keeps_delete _ rfl

theorem invariant_swap (inv : Invariant state) :
    Invariant { state with current := !state.current } := by
  have contents : State.contents { state with current := !state.current } = state.contents := by
    funext place
    cases place with
    | _ => rfl
  obtain ⟨place, fresh⟩ := inv.located.same contents rfl
  refine { inv with place := place, fresh := fresh, readable := ?_ }
  intro thread object reading
  exact (inv.readable thread object reading).same contents

theorem invariant_step {action : Action} (inv : Invariant state)
    (sound : state.Sound action) (went : state.step action = some next) : Invariant next := by
  cases action with
  | onMessage isRunning =>
    cases sound
    rw [State.step] at went
    split at went <;> cases went
    next before =>
      apply invariant_begins inv before rfl
      · simp [Ownership.onMessage, Safe]
      · simp [Ownership.onMessage]
  | waitEntry consumer => exact invariant_waitEntry inv (keeps_of_sound sound) went
  | pop popper =>
    apply invariant_pop inv sound _ _ _ went
    · intro _
      rfl
    · simp [Safe]
    · simp
  | swap =>
    rw [State.step] at went
    split at went <;> cases went
    exact invariant_swap inv
  | resend =>
    apply invariant_pop inv sound _ _ _ went
    · intro _
      rfl
    · simp [Ownership.resend, Safe]
    · simp [Ownership.resend]
  | retransmit toCompress =>
    cases sound
    rw [State.step] at went
    split at went <;> cases went
    next before =>
      apply invariant_begins inv before rfl
      · simp [Ownership.retransmit, Safe]
      · simp [Ownership.retransmit, creations]
  | next thread => exact invariant_run inv went

end Kept

end AdkAaf.AmiBridge.Ownership
