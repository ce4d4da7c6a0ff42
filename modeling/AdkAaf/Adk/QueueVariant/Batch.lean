import AdkAaf.Adk.QueueVariant.Basic
import AdkAaf.Lib.RingLaps

/-! Whole calls of the queues of `adk/include/adk/lock_free_queue_variant.h` while no other
call is running: `TryPush` of a batch, `TryPop`, and `ElementAt`, which looks at an element
without taking it. The single-producer queue looks at the sign of `pos` only, the
multi-producer queue at the lap. -/

set_option autoImplicit false

namespace AdkAaf.Adk.QueueVariant

open Function Lib List

inductive Kind where
  | spsc
  | mpmc
  deriving DecidableEq

structure Quiet (Value : Type) where
  pos : Nat → Int
  buffer : Nat → Value
  head : Nat
  tail : Nat

namespace Quiet

variable {Value : Type}

def create (config : Config) (buffer : Nat → Value) : Quiet Value :=
  { pos := config.initEntries, buffer, head := config.firstIndex, tail := config.firstIndex }

section Calls

variable (config : Config) (kind : Kind) (queue : Quiet Value)

def admits (index : Nat) : Bool :=
  let pos := queue.pos (config.getInQueueIndex index)
  match kind with
  | .spsc => ¬ 0 < pos
  | .mpmc => Ready config .producer index pos

/-- The loop of the allocation over the indices from `index` on. -/
def tryAllocEntry : Nat → Nat → Bool
  | _, 0 => true
  | index, num + 1 =>
    if admits config kind queue index then tryAllocEntry (index + 1) num else false

def postEntry (index : Nat) (value : Value) : Quiet Value :=
  let slot := config.getInQueueIndex index
  { queue with
    buffer := update queue.buffer slot value
    pos := update queue.pos slot (postPos config (queue.pos slot))
    tail := match kind with
      | .spsc => queue.tail + 1
      | .mpmc => queue.tail }

end Calls

def postEntries (config : Config) (kind : Kind) : Nat → List Value → Quiet Value → Quiet Value
  | _, [], queue => queue
  | index, value :: rest, queue =>
    postEntries config kind (index + 1) rest (postEntry config kind queue index value)

/-- The multi-producer queue moves the tail past the batch before it fills it. -/
def takeIndices (kind : Kind) (queue : Quiet Value) (num : Nat) : Quiet Value :=
  match kind with
  | .spsc => queue
  | .mpmc => { queue with tail := queue.tail + num }

def tryPush (config : Config) (kind : Kind) (queue : Quiet Value) (payload : List Value) :
    ReturnCode × Quiet Value :=
  if tryAllocEntry config kind queue queue.tail payload.length then
    (.kSuccess, postEntries config kind queue.tail payload
      (takeIndices kind queue payload.length))
  else
    (.kQueueFull, queue)

def tryPop (config : Config) (kind : Kind) (queue : Quiet Value) : Option Value × Quiet Value :=
  let slot := config.getInQueueIndex queue.head
  let empty : Bool := match kind with
    | .spsc => queue.pos slot < 0
    | .mpmc => (queue.head : Int) ≠ queue.pos slot
  if empty then (none, queue)
  else
    (some (queue.buffer slot),
      { queue with
        pos := update queue.pos slot (freePos (queue.pos slot))
        head := queue.head + 1 })

def elementAt (config : Config) (queue : Quiet Value) (index : Nat) : Option Nat :=
  let slot := config.getInQueueIndex ((queue.head + index) % 2 ^ 64)
  if queue.pos slot < 0 then none else some slot

inductive Call (Value : Type) where
  | tryPush (payload : List Value)
  | tryPop

def step (config : Config) (kind : Kind) (queue : Quiet Value) :
    Call Value → Option (Quiet Value)
  | .tryPush payload => some (queue.tryPush config kind payload).2
  | .tryPop => some (queue.tryPop config kind).2

/-- The slots from `head` on hold the contents, the others wait for the indices from `tail`
on. -/
structure Holds (config : Config) (contents : List Value) (queue : Quiet Value) : Prop where
  start : config.queueSize < queue.head
  ends : queue.tail = queue.head + contents.length
  fits : contents.length ≤ config.queueSize
  filled : ∀ offset value, contents[offset]? = some value →
    queue.pos (config.getInQueueIndex (queue.head + offset)) = (queue.head + offset : Nat) ∧
      queue.buffer (config.getInQueueIndex (queue.head + offset)) = value
  free : ∀ index, queue.tail ≤ index → index < queue.head + config.queueSize →
    queue.pos (config.getInQueueIndex index) = config.queueSize - index

/-- The queue holds some elements, and a push adds the whole batch if there is room and
changes nothing else. -/
def AllOrNothing (config : Config) (kind : Kind) (queue : Quiet Value) : Call Value → Prop
  | .tryPush payload => ∃ contents, queue.Holds config contents ∧
      if contents.length + payload.length ≤ config.queueSize then
        ∃ next, queue.tryPush config kind payload = (.kSuccess, next) ∧
          next.Holds config (contents ++ payload)
      else
        queue.tryPush config kind payload = (.kQueueFull, queue)
  | .tryPop => ∃ contents, queue.Holds config contents

/-- A batch that is larger than the ring does not meet an empty single-producer queue. -/
def BatchFits (config : Config) (kind : Kind) (queue : Quiet Value) : Call Value → Prop
  | .tryPush payload => kind = .mpmc ∨ queue.head ≠ queue.tail ∨
      payload.length ≤ config.queueSize
  | .tryPop => True

variable {config : Config} {kind : Kind} {queue : Quiet Value} {contents : List Value}

theorem getInQueueIndex_eq (config : Config) (i : Nat) :
    config.getInQueueIndex i = i % config.queueSize :=
  Nat.and_two_pow_sub_one_eq_mod i config.exponent

theorem slot_add_size (config : Config) (index : Nat) :
    config.getInQueueIndex (index + config.queueSize) = config.getInQueueIndex index := by
  rw [getInQueueIndex_eq, getInQueueIndex_eq, Nat.add_mod_right]

theorem slot_add_mod (config : Config) (base off : Nat) :
    config.getInQueueIndex (base + off) =
      config.getInQueueIndex (base + off % config.queueSize) := by
  rw [getInQueueIndex_eq, getInQueueIndex_eq, Nat.add_mod_mod]

theorem slot_ne (config : Config) {i other : Nat} (before : i < other)
    (window : other < i + config.queueSize) :
    config.getInQueueIndex i ≠ config.getInQueueIndex other := by
  rw [getInQueueIndex_eq, getInQueueIndex_eq]
  exact mod_ne_of_window before window

theorem holds_create {entrySize : Nat} (least : 16 ≤ entrySize)
    (block : config.queueSize * entrySize < 2 ^ 32) (buffer : Nat → Value) :
    Holds config [] (create config buffer) := by
  have small : config.queueSize * 16 < 2 ^ 32 :=
    Nat.lt_of_le_of_lt (Nat.mul_le_mul_left _ least) block
  have positive := config.queueSize_pos
  have first : config.firstIndex = config.queueSize * 2 := Nat.mod_eq_of_lt (by omega)
  refine ⟨?_, rfl, Nat.zero_le _, ?_, ?_⟩
  · show config.queueSize < config.firstIndex
    omega
  · nofun
  · intro index above below
    have above : config.queueSize * 2 ≤ index := first ▸ above
    have below : index < config.queueSize * 2 + config.queueSize := first ▸ below
    have lap : index % config.queueSize = index - config.queueSize * 2 := by
      obtain ⟨offset, rfl⟩ := Nat.exists_eq_add_of_le above
      rw [Nat.mul_add_mod, Nat.add_sub_cancel_left]
      exact Nat.mod_eq_of_lt (by omega)
    show config.initEntries (config.getInQueueIndex index) = _
    rw [getInQueueIndex_eq, lap, Config.initEntries]
    omega

theorem tryAllocEntry_iff (index num : Nat) : tryAllocEntry config kind queue index num = true ↔
    ∀ offset < num, admits config kind queue (index + offset) = true := by
  induction num generalizing index with
  | zero => simp [tryAllocEntry]
  | succ num ih =>
    unfold tryAllocEntry
    constructor
    · intro admitted offset below
      split at admitted
      · next first =>
        cases offset with
        | zero => exact first
        | succ offset =>
          rw [← Nat.succ_add_eq_add_succ]
          exact (ih (index + 1)).mp admitted offset (Nat.lt_of_succ_lt_succ below)
      · cases admitted
    · intro all
      rw [if_pos (by exact all 0 (Nat.succ_pos _))]
      refine (ih (index + 1)).mpr fun offset below => ?_
      rw [Nat.succ_add_eq_add_succ]
      exact all (offset + 1) (Nat.succ_lt_succ below)

section

variable (holds : Holds config contents queue)
include holds

theorem Holds.admits_free {index : Nat} (above : queue.tail ≤ index)
    (below : index < queue.head + config.queueSize) : admits config kind queue index = true := by
  have free := holds.free index above below
  have start := holds.start
  have ends := holds.ends
  cases kind with
  | spsc =>
    simp only [admits, free, decide_eq_true_eq]
    omega
  | mpmc =>
    simp only [admits, free, Ready, decide_eq_true_eq]
    omega

theorem Holds.not_admits_head (seen : kind = .mpmc ∨ contents ≠ []) :
    ¬ admits config kind queue (queue.head + config.queueSize) = true := by
  have start := holds.start
  have positive := config.queueSize_pos
  cases contents with
  | nil =>
    obtain rfl := seen.resolve_right (by simp)
    have free := holds.free queue.head holds.ends.le (by omega)
    simp only [admits, slot_add_size, free, Ready, decide_eq_true_eq]
    omega
  | cons first rest =>
    have filled := (holds.filled 0 first rfl).1
    rw [Nat.add_zero] at filled
    cases kind with
    | spsc =>
      simp only [admits, slot_add_size, filled, decide_eq_true_eq]
      omega
    | mpmc =>
      simp only [admits, slot_add_size, filled, Ready, decide_eq_true_eq]
      omega

theorem Holds.postEntry (room : contents.length < config.queueSize) (value : Value) :
    Holds config (contents ++ [value]) (queue.postEntry config .spsc queue.tail value) := by
  have ends := holds.ends
  refine ⟨holds.start, ?_, ?_, ?_, ?_⟩
  · show queue.tail + 1 = _
    rw [length_append, List.length_singleton, ends]
    rfl
  · rw [length_append, List.length_singleton]
    exact room
  · intro offset other found
    rw [List.getElem?_append] at found
    dsimp only [Quiet.postEntry]
    split at found
    · next earlier =>
      have apart := @slot_ne config (queue.head + offset) queue.tail (by omega) (by omega)
      rw [update_of_ne apart, update_of_ne apart]
      exact holds.filled offset other found
    · next later =>
      obtain ⟨bound, rfl⟩ := List.getElem?_eq_some_iff.mp found
      have last : offset = contents.length := by
        simp only [List.length_singleton] at bound
        omega
      subst last
      have free := holds.free queue.tail .refl (by omega)
      rw [← ends, update_self, update_self, postPos, free]
      exact ⟨by omega, by simp⟩
  · intro index above below
    have apart := @slot_ne config queue.tail index above
      (by have below : index < queue.head + config.queueSize := below; omega)
    show update queue.pos _ _ _ = _
    rw [update_of_ne apart.symm]
    exact holds.free index (Nat.le_of_succ_le above) below

theorem Holds.postEntries {payload : List Value}
    (room : contents.length + payload.length ≤ config.queueSize) :
    Holds config (contents ++ payload)
      (Quiet.postEntries config .spsc queue.tail payload queue) := by
  induction payload generalizing contents queue with
  | nil => rwa [append_nil]
  | cons value rest ih =>
    rw [length_cons] at room
    have next := holds.postEntry (by omega) value
    rw [append_cons]
    exact ih next (by rw [length_append, List.length_singleton]; omega)

end

theorem postEntries_mpmc (index tail : Nat) (payload : List Value) (queue : Quiet Value) :
    postEntries config .mpmc index payload { queue with tail := tail } =
      { postEntries config .spsc index payload queue with tail := tail } := by
  induction payload generalizing index queue with
  | nil => rfl
  | cons value rest ih => exact ih (index + 1) (queue.postEntry config .spsc index value)

theorem postEntries_tail (j : Nat) (payload : List Value) (q : Quiet Value) :
    (postEntries config .spsc j payload q).tail = q.tail + payload.length := by
  induction payload generalizing j q with
  | nil => rfl
  | cons value rest ih =>
    rw [postEntries, ih, length_cons, Nat.add_comm rest.length, ← Nat.add_assoc]
    rfl

theorem Holds.tryPush_room {payload : List Value} (holds : Holds config contents queue)
    (room : contents.length + payload.length ≤ config.queueSize) :
    ∃ next, queue.tryPush config kind payload = (.kSuccess, next) ∧
      Holds config (contents ++ payload) next := by
  have ends := holds.ends
  have admitted : tryAllocEntry config kind queue queue.tail payload.length = true :=
    (tryAllocEntry_iff _ _).mpr fun offset below =>
      holds.admits_free (Nat.le_add_right _ _) (by omega)
  have posted := holds.postEntries room
  unfold tryPush
  rw [if_pos admitted]
  refine ⟨_, rfl, ?_⟩
  cases kind with
  | spsc => exact posted
  | mpmc =>
    rw [takeIndices, postEntries_mpmc, ← @postEntries_tail _ config queue.tail]
    exact posted

theorem Holds.tryPush_full {payload : List Value} (holds : Holds config contents queue)
    (full : ¬ contents.length + payload.length ≤ config.queueSize)
    (seen : kind = .mpmc ∨ contents ≠ []) :
    queue.tryPush config kind payload = (.kQueueFull, queue) := by
  have ends := holds.ends
  have fits := holds.fits
  refine if_neg fun admitted => ?_
  have all := (tryAllocEntry_iff _ _).mp admitted
  apply holds.not_admits_head seen
  have beyond := all (config.queueSize - contents.length) (by omega)
  rwa [ends, Nat.add_assoc, Nat.add_sub_cancel' fits] at beyond

theorem Holds.pos_head_neg (holds : Holds config ([] : List Value) queue) :
    queue.pos (config.getInQueueIndex queue.head) = config.queueSize - queue.head := by
  have positive := config.queueSize_pos
  exact holds.free queue.head holds.ends.le (by omega)

theorem Holds.tryPop_empty (holds : Holds config ([] : List Value) queue) :
    queue.tryPop config kind = (none, queue) := by
  have start := holds.start
  refine if_pos ?_
  cases kind with
  | spsc | mpmc =>
    simp only [holds.pos_head_neg, decide_eq_true_eq]
    omega

theorem Holds.tryPop_cons {first : Value} {rest : List Value}
    (holds : Holds config (first :: rest) queue) :
    Holds config rest (queue.tryPop config kind).2 := by
  have start := holds.start
  have ends := holds.ends
  have fits := holds.fits
  rw [length_cons] at ends fits
  have filled := (holds.filled 0 first rfl).1
  rw [Nat.add_zero] at filled
  unfold tryPop
  rw [if_neg]
  · refine ⟨Nat.lt_succ_of_lt start, ?_, Nat.le_of_succ_le fits, ?_, ?_⟩
    · show queue.tail = queue.head + 1 + rest.length
      omega
    · intro offset value found
      have inside := (List.getElem?_eq_some_iff.mp found).1
      have held := holds.filled (offset + 1) value found
      have apart := @slot_ne config queue.head (queue.head + 1 + offset) (by omega) (by omega)
      rw [← Nat.succ_add_eq_add_succ] at held
      exact ⟨(update_of_ne apart.symm ..).trans held.1, held.2⟩
    · intro index above below
      have below : index < queue.head + 1 + config.queueSize := below
      show update queue.pos _ _ _ = _
      by_cases last : index = queue.head + config.queueSize
      · subst last
        rw [slot_add_size, update_self, filled, freePos]
        omega
      · have above : queue.tail ≤ index := above
        have apart := @slot_ne config queue.head index (by omega) (by omega)
        rw [update_of_ne apart.symm]
        exact holds.free index above (by omega)
  · cases kind with
    | spsc =>
      simp only [filled, decide_eq_true_eq]
      omega
    | mpmc => simp [filled]

theorem Holds.allOrNothing_iff (holds : Holds config contents queue) (call : Call Value) :
    queue.AllOrNothing config kind call ↔ queue.BatchFits config kind call := by
  cases call with
  | tryPop => exact iff_of_true ⟨contents, holds⟩ trivial
  | tryPush payload =>
    have ends := holds.ends
    constructor
    · rintro ⟨others, held, pushed⟩
      by_contra unfit
      simp only [BatchFits, not_or, not_not, Nat.not_le] at unfit
      obtain ⟨single, empty, large⟩ := unfit
      have single : kind = .spsc := by cases kind <;> trivial
      subst single
      rw [if_neg (by omega), tryPush, if_pos] at pushed
      · cases pushed
      refine (tryAllocEntry_iff _ _).mpr fun offset _ => ?_
      have positive := Nat.mod_lt offset config.queueSize_pos
      have lapped := @Holds.admits_free _ _ .spsc _ _ holds
        (queue.tail + offset % config.queueSize) (Nat.le_add_right _ _) (by omega)
      rwa [admits, ← slot_add_mod] at lapped
    · intro fits
      refine ⟨contents, holds, ?_⟩
      split
      · next room => exact holds.tryPush_room room
      · next full =>
        refine holds.tryPush_full full ?_
        rcases fits with several | filled | short
        · exact .inl several
        · refine .inr fun none => filled ?_
          rw [ends, none, length_nil, Nat.add_zero]
        · refine .inr fun none => full ?_
          rwa [none, length_nil, Nat.zero_add]

theorem step_holds {next : Quiet Value} {call : Call Value}
    (holds : ∃ contents, Holds config contents queue) (fits : queue.BatchFits config kind call)
    (went : step config kind queue call = some next) :
    ∃ contents, Holds config contents next := by
  obtain ⟨contents, holds⟩ := holds
  cases call with
  | tryPush payload =>
    obtain rfl := Option.some.inj went
    obtain ⟨others, held, pushed⟩ := (holds.allOrNothing_iff (.tryPush payload)).mpr fits
    split at pushed
    · obtain ⟨next, made, added⟩ := pushed
      exact ⟨_, by rw [made]; exact added⟩
    · exact ⟨others, by rw [pushed]; exact held⟩
  | tryPop =>
    obtain rfl := Option.some.inj went
    cases contents with
    | nil => exact ⟨[], by rw [holds.tryPop_empty]; exact holds⟩
    | cons first rest => exact ⟨rest, holds.tryPop_cons⟩

/-- In every run from a queue whose block has room for all slots, all pushes add their whole
batch or nothing, by the room there is, if and only if no batch larger than the ring meets an
empty single-producer queue. -/
theorem tryPush_allOrNothing_iff (config : Config) (kind : Kind) {entrySize : Nat}
    (least : 16 ≤ entrySize) (block : config.queueSize * entrySize < 2 ^ 32)
    (buffer : Nat → Value) (calls : List (Call Value)) :
    Guarded (step config kind) (AllOrNothing config kind) (create config buffer) calls ↔
      Guarded (step config kind) (BatchFits config kind) (create config buffer) calls :=
  @Lib.guarded_iff_of_invariant _ _ _ _ _ (fun queue => ∃ contents, Holds config contents queue)
    (fun ⟨_, holds⟩ => holds.allOrNothing_iff _) (fun holds fits stepped =>
      step_holds holds fits stepped) _ _ ⟨[], holds_create least block buffer⟩

theorem Holds.elementAt_iff (holds : Holds config contents queue) (index : Nat) :
    (queue.elementAt config index).map queue.buffer = contents[index]? ↔
      (index % config.queueSize < contents.length → index < contents.length) := by
  have start := holds.start
  have fits := holds.fits
  have whole : config.getInQueueIndex ((queue.head + index) % 2 ^ 64) =
      config.getInQueueIndex (queue.head + index % config.queueSize) := by
    rw [← slot_add_mod, getInQueueIndex_eq, getInQueueIndex_eq]
    exact Nat.mod_mod_of_dvd _ (Nat.pow_dvd_pow 2 (config.small.trans (by decide)))
  have within := Nat.mod_lt index config.queueSize_pos
  unfold elementAt
  rw [whole]
  by_cases taken : index % config.queueSize < contents.length
  · obtain ⟨sign, value⟩ := holds.filled _ _ (List.getElem?_eq_getElem taken)
    rw [if_neg (by omega), Option.map_some, value]
    by_cases inside : index < contents.length
    · have same : index % config.queueSize = index := Nat.mod_eq_of_lt (by omega)
      refine iff_of_true ?_ fun _ => inside
      rw [List.getElem?_eq_getElem inside]
      simp [same]
    · rw [List.getElem?_eq_none (Nat.le_of_not_lt inside)]
      exact iff_of_false (by simp) fun held => inside (held taken)
  · have sign := holds.free (queue.head + index % config.queueSize)
      (by have ends := holds.ends; omega) (by omega)
    have beyond := Nat.mod_le index config.queueSize
    rw [if_pos (by omega), List.getElem?_eq_none (by omega)]
    exact iff_of_true rfl fun inside => (taken inside).elim

/-- In every state that such a run reaches, `ElementAt` points to the element of an index and to
nothing beyond the contents, except for the indices that fall onto the contents in later laps. -/
theorem elementAt_finds_iff (config : Config) (kind : Kind) {entrySize : Nat}
    (least : 16 ≤ entrySize) (block : config.queueSize * entrySize < 2 ^ 32)
    (buffer : Nat → Value) (calls : List (Call Value)) (final : Quiet Value)
    (fitting : Guarded (step config kind) (BatchFits config kind) (create config buffer) calls)
    (ran : execute (step config kind) (create config buffer) calls = some final) :
    ∃ contents, Holds config contents final ∧
      ∀ index, (final.elementAt config index).map final.buffer = contents[index]? ↔
        (index % config.queueSize < contents.length → index < contents.length) := by
  obtain ⟨contents, holds⟩ : ∃ contents, Holds config contents final :=
    invariant_of_guarded step_holds
      ⟨[], holds_create least block buffer⟩ fitting ran
  exact ⟨contents, holds, holds.elementAt_iff⟩

def twoSlots : Config := ⟨1, by decide, by decide⟩

theorem refusedBatch_allOrNothing : Guarded (step twoSlots .spsc) (AllOrNothing twoSlots .spsc)
        (create twoSlots fun _ => 0) [.tryPush [1, 2], .tryPush [3, 4, 5], .tryPop] ↔
      Guarded (step twoSlots .spsc) (BatchFits twoSlots .spsc)
        (create twoSlots fun _ => 0) [.tryPush [1, 2], .tryPush [3, 4, 5], .tryPop] :=
  tryPush_allOrNothing_iff twoSlots .spsc (Nat.le_refl 16) (by decide) _ _

theorem largeBatch_not_allOrNothing : ¬ Guarded (step twoSlots .spsc) (AllOrNothing twoSlots .spsc)
      (create twoSlots fun _ => 0) [.tryPush [1, 2, 3]] := by
  rintro ⟨⟨contents, holds, pushed⟩, _⟩
  have full : ¬ contents.length + [1, 2, 3].length ≤ twoSlots.queueSize := by
    show ¬ contents.length + 3 ≤ 2
    omega
  have success : ((create twoSlots fun _ => 0).tryPush twoSlots .spsc [1, 2, 3]).1 =
      .kSuccess := by decide
  rw [if_neg full] at pushed
  rw [pushed] at success
  cases success

theorem oneElement_found : ∃ contents, Holds twoSlots contents
      (((create twoSlots fun _ => 0).tryPush twoSlots .mpmc [7]).2) ∧
    ∀ index, ((((create twoSlots fun _ => 0).tryPush twoSlots .mpmc [7]).2).elementAt twoSlots
        index).map (((create twoSlots fun _ => 0).tryPush twoSlots .mpmc [7]).2).buffer =
          contents[index]? ↔
        (index % twoSlots.queueSize < contents.length → index < contents.length) :=
  elementAt_finds_iff twoSlots .mpmc (Nat.le_refl 16) (by decide) (fun _ => 0) [.tryPush [7]] _
    ⟨.inl rfl, trivial⟩ rfl

/-- With one element in two slots, the element at index two is the one at index zero. -/
theorem laterLap_aliases :
    ∃ final : Quiet Nat, execute (step twoSlots .spsc) (create twoSlots fun _ => 0)
        [.tryPush [7]] = some final ∧
      final.Holds twoSlots [7] ∧ final.elementAt twoSlots 2 = some 0 := by
  have holds : Holds twoSlots [] (create twoSlots fun _ => (0 : Nat)) :=
    holds_create (Nat.le_refl 16) (by decide) _
  obtain ⟨next, pushed, held⟩ := @Holds.tryPush_room _ _ .spsc _ _ [7] holds (by decide)
  refine ⟨next, congrArg some (congrArg Prod.snd pushed), held, ?_⟩
  obtain rfl := congrArg Prod.snd pushed
  decide

end Quiet

end AdkAaf.Adk.QueueVariant
