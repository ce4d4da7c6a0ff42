import AdkAaf.Adk.PipelineVariant.Ordered
import Mathlib.Data.Nat.Bitwise

/-! The ordered stage handles the messages in the order in which the entrance forwarded them.
Two invariants carry this: each number is at one place, and the numbers from `release` on, for
one lap, have each an entry of their own, which is filled when its message was pushed. -/

set_option autoImplicit false

namespace AdkAaf.Adk.PipelineVariant

open Function Lib Option List

variable {Worker In Out : Type} {config : Config Worker In Out}

theorem filled_iff (pos : UInt64) : Filled pos ↔ 2 ^ 63 ≤ pos.toNat := by
  have bound := pos.toNat_lt
  have bit : (pos &&& ((1 : UInt64) <<< 63)).toNat = (pos.toNat.testBit 63).toNat * 2 ^ 63 := by
    rw [UInt64.toNat_and, Nat.land_comm, Nat.mul_comm]
    exact Nat.two_pow_and pos.toNat 63
  have tested : pos.toNat.testBit 63 = decide (2 ^ 63 ≤ pos.toNat) := by
    rw [Nat.testBit_eq_decide_div_mod_eq]
    exact decide_eq_decide.mpr (by omega)
  rw [Filled, ne_eq, ← UInt64.toNat_inj, bit, tested]
  by_cases large : 2 ^ 63 ≤ pos.toNat
  · rw [decide_eq_true large]
    exact iff_of_true (by decide) large
  · rw [decide_eq_false large]
    exact iff_of_false (by decide) large

variable {pos : UInt64}

theorem neg_toNat (positive : 1 ≤ pos.toNat) : (-pos).toNat = 2 ^ 64 - pos.toNat := by
  rw [UInt64.toNat_neg]
  exact Nat.mod_eq_of_lt (by simp only [UInt64.size]; omega)

theorem filled_neg_iff (positive : 1 ≤ pos.toNat) : Filled (-pos) ↔ pos.toNat ≤ 2 ^ 63 := by
  rw [filled_iff, neg_toNat positive]
  omega

namespace Config

theorem size_cases (config : Config Worker In Out) : config.size.toNat = 0 ∨
    ∃ exponent ≤ 31, config.size.toNat = 2 ^ exponent ∧ config.mask.toNat = 2 ^ exponent - 1 := by
  by_cases zero : config.queueSize.toUInt32.toNat = 0
  · left
    have none : config.queueSize.toUInt32 = 0 := UInt32.toNat_inj.mp zero
    rw [size, rounded, none]
    rfl
  · by_cases large : 2 ^ 31 < config.queueSize.toUInt32.toNat
    · left
      rw [size, rounded, roundToPowerOf2_of_gt large]
      rfl
    · right
      obtain ⟨exponent, small, power, _⟩ :=
        roundToPowerOf2_of_le (by omega) (Nat.le_of_not_lt large)
      have positive : 0 < 2 ^ exponent := Nat.two_pow_pos exponent
      refine ⟨exponent, small, ?_, ?_⟩
      · rw [size, UInt32.toNat_toUInt64]
        exact power
      · have least : (1 : UInt32) ≤ config.rounded :=
          UInt32.le_iff_toNat_le.mpr (Nat.lt_of_lt_of_eq positive power.symm)
        rw [mask, UInt32.toNat_toUInt64, UInt32.toNat_sub_of_le _ _ least]
        exact congrArg (· - 1) power

theorem getInQueueIndex_ne (config : Config Worker In Out) {start : Nat} {first second : UInt64}
    (firstStart : start ≤ first.toNat) (firstEnd : first.toNat < start + config.size.toNat)
    (secondStart : start ≤ second.toNat) (secondEnd : second.toNat < start + config.size.toNat)
    (apart : first.toNat ≠ second.toNat) :
    config.getInQueueIndex first ≠ config.getInQueueIndex second := by
  rcases config.size_cases with zero | ⟨exp, small, power, masked⟩
  · omega
  · have remainder : ∀ i : UInt64,
        (config.getInQueueIndex i).toNat = i.toNat % config.size.toNat := by
      intro i
      rw [getInQueueIndex, UInt64.toNat_and, masked, power, Nat.and_two_pow_sub_one_eq_mod]
    intro same
    have equal : first.toNat % config.size.toNat = second.toNat % config.size.toNat := by
      rw [← remainder, ← remainder, same]
    by_cases before : first.toNat < second.toNat
    · exact mod_ne_of_window before (by omega) equal
    · exact mod_ne_of_window (show second.toNat < first.toNat by omega) (by omega) equal.symm

end Config

def QueuePayload.number {Data : Type} (load : QueuePayload Data) : Nat := load.stats.order.toNat

def WorkerPC.inHand {Data : Type} : WorkerPC Data → List (QueuePayload Data)
  | .receiving => []
  | .comparing load | .loadingRelease load | .storingThreshold load _ | .recomparing load
  | .writing load _ | .posting load _ => [load]

inductive Place (Worker : Type) where
  | worker (worker : Worker)
  | ring
  | consumed
  deriving DecidableEq

/-- The numbers whose entries were freed: an entry is free before `release` counts it. -/
def System.consumed (system : System Worker In Out) : Nat :=
  system.queue.release.toNat - 1 + (if system.stage = .releasing then 1 else 0)

def System.contents (system : System Worker In Out) : Place Worker → List Nat
  | .worker worker =>
    (system.workers worker).inHand.map (·.number) ++ (system.inputs worker).map (·.number)
  | .ring => system.pushed.map (·.number)
  | .consumed => range' 1 system.consumed

section

variable [DecidableEq Worker]

structure Numbered (config : Config Worker In Out) (system : System Worker In Out) : Prop where
  counted : system.order.toNat = system.forwarded.length + 1
  placed : ∀ number, 1 ≤ number → number ≤ system.forwarded.length →
    Placed system.contents number
  issued : ∀ place number, number ∈ system.contents place →
    1 ≤ number ∧ number ≤ system.forwarded.length
  inputs : ∀ worker, ∀ input ∈ system.inputs worker,
    (system.expected config)[input.number - 1]? = some (config.work worker input.data)
  inHand : ∀ worker, ∀ load ∈ (system.workers worker).inHand,
    (system.expected config)[load.number - 1]? = some load.data
  pushed : ∀ load ∈ system.pushed, (system.expected config)[load.number - 1]? = some load.data

variable {system next : System Worker In Out}

theorem Numbered.create (config : Config Worker In Out) : Numbered config (created config) where
  counted := rfl
  placed number positive below := absurd positive (Nat.not_le_of_lt (Nat.lt_succ_of_le below))
  issued place number mem := by
    cases place with
    | worker worker | ring | consumed => cases mem
  inputs worker input mem := by cases mem
  inHand worker load mem := by cases mem
  pushed load mem := by cases mem

variable {place : Place Worker}

theorem Numbered.only (numbered : Numbered config system) {k : Nat}
    (mem : k ∈ system.contents place) : OnlyAt (tokensOf system.contents k) place :=
  have bounds := numbered.issued place k mem
  (numbered.placed k bounds.1 bounds.2).only mem

theorem Numbered.apart (numbered : Numbered config system) {first second : Place Worker}
    {k other : Nat} (mem : k ∈ system.contents first)
    (otherMember : other ∈ system.contents second) (apart : second ≠ first) :
    k ≠ other := by
  rintro rfl
  exact apart ((numbered.only mem).of_mem otherMember)

theorem Numbered.above (numbered : Numbered config system) {number : Nat}
    (mem : number ∈ system.contents place) (notConsumed : place ≠ .consumed) :
    system.consumed < number := by
  by_contra below
  have bounds := numbered.issued place number mem
  have consumed : number ∈ system.contents .consumed := mem_range'_1.mpr (by omega)
  exact numbered.apart consumed mem notConsumed rfl

variable {load : QueuePayload Out}

omit [DecidableEq Worker] in
theorem mem_ring (mem : load ∈ system.pushed) : load.number ∈ system.contents .ring :=
  mem_map_of_mem mem

variable {worker : Worker}

omit [DecidableEq Worker] in
theorem mem_worker (mem : load ∈ (system.workers worker).inHand) :
    load.number ∈ system.contents (.worker worker) :=
  mem_append_left _ (mem_map_of_mem mem)

variable {pc : WorkerPC Out}
variable {input : QueuePayload In} {rest : List (QueuePayload In)}
variable {entry : UInt64}

section

variable (numbered : Numbered config system)
include numbered

theorem Numbered.congr (order : next.order = system.order) (inputs : next.inputs = system.inputs)
    (inHand : ∀ worker, (next.workers worker).inHand = (system.workers worker).inHand)
    (forwarded : next.forwarded = system.forwarded) (pushed : next.pushed = system.pushed)
    (consumed : next.consumed = system.consumed) : Numbered config next := by
  have same : next.contents = system.contents := by
    funext place
    cases place with
    | worker worker => simp only [System.contents, inHand, inputs]
    | ring => simp only [System.contents, pushed]
    | consumed => simp [System.contents, consumed]
  have expected : next.expected config = system.expected config := by
    rw [System.expected, forwarded, System.expected]
  constructor
  · rw [order, forwarded]
    exact numbered.counted
  · rw [forwarded, same]
    exact numbered.placed
  · rw [forwarded, same]
    exact numbered.issued
  · rw [inputs, expected]
    exact numbered.inputs
  · intro worker load mem
    rw [inHand] at mem
    rw [expected]
    exact numbered.inHand worker load mem
  · rw [pushed, expected]
    exact numbered.pushed

theorem Numbered.setWorker (same : pc.inHand = (system.workers worker).inHand) :
    Numbered config (system.setWorker worker pc) := by
  refine numbered.congr rfl rfl ?_ rfl rfl rfl
  intro other
  by_cases own : other = worker
  · subst own
    simpa only [System.setWorker, update_self] using same
  · simp [System.setWorker, update_of_ne own]

theorem Numbered.forward (worker : Worker) (data : In) (small : system.order.toNat + 1 < 2 ^ 64) :
    Numbered config (system.forward worker data) := by
  have enters : Enters system.contents (system.forward worker data).contents
      system.order.toNat (.worker worker) := by
    constructor
    · have arrived : (system.forward worker data).contents (.worker worker) =
          system.contents (.worker worker) ++ [system.order.toNat] := by
        simp only [System.contents, System.forward, update_self, map_append,
          map_cons, map_nil, append_assoc]
        rfl
      rw [arrived]
      exact perm_append_singleton _ _
    · intro place away
      cases place with
      | worker other =>
        have apart : other ≠ worker := fun same => away (congrArg Place.worker same)
        simp [System.contents, System.forward, update_of_ne apart]
      | ring | consumed => rfl
  have counted := numbered.counted
  have longer : (system.forward worker data).forwarded.length = system.forwarded.length + 1 :=
    length_append
  have fresh : ∀ place, system.order.toNat ∉ system.contents place := by
    intro place mem
    have bounds := numbered.issued place _ mem
    omega
  have expected : (system.forward worker data).expected config =
      system.expected config ++ [config.work worker data] := map_append
  have len : (system.expected config).length = system.forwarded.length := length_map _
  have earlier : ∀ {j : Nat} {out : Out}, (system.expected config)[j]? = some out →
      ((system.forward worker data).expected config)[j]? = some out := by
    intro j out found
    obtain ⟨inside, _⟩ := List.getElem?_eq_some_iff.mp found
    rw [expected, List.getElem?_append_left inside]
    exact found
  constructor
  · rw [longer, ← counted]
    exact (UInt64.toNat_add _ _).trans (Nat.mod_eq_of_lt small)
  · intro k positive below
    by_cases same : k = system.order.toNat
    · subst same
      exact enters.placed fresh
    · exact (numbered.placed k positive (by omega)).enters enters same
  · intro place k mem
    rcases enters.mem_iff.mp mem with old | ⟨rfl, _⟩
    · have bounds := numbered.issued place k old
      omega
    · omega
  · intro other input mem
    by_cases own : other = worker
    · subst own
      simp only [System.forward, update_self, mem_append, mem_singleton] at mem
      rcases mem with old | rfl
      · exact earlier (numbered.inputs other input old)
      · have place : QueuePayload.number ⟨⟨system.order⟩, data⟩ - 1 =
            (system.expected config).length := by
          rw [len, QueuePayload.number, counted]
          rfl
        rw [place, expected, List.getElem?_concat_length]
    · simp only [System.forward, update_of_ne own] at mem
      exact earlier (numbered.inputs other input mem)
  · intro other load mem
    exact earlier (numbered.inHand other load mem)
  · intro load mem
    exact earlier (numbered.pushed load mem)

theorem Numbered.receive (idle : system.workers worker = .receiving)
    (received : system.inputs worker = input :: rest) :
    Numbered config (system.receive config worker input rest) := by
  have same : (system.receive config worker input rest).contents = system.contents := by
    funext place
    cases place with
    | worker other =>
      by_cases own : other = worker
      · subst own
        simp only [System.contents, System.receive, System.setWorker, update_self, idle, received]
        rfl
      · simp [System.contents, System.receive, System.setWorker, update_of_ne own]
    | ring | consumed => rfl
  have mem : input ∈ system.inputs worker := received ▸ mem_cons_self
  constructor
  · exact numbered.counted
  · rw [same]
    exact numbered.placed
  · rw [same]
    exact numbered.issued
  · intro other later remaining
    by_cases own : other = worker
    · subst own
      simp only [System.receive, System.setWorker, update_self] at remaining
      exact numbered.inputs other later (received ▸ mem_cons_of_mem _ remaining)
    · simp only [System.receive, System.setWorker, update_of_ne own] at remaining
      exact numbered.inputs other later remaining
  · intro other load held
    by_cases own : other = worker
    · subst own
      simp only [System.receive, System.setWorker, update_self, WorkerPC.inHand,
        mem_singleton] at held
      subst held
      exact numbered.inputs other input mem
    · simp only [System.receive, System.setWorker, update_of_ne own] at held
      exact numbered.inHand other load held
  · exact numbered.pushed

theorem Numbered.postEntry (posting : system.workers worker = .posting load entry) :
    Numbered config (system.postEntry worker load entry) := by
  have held : load ∈ (system.workers worker).inHand := posting ▸ mem_singleton_self load
  have passes : Passes system.contents (system.postEntry worker load entry).contents
      load.number (.worker worker) .ring := by
    constructor
    · exact fun same => by cases same
    · simp only [System.contents, System.postEntry, System.setWorker, System.setEntry,
        update_self, posting]
      exact Perm.refl _
    · simp only [System.contents, System.postEntry, System.setWorker, System.setEntry,
        map_append, map_cons, map_nil]
      exact perm_append_singleton _ _
    · intro place notWorker notRing
      cases place with
      | worker other =>
        have apart : other ≠ worker := fun same => notWorker (congrArg Place.worker same)
        simp [System.contents, System.postEntry, System.setWorker, System.setEntry,
          update_of_ne apart]
      | ring => exact absurd rfl notRing
      | consumed => rfl
  constructor
  · exact numbered.counted
  · intro k positive below
    exact (numbered.placed k positive below).passes passes
  · intro place k mem
    obtain ⟨earlier, before⟩ := passes.mem_before mem
    exact numbered.issued earlier k before
  · exact numbered.inputs
  · intro other later mem
    by_cases own : other = worker
    · subst own
      simp only [System.postEntry, System.setWorker, update_self] at mem
      cases mem
    · simp only [System.postEntry, System.setWorker, System.setEntry, update_of_ne own] at mem
      exact numbered.inHand other later mem
  · intro later mem
    rcases mem_append.mp mem with old | new
    · exact numbered.pushed later old
    · cases mem_singleton.mp new
      exact numbered.inHand worker load held

theorem Numbered.freeEntry (mem : load ∈ system.pushed)
    (storing : system.stage = .storingPos entry pos)
    (oldest : load.number = system.queue.release.toNat) (own : ∀ other ∈ system.pushed,
      config.getInQueueIndex other.stats.order = entry ↔ other.number = load.number) :
    Numbered config (system.freeEntry config entry pos) := by
  have positive := (numbered.issued .ring _ (mem_ring mem)).1
  have consumed : system.consumed + 1 = load.number := by
    simp only [System.consumed, storing, reduceCtorEq, if_false]
    omega
  have counted : (system.freeEntry config entry pos).consumed = system.consumed + 1 := by
    simp [System.consumed, System.freeEntry, System.setEntry, storing, reduceCtorEq]
  have kept : (system.freeEntry config entry pos).pushed.map (·.number) =
      (system.pushed.map (·.number)).filter (· != load.number) := by
    rw [System.freeEntry, List.filter_map]
    congr 1
    apply List.filter_congr
    intro other otherMember
    rw [Bool.eq_iff_iff, decide_eq_true_iff, comp_apply, bne_iff_ne]
    exact not_congr (own other otherMember)
  have single : (system.pushed.map (·.number)).Nodup := by
    refine nodup_iff_count_le_one.mpr fun k => ?_
    by_cases listed : k ∈ system.pushed.map (·.number)
    · exact (numbered.only (show k ∈ system.contents .ring from listed)).here.le
    · rw [count_eq_zero_of_not_mem listed]
      exact Nat.zero_le 1
  have passes : Passes system.contents (system.freeEntry config entry pos).contents
      load.number .ring .consumed := by
    constructor
    · exact fun same => by cases same
    · rw [System.contents, System.contents, kept, ← single.erase_eq_filter]
      exact perm_cons_erase (mem_ring mem)
    · have more : (system.freeEntry config entry pos).contents .consumed =
          system.contents .consumed ++ [load.number] := by
        rw [System.contents, System.contents, counted, range'_concat, ← consumed,
          Nat.one_mul, Nat.add_comm 1]
      rw [more]
      exact perm_append_singleton _ _
    · intro place notRing notConsumed
      cases place with
      | worker other => rfl
      | ring => exact absurd rfl notRing
      | consumed => exact absurd rfl notConsumed
  constructor
  · exact numbered.counted
  · intro k least below
    exact (numbered.placed k least below).passes passes
  · intro place k listed
    obtain ⟨earlier, before⟩ := passes.mem_before listed
    exact numbered.issued earlier k before
  · exact numbered.inputs
  · exact numbered.inHand
  · intro other otherMember
    exact numbered.pushed other (mem_of_mem_filter otherMember)

end

def StagePC.taken : StagePC → Nat
  | .waiting | .idling _ => 0
  | .handing _ | .negating _ | .storingPos _ _ | .releasing => 1

def StagePC.unhanded : StagePC → Nat
  | .handing _ => 1
  | .waiting | .idling _ | .negating _ | .storingPos _ _ | .releasing => 0

/-- What a worker relies on between its look at the threshold and the store of `pos`. -/
def WorkerPC.Sound (config : Config Worker In Out) (queue : SPSCQueue Out) :
    WorkerPC Out → Prop
  | .storingThreshold _ threshold =>
    threshold.toNat ≤ queue.release.toNat + config.size.toNat
  | .writing load entry =>
    entry = config.getInQueueIndex load.stats.order ∧
      load.number < queue.release.toNat + config.size.toNat
  | .posting load entry =>
    entry = config.getInQueueIndex load.stats.order ∧
      load.number < queue.release.toNat + config.size.toNat ∧
      (queue.entries entry).buffer = some load
  | .receiving | .comparing _ | .loadingRelease _ | .recomparing _ => True

omit [DecidableEq Worker] in
theorem WorkerPC.Sound.frame {q later : SPSCQueue Out} (sound : pc.Sound config q)
    (release : q.release.toNat ≤ later.release.toNat)
    (kept : ∀ load entry, pc = .posting load entry →
      (later.entries entry).buffer = (q.entries entry).buffer) : pc.Sound config later := by
  cases pc with
  | storingThreshold load threshold => exact sound.trans (Nat.add_le_add_right release _)
  | writing load entry =>
    exact ⟨sound.1, sound.2.trans_le (Nat.add_le_add_right release _)⟩
  | posting load entry =>
    exact ⟨sound.1, sound.2.1.trans_le (Nat.add_le_add_right release _),
      (kept load entry rfl).trans sound.2.2⟩
  | _ => trivial

/-- The entry the stage works on is that of the oldest message. -/
def System.Oldest (config : Config Worker In Out) (system : System Worker In Out)
    (entry : UInt64) (load : QueuePayload Out) : Prop :=
  load ∈ system.pushed ∧ load.number = system.queue.release.toNat ∧
    entry = config.getInQueueIndex load.stats.order

def System.StageSound (config : Config Worker In Out) (system : System Worker In Out) :
    StagePC → Prop
  | .handing entry | .negating entry => ∃ load, system.Oldest config entry load
  | .storingPos entry pos => ∃ load, system.Oldest config entry load ∧ pos = load.stats.order
  | .waiting | .idling _ | .releasing => True

/-- An entry without a pushed message is not filled, unless the sign bit of number `2 ^ 63`
outlived its negation. -/
def System.Unfilled (config : Config Worker In Out) (system : System Worker In Out) : Prop :=
  ∀ entry, (∀ load ∈ system.pushed, config.getInQueueIndex load.stats.order ≠ entry) →
    Filled (system.queue.entries entry).pos →
      2 ^ 63 < system.queue.head.toNat ∧ entry = config.getInQueueIndex (UInt64.ofNat (2 ^ 63))

structure Ring (config : Config Worker In Out) (system : System Worker In Out) : Prop where
  heads : system.queue.head.toNat = system.queue.release.toNat + system.stage.taken
  started : 1 ≤ system.queue.release.toNat
  limit : system.queue.head.toNat ≤ 2 ^ 63 + 1
  room : 1 < system.queue.head.toNat → 0 < config.size.toNat
  threshold : system.queue.reserveThreshold.toNat ≤
    system.queue.release.toNat + config.size.toNat
  workers : ∀ worker, (system.workers worker).Sound config system.queue
  window : ∀ load ∈ system.pushed,
    load.number < system.queue.release.toNat + config.size.toNat
  intact : system.Intact config
  unfilled : system.Unfilled config
  stage : system.StageSound config system.stage
  inOrder : system.InOrder config
  handed : system.handed.length + system.stage.unhanded + 1 = system.queue.head.toNat

omit [DecidableEq Worker] in
theorem Ring.create (config : Config Worker In Out) : Ring config (created config) where
  heads := rfl
  started := Nat.le_refl 1
  limit := show (1 : UInt64).toNat ≤ 2 ^ 63 + 1 by decide
  room more := absurd more (show ¬1 < (1 : UInt64).toNat by decide)
  threshold := Nat.le_add_left _ _
  workers _ := trivial
  window _ mem := by cases mem
  intact _ mem := by cases mem
  unfilled _ _ filled := absurd filled (show ¬Filled 0 by decide)
  stage := trivial
  inOrder := nil_prefix
  handed := rfl

theorem Numbered.release_le (numbered : Numbered config system) {number : Nat}
    (mem : number ∈ system.contents place) (notConsumed : place ≠ .consumed) :
    system.queue.release.toNat ≤ number := by
  have above := numbered.above mem notConsumed
  unfold System.consumed at above
  omega

theorem Numbered.index_ne (numbered : Numbered config system) {first second : QueuePayload Out}
    {otherPlace : Place Worker} (mem : first.number ∈ system.contents place)
    (otherMember : second.number ∈ system.contents otherPlace) (notConsumed : place ≠ .consumed)
    (otherNotConsumed : otherPlace ≠ .consumed)
    (below : first.number < system.queue.release.toNat + config.size.toNat)
    (otherBelow : second.number < system.queue.release.toNat + config.size.toNat)
    (apart : first.number ≠ second.number) :
    config.getInQueueIndex first.stats.order ≠ config.getInQueueIndex second.stats.order :=
  config.getInQueueIndex_ne (numbered.release_le mem notConsumed) below
    (numbered.release_le otherMember otherNotConsumed) otherBelow apart

section

variable (ring : Ring config system)
include ring

theorem Ring.index_ne_pushed (numbered : Numbered config system) {pushed : QueuePayload Out}
    (held : load ∈ (system.workers worker).inHand) (mem : pushed ∈ system.pushed)
    (below : load.number < system.queue.release.toNat + config.size.toNat) :
    config.getInQueueIndex pushed.stats.order ≠ config.getInQueueIndex load.stats.order :=
  numbered.index_ne (mem_ring mem) (mem_worker held) (fun same => by cases same)
    (fun same => by cases same) (ring.window pushed mem) below
    (numbered.apart (mem_ring mem) (mem_worker held) (fun same => by cases same))

theorem Ring.oldest_iff (numbered : Numbered config system) {other : QueuePayload Out}
    (oldest : system.Oldest config entry load) (mem : other ∈ system.pushed) :
    config.getInQueueIndex other.stats.order = entry ↔ other.number = load.number := by
  obtain ⟨listed, _, rfl⟩ := oldest
  constructor
  · intro same
    by_contra apart
    exact numbered.index_ne (mem_ring mem) (mem_ring listed) (fun same => by cases same)
      (fun same => by cases same) (ring.window other mem) (ring.window load listed)
      apart same
  · intro same
    exact congrArg config.getInQueueIndex (UInt64.toNat_inj.mp same)

theorem Ring.setWorker (sound : pc.Sound config system.queue) :
    Ring config (system.setWorker worker pc) := by
  refine { ring with workers := ?_ }
  intro other
  by_cases own : other = worker
  · subst own
    simpa only [System.setWorker, update_self] using sound
  · simpa only [System.setWorker, update_of_ne own] using ring.workers other

theorem Ring.forward (worker : Worker) (data : In) : Ring config (system.forward worker data) := by
  refine { ring with inOrder := ?_ }
  have longer : (system.forward worker data).expected config =
      system.expected config ++ [config.work worker data] := map_append
  rw [System.InOrder, longer]
  exact ring.inOrder.trans (prefix_append _ _)

theorem Ring.receive : Ring config (system.receive config worker input rest) := by
  have received : Ring config
      { system with inputs := update system.inputs worker rest } := { ring with }
  exact received.setWorker trivial

omit [DecidableEq Worker] in
theorem Ring.storeThreshold {threshold : UInt64}
    (bounded : threshold.toNat ≤ system.queue.release.toNat + config.size.toNat) :
    Ring config { system with queue := { system.queue with reserveThreshold := threshold } } :=
  { ring with threshold := bounded }

omit [DecidableEq Worker] in
theorem Ring.below_threshold (below : ¬load.stats.order ≥ system.queue.reserveThreshold) :
    (WorkerPC.writing load (config.getInQueueIndex load.stats.order)).Sound config
      system.queue := by
  have less : load.number < system.queue.reserveThreshold.toNat :=
    UInt64.lt_iff_toNat_lt.mp (UInt64.not_le.mp below)
  exact ⟨rfl, less.trans_le ring.threshold⟩

theorem Ring.write (numbered : Numbered config system)
    (writing : system.workers worker = .writing load entry) :
    Ring config ((system.setEntry entry
      { system.queue.entries entry with buffer := some load }).setWorker worker
        (.posting load entry)) := by
  have held : load ∈ (system.workers worker).inHand := writing ▸ mem_singleton_self load
  have sound := ring.workers worker
  rw [writing] at sound
  obtain ⟨rfl, below⟩ := sound
  have pos : ∀ slot, ((system.setEntry (config.getInQueueIndex load.stats.order)
      { system.queue.entries (config.getInQueueIndex load.stats.order) with
        buffer := some load }).queue.entries slot).pos = (system.queue.entries slot).pos := by
    intro slot
    by_cases own : slot = config.getInQueueIndex load.stats.order
    · subst own
      simp [System.setEntry, update_self]
    · simp [System.setEntry, update_of_ne own]
  have workers : ∀ other, (((system.setEntry (config.getInQueueIndex load.stats.order)
      { system.queue.entries (config.getInQueueIndex load.stats.order) with
        buffer := some load }).setWorker worker (.posting load
          (config.getInQueueIndex load.stats.order))).workers other).Sound config
      (system.setEntry (config.getInQueueIndex load.stats.order)
        { system.queue.entries (config.getInQueueIndex load.stats.order) with
          buffer := some load }).queue := by
    intro other
    by_cases own : other = worker
    · subst own
      simp only [System.setWorker, System.setEntry, update_self, WorkerPC.Sound]
      exact ⟨trivial, below, trivial⟩
    · simp only [System.setWorker, System.setEntry, update_of_ne own]
      refine (ring.workers other).frame .refl ?_
      intro later slot now
      have sound := ring.workers other
      rw [now] at sound
      obtain ⟨rfl, laterBelow, _⟩ := sound
      have laterHeld : later ∈ (system.workers other).inHand :=
        now ▸ mem_singleton_self later
      have away : config.getInQueueIndex later.stats.order ≠
          config.getInQueueIndex load.stats.order :=
        numbered.index_ne (mem_worker laterHeld) (mem_worker held)
          (fun same => by cases same) (fun same => by cases same) laterBelow below
          (numbered.apart (mem_worker laterHeld) (mem_worker held)
            (fun same => own (Place.worker.inj same).symm))
      simp [update_of_ne away]
  refine { ring with workers := workers, intact := ?_, unfilled := ?_ }
  · intro pushed mem
    have away := ring.index_ne_pushed numbered held mem below
    simp only [System.setWorker, System.setEntry, update_of_ne away]
    exact ring.intact pushed mem
  · intro slot empty filled
    exact ring.unfilled slot empty (pos slot ▸ filled)

theorem Ring.postEntry (numbered : Numbered config system)
    (posting : system.workers worker = .posting load entry) :
    Ring config (system.postEntry worker load entry) := by
  have held : load ∈ (system.workers worker).inHand := posting ▸ mem_singleton_self load
  have sound := ring.workers worker
  rw [posting] at sound
  obtain ⟨rfl, below, written⟩ := sound
  have buffer : ∀ slot, ((system.postEntry worker load
      (config.getInQueueIndex load.stats.order)).queue.entries slot).buffer =
        (system.queue.entries slot).buffer := by
    intro slot
    by_cases own : slot = config.getInQueueIndex load.stats.order
    · subst own
      simp [System.postEntry, System.setWorker, System.setEntry, update_self]
    · simp [System.postEntry, System.setWorker, System.setEntry, update_of_ne own]
  have workers : ∀ other, ((system.postEntry worker load
      (config.getInQueueIndex load.stats.order)).workers other).Sound config
        (system.postEntry worker load (config.getInQueueIndex load.stats.order)).queue := by
    intro other
    have now : (system.postEntry worker load
        (config.getInQueueIndex load.stats.order)).workers other =
          if other = worker then .receiving else system.workers other := by
      simp [System.postEntry, System.setWorker, System.setEntry, update_apply]
    rw [now]
    split
    next => trivial
    next => exact (ring.workers other).frame .refl fun _ slot _ => buffer slot
  have stage : (system.postEntry worker load
      (config.getInQueueIndex load.stats.order)).StageSound config system.stage := by
    have more : ∀ {slot : UInt64} {oldest : QueuePayload Out},
        system.Oldest config slot oldest → (system.postEntry worker load
          (config.getInQueueIndex load.stats.order)).Oldest config slot oldest :=
      fun oldest => ⟨mem_append_left _ oldest.1, oldest.2⟩
    have sound := ring.stage
    cases now : system.stage with
    | handing slot | negating slot =>
      rw [now] at sound
      exact sound.imp fun _ oldest => more oldest
    | storingPos slot pos =>
      rw [now] at sound
      exact sound.imp fun _ oldest => ⟨more oldest.1, oldest.2⟩
    | waiting | idling slot | releasing => trivial
  refine { ring with
    workers := workers, window := ?_, intact := ?_, unfilled := ?_, stage := stage }
  · intro pushed mem
    rcases mem_append.mp mem with old | new
    · exact ring.window pushed old
    · cases mem_singleton.mp new
      exact below
  · intro pushed mem
    rcases mem_append.mp mem with old | new
    · have away := ring.index_ne_pushed numbered held old below
      simp only [System.postEntry, System.setWorker, System.setEntry, update_of_ne away]
      exact ring.intact pushed old
    · cases mem_singleton.mp new
      simp only [System.postEntry, System.setWorker, System.setEntry, update_self]
      rw [written]
  · intro slot empty filled
    have away : slot ≠ config.getInQueueIndex load.stats.order := fun same =>
      empty load (mem_append_right _ (mem_singleton_self load)) same.symm
    simp only [System.postEntry, System.setWorker, System.setEntry, update_of_ne away] at filled
    exact ring.unfilled slot (fun pushed mem => empty pushed (mem_append_left _ mem))
      filled

theorem Ring.filled_head (numbered : Numbered config system) (waiting : system.stage = .waiting)
    (may : ¬(config.size.toNat = 1 ∧ system.queue.head.toNat = 2 ^ 63 + 1))
    (filled : Filled (system.queue.entries (config.getInQueueIndex system.queue.head)).pos) :
    ∃ load, system.Oldest config (config.getInQueueIndex system.queue.head) load ∧
      load.number ≤ 2 ^ 63 := by
  have heads := ring.heads
  have limit := ring.limit
  rw [waiting, StagePC.taken, Nat.add_zero] at heads
  have found : ∃ load ∈ system.pushed, config.getInQueueIndex load.stats.order =
      config.getInQueueIndex system.queue.head := by
    by_contra missing
    obtain ⟨beyond, same⟩ := ring.unfilled _
      (fun load mem same => missing ⟨load, mem, same⟩) filled
    have room := ring.room (by omega)
    have literal : (UInt64.ofNat (2 ^ 63)).toNat = 2 ^ 63 := by decide
    exact config.getInQueueIndex_ne beyond.le (by omega)
      literal.symm.le (by omega) (by omega) same
  obtain ⟨load, mem, same⟩ := found
  have least := numbered.release_le (mem_ring mem) (fun same => by cases same)
  have window := ring.window load mem
  have head : load.number = system.queue.head.toNat := by
    by_contra apart
    exact config.getInQueueIndex_ne least window (by omega) (by omega) apart same
  refine ⟨load, ⟨mem, head.trans heads, same.symm⟩, ?_⟩
  rw [← same, ring.intact load mem] at filled
  have positive := (numbered.issued .ring _ (mem_ring mem)).1
  exact (filled_neg_iff positive).mp filled

end

theorem succ_toNat {val : UInt64} (small : val.toNat ≤ 2 ^ 63 + 1) :
    (val + 1).toNat = val.toNat + 1 :=
  (UInt64.toNat_add _ _).trans (Nat.mod_eq_of_lt (by simp only [UInt64.toNat_one]; omega))

theorem Ring.take (ring : Ring config system) (numbered : Numbered config system)
    (waiting : system.stage = .waiting)
    (may : ¬(config.size.toNat = 1 ∧ system.queue.head.toNat = 2 ^ 63 + 1))
    (filled : Filled (system.queue.entries (config.getInQueueIndex system.queue.head)).pos) :
    Ring config { system with
      queue := { system.queue with head := system.queue.head + 1 }
      stage := .handing (config.getInQueueIndex system.queue.head) } := by
  obtain ⟨load, oldest, small⟩ := ring.filled_head numbered waiting may filled
  have heads := ring.heads
  have handed := ring.handed
  have window := ring.window load oldest.1
  have number := oldest.2.1
  rw [waiting, StagePC.taken, Nat.add_zero] at heads
  rw [waiting, StagePC.unhanded, Nat.add_zero] at handed
  have next := succ_toNat ring.limit
  refine { ring with
    heads := ?_, limit := ?_, room := ?_, workers := ?_, unfilled := ?_, stage := ⟨load, oldest⟩,
    handed := ?_ }
  · exact next.trans (congrArg (· + 1) heads)
  · exact next.le.trans (by omega)
  · intro _
    omega
  · intro worker
    exact (ring.workers worker).frame .refl fun _ _ _ => rfl
  · intro entry empty marked
    have unfilled := ring.unfilled entry empty marked
    exact ⟨Nat.lt_of_lt_of_eq (Nat.lt_succ_of_lt unfilled.1) next.symm, unfilled.2⟩
  · exact (congrArg (· + 1) handed).trans next.symm

theorem prefix_concat {given whole : List Out} {val : Out} (holds : given <+: whole)
    (behind : whole[given.length]? = some val) : given ++ [val] <+: whole := by
  obtain ⟨rest, rfl⟩ := holds
  rw [List.getElem?_append_right .refl, Nat.sub_self] at behind
  cases rest with
  | nil => cases behind
  | cons first later =>
    cases some.inj behind
    exact ⟨later, by rw [append_assoc, singleton_append]⟩

section

variable (ring : Ring config system)
include ring

theorem Ring.hand (numbered : Numbered config system) (handing : system.stage = .handing entry) :
    Ring config { system with
      handed := system.handed ++ ((system.queue.entries entry).buffer.map (·.data)).toList
      stage := .negating entry } := by
  have sound := ring.stage
  rw [handing] at sound
  obtain ⟨load, mem, number, rfl⟩ := sound
  have heads := ring.heads
  have handed := ring.handed
  have expected := numbered.pushed load mem
  rw [handing, StagePC.taken] at heads
  rw [handing, StagePC.unhanded] at handed
  have content : ((system.queue.entries (config.getInQueueIndex load.stats.order)).buffer.map
      (·.data)).toList = [load.data] := by
    rw [ring.intact load mem]
    rfl
  have place : load.number - 1 = system.handed.length := by omega
  rw [place] at expected
  rw [content]
  refine { ring with
    heads := heads, stage := ⟨load, mem, number, rfl⟩,
    inOrder := prefix_concat ring.inOrder expected, handed := ?_ }
  rw [length_append]
  exact handed

omit [DecidableEq Worker] in
theorem Ring.negate (negating : system.stage = .negating entry) :
    Ring config { system with
      stage := .storingPos entry (-(system.queue.entries entry).pos) } := by
  have sound := ring.stage
  have heads := ring.heads
  have handed := ring.handed
  rw [negating] at sound heads handed
  obtain ⟨load, oldest⟩ := sound
  refine { ring with heads := heads, stage := ⟨load, oldest, ?_⟩, handed := handed }
  rw [oldest.2.2, ring.intact load oldest.1]
  exact UInt64.neg_neg

omit [DecidableEq Worker] in
theorem Ring.freeEntry (storing : system.stage = .storingPos entry pos) :
    Ring config (system.freeEntry config entry pos) := by
  have sound := ring.stage
  have heads := ring.heads
  have handed := ring.handed
  have limit := ring.limit
  rw [storing] at sound heads handed
  obtain ⟨load, oldest, rfl⟩ := sound
  have buffer : ∀ slot, ((system.freeEntry config entry load.stats.order).queue.entries
      slot).buffer = (system.queue.entries slot).buffer := by
    intro slot
    by_cases own : slot = entry
    · subst own
      simp [System.freeEntry, System.setEntry, update_self]
    · simp [System.freeEntry, System.setEntry, update_of_ne own]
  refine { ring with
    heads := heads, workers := ?_, window := ?_, intact := ?_, unfilled := ?_, stage := trivial,
    handed := handed }
  · intro worker
    exact (ring.workers worker).frame .refl fun _ slot _ => buffer slot
  · intro other mem
    exact ring.window other (mem_of_mem_filter mem)
  · intro other mem
    obtain ⟨listed, away⟩ := mem_filter.mp mem
    simp only [System.freeEntry, System.setEntry, update_of_ne (of_decide_eq_true away)]
    exact ring.intact other listed
  · intro slot empty filled
    by_cases own : slot = entry
    · subst own
      simp only [System.freeEntry, System.setEntry, update_self] at filled
      have large : 2 ^ 63 ≤ load.number := (filled_iff _).mp filled
      have number := oldest.2.1
      have taken : StagePC.taken (.storingPos slot load.stats.order) = 1 := rfl
      have last : load.stats.order = UInt64.ofNat (2 ^ 63) := by
        refine UInt64.toNat_inj.mp ?_
        have literal : (UInt64.ofNat (2 ^ 63)).toNat = 2 ^ 63 := by decide
        rw [literal]
        exact Nat.le_antisymm (show load.number ≤ 2 ^ 63 by omega) large
      refine ⟨show 2 ^ 63 < system.queue.head.toNat by omega, ?_⟩
      rw [oldest.2.2, last]
    · simp only [System.freeEntry, System.setEntry, update_of_ne own] at filled
      refine ring.unfilled slot (fun other listed same => ?_) filled
      refine empty other (mem_filter.mpr ⟨listed, decide_eq_true ?_⟩) same
      rw [same]
      exact own

omit [DecidableEq Worker] in
theorem Ring.release (releasing : system.stage = .releasing) :
    Ring config { system with
      queue := { system.queue with release := system.queue.release + 1 }
      stage := .waiting } := by
  have heads := ring.heads
  have handed := ring.handed
  have limit := ring.limit
  rw [releasing] at heads handed
  rw [StagePC.taken] at heads
  have next := @succ_toNat system.queue.release (by omega)
  have grows : system.queue.release.toNat ≤ (system.queue.release + 1).toNat := by omega
  refine { ring with
    heads := heads.trans next.symm, started := ring.started.trans grows,
    threshold := ring.threshold.trans (Nat.add_le_add_right grows _), workers := ?_,
    window := ?_, stage := trivial, handed := handed }
  · intro worker
    exact (ring.workers worker).frame grows fun _ _ _ => rfl
  · intro load mem
    exact (ring.window load mem).trans_le (Nat.add_le_add_right grows _)

end

/-- `Idle()` of the stage returns. The other two conditions are about the end of `uint64_t`:
`order` does not wrap, and a ring of one entry is not looked into again after number `2 ^ 63`,
whose sign bit its negation keeps. -/
def Allowed (config : Config Worker In Out) (system : System Worker In Out) :
    Action Worker In → Prop
  | .forward _ _ => system.order.toNat + 1 < 2 ^ 64
  | .worker _ => True
  | .stage => ¬(system.stage = .waiting ∧ config.size.toNat = 1 ∧
      system.queue.head.toNat = 2 ^ 63 + 1)
  | .idle threw => threw = false

instance (config : Config Worker In Out) (system : System Worker In Out) :
    ∀ action, Decidable (Allowed config system action)
  | .forward _ _ => inferInstanceAs (Decidable (_ < _))
  | .worker _ => inferInstanceAs (Decidable True)
  | .stage => inferInstanceAs (Decidable (¬_))
  | .idle _ => inferInstanceAs (Decidable (_ = _))

structure Sound (config : Config Worker In Out) (system : System Worker In Out) : Prop where
  numbered : Numbered config system
  ring : Ring config system

theorem Sound.workerStep (sound : Sound config system)
    (went : system.workerStep config worker = some next) : Sound config next := by
  obtain ⟨numbered, ring⟩ := sound
  unfold System.workerStep at went
  cases now : system.workers worker with
  | receiving =>
    cases received : system.inputs worker with
    | nil => simp only [now, received, reduceCtorEq] at went
    | cons input rest =>
      simp only [now, received] at went
      cases went
      exact ⟨numbered.receive now received, ring.receive⟩
  | comparing load | recomparing load =>
    simp only [now] at went
    split at went <;> cases went
    · exact ⟨numbered.setWorker (congrArg WorkerPC.inHand now).symm, ring.setWorker trivial⟩
    next below =>
      exact ⟨numbered.setWorker (congrArg WorkerPC.inHand now).symm,
        ring.setWorker (ring.below_threshold below)⟩
  | loadingRelease load =>
    simp only [now] at went
    cases went
    refine ⟨numbered.setWorker (congrArg WorkerPC.inHand now).symm, ring.setWorker ?_⟩
    exact Nat.le_trans (Nat.le_of_eq (UInt64.toNat_add _ _)) (Nat.mod_le _ _)
  | storingThreshold load threshold =>
    simp only [now] at went
    cases went
    have bounded := ring.workers worker
    rw [now] at bounded
    have stored : Numbered config
        { system with queue := { system.queue with reserveThreshold := threshold } } :=
      numbered.congr rfl rfl (fun _ => rfl) rfl rfl rfl
    exact ⟨stored.setWorker (congrArg WorkerPC.inHand now).symm,
      (ring.storeThreshold bounded).setWorker trivial⟩
  | writing load entry =>
    simp only [now] at went
    cases went
    have written : Numbered config (system.setEntry entry
        { system.queue.entries entry with buffer := some load }) :=
      numbered.congr rfl rfl (fun _ => rfl) rfl rfl rfl
    exact ⟨written.setWorker (congrArg WorkerPC.inHand now).symm,
      ring.write numbered now⟩
  | posting load entry =>
    simp only [now] at went
    cases went
    exact ⟨numbered.postEntry now, ring.postEntry numbered now⟩

theorem Sound.stageStep (sound : Sound config system)
    (may : ¬(system.stage = .waiting ∧ config.size.toNat = 1 ∧
      system.queue.head.toNat = 2 ^ 63 + 1))
    (went : system.stageStep config = some next) : Sound config next := by
  obtain ⟨numbered, ring⟩ := sound
  unfold System.stageStep at went
  cases now : system.stage with
  | waiting =>
    simp only [now] at went
    split at went <;> cases went
    next filled =>
      refine ⟨numbered.congr rfl rfl (fun _ => rfl) rfl rfl ?_,
        ring.take numbered now (fun both => may ⟨now, both⟩) filled⟩
      simp [System.consumed, now, reduceCtorEq]
    · have heads := ring.heads
      have handed := ring.handed
      rw [now] at heads handed
      refine ⟨numbered.congr rfl rfl (fun _ => rfl) rfl rfl ?_,
        { ring with heads := heads, stage := trivial, handed := handed }⟩
      simp [System.consumed, now, reduceCtorEq]
  | handing entry =>
    simp only [now] at went
    cases went
    refine ⟨numbered.congr rfl rfl (fun _ => rfl) rfl rfl ?_, ring.hand numbered now⟩
    simp [System.consumed, now, reduceCtorEq]
  | idling entry => simp only [now, reduceCtorEq] at went
  | negating entry =>
    simp only [now] at went
    cases went
    refine ⟨numbered.congr rfl rfl (fun _ => rfl) rfl rfl ?_, ring.negate now⟩
    simp [System.consumed, now, reduceCtorEq]
  | storingPos entry pos =>
    simp only [now] at went
    cases went
    have oldest := ring.stage
    rw [now] at oldest
    obtain ⟨load, oldest, _⟩ := oldest
    exact ⟨numbered.freeEntry oldest.1 now oldest.2.1
      (fun other mem => ring.oldest_iff numbered oldest mem), ring.freeEntry now⟩
  | releasing =>
    simp only [now] at went
    cases went
    have limit := ring.limit
    have heads := ring.heads
    have started := ring.started
    have released := @succ_toNat system.queue.release (by omega)
    refine ⟨numbered.congr rfl rfl (fun _ => rfl) rfl rfl ?_, ring.release now⟩
    simp only [System.consumed, now, reduceCtorEq, if_false, if_true]
    omega

theorem Sound.idleStep (sound : Sound config system)
    (went : system.idleStep false = some next) : Sound config next := by
  obtain ⟨numbered, ring⟩ := sound
  unfold System.idleStep at went
  cases now : system.stage with
  | idling entry =>
    simp only [now] at went
    cases went
    have heads := ring.heads
    have handed := ring.handed
    rw [now] at heads handed
    refine ⟨numbered.congr rfl rfl (fun _ => rfl) rfl rfl ?_,
      { ring with heads := heads, stage := trivial, handed := handed }⟩
    simp [System.consumed, now, reduceCtorEq, Bool.false_eq_true]
  | waiting | handing entry | negating entry | storingPos entry pos | releasing =>
    simp only [now, reduceCtorEq] at went

theorem Sound.step {action : Action Worker In} (sound : Sound config system)
    (may : Allowed config system action)
    (went : step config system action = some next) : Sound config next := by
  cases action with
  | forward worker data =>
    cases went
    exact ⟨sound.numbered.forward worker data may, sound.ring.forward worker data⟩
  | worker worker => exact sound.workerStep went
  | stage => exact sound.stageStep may went
  | idle threw =>
    cases may
    exact sound.idleStep went

/-- In a run in which `Idle()` of the ordered stage always returns, the stage handles a prefix
of what the entrance forwarded, and no push overwrites an entry that was not freed. -/
theorem ordered_stage_in_order {payloadSize : UInt32} (fits : config.Fits payloadSize) :
    ∃ initial, create config payloadSize = some initial ∧
      ∀ actions final, Guarded (step config) (Allowed config) initial actions →
        execute (step config) initial actions = some final →
          final.InOrder config ∧ final.Intact config := by
  refine ⟨created config, if_pos fits, fun actions final allowed ran => ?_⟩
  have sound : Sound config final :=
    invariant_of_guarded (fun sound allowed stepped => sound.step allowed stepped)
      ⟨Numbered.create config, Ring.create config⟩ allowed ran
  exact ⟨sound.ring.inOrder, sound.ring.intact⟩

def twoWorkers : Config Bool Nat Nat where
  queueSize := 2
  work _ data := data

def overtakingRun : List (Action Bool Nat) :=
  [.forward false 7, .forward true 8] ++ replicate 7 (.worker true) ++
    [.stage, .idle false] ++ replicate 4 (.worker false) ++ replicate 10 .stage

theorem ordered_stage_in_order_overtaken : ∃ initial final,
    (create twoWorkers 16 = some initial ∧
      execute (step twoWorkers) initial overtakingRun = some final ∧ final.handed = [7, 8]) ∧
      final.InOrder twoWorkers ∧ final.Intact twoWorkers := by
  have ran : ∃ final, execute (step twoWorkers) (created twoWorkers) overtakingRun = some final ∧
        final.handed = [7, 8] := execute_check (by decide +kernel)
  obtain ⟨final, finished, handed⟩ := ran
  have fits : twoWorkers.Fits 16 := by decide +kernel
  obtain ⟨initial, made, keeps⟩ := ordered_stage_in_order fits
  cases made.symm.trans (if_pos fits)
  exact ⟨_, final, ⟨made, finished, handed⟩, keeps _ _ (by decide +kernel) finished⟩

def oneSlot : Config Unit Nat Nat where
  queueSize := 1
  work _ data := data

/-- `Idle()` throws while the ring is empty. The entry is freed all the same, `release` runs
ahead of `head`, and the second push finds room in the entry of the first. -/
def idleThrowsRun : List (Action Unit Nat) :=
  [.stage, .idle true, .stage, .stage, .stage, .forward () 7, .forward () 8] ++
    replicate 11 (.worker ()) ++ [.stage, .stage]

theorem idle_exception_breaks_order : ∃ final,
    execute (step oneSlot) (created oneSlot) idleThrowsRun = some final ∧
      final.handed = [8] ∧ ¬(final.InOrder oneSlot ∧ final.Intact oneSlot) := by
  have ran : ∃ final, execute (step oneSlot) (created oneSlot) idleThrowsRun = some final ∧
      final.handed = [8] ∧ final.expected oneSlot = [7, 8] :=
    execute_check (by decide +kernel)
  obtain ⟨final, finished, handed, expected⟩ := ran
  refine ⟨final, finished, handed, fun both => ?_⟩
  have inOrder := both.1
  rw [System.InOrder, handed, expected] at inOrder
  exact absurd inOrder (by decide)

end

end AdkAaf.Adk.PipelineVariant
