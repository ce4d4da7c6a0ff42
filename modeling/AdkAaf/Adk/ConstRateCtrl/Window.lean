import AdkAaf.Adk.ConstRateCtrl.Basic
import AdkAaf.Lib.RingLaps

/-! `ConstRateCtrl` never grants more than its limit within one timespan. Every
request that is granted and not yet released is a thread on its way to the queue, an
entry of the queue, or the entry that the worker thread has just freed; together they
stay within `rate_limit_`, so that the entries fit the queue, and what was freed had
left every window that is still open. -/

set_option autoImplicit false

namespace AdkAaf.Adk.ConstRateCtrl

open Function Lib Option List

structure Config.Sized (config : Config) : Prop where
  limit : config.rateLimit.toNat ≤ config.queueSize
  positive : 0 < config.queueSize
  bound : config.queueSize ≤ 2 ^ 26
  slot : ∀ index, config.getInQueueIndex index = index % config.queueSize

variable {config : Config}

theorem Config.sized (small : config.rateLimit.toNat ≤ 2 ^ 26) : config.Sized := by
  have size : (max config.rateLimit 2).toNat = max config.rateLimit.toNat 2 := toNat_max _ _
  have lower : 1 ≤ (max config.rateLimit 2).toNat := by omega
  have upper : (max config.rateLimit 2).toNat ≤ 2 ^ 26 := by omega
  obtain ⟨exponent, le, rounded, above⟩ := roundToPowerOf2_le lower upper (by decide)
  have power : config.queueSize = 2 ^ exponent := rounded
  constructor
  case limit => omega
  case positive => exact power ▸ Nat.two_pow_pos exponent
  case bound => exact power ▸ Nat.pow_le_pow_right (by decide) le
  case slot => exact and_sizeMask power (by omega)

section Sizes

variable {config : Config} (sized : config.Sized)

include sized

theorem Config.Sized.firstIndex_eq : config.firstIndex = config.queueSize * 2 := by
  have bound := sized.bound
  exact uint32_eq (by omega)

theorem Config.Sized.slot_ne {first second : Nat} (before : first < second)
    (lap : second < first + config.queueSize) :
    config.getInQueueIndex first ≠ config.getInQueueIndex second := by
  rw [sized.slot, sized.slot]
  exact mod_ne_of_window before lap

theorem Config.Sized.slot_add (index : Nat) :
    config.getInQueueIndex (index + config.queueSize) = config.getInQueueIndex index := by
  rw [sized.slot, sized.slot, Nat.add_mod_right]

end Sizes

theorem int64_post (size index : Int) : int64 (size - int64 (size - index)) = int64 index := by
  unfold int64
  rw [Int.sub_bmod_bmod]
  congr 1
  omega

theorem int64_free (size i : Int) : int64 (-int64 i) = int64 (size - (i + size)) := by
  unfold int64
  rw [Int.bmod_neg_bmod]
  congr 1
  omega

theorem int64_eq {value : Int} (lower : -2 ^ 63 ≤ value) (upper : value < 2 ^ 63) :
    int64 value = value := by
  apply Int.bmod_eq_of_le <;> omega

def Ticket.node (ticket : Ticket) : Option RateNode :=
  match ticket.stage with
  | .allocated => none
  | .stamped timepoint | .posted timepoint => some { timepoint, require := ticket.require }

def Ticket.weight (weight : RateNode → Nat) (ticket : Ticket) : Nat :=
  (ticket.node.map weight).getD 0

def slotPos (config : Config) (index : Nat) : Stage → Int
  | .posted _ => int64 index
  | .allocated | .stamped _ => int64 (config.queueSize - index)

def Pc.owed : Pc → Nat
  | .allocating require => require
  | _ => 0

/-- A request whose entry is freed and that is not added to `released_` yet. -/
def FeedPc.inFlight : FeedPc → Nat
  | .releasing _ require => require
  | _ => 0

def Holds (head : Nat) (window : List Ticket) (thread require index : Nat) (stage : Stage) : Prop :=
  head ≤ index ∧ window[index - head]? = some { thread, require, stage }

def PcValid (config : Config) (released head : Nat) (window : List Ticket) (thread : Nat) :
    Pc → Prop
  | .idle => True
  | .loading require | .checking require _ | .refreshing require _ | .rechecking require _
  | .allocating require => 1 ≤ require
  | .storing require _ seen => 1 ≤ require ∧ seen ≤ released
  | .swapping require monotonicRequire =>
    1 ≤ require ∧ uint64 (monotonicRequire + require) ≤ released + config.rateLimit.toNat
  | .waiting require index | .stamping require index =>
    Holds head window thread require index .allocated
  | .posting require index =>
    ∃ timepoint, Holds head window thread require index (.stamped timepoint)

structure RingValid (config : Config) (head tail : Nat) (pos : Nat → Int)
    (buffer : Nat → RateNode) (window : List Ticket) : Prop where
  length : tail = head + window.length
  lower : config.queueSize * 2 ≤ head
  /-- A posted position beyond `int64_t` reads as negative and is never freed. -/
  upper : head ≤ 2 ^ 63
  used : ∀ offset ticket, window[offset]? = some ticket →
    pos (config.getInQueueIndex (head + offset)) = slotPos config (head + offset) ticket.stage
  free : ∀ offset, window.length ≤ offset → offset < config.queueSize →
    pos (config.getInQueueIndex (head + offset)) = slotPos config (head + offset) .allocated
  nodes : ∀ offset ticket, window[offset]? = some ticket → ∀ node ∈ ticket.node,
    buffer (config.getInQueueIndex (head + offset)) = node

structure Accounts (config : Config) (required released : Nat) (threads : List Pc)
    (window : List Ticket) (feeder : FeedPc) : Prop where
  balance : extent Pc.owed threads + extent Ticket.require window + feeder.inFlight +
    released = required
  bounded : required ≤ released + config.rateLimit.toNat
  fits : required < 2 ^ 64
  positive : ∀ ticket ∈ window, 1 ≤ ticket.require

structure Records (config : Config) (clock : Nat) (window : List Ticket)
    (freed recorded : List RateNode) : Prop where
  tally : ∀ weight, extent weight recorded =
    extent weight freed + extent (Ticket.weight weight) window
  expired : ∀ node ∈ freed, node.timepoint + config.timespan.toNat < clock
  fits : ∀ ticket ∈ window, ∀ node ∈ ticket.node,
    node.timepoint + config.timespan.toNat < 2 ^ 64

/-- Once the worker thread has found an entry at `head`, nobody else changes it. -/
def FeedValid (config : Config) (clock head : Nat) (window : List Ticket) : FeedPc → Prop
  | .idle => True
  | .waiting realTime | .releasing realTime _ => realTime ≤ clock
  | .examining realTime =>
    realTime ≤ clock ∧ head < 2 ^ 63 ∧ ∃ thread require timepoint rest,
      window = { thread, require, stage := .posted timepoint } :: rest
  | .freeing realTime require =>
    realTime ≤ clock ∧ head < 2 ^ 63 ∧ ∃ thread timepoint rest,
      window = { thread, require, stage := .posted timepoint } :: rest ∧
        timepoint + config.timespan.toNat < realTime

structure Invariant (config : Config) (state : State) : Prop where
  threshold : state.releaseThrdhold ≤ state.released
  threads : ∀ thread pc, state.threads[thread]? = some pc →
    PcValid config state.released state.head state.window thread pc
  ring : RingValid config state.head state.tail state.pos state.buffer state.window
  accounts : Accounts config state.required state.released state.threads state.window state.feeder
  records : Records config state.clock state.window state.freed state.recorded
  feeder : FeedValid config state.clock state.head state.window state.feeder
  rate : ∀ instant, windowSum config state instant ≤ config.rateLimit.toNat

variable {threads : List Pc}

variable {released : Nat}

variable {window : List Ticket}

/-- The tickets fit the queue, since each stands for at least one token. -/
theorem Accounts.length_le {required : Nat} {feeder : FeedPc}
    (accounts : Accounts config required released threads window feeder) :
    window.length + extent Pc.owed threads ≤ config.rateLimit.toNat := by
  have counted := length_le_extent Ticket.require accounts.positive
  have balance := accounts.balance
  have bounded := accounts.bounded
  omega

variable {state : State}

theorem Invariant.rateKept (sized : config.Sized) (ok : Invariant config state) :
    RateKept config state := by
  refine ⟨ok.rate, ?_⟩
  have length := ok.ring.length
  have few := ok.accounts.length_le
  have limit := sized.limit
  omega

theorem create_invariant {count : Nat} {memory : Nat → Int} {buffer : Nat → RateNode}
    (sized : config.Sized) (created : create config count memory buffer = some state) :
    Invariant config state := by
  unfold create at created
  split at created <;> cases created
  have first := sized.firstIndex_eq
  have bound := sized.bound
  have owed : extent Pc.owed (replicate count .idle) = 0 := by
    simp [extent, Pc.owed]
  constructor
  case threshold => exact Nat.le_refl 0
  case threads =>
    intro thread pc found
    rw [eq_of_mem_replicate (mem_of_getElem? found)]
    trivial
  case ring =>
    refine ⟨rfl, first.symm.le, by dsimp only; omega, ?_, ?_, ?_⟩
    · intros; contradiction
    · intro offset _ inside
      have slot : config.getInQueueIndex (config.firstIndex + offset) = offset := by
        rw [sized.slot, first, Nat.mul_add_mod, Nat.mod_eq_of_lt inside]
      dsimp only
      rw [slot, if_pos inside, slotPos, int64_eq (by omega) (by omega)]
      omega
    · intros; contradiction
  case accounts =>
    refine ⟨?_, Nat.zero_le _, Nat.two_pow_pos 64, ?_⟩
    · simp [owed, extent_nil, FeedPc.inFlight]
    · intros; contradiction
  case records =>
    refine ⟨fun _ => rfl, ?_, ?_⟩
    all_goals intros; contradiction
  case feeder => trivial
  case rate =>
    intro instant
    exact Nat.zero_le _

section Tickets

variable {head thread require index : Nat} {window : List Ticket} {stage : Stage}

section

variable (holds : Holds head window thread require index stage)
include holds

theorem Holds.append (ticket : Ticket) :
    Holds head (window ++ [ticket]) thread require index stage := by
  refine ⟨holds.1, ?_⟩
  rw [List.getElem?_append_left (List.getElem?_eq_some_iff.mp holds.2).1]
  exact holds.2

theorem Holds.set {other otherRequire otherIndex : Nat} {otherStage : Stage}
    (changed : Holds head window other otherRequire otherIndex otherStage) (apart : thread ≠ other)
    (ticket : Ticket) :
    Holds head (window.set (otherIndex - head) ticket) thread require index stage := by
  refine ⟨holds.1, ?_⟩
  have places : otherIndex - head ≠ index - head := by
    intro same
    have tickets := holds.2
    rw [← same, changed.2] at tickets
    exact apart (congrArg Ticket.thread (some.inj tickets)).symm
  rw [List.getElem?_set_ne places]
  exact holds.2

theorem Holds.set_self (next : Stage) :
    Holds head (window.set (index - head) { thread, require, stage := next }) thread require index
      next :=
  ⟨holds.1, List.getElem?_set_self (List.getElem?_eq_some_iff.mp holds.2).1⟩

end

theorem Holds.tail {first : Ticket} {timepoint : Nat}
    (holds : Holds head (first :: window) thread require index stage)
    (posted : first.stage = .posted timepoint) (mine : ∀ timepoint, stage ≠ .posted timepoint) :
    Holds (head + 1) window thread require index stage := by
  obtain ⟨after, found⟩ := holds
  have later : head < index := by
    apply Nat.lt_of_le_of_ne after
    intro same
    subst same
    simp only [Nat.sub_self, List.getElem?_cons_zero, some.injEq] at found
    exact mine timepoint ((congrArg Ticket.stage found).symm.trans posted)
  refine ⟨later, ?_⟩
  have place : index - head = index - (head + 1) + 1 := by omega
  rwa [place, List.getElem?_cons_succ] at found

theorem PcValid.map {nextReleased nextHead : Nat} {nextWindow : List Ticket} {pc : Pc}
    (ok : PcValid config released head window thread pc) (more : released ≤ nextReleased)
    (kept : ∀ require i stage, (∀ timepoint, stage ≠ .posted timepoint) →
      Holds head window thread require i stage →
      Holds nextHead nextWindow thread require i stage) :
    PcValid config nextReleased nextHead nextWindow thread pc := by
  cases pc with
  | idle => trivial
  | storing => exact ⟨ok.1, ok.2.trans more⟩
  | swapping => exact ⟨ok.1, ok.2.trans (Nat.add_le_add_right more _)⟩
  | waiting | stamping =>
    exact kept _ _ _ (by intro _ contradictory; cases contradictory) ok
  | posting =>
    obtain ⟨timepoint, holds⟩ := ok
    exact ⟨timepoint, kept _ _ _ (by intro _ contradictory; cases contradictory) holds⟩
  | _ => exact ok

end Tickets

variable {head : Nat}

theorem threads_set {thread : Nat} {pc : Pc} (ok : ∀ thread pc, threads[thread]? = some pc →
      PcValid config released head window thread pc)
    (fine : PcValid config released head window thread pc) :
    ∀ other otherPc, (threads.set thread pc)[other]? = some otherPc →
      PcValid config released head window other otherPc := by
  intro other otherPc found
  rw [List.getElem?_set] at found
  split at found
  next same =>
    split at found
    next => exact same ▸ some.inj found ▸ fine
    next => cases found
  next => exact ok other otherPc found

theorem threads_setTicket {thread require j : Nat} {pc : Pc} {stage next : Stage}
    (ok : ∀ thread pc, threads[thread]? = some pc →
      PcValid config released head window thread pc)
    (holds : Holds head window thread require j stage) (fine : PcValid config released head
      (window.set (j - head) { thread, require, stage := next }) thread pc) :
    ∀ other otherPc, (threads.set thread pc)[other]? = some otherPc → PcValid config released head
        (window.set (j - head) { thread, require, stage := next }) other otherPc := by
  intro other otherPc found
  by_cases same : thread = other
  · subst same
    rw [List.getElem?_set] at found
    simp only [↓reduceIte] at found
    split at found
    next => exact some.inj found ▸ fine
    next => cases found
  · rw [List.getElem?_set_ne same] at found
    exact (ok other otherPc found).map .refl fun _ _ _ _ mine =>
      mine.set holds (Ne.symm same) _

section Threads

variable {config : Config} {state : State} {thread : Nat} {old pc : Pc}

theorem setPc_invariant (ok : Invariant config state) (found : state.threads[thread]? = some old)
    (fine : PcValid config state.released state.head state.window thread pc)
    (owes : pc.owed = old.owed) : Invariant config (setPc state thread pc) := by
  have owed := extent_set Pc.owed found pc
  have balance := ok.accounts.balance
  exact { ok with
    threads := threads_set ok.threads fine
    accounts := { ok.accounts with
      balance := by
        simp only [setPc]
        omega } }

variable {require monotonicRequire : Nat}

theorem le_of_not_exceeds {threshold : Nat}
    (passed : ¬exceeds config require monotonicRequire threshold = true)
    (lags : threshold ≤ released) :
    uint64 (monotonicRequire + require) ≤ released + config.rateLimit.toNat := by
  have compared :
      ¬uint64 (threshold + config.rateLimit.toNat) < uint64 (monotonicRequire + require) :=
    fun less => passed (decide_eq_true less)
  have reduced : uint64 (threshold + config.rateLimit.toNat) ≤ threshold + config.rateLimit.toNat :=
    Nat.mod_le _ _
  omega

theorem swap_invariant (ok : Invariant config state)
    (found : state.threads[thread]? = some (.swapping require monotonicRequire))
    (cur : state.required = monotonicRequire) (fits : monotonicRequire + require < 2 ^ 64) :
    Invariant config (setPc { state with required := uint64 (monotonicRequire + require) } thread
      (.allocating require)) := by
  have owed := extent_set Pc.owed found (.allocating require)
  have balance := ok.accounts.balance
  obtain ⟨positive, bounded⟩ := ok.threads thread _ found
  have sum : uint64 (monotonicRequire + require) = monotonicRequire + require :=
    Nat.mod_eq_of_lt fits
  simp only [Pc.owed] at owed
  exact { ok with
    threads := threads_set ok.threads positive
    accounts := { ok.accounts with
      balance := by
        simp only [setPc, sum]
        omega
      bounded := bounded
      fits := by
        simp only [setPc, sum]
        omega } }

end Threads

section Queue

variable {config : Config} {state : State} {thread require index : Nat}

variable {window : List Ticket}

variable {clock head : Nat} {pc : FeedPc}

theorem FeedValid.append (ok : FeedValid config clock head window pc) (ticket : Ticket) :
    FeedValid config clock head (window ++ [ticket]) pc := by
  cases pc with
  | idle => trivial
  | waiting | releasing => exact ok
  | examining =>
    obtain ⟨time, below, first, tokens, timepoint, rest, rfl⟩ := ok
    exact ⟨time, below, first, tokens, timepoint, rest ++ [ticket], rfl⟩
  | freeing =>
    obtain ⟨time, below, first, timepoint, rest, rfl, past⟩ := ok
    exact ⟨time, below, first, timepoint, rest ++ [ticket], rfl, past⟩

variable {first : Ticket} {rest : List Ticket} {stage : Stage} {timepoint : Nat}

theorem set_first (holds : Holds head (first :: rest) thread require index stage)
    (posted : first.stage = .posted timepoint) (mine : ∀ timepoint, stage ≠ .posted timepoint)
    (ticket : Ticket) :
    (first :: rest).set (index - head) ticket = first :: rest.set (index - (head + 1)) ticket := by
  have later := (holds.tail posted mine).1
  have place : index - head = index - (head + 1) + 1 := by omega
  rw [place, set_cons_succ]

theorem FeedValid.set (ok : FeedValid config clock head window pc)
    (holds : Holds head window thread require index stage)
    (mine : ∀ timepoint, stage ≠ .posted timepoint) (ticket : Ticket) :
    FeedValid config clock head (window.set (index - head) ticket) pc := by
  cases pc with
  | idle => trivial
  | waiting | releasing => exact ok
  | examining =>
    obtain ⟨time, below, first, tokens, timepoint, rest, rfl⟩ := ok
    rw [set_first holds rfl mine]
    exact ⟨time, below, first, tokens, timepoint, _, rfl⟩
  | freeing =>
    obtain ⟨time, below, first, timepoint, rest, rfl, past⟩ := ok
    rw [set_first holds rfl mine]
    exact ⟨time, below, first, timepoint, _, rfl, past⟩

theorem RingValid.slot_ne (sized : config.Sized) {first second : Nat} (apart : first ≠ second)
    (firstInside : first < config.queueSize) (secondInside : second < config.queueSize) :
    config.getInQueueIndex (head + first) ≠ config.getInQueueIndex (head + second) := by
  rcases Nat.lt_or_gt_of_ne apart with before | after
  · exact sized.slot_ne (by omega) (by omega)
  · exact (sized.slot_ne (by omega) (by omega)).symm

variable {pos : Nat → Int} {buffer : Nat → RateNode} {next : Stage}

theorem RingValid.set {tail : Nat} {nextPos : Nat → Int} {nextBuffer : Nat → RateNode}
    (sized : config.Sized) (ring : RingValid config head tail pos buffer window)
    (few : window.length ≤ config.queueSize) (holds : Holds head window thread require index stage)
    (otherPos : ∀ slot, slot ≠ config.getInQueueIndex index → nextPos slot = pos slot)
    (otherBuffer : ∀ slot, slot ≠ config.getInQueueIndex index → nextBuffer slot = buffer slot)
    (position : nextPos (config.getInQueueIndex index) = slotPos config index next)
    (content : ∀ node ∈ Ticket.node { thread, require, stage := next },
      nextBuffer (config.getInQueueIndex index) = node) :
    RingValid config head tail nextPos nextBuffer
      (window.set (index - head) { thread, require, stage := next }) := by
  obtain ⟨after, found⟩ := holds
  have inside := (List.getElem?_eq_some_iff.mp found).1
  have place : head + (index - head) = index := Nat.add_sub_cancel' after
  have away : ∀ offset, offset ≠ index - head → offset < config.queueSize →
      config.getInQueueIndex (head + offset) ≠ config.getInQueueIndex index := by
    intro offset apart bound
    rw [← place]
    exact RingValid.slot_ne sized apart bound (inside.trans_le few)
  constructor
  case length => simpa only [length_set] using ring.length
  case lower => exact ring.lower
  case upper => exact ring.upper
  case used =>
    intro offset ticket stored
    by_cases same : index - head = offset
    · subst same
      rw [List.getElem?_set_self inside] at stored
      rw [place, position, ← some.inj stored]
    · rw [List.getElem?_set_ne same] at stored
      have bound := (List.getElem?_eq_some_iff.mp stored).1
      rw [otherPos _ (away offset (Ne.symm same) (bound.trans_le few))]
      exact ring.used offset ticket stored
  case free =>
    intro offset beyond bound
    rw [length_set] at beyond
    rw [otherPos _ (away offset (by omega) bound)]
    exact ring.free offset beyond bound
  case nodes =>
    intro offset ticket stored node mem
    by_cases same : index - head = offset
    · subst same
      rw [List.getElem?_set_self inside] at stored
      rw [place]
      exact content node (some.inj stored ▸ mem)
    · rw [List.getElem?_set_ne same] at stored
      have bound := (List.getElem?_eq_some_iff.mp stored).1
      rw [otherBuffer _ (away offset (Ne.symm same) (bound.trans_le few))]
      exact ring.nodes offset ticket stored node mem

theorem RingValid.append {tail : Nat} (ring : RingValid config head tail pos buffer window)
    (room : window.length < config.queueSize) :
    RingValid config head (tail + 1) pos buffer
      (window ++ [{ thread, require, stage := .allocated }]) := by
  constructor
  case length =>
    have length := ring.length
    simp only [length_append, length_singleton]
    omega
  case lower => exact ring.lower
  case upper => exact ring.upper
  case used =>
    intro offset ticket stored
    rcases Nat.lt_or_ge offset window.length with old | new
    · rw [List.getElem?_append_left old] at stored
      exact ring.used offset ticket stored
    · rw [List.getElem?_append_right new, List.getElem?_singleton] at stored
      split at stored
      next last =>
        rw [← some.inj stored]
        exact ring.free offset new (by omega)
      next => cases stored
  case free =>
    intro offset beyond bound
    simp only [length_append, length_singleton] at beyond
    exact ring.free offset (by omega) bound
  case nodes =>
    intro offset ticket stored node mem
    rcases Nat.lt_or_ge offset window.length with old | new
    · rw [List.getElem?_append_left old] at stored
      exact ring.nodes offset ticket stored node mem
    · rw [List.getElem?_append_right new, List.getElem?_singleton] at stored
      split at stored
      next =>
        rw [← some.inj stored] at mem
        cases mem
      next => cases stored

theorem RingValid.tail {tail : Nat} (sized : config.Sized)
    (ring : RingValid config head tail pos buffer (first :: rest))
    (few : (first :: rest).length ≤ config.queueSize) (posted : first.stage = .posted timepoint)
    (below : head < 2 ^ 63) :
    RingValid config (head + 1) tail (update pos (config.getInQueueIndex head)
        (int64 (-pos (config.getInQueueIndex head)))) buffer rest := by
  simp only [length_cons] at few
  have away : ∀ offset, offset + 1 < config.queueSize →
      config.getInQueueIndex (head + 1 + offset) ≠ config.getInQueueIndex head := by
    intro offset bound
    exact (sized.slot_ne (by omega) (by omega)).symm
  have shift : ∀ offset, head + 1 + offset = head + (offset + 1) := by
    intro offset
    omega
  constructor
  case length =>
    have length := ring.length
    simp only [length_cons] at length
    omega
  case lower => exact Nat.le_succ_of_le ring.lower
  case upper => exact below
  case used =>
    intro offset ticket stored
    have bound := (List.getElem?_eq_some_iff.mp stored).1
    rw [update_of_ne (away offset (by omega)), shift]
    exact ring.used (offset + 1) ticket stored
  case free =>
    intro offset beyond bound
    rcases Nat.lt_or_ge (offset + 1) config.queueSize with inner | last
    · rw [update_of_ne (away offset inner), shift]
      exact ring.free (offset + 1) (by simpa only [length_cons] using Nat.succ_le_succ beyond)
        inner
    -- the freed slot is that of the j one lap later
    · have lap : head + 1 + offset = head + config.queueSize := by omega
      have position := ring.used 0 first rfl
      rw [posted, Nat.add_zero] at position
      rw [lap, sized.slot_add, update_self, position]
      exact int64_free _ _
  case nodes =>
    intro offset ticket stored node mem
    rw [shift]
    exact ring.nodes (offset + 1) ticket stored node mem

theorem positive_set (positive : ∀ ticket ∈ window, 1 ≤ ticket.require)
    (holds : Holds head window thread require index stage) :
    ∀ ticket ∈ window.set (index - head) { thread, require, stage := next },
      1 ≤ ticket.require := by
  intro ticket mem
  cases mem_or_eq_of_mem_set mem with
  | inl old => exact positive ticket old
  | inr new =>
    have mine := positive _ (mem_of_getElem? holds.2)
    rw [new]
    exact mine

variable {required : Nat} {feeder : FeedPc}

theorem Accounts.set {old pc : Pc}
    (accounts : Accounts config required released threads window feeder)
    (found : threads[thread]? = some old) (owes : pc.owed = old.owed)
    (holds : Holds head window thread require index stage) :
    Accounts config required released (threads.set thread pc)
      (window.set (index - head) { thread, require, stage := next }) feeder := by
  have owed := extent_set Pc.owed found pc
  have tokens := extent_set Ticket.require holds.2 { thread, require, stage := next }
  have balance := accounts.balance
  dsimp only at tokens
  exact { accounts with
    balance := by omega
    positive := positive_set accounts.positive holds }

theorem alloc_invariant (sized : config.Sized) (ok : Invariant config state)
    (found : state.threads[thread]? = some (.allocating require)) :
    Invariant config (allocEntry state thread require) := by
  have positive : 1 ≤ require := ok.threads thread _ found
  have owed := extent_set Pc.owed found (.waiting require state.tail)
  have balance := ok.accounts.balance
  have few := ok.accounts.length_le
  have limit := sized.limit
  have length := ok.ring.length
  simp only [Pc.owed] at owed
  constructor
  case threshold => exact ok.threshold
  case threads =>
    have kept : ∀ other pc, state.threads[other]? = some pc → PcValid config state.released
        state.head (state.window ++ [{ thread, require, stage := .allocated }]) other pc :=
      fun other pc stored => (ok.threads other pc stored).map .refl
        fun _ _ _ _ holds => holds.append _
    apply threads_set kept
    refine ⟨by omega, ?_⟩
    rw [length, Nat.add_sub_cancel_left, List.getElem?_concat_length]
  case ring => exact ok.ring.append (by omega)
  case accounts =>
    refine ⟨?_, ok.accounts.bounded, ok.accounts.fits, ?_⟩
    · simp only [allocEntry, setPc, extent_append, extent_cons, extent_nil]
      omega
    · intro ticket mem
      cases mem_append.mp mem with
      | inl old => exact ok.accounts.positive ticket old
      | inr new => exact mem_singleton.mp new ▸ positive
  case records =>
    refine ⟨?_, ok.records.expired, ?_⟩
    · intro weight
      simp only [allocEntry, setPc, extent_append, extent_cons, extent_nil]
      exact ok.records.tally weight
    · intro ticket mem node stamped
      cases mem_append.mp mem with
      | inl old => exact ok.records.fits ticket old node stamped
      | inr new =>
        rw [mem_singleton.mp new] at stamped
        cases stamped
  case feeder => exact ok.feeder.append _
  case rate => exact ok.rate

theorem Records.rate_of_open {instant : Nat} {freed recorded : List RateNode}
    (records : Records config clock window freed recorded)
    (accounts : Accounts config required released threads window feeder)
    (open_ : clock ≤ instant + config.timespan.toNat) :
    extent (windowWeight config instant) recorded ≤ config.rateLimit.toNat := by
  have gone : extent (windowWeight config instant) freed = 0 := by
    apply extent_eq_zero
    intro node mem
    have past := records.expired node mem
    exact if_neg (by omega)
  have outstanding : extent (Ticket.weight (windowWeight config instant)) window ≤
      extent Ticket.require window := by
    apply extent_mono
    intro ticket _
    obtain ⟨thread, require, stage⟩ := ticket
    cases stage with
    | allocated => exact Nat.zero_le _
    | stamped | posted =>
      simp only [Ticket.weight, Ticket.node, map_some, getD_some, windowWeight]
      split
      next => exact .refl
      next => exact Nat.zero_le _
  have balance := accounts.balance
  have bounded := accounts.bounded
  rw [records.tally, gone]
  omega

theorem stamp_invariant (sized : config.Sized) (ok : Invariant config state)
    (found : state.threads[thread]? = some (.stamping require index))
    (fits : state.clock + config.timespan.toNat < 2 ^ 64) :
    Invariant config (stampEntry config state thread require index) := by
  have holds : Holds state.head state.window thread require index .allocated :=
    ok.threads thread _ found
  have few : state.window.length ≤ config.queueSize :=
    (Nat.le_of_add_right_le ok.accounts.length_le).trans sized.limit
  have records : Records config state.clock (state.window.set (index - state.head)
        { thread, require, stage := .stamped state.clock })
      state.freed (state.recorded ++ [{ timepoint := state.clock, require }]) := by
    refine ⟨?_, ok.records.expired, ?_⟩
    · intro weight
      have moved := extent_set (Ticket.weight weight) holds.2
        { thread, require, stage := .stamped state.clock }
      have tally := ok.records.tally weight
      simp only [Ticket.weight, Ticket.node, map_none, map_some, getD_none, getD_some] at moved
      simp only [extent_append, extent_cons, extent_nil]
      omega
    · intro ticket mem node stamped
      cases mem_or_eq_of_mem_set mem with
      | inl old => exact ok.records.fits ticket old node stamped
      | inr new =>
        rw [new] at stamped
        exact mem_some.mp stamped ▸ fits
  have accounts : Accounts config state.required state.released
      (state.threads.set thread (.posting require index))
      (state.window.set (index - state.head) { thread, require, stage := .stamped state.clock })
      state.feeder := ok.accounts.set found rfl holds
  constructor
  case threshold => exact ok.threshold
  case threads =>
    exact threads_setTicket ok.threads holds ⟨state.clock, holds.set_self _⟩
  case ring =>
    refine ok.ring.set sized few holds (fun _ _ => rfl)
      (fun slot other => update_of_ne other _ _) ?_ ?_
    · have position := ok.ring.used _ _ holds.2
      rwa [Nat.add_sub_cancel' holds.1] at position
    · intro node stamped
      exact (update_self _ _ _).trans (mem_some.mp stamped)
  case accounts => exact accounts
  case records => exact records
  case feeder =>
    exact ok.feeder.set holds (by intro _ contradictory; cases contradictory) _
  case rate =>
    intro instant
    rcases Nat.lt_or_ge (instant + config.timespan.toNat) state.clock with closed | open_
    · have before := ok.rate instant
      change extent _ (state.recorded ++ [_]) ≤ _
      rw [extent_append, extent_cons, windowWeight, if_neg (by dsimp only; omega)]
      exact before
    · exact records.rate_of_open accounts open_

theorem post_invariant (sized : config.Sized) (ok : Invariant config state)
    (found : state.threads[thread]? = some (.posting require index)) :
    Invariant config (postEntry config state thread require index) := by
  obtain ⟨timepoint, holds⟩ := ok.threads thread _ found
  have few : state.window.length ≤ config.queueSize :=
    (Nat.le_of_add_right_le ok.accounts.length_le).trans sized.limit
  have content := ok.ring.nodes _ _ holds.2 _ rfl
  have position := ok.ring.used _ _ holds.2
  rw [Nat.add_sub_cancel' holds.1] at content position
  have stamp : (state.buffer (config.getInQueueIndex index)).timepoint = timepoint :=
    congrArg RateNode.timepoint content
  have mine : ∀ other, Stage.stamped timepoint ≠ .posted other := by
    nofun
  unfold postEntry
  dsimp only
  rw [stamp]
  constructor
  case threshold => exact ok.threshold
  case threads => exact threads_setTicket ok.threads holds trivial
  case ring =>
    refine ok.ring.set sized few holds (fun slot other => update_of_ne other _ _)
      (fun _ _ => rfl) ?_ ?_
    · refine (update_self _ _ _).trans ?_
      rw [position]
      exact int64_post _ _
    · intro node posted
      exact content.trans (mem_some.mp posted)
  case accounts => exact ok.accounts.set found rfl holds
  case records =>
    refine ⟨?_, ok.records.expired, ?_⟩
    · intro weight
      have same := extent_set (Ticket.weight weight) holds.2
        { thread, require, stage := .posted timepoint }
      have tally := ok.records.tally weight
      simp only [Ticket.weight, Ticket.node] at same
      simp only [setPc, setTicket]
      omega
    · intro ticket mem node stamped
      cases mem_or_eq_of_mem_set mem with
      | inl old => exact ok.records.fits ticket old node stamped
      | inr new =>
        rw [new] at stamped
        exact ok.records.fits _ (mem_of_getElem? holds.2) node stamped
  case feeder => exact ok.feeder.set holds mine _
  case rate => exact ok.rate

end Queue

section Feeder

variable {config : Config} {state : State} {realTime require : Nat}

/-- The first position is negative unless the first ticket is posted. -/
theorem posted_of_nonneg (sized : config.Sized) (ok : Invariant config state)
    (nonneg : ¬state.pos (config.getInQueueIndex state.head) < 0) :
    state.head < 2 ^ 63 ∧ ∃ thread require timepoint rest,
      state.window = { thread, require, stage := .posted timepoint } :: rest := by
  have lower := ok.ring.lower
  have upper := ok.ring.upper
  have positive := sized.positive
  have negative : slotPos config state.head .allocated < 0 := by
    rw [slotPos, int64_eq (by omega) (by omega)]
    omega
  cases tickets : state.window with
  | nil =>
    have position := ok.ring.free 0 (by simp [tickets]) positive
    exact absurd (position ▸ negative) nonneg
  | cons first rest =>
    have position := ok.ring.used 0 first (by rw [tickets]; rfl)
    rw [Nat.add_zero] at position
    obtain ⟨thread, require, stage⟩ := first
    cases stage with
    | allocated | stamped => exact absurd (position ▸ negative) nonneg
    | posted timepoint =>
      refine ⟨?_, thread, require, timepoint, rest, rfl⟩
      apply Nat.lt_of_le_of_ne upper
      intro limit
      rw [position, slotPos, limit] at nonneg
      exact nonneg (by decide)

theorem feedWait_invariant (sized : config.Sized) (ok : Invariant config state)
    (at_ : state.feeder = .waiting realTime) (nonneg : ¬state.pos
      (config.getInQueueIndex state.head) < 0) :
    Invariant config { state with feeder := .examining realTime } := by
  have feeder := ok.feeder
  have accounts := ok.accounts
  rw [at_] at feeder accounts
  obtain ⟨below, posted⟩ := posted_of_nonneg sized ok nonneg
  exact { ok with
    accounts := { accounts with balance := accounts.balance }
    feeder := ⟨feeder, below, posted⟩ }

theorem feedExamine_invariant (ok : Invariant config state)
    (at_ : state.feeder = .examining realTime)
    (past : uint64 ((state.buffer (config.getInQueueIndex state.head)).timepoint +
      config.timespan.toNat) < realTime) :
    Invariant config { state with
      feeder := .freeing realTime
        (state.buffer (config.getInQueueIndex state.head)).require } := by
  have feeder := ok.feeder
  have accounts := ok.accounts
  rw [at_] at feeder accounts
  obtain ⟨time, below, thread, require, timepoint, rest, tickets⟩ := feeder
  have first : state.window[0]? = some { thread, require, stage := .posted timepoint } := by
    rw [tickets]
    rfl
  have content := ok.ring.nodes 0 _ first _ rfl
  have fits := ok.records.fits _ (mem_of_getElem? first) _ rfl
  rw [Nat.add_zero] at content
  rw [content] at past ⊢
  rw [uint64, Nat.mod_eq_of_lt fits] at past
  exact { ok with
    accounts := { accounts with balance := accounts.balance }
    feeder := ⟨time, below, thread, timepoint, rest, tickets, past⟩ }

theorem feedStop_invariant (ok : Invariant config state) (none : state.feeder.inFlight = 0) :
    Invariant config { state with feeder := .idle } := by
  have balance := ok.accounts.balance
  rw [none] at balance
  exact { ok with
    accounts := { ok.accounts with balance := balance }
    feeder := trivial }

theorem feedFree_invariant (sized : config.Sized) (ok : Invariant config state)
    (at_ : state.feeder = .freeing realTime require) :
    Invariant config { freeEntry config state with feeder := .releasing realTime require } := by
  have feeder := ok.feeder
  have accounts := ok.accounts
  rw [at_] at feeder accounts
  obtain ⟨time, below, thread, timepoint, rest, tickets, past⟩ := feeder
  have few : state.window.length ≤ config.queueSize :=
    (Nat.le_of_add_right_le ok.accounts.length_le).trans sized.limit
  have content := ok.ring.nodes 0 { thread, require, stage := .posted timepoint }
    (by rw [tickets]; rfl) _ rfl
  have balance := accounts.balance
  have ring := ok.ring
  have threads := ok.threads
  have records := ok.records
  have positive := accounts.positive
  rw [Nat.add_zero] at content
  rw [tickets] at few ring threads records balance positive
  simp only [extent_cons, FeedPc.inFlight] at balance
  unfold freeEntry
  dsimp only
  rw [tickets, content]
  constructor
  case threshold => exact ok.threshold
  case threads =>
    intro other pc found
    exact (threads other pc found).map .refl fun _ _ _ mine holds =>
      holds.tail rfl mine
  case ring => exact ring.tail sized few rfl below
  case accounts =>
    refine ⟨?_, accounts.bounded, accounts.fits, ?_⟩
    · simp only [FeedPc.inFlight, tail_cons]
      omega
    · intro ticket mem
      exact positive ticket (mem_cons_of_mem _ mem)
  case records =>
    refine ⟨?_, ?_, ?_⟩
    · intro weight
      have tally := records.tally weight
      simp only [extent_cons, Ticket.weight, Ticket.node, map_some, getD_some] at tally
      simp only [tail_cons, extent_append, extent_cons, extent_nil]
      omega
    · intro node mem
      cases mem_append.mp mem with
      | inl old => exact records.expired node old
      | inr new =>
        rw [mem_singleton.mp new]
        exact past.trans_le time
    · intro ticket mem
      exact records.fits ticket (mem_cons_of_mem _ mem)
  case feeder => exact time
  case rate => exact ok.rate

theorem feedRelease_invariant (ok : Invariant config state)
    (at_ : state.feeder = .releasing realTime require) :
    Invariant config { state with
      released := uint64 (state.released + require), feeder := .waiting realTime } := by
  have feeder := ok.feeder
  have accounts := ok.accounts
  rw [at_] at feeder accounts
  have balance := accounts.balance
  have bounded := accounts.bounded
  have fits := accounts.fits
  simp only [FeedPc.inFlight] at balance
  have sum : uint64 (state.released + require) = state.released + require :=
    Nat.mod_eq_of_lt (by omega)
  rw [sum]
  exact { ok with
    threshold := ok.threshold.trans (Nat.le_add_right _ _)
    threads := fun thread pc found =>
      (ok.threads thread pc found).map (Nat.le_add_right _ _) fun _ _ _ _ => id
    accounts := { accounts with
      balance := by
        simp only [FeedPc.inFlight]
        omega
      bounded := by
        dsimp only
        omega }
    feeder := feeder }

theorem stepFeed_invariant {next : State} (sized : config.Sized) (ok : Invariant config state)
    (went : stepFeed config state = some next) : Invariant config next := by
  unfold stepFeed at went
  split at went
  next => cases went
  next realTime at_ =>
    split at went
    next => exact some.inj went ▸ feedStop_invariant ok (by rw [at_]; rfl)
    next nonneg => exact some.inj went ▸ feedWait_invariant sized ok at_ nonneg
  next realTime at_ =>
    dsimp only at went
    split at went
    next past => exact some.inj went ▸ feedExamine_invariant ok at_ past
    next => exact some.inj went ▸ feedStop_invariant ok (by rw [at_]; rfl)
  next at_ => exact some.inj went ▸ feedFree_invariant sized ok at_
  next at_ => exact some.inj went ▸ feedRelease_invariant ok at_

end Feeder

section Runs

variable {config : Config} {state next : State} {thread : Nat}

theorem stepThread_invariant {pc : Pc} (sized : config.Sized) (valid : Invariant config state)
    (found : state.threads[thread]? = some pc) (fits : PcFits config state pc)
    (went : stepThread config state thread pc = some next) : Invariant config next := by
  have mine := valid.threads thread pc found
  cases pc with
  | idle => cases went
  | loading => exact some.inj went ▸ setPc_invariant valid found mine rfl
  | checking require monotonicRequire =>
    simp only [stepThread] at went
    split at went
    next => exact some.inj went ▸ setPc_invariant valid found mine rfl
    next passed =>
      exact some.inj went ▸ setPc_invariant valid found
        ⟨mine, le_of_not_exceeds passed valid.threshold⟩ rfl
  | refreshing =>
    exact some.inj went ▸ setPc_invariant valid found ⟨mine, .refl⟩ rfl
  | storing require monotonicRequire released =>
    have stored : Invariant config { state with releaseThrdhold := released } :=
      { valid with threshold := mine.2 }
    exact some.inj went ▸ setPc_invariant stored found mine.1 rfl
  | rechecking require monotonicRequire =>
    simp only [stepThread] at went
    split at went
    next => exact some.inj went ▸ setPc_invariant valid found trivial rfl
    next passed =>
      exact some.inj went ▸ setPc_invariant valid found
        ⟨mine, le_of_not_exceeds passed valid.threshold⟩ rfl
  | swapping require monotonicRequire =>
    simp only [stepThread] at went
    split at went
    next current => exact some.inj went ▸ swap_invariant valid found current (fits current)
    next => exact some.inj went ▸ setPc_invariant valid found mine.1 rfl
  | allocating => exact some.inj went ▸ alloc_invariant sized valid found
  | waiting require index =>
    simp only [stepThread] at went
    split at went
    next => exact some.inj went ▸ setPc_invariant valid found mine rfl
    next => exact some.inj went ▸ valid
  | stamping => exact some.inj went ▸ stamp_invariant sized valid found fits
  | posting => exact some.inj went ▸ post_invariant sized valid found

theorem FeedValid.later {clock later head : Nat} {window : List Ticket} {pc : FeedPc}
    (ok : FeedValid config clock head window pc) (passed : clock ≤ later) :
    FeedValid config later head window pc := by
  cases pc with
  | idle => trivial
  | waiting | releasing => exact ok.trans passed
  | examining | freeing => exact ⟨ok.1.trans passed, ok.2⟩

theorem step_invariant {action : Action} (sized : config.Sized) (ok : Invariant config state)
    (may : Requires state action ∧ Fits config state action)
    (went : step config state action = some next) : Invariant config next := by
  cases action with
  | tick time =>
    simp only [step, ite_none_right_eq_some, some.injEq] at went
    obtain ⟨passed, rfl⟩ := went
    exact { ok with
      records := { ok.records with
        expired := fun node mem =>
          (ok.records.expired node mem).trans_le passed }
      feeder := ok.feeder.later passed }
  | tryAcquire thread require =>
    simp only [step, ite_none_right_eq_some, some.injEq] at went
    obtain ⟨idle, rfl⟩ := went
    exact setPc_invariant ok idle may.1 rfl
  | «continue» thread =>
    obtain ⟨pc, found, moved⟩ := bind_eq_some_iff.mp went
    exact stepThread_invariant sized ok found (may.2 pc found) moved
  | doPeriodFeed =>
    simp only [step, ite_none_right_eq_some, some.injEq] at went
    obtain ⟨idle, rfl⟩ := went
    have accounts := ok.accounts
    rw [idle] at accounts
    exact { ok with
      accounts := { accounts with balance := accounts.balance }
      feeder := .refl }
  | feed => exact stepFeed_invariant sized ok went

end Runs

/-- In every interleaving of acquisitions and feeds whose running total and whose
expiry times fit 64 bits, no window holds more than the limit and the entries fit the
queue, for every limit whose queue fits a block. -/
theorem rate_kept {config : Config} {count : Nat} {memory : Nat → Int} {buffer : Nat → RateNode}
    {initial final : State} {actions : List Action}
    (created : create config count memory buffer = some initial)
    (small : config.rateLimit.toNat ≤ 2 ^ 26) (guarded : Guarded (step config)
      (fun state action => Requires state action ∧ Fits config state action) initial actions)
    (ran : execute (step config) initial actions = some final) : RateKept config final :=
  have sized := Config.sized small
  (invariant_of_guarded (step_invariant sized) (create_invariant sized created) guarded
    ran).rateKept sized

/-- Two threads under a limit of three tokens: the second request is refused until the
first is released. -/
def contendedRun : List Action := flatten
  [[.tick 100, .tryAcquire 0 2, .tryAcquire 1 2], replicate 7 (.continue 0),
    replicate 5 (.continue 1), [.tick 2101, .doPeriodFeed], replicate 5 .feed,
    [.tryAcquire 1 3], replicate 10 (.continue 1)]

theorem contended_rate_kept :
    ∃ initial final, create { rateLimit := 3, timespan := 2000 } 2 (fun _ => 0)
        (fun _ => { timepoint := 0, require := 0 }) = some initial ∧
      execute (step { rateLimit := 3, timespan := 2000 }) initial contendedRun = some final ∧
      final.recorded = [{ timepoint := 100, require := 2 }, { timepoint := 2101, require := 3 }] ∧
      final.released = 2 ∧ RateKept { rateLimit := 3, timespan := 2000 } final := by
  have checked : (create { rateLimit := 3, timespan := 2000 } 2 (fun _ => 0)
      (fun _ => { timepoint := 0, require := 0 })).any (fun initial =>
        decide (Guarded (step { rateLimit := 3, timespan := 2000 })
          (fun state action => Requires state action ∧
            Fits { rateLimit := 3, timespan := 2000 } state action) initial contendedRun) &&
          (execute (step { rateLimit := 3, timespan := 2000 }) initial contendedRun).any
            fun final => decide (final.recorded =
              [{ timepoint := 100, require := 2 }, { timepoint := 2101, require := 3 }] ∧
              final.released = 2)) = true := by decide +kernel
  obtain ⟨initial, created, checked⟩ := (any_eq_true _ _).mp checked
  obtain ⟨guarded, checked⟩ := (Bool.and_eq_true _ _).mp checked
  obtain ⟨final, ran, checked⟩ := (any_eq_true _ _).mp checked
  obtain ⟨recorded, released⟩ := of_decide_eq_true checked
  exact ⟨initial, final, created, ran, recorded, released,
    rate_kept created (by decide) (of_decide_eq_true guarded) ran⟩

/-- The rounding of a limit above `2 ^ 31` gives a queue of capacity zero, and the first
acquisition takes an entry of it. -/
theorem limit_overflows_queue :
    ∃ initial final, create { rateLimit := 2147483649, timespan := 1000000000 } 1 (fun _ => 0)
        (fun _ => { timepoint := 0, require := 0 }) = some initial ∧
      Guarded (step { rateLimit := 2147483649, timespan := 1000000000 })
        (fun state action => Requires state action ∧
          Fits { rateLimit := 2147483649, timespan := 1000000000 } state action)
        initial (.tryAcquire 0 1 :: replicate 4 (.continue 0)) ∧
      execute (step { rateLimit := 2147483649, timespan := 1000000000 }) initial
        (.tryAcquire 0 1 :: replicate 4 (.continue 0)) = some final ∧
      ¬RateKept { rateLimit := 2147483649, timespan := 1000000000 } final := by
  have checked : (create { rateLimit := 2147483649, timespan := 1000000000 } 1 (fun _ => 0)
      (fun _ => { timepoint := 0, require := 0 })).any (fun initial =>
        decide (Guarded (step { rateLimit := 2147483649, timespan := 1000000000 })
          (fun state action => Requires state action ∧
            Fits { rateLimit := 2147483649, timespan := 1000000000 } state action) initial
          (.tryAcquire 0 1 :: replicate 4 (.continue 0))) &&
          (execute (step { rateLimit := 2147483649, timespan := 1000000000 }) initial
            (.tryAcquire 0 1 :: replicate 4 (.continue 0))).any
            fun final => decide (¬final.tail - final.head ≤
              Config.queueSize { rateLimit := 2147483649, timespan := 1000000000 })) = true := by
    decide +kernel
  obtain ⟨initial, created, checked⟩ := (any_eq_true _ _).mp checked
  obtain ⟨guarded, checked⟩ := (Bool.and_eq_true _ _).mp checked
  obtain ⟨final, ran, checked⟩ := (any_eq_true _ _).mp checked
  exact ⟨initial, final, created, of_decide_eq_true guarded, ran,
    fun kept => of_decide_eq_true checked kept.capacity⟩

end AdkAaf.Adk.ConstRateCtrl
