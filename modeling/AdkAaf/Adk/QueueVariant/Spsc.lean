import AdkAaf.Adk.ArchGeneric
import AdkAaf.Lib.RingLaps
import Mathlib.Algebra.Group.Int.Defs
import Mathlib.Logic.Function.Basic

/-! `SPSCQueue` of `adk/include/adk/lock_free_queue_variant.h` with one pushing and one
popping thread: only the sign of `pos` decides whose turn a slot is.

The queue is a component of others, so that each side is a function which makes the
next access of a running call and reports how the call stands. -/

set_option autoImplicit false

namespace AdkAaf.Adk.QueueVariant

open Function List

/-- `Push`: the load of `pos`, the store of the element, and the load and the store of
`pos` in `SP_PostEntry`. -/
inductive PushPc (Value : Type) where
  | idle
  | checking (value : Value)
  | writing (value : Value)
  | posting (value : Value)
  | storing (value : Value) (pos : Int)

/-- `Pop`: the load of `pos`, the load of the element, and the load and the store of
`pos` in `SC_FreeEntry`. -/
inductive PopPc (Value : Type) where
  | idle
  | checking
  | reading
  | freeing (value : Value)
  | storing (value : Value) (pos : Int)

/-- As a history variable the elements between the store of `pos` that posts them and the
one that frees them. -/
structure Ring (Value : Type) where
  pos : Nat → Int
  buffer : Nat → Value
  tail : Nat
  head : Nat
  push : PushPc Value := .idle
  pop : PopPc Value := .idle
  contents : List Value := []

inductive PushEvent where
  | running
  | kQueueFull
  | kSuccess

inductive PopEvent (Value : Type) where
  | running
  | kQueueEmpty
  | kSuccess (value : Value)

namespace Ring

variable {Value : Type}

/-- The slots that `Create` allocates memory for: their sizes of 16 bytes are multiplied in
32 bits. -/
def allocated (size : Nat) : Nat := uint32 (size * 16) / 16

/-- `Create` and `InitEntries`. What lies behind the allocated slots is not the queue's
memory, and `pos` and `buffer` are what is found there. -/
def create (size : Nat) (pos : Nat → Int) (buffer : Nat → Value) : Ring Value :=
  { pos := fun slot =>
      if slot < allocated size then -((uint32 (size + slot) : Nat) : Int) else pos slot
    buffer
    tail := uint32 (size * 2)
    head := uint32 (size * 2) }

section Steps

variable (size : Nat) (ring : Ring Value)

def slot (index : Nat) : Nat := index &&& sizeMask size

def startPush (value : Value) : Ring Value := { ring with push := .checking value }

def startPop : Ring Value := { ring with pop := .checking }

def stepPush : Option (Ring Value × PushEvent) :=
  let slot := slot size ring.tail
  match ring.push with
  | .idle => none
  | .checking value =>
    if ring.pos slot > 0 then
      some ({ ring with push := .idle }, .kQueueFull)
    else
      some ({ ring with push := .writing value }, .running)
  | .writing value =>
    some ({ ring with
      buffer := update ring.buffer slot value, push := .posting value }, .running)
  | .posting value => some ({ ring with push := .storing value (ring.pos slot) }, .running)
  | .storing value pos =>
    some ({ ring with
      pos := update ring.pos slot (size - pos)
      tail := ring.tail + 1
      push := .idle
      contents := ring.contents ++ [value] }, .kSuccess)

def stepPop : Option (Ring Value × PopEvent Value) :=
  let slot := slot size ring.head
  match ring.pop with
  | .idle => none
  | .checking =>
    if ring.pos slot < 0 then
      some ({ ring with pop := .idle }, .kQueueEmpty)
    else
      some ({ ring with pop := .reading }, .running)
  | .reading => some ({ ring with pop := .freeing (ring.buffer slot) }, .running)
  | .freeing value => some ({ ring with pop := .storing value (ring.pos slot) }, .running)
  | .storing value pos =>
    some ({ ring with
      pos := update ring.pos slot (-pos)
      head := ring.head + 1
      pop := .idle
      contents := ring.contents.tail }, .kSuccess value)

def runPush : Nat → Ring Value → Option (Ring Value)
  | 0, _ => none
  | fuel + 1, ring =>
    match stepPush size ring with
    | some (next, .running) => runPush fuel next
    | some (next, .kSuccess) => some next
    | some (_, .kQueueFull) | none => none

def runPop : Nat → Ring Value → Option (Ring Value × Option Value)
  | 0, _ => none
  | fuel + 1, ring =>
    match stepPop size ring with
    | some (next, .running) => runPop fuel next
    | some (next, .kSuccess value) => some (next, some value)
    | some (next, .kQueueEmpty) => some (next, none)
    | none => none

def pushAlone (value : Value) : Option (Ring Value) := runPush size 4 (ring.startPush value)

def popAlone : Option (Ring Value × Option Value) := runPop size 4 ring.startPop

end Steps

def pushing : PushPc Value → Option Value
  | .idle => none
  | .checking value | .writing value | .posting value | .storing value _ => some value

structure SizeValid (size : Nat) : Prop where
  power : ∃ exponent ≤ 27, size = 2 ^ exponent

namespace SizeValid

variable {size : Nat} (valid : SizeValid size)

include valid

theorem positive : 0 < size := by
  obtain ⟨exponent, _, rfl⟩ := valid.power
  exact Nat.two_pow_pos exponent

theorem small : size ≤ 2 ^ 27 := by
  obtain ⟨exponent, bound, rfl⟩ := valid.power
  exact Nat.pow_le_pow_right (by decide) bound

theorem slot_eq (i : Nat) : slot size i = i % size := by
  obtain ⟨exponent, bound, power⟩ := valid.power
  exact and_sizeMask power (Nat.le_trans bound (by decide)) i

theorem allocated_eq : allocated size = size := by
  have small := valid.small
  rw [allocated, uint32_eq (by omega)]
  omega

end SizeValid

def PushValid (size : Nat) (ring : Ring Value) : Prop :=
  match ring.push with
  | .idle | .checking _ => True
  | .writing _ => ring.pos (slot size ring.tail) < 0
  | .posting value =>
    ring.pos (slot size ring.tail) < 0 ∧ ring.buffer (slot size ring.tail) = value
  | .storing value pos =>
    ring.pos (slot size ring.tail) < 0 ∧ ring.buffer (slot size ring.tail) = value ∧
      pos = ring.pos (slot size ring.tail)

def PopValid (size : Nat) (ring : Ring Value) : Prop :=
  match ring.pop with
  | .idle | .checking => True
  | .reading => 0 < ring.pos (slot size ring.head)
  | .freeing value =>
    0 < ring.pos (slot size ring.head) ∧ ring.buffer (slot size ring.head) = value
  | .storing value pos =>
    0 < ring.pos (slot size ring.head) ∧ ring.buffer (slot size ring.head) = value ∧
      pos = ring.pos (slot size ring.head)

/-- The slots from `head` on hold the contents, those behind them are at the pusher's
turn. -/
structure Valid (size : Nat) (ring : Ring Value) : Prop where
  ends : ring.tail = ring.head + ring.contents.length
  fits : ring.contents.length ≤ size
  filled : ∀ offset value, ring.contents[offset]? = some value →
    0 < ring.pos (slot size (ring.head + offset)) ∧
      ring.buffer (slot size (ring.head + offset)) = value
  empty : ∀ index, ring.tail ≤ index → index < ring.head + size →
    ring.pos (slot size index) < 0
  push : PushValid size ring
  pop : PopValid size ring

variable {size : Nat} {ring next : Ring Value}

theorem valid_create (sizeValid : SizeValid size) (pos : Nat → Int) (buffer : Nat → Value) :
    Valid size (create size pos buffer) where
  ends := rfl
  fits := Nat.zero_le _
  filled := by
    nofun
  empty := by
    intro i _ _
    have positive := sizeValid.positive
    have small := sizeValid.small
    have inside : slot size i < size := by
      rw [sizeValid.slot_eq]
      exact Nat.mod_lt i positive
    simp only [create]
    rw [sizeValid.allocated_eq, if_pos inside, uint32_eq (by omega)]
    omega
  push := trivial
  pop := trivial

theorem slot_ne (sizeValid : SizeValid size) {i other : Nat} (before : i < other)
    (window : other < i + size) : slot size i ≠ slot size other := by
  rw [sizeValid.slot_eq, sizeValid.slot_eq]
  exact Lib.mod_ne_of_window before window

theorem slot_add_size (sizeValid : SizeValid size) (index : Nat) :
    slot size (index + size) = slot size index := by
  rw [sizeValid.slot_eq, sizeValid.slot_eq, Nat.add_mod_right]

namespace Valid

variable (sizeValid : SizeValid size) (valid : Valid size ring)

include sizeValid valid

theorem tail_sign : if ring.contents.length < size then ring.pos (slot size ring.tail) < 0
    else 0 < ring.pos (slot size ring.tail) := by
  have ends := valid.ends
  have fits := valid.fits
  split
  next room => exact valid.empty ring.tail .refl (by omega)
  next full =>
    have whole : ring.contents.length = size := by omega
    have positive := sizeValid.positive
    have first := List.getElem?_eq_getElem (l := ring.contents) (i := 0) (by omega)
    have posted := (valid.filled 0 _ first).1
    rw [ends, whole, slot_add_size sizeValid]
    exact posted

theorem head_sign : if ring.contents = [] then ring.pos (slot size ring.head) < 0
    else 0 < ring.pos (slot size ring.head) := by
  have ends := valid.ends
  have positive := sizeValid.positive
  split
  next none =>
    rw [none, length_nil] at ends
    exact valid.empty ring.head (by omega) (by omega)
  next some =>
    have first := List.getElem?_eq_getElem (l := ring.contents) (i := 0)
      (length_pos_iff.mpr some)
    exact (valid.filled 0 _ first).1

theorem room_of_neg (negative : ring.pos (slot size ring.tail) < 0) :
    ring.contents.length < size := by
  have sign := valid.tail_sign sizeValid
  split at sign
  next room => exact room
  next => omega

theorem ne_nil_of_pos (pos : 0 < ring.pos (slot size ring.head)) : ring.contents ≠ [] := by
  have sign := valid.head_sign sizeValid
  split at sign
  next => omega
  next some => exact some

variable {val : Value}

theorem write (writing : ring.push = .writing val) :
    Valid size { ring with
      buffer := update ring.buffer (slot size ring.tail) val
      push := .posting val } := by
  have pushValid := valid.push
  unfold PushValid at pushValid
  rw [writing] at pushValid
  have room := valid.room_of_neg sizeValid pushValid
  have ends := valid.ends
  have kept : ∀ i, ring.head ≤ i → i < ring.tail →
      update ring.buffer (slot size ring.tail) val (slot size i) =
        ring.buffer (slot size i) := by
    intro i above below
    exact update_of_ne (slot_ne sizeValid below (by omega)) _ _
  refine { valid with filled := ?_, push := ⟨pushValid, update_self _ _ _⟩, pop := ?_ }
  · intro off element found
    have inside : off < ring.contents.length := (List.getElem?_eq_some_iff.mp found).1
    have holds := valid.filled off element found
    refine ⟨holds.1, ?_⟩
    exact (kept _ (Nat.le_add_right _ _) (by omega)).trans holds.2
  · have popValid := valid.pop
    unfold PopValid at popValid ⊢
    dsimp only
    split at popValid
    next => trivial
    next => trivial
    next => exact popValid
    next =>
      have some := length_pos_iff.mpr (valid.ne_nil_of_pos sizeValid popValid.1)
      exact ⟨popValid.1, (kept _ .refl (by omega)).trans popValid.2⟩
    next =>
      have some := length_pos_iff.mpr (valid.ne_nil_of_pos sizeValid popValid.1)
      exact ⟨popValid.1, (kept _ .refl (by omega)).trans popValid.2.1, popValid.2.2⟩

variable {pos : Int}

theorem post (storing : ring.push = .storing val pos) :
    Valid size { ring with
      pos := update ring.pos (slot size ring.tail) (size - pos)
      tail := ring.tail + 1
      push := .idle
      contents := ring.contents ++ [val] } := by
  have pushValid := valid.push
  unfold PushValid at pushValid
  rw [storing] at pushValid
  obtain ⟨negative, stored, rfl⟩ := pushValid
  have room := valid.room_of_neg sizeValid negative
  have ends := valid.ends
  have kept : ∀ i, ring.head ≤ i → i < ring.tail →
      update ring.pos (slot size ring.tail) (size - ring.pos (slot size ring.tail))
        (slot size i) = ring.pos (slot size i) := by
    intro i above below
    exact update_of_ne (slot_ne sizeValid below (by omega)) _ _
  refine ⟨?_, ?_, ?_, ?_, trivial, ?_⟩
  · dsimp only
    rw [length_append, ends]
    rfl
  · rw [length_append]
    exact room
  · intro off element found
    dsimp only at found ⊢
    rcases Nat.lt_or_ge off ring.contents.length with earlier | later
    · rw [List.getElem?_append_left earlier] at found
      rw [kept _ (Nat.le_add_right _ _) (by omega)]
      exact valid.filled off element found
    · rw [List.getElem?_append_right later] at found
      have last : off = ring.contents.length := by
        have bound := (List.getElem?_eq_some_iff.mp found).1
        simp only [List.length_singleton] at bound
        omega
      subst last
      rw [Nat.sub_self, List.getElem?_cons_zero] at found
      cases found
      rw [← ends, update_self]
      exact ⟨by omega, stored⟩
  · intro i above below
    dsimp only at above below ⊢
    rw [update_of_ne (slot_ne sizeValid above (by omega)).symm]
    exact valid.empty i (by omega) below
  · have popValid := valid.pop
    unfold PopValid at popValid ⊢
    dsimp only
    split at popValid
    next => trivial
    next => trivial
    next =>
      have some := length_pos_iff.mpr (valid.ne_nil_of_pos sizeValid popValid)
      rw [kept _ .refl (by omega)]
      exact popValid
    next =>
      have some := length_pos_iff.mpr (valid.ne_nil_of_pos sizeValid popValid.1)
      rw [kept _ .refl (by omega)]
      exact popValid
    next =>
      have some := length_pos_iff.mpr (valid.ne_nil_of_pos sizeValid popValid.1)
      rw [kept _ .refl (by omega)]
      exact popValid

theorem free (storing : ring.pop = .storing val pos) :
    ring.contents = val :: ring.contents.tail ∧ Valid size { ring with
      pos := update ring.pos (slot size ring.head) (-pos)
      head := ring.head + 1
      pop := .idle
      contents := ring.contents.tail } := by
  have popValid := valid.pop
  unfold PopValid at popValid
  rw [storing] at popValid
  obtain ⟨positive, stored, rfl⟩ := popValid
  have some := valid.ne_nil_of_pos sizeValid positive
  obtain ⟨first, rest, shape⟩ := exists_cons_of_ne_nil some
  have ends := valid.ends
  have fits := valid.fits
  have holds := (valid.filled 0 first (by rw [shape]; rfl)).2
  rw [Nat.add_zero] at holds
  rw [shape, length_cons] at ends fits
  have kept : ∀ i, ring.head < i → i < ring.head + size →
      update ring.pos (slot size ring.head) (-ring.pos (slot size ring.head))
        (slot size i) = ring.pos (slot size i) := by
    intro i above below
    exact update_of_ne (slot_ne sizeValid above below).symm _ _
  have tailKept : ring.pos (slot size ring.tail) < 0 →
      update ring.pos (slot size ring.head) (-ring.pos (slot size ring.head))
        (slot size ring.tail) = ring.pos (slot size ring.tail) := by
    intro negative
    apply update_of_ne
    intro same
    rw [same] at negative
    omega
  refine ⟨?_, ?_, ?_, ?_, ?_, ?_, trivial⟩
  · rw [shape, ← stored, holds]
    rfl
  · dsimp only
    rw [shape, List.tail_cons]
    omega
  · rw [shape, List.tail_cons]
    exact Nat.le_of_succ_le fits
  · intro off element found
    dsimp only at found ⊢
    rw [shape, List.tail_cons] at found
    have inside := (List.getElem?_eq_some_iff.mp found).1
    have position : ring.head + 1 + off = ring.head + (off + 1) := by omega
    rw [position, kept _ (by omega) (by omega)]
    apply valid.filled
    rw [shape, List.getElem?_cons_succ]
    exact found
  · intro i above below
    dsimp only at above below ⊢
    rcases Nat.lt_or_ge i (ring.head + size) with earlier | later
    · rw [kept i (by omega) earlier]
      exact valid.empty i above earlier
    · have last : i = ring.head + size := by omega
      rw [last, slot_add_size sizeValid, update_self]
      omega
  · have pushValid := valid.push
    unfold PushValid at pushValid ⊢
    dsimp only
    split at pushValid
    next => trivial
    next => trivial
    next =>
      rw [tailKept pushValid]
      exact pushValid
    next =>
      rw [tailKept pushValid.1]
      exact pushValid
    next =>
      rw [tailKept pushValid.1]
      exact pushValid

omit sizeValid in
theorem setPush {push : PushPc Value} (pushValid : PushValid size { ring with push }) :
    Valid size { ring with push } :=
  ⟨valid.ends, valid.fits, valid.filled, valid.empty, pushValid, valid.pop⟩

omit sizeValid in
theorem setPop {pop : PopPc Value} (popValid : PopValid size { ring with pop }) :
    Valid size { ring with pop } :=
  ⟨valid.ends, valid.fits, valid.filled, valid.empty, valid.push, popValid⟩

end Valid

theorem Valid.startPush (valid : Valid size ring) (val : Value) :
    Valid size (startPush ring val) := valid.setPush trivial

theorem Valid.startPop (valid : Valid size ring) : Valid size (startPop ring) :=
  valid.setPop trivial

def PushEffect (ring next : Ring Value) : PushEvent → Prop
  | .running => next.contents = ring.contents ∧ pushing next.push = pushing ring.push
  | .kQueueFull => next.contents = ring.contents ∧ next.push = .idle
  | .kSuccess =>
    next.push = .idle ∧
      ∃ value, pushing ring.push = some value ∧ next.contents = ring.contents ++ [value]

def PopEffect (ring next : Ring Value) : PopEvent Value → Prop
  | .running => next.contents = ring.contents ∧ next.pop ≠ .idle
  | .kQueueEmpty => next.contents = ring.contents ∧ next.pop = .idle
  | .kSuccess value => next.pop = .idle ∧ ring.contents = value :: next.contents

theorem stepPush_spec (sizeValid : SizeValid size) (valid : Valid size ring) {event : PushEvent}
    (went : stepPush size ring = some (next, event)) :
    Valid size next ∧ next.pop = ring.pop ∧ PushEffect ring next event := by
  have pushValid := valid.push
  unfold PushValid at pushValid
  unfold stepPush at went
  dsimp only at went
  split at went
  next => cases went
  next value checking =>
    split at went <;> cases went
    · exact ⟨valid.setPush trivial, rfl, rfl, rfl⟩
    next waiting =>
      refine ⟨valid.setPush ?_, rfl, rfl, ?_⟩
      · have sign := valid.tail_sign sizeValid
        split at sign
        next => exact sign
        next => exact absurd sign waiting
      · rw [checking]
        rfl
  next value writing =>
    cases went
    refine ⟨valid.write sizeValid writing, rfl, rfl, ?_⟩
    rw [writing]
    rfl
  next value posting =>
    cases went
    rw [posting] at pushValid
    refine ⟨valid.setPush ⟨pushValid.1, pushValid.2, rfl⟩, rfl, rfl, ?_⟩
    rw [posting]
    rfl
  next value pos storing =>
    cases went
    refine ⟨valid.post sizeValid storing, rfl, rfl, value, ?_, rfl⟩
    rw [storing]
    rfl

variable {event : PopEvent Value}

theorem stepPop_spec (sizeValid : SizeValid size) (valid : Valid size ring)
    (went : stepPop size ring = some (next, event)) :
    Valid size next ∧ next.push = ring.push ∧ PopEffect ring next event := by
  have popValid := valid.pop
  unfold PopValid at popValid
  unfold stepPop at went
  dsimp only at went
  split at went
  next => cases went
  next checking =>
    split at went <;> cases went
    · exact ⟨valid.setPop trivial, rfl, rfl, rfl⟩
    next posted =>
      refine ⟨valid.setPop ?_, rfl, rfl, by simp⟩
      have sign := valid.head_sign sizeValid
      split at sign
      next => exact absurd sign posted
      next => exact sign
  next reading =>
    cases went
    rw [reading] at popValid
    exact ⟨valid.setPop ⟨popValid, rfl⟩, rfl, rfl, by simp⟩
  next val freeing =>
    cases went
    rw [freeing] at popValid
    exact ⟨valid.setPop ⟨popValid.1, popValid.2, rfl⟩, rfl, rfl, by simp⟩
  next val pos storing =>
    cases went
    have freed := valid.free sizeValid storing
    exact ⟨freed.2, rfl, rfl, freed.1⟩

theorem stepPop_push (push : PushPc Value) (went : stepPop size ring = some (next, event)) :
    stepPop size { ring with push } = some ({ next with push }, event) := by
  cases pop : ring.pop with
  | idle => simp only [stepPop, pop, reduceCtorEq] at went
  | checking =>
    simp only [stepPop, pop] at went ⊢
    split at went <;> cases went
    next empty => rw [if_pos empty]
    next posted => rw [if_neg posted]
  | reading | freeing val | storing val pos =>
    simp only [stepPop, pop] at went ⊢
    cases went
    rfl

theorem stepPop_tail (went : stepPop size ring = some (next, event)) :
    next.tail = ring.tail := by
  cases pop : ring.pop with
  | idle => simp only [stepPop, pop, reduceCtorEq] at went
  | checking =>
    simp only [stepPop, pop] at went
    split at went <;> cases went <;> rfl
  | reading | freeing val | storing val pos =>
    simp only [stepPop, pop] at went
    cases went
    rfl

def pushSteps : PushPc Value → Nat
  | .idle => 0
  | .checking _ => 4
  | .writing _ => 3
  | .posting _ => 2
  | .storing _ _ => 1

theorem stepPush_progress {val : Value} (size : Nat) (running : pushing ring.push = some val) :
    ∃ next event, stepPush size ring = some (next, event) ∧
      (event = .running → pushSteps next.push < pushSteps ring.push) := by
  unfold stepPush
  dsimp only
  split
  next idle =>
    rw [idle] at running
    cases running
  next val checking =>
    split
    next => exact ⟨_, _, rfl, fun impossible => by cases impossible⟩
    next => exact ⟨_, _, rfl, fun _ => by rw [checking]; exact Nat.lt_succ_self _⟩
  next val writing => exact ⟨_, _, rfl, fun _ => by rw [writing]; exact Nat.lt_succ_self _⟩
  next val posting => exact ⟨_, _, rfl, fun _ => by rw [posting]; exact Nat.lt_succ_self _⟩
  next val pos storing => exact ⟨_, _, rfl, fun impossible => by cases impossible⟩

def popSteps : PopPc Value → Nat
  | .idle => 0
  | .checking => 4
  | .reading => 3
  | .freeing _ => 2
  | .storing _ _ => 1

theorem stepPop_progress (size : Nat) (running : ring.pop ≠ .idle) :
    ∃ next event, stepPop size ring = some (next, event) ∧ 0 < popSteps ring.pop ∧
      (event = .running → popSteps next.pop < popSteps ring.pop) := by
  unfold stepPop
  dsimp only
  split
  next idle => exact absurd idle running
  next checking =>
    rw [checking]
    split
    next => exact ⟨_, _, rfl, Nat.succ_pos _, fun impossible => by cases impossible⟩
    next => exact ⟨_, _, rfl, Nat.succ_pos _, fun _ => Nat.lt_succ_self _⟩
  next reading =>
    rw [reading]
    exact ⟨_, _, rfl, Nat.succ_pos _, fun _ => Nat.lt_succ_self _⟩
  next val freeing =>
    rw [freeing]
    exact ⟨_, _, rfl, Nat.succ_pos _, fun _ => Nat.lt_succ_self _⟩
  next val pos storing =>
    rw [storing]
    exact ⟨_, _, rfl, Nat.succ_pos _, fun impossible => by cases impossible⟩

section

variable (sizeValid : SizeValid size)
include sizeValid

variable {fuel : Nat}

section

variable (valid : Valid size ring)
include valid

theorem runPush_spec (ran : runPush size fuel ring = some next) :
    Valid size next ∧ next.pop = ring.pop ∧ next.push = .idle ∧
      ∃ val, pushing ring.push = some val ∧ next.contents = ring.contents ++ [val] := by
  induction fuel generalizing ring with
  | zero => cases ran
  | succ fuel ih =>
    simp only [runPush] at ran
    split at ran
    next middle went =>
      obtain ⟨middleValid, pop, contents, same⟩ := stepPush_spec sizeValid valid went
      obtain ⟨nextValid, kept, idle, effect⟩ := ih middleValid ran
      rw [contents, same] at effect
      exact ⟨nextValid, kept.trans pop, idle, effect⟩
    next middle went =>
      cases ran
      obtain ⟨nextValid, pop, idle, effect⟩ := stepPush_spec sizeValid valid went
      exact ⟨nextValid, pop, idle, effect⟩
    all_goals cases ran

theorem pushAlone_spec {val : Value} (ran : pushAlone size ring val = some next) :
    Valid size next ∧ next.pop = ring.pop ∧ next.push = .idle ∧
      next.contents = ring.contents ++ [val] := by
  obtain ⟨nextValid, pop, idle, pushed, same, contents⟩ :=
    runPush_spec sizeValid (valid.startPush val) ran
  cases same
  exact ⟨nextValid, pop, idle, contents⟩

theorem foldlM_pushAlone_spec {values : List Value} (idle : ring.push = .idle)
    (ran : values.foldlM (pushAlone size) ring = some next) :
    Valid size next ∧ next.pop = ring.pop ∧ next.push = .idle ∧
      next.contents = ring.contents ++ values := by
  induction values generalizing ring with
  | nil =>
    cases ran
    exact ⟨valid, rfl, idle, (append_nil _).symm⟩
  | cons val rest ih =>
    obtain ⟨middle, pushed, finished⟩ := Option.bind_eq_some_iff.mp ran
    obtain ⟨middleValid, pop, middleIdle, contents⟩ := pushAlone_spec sizeValid valid pushed
    obtain ⟨nextValid, kept, nextIdle, all⟩ := ih middleValid middleIdle finished
    refine ⟨nextValid, kept.trans pop, nextIdle, ?_⟩
    rw [all, contents, append_assoc]
    rfl

theorem runPop_spec {popped : Option Value} (ran : runPop size fuel ring = some (next, popped)) :
    Valid size next ∧ next.push = ring.push ∧ next.pop = .idle ∧
      ring.contents = popped.toList ++ next.contents := by
  induction fuel generalizing ring with
  | zero => cases ran
  | succ fuel ih =>
    simp only [runPop] at ran
    split at ran
    next middle went =>
      obtain ⟨middleValid, push, contents, _⟩ := stepPop_spec sizeValid valid went
      obtain ⟨nextValid, kept, idle, effect⟩ := ih middleValid ran
      exact ⟨nextValid, kept.trans push, idle, contents ▸ effect⟩
    next middle val went =>
      cases ran
      obtain ⟨nextValid, push, idle, effect⟩ := stepPop_spec sizeValid valid went
      exact ⟨nextValid, push, idle, effect⟩
    next middle went =>
      cases ran
      obtain ⟨nextValid, push, effect, idle⟩ := stepPop_spec sizeValid valid went
      exact ⟨nextValid, push, idle, effect.symm⟩
    next => cases ran

theorem popAlone_spec {popped : Option Value} (ran : popAlone size ring = some (next, popped)) :
    Valid size next ∧ next.push = ring.push ∧ next.pop = .idle ∧
      ring.contents = popped.toList ++ next.contents := by
  have result := runPop_spec sizeValid valid.startPop ran
  exact result

end

end

end Ring

end AdkAaf.Adk.QueueVariant
