import AdkAaf.Adk.MemoryPoolVariant.Holding

/-! The allocator gives out disjoint memory: the blocks of a chunk lie one behind the other as
long as `cur` does not wrap, and a chunk is destroyed once, after its last block. -/

set_option autoImplicit false

namespace AdkAaf.Adk.MemoryPoolVariant

open Function Lib List

def Block.Apart (first second : Block) : Prop :=
  first.chunk = second.chunk →
    RangesApart first.offset first.length second.offset second.length

theorem Block.Apart.symm {first second : Block} (apart : first.Apart second) :
    second.Apart first := fun same => (apart same.symm).symm

variable {Thread : Type}

namespace System

def Inside (system : System Thread) (block : Block) : Prop :=
  headerSize ≤ block.offset ∧
    block.offset + block.length ≤ (system.chunks block.chunk).thrd ∧
    block.offset + block.length ≤ (system.chunks block.chunk).cur

/-- Blocks come from the current chunk, or from one they keep. -/
structure Carved (system : System Thread) : Prop where
  header : ∀ chunk < system.created, headerSize ≤ (system.chunks chunk).cur
  live : ∀ block ∈ system.live, system.Inside block
  held : ∀ thread block, (system.threads thread).block = some block → system.Inside block
  liveApart : system.live.Pairwise Block.Apart
  heldLive : ∀ thread block, (system.threads thread).block = some block →
    ∀ other ∈ system.live, block.Apart other
  heldApart : ∀ thread other block second, thread ≠ other →
    (system.threads thread).block = some block → (system.threads other).block = some second →
    block.Apart second

def Placed (system : System Thread) : Prop :=
  ∀ first second, first < system.created → second < system.created → first ≠ second →
    (system.chunks first).destroyed = 0 → (system.chunks second).destroyed = 0 →
    RangesApart (system.chunks first).address (system.chunks first).thrd
      (system.chunks second).address (system.chunks second).thrd

section

variable {system next : System Thread}

theorem Carved.frame (carved : Carved system) (inside : ∀ block, block ∈ system.live ∨
      (∃ thread, (system.threads thread).block = some block) →
      system.Inside block → next.Inside block)
    (header : ∀ chunk < next.created, headerSize ≤ (next.chunks chunk).cur)
    (live : next.live.Sublist system.live)
    (held : ∀ thread block, (next.threads thread).block = some block →
      (system.threads thread).block = some block) : Carved next := by
  constructor
  · exact header
  · intro block mem
    have before := live.subset mem
    exact inside block (.inl before) (carved.live block before)
  · intro thread block own
    have before := held thread block own
    exact inside block (.inr ⟨thread, before⟩) (carved.held thread block before)
  · exact carved.liveApart.sublist live
  · intro thread block own other mem
    exact carved.heldLive thread block (held thread block own) other (live.subset mem)
  · intro thread other block second apart own otherOwn
    exact carved.heldApart thread other block second apart (held thread block own)
      (held other second otherOwn)

end

section

variable [DecidableEq Thread] {system : System Thread} {thread : Thread} {pc : PC}

variable {before : PC}

theorem Carved.setThread (carved : Carved system) (now : system.threads thread = before)
    (held : ∀ block, pc.block = some block → before.block = some block) :
    Carved (system.setThread thread pc) := by
  subst now
  refine carved.frame (fun _ _ => id) carved.header (Sublist.refl _) ?_
  intro other block own
  by_cases same : other = thread
  · subst same
    rw [threads_setThread] at own
    exact held block own
  · rw [threads_setThread_of_ne same] at own
    exact own

variable {chunk : Nat} {content : MemoryChunk}

omit [DecidableEq Thread] in
theorem Carved.setChunk (carved : Carved system) (thrd : content.thrd = (system.chunks chunk).thrd)
    (cur : (system.chunks chunk).cur ≤ content.cur) : Carved (system.setChunk chunk content) := by
  have grows : ∀ other, ((system.setChunk chunk content).chunks other).thrd =
      (system.chunks other).thrd ∧
      (system.chunks other).cur ≤ ((system.setChunk chunk content).chunks other).cur := by
    intro other
    by_cases same : other = chunk
    · subst same
      simp only [System.setChunk, update_self]
      exact ⟨thrd, cur⟩
    · simp only [System.setChunk, update_of_ne same]
      exact ⟨trivial, .refl⟩
  refine carved.frame ?_ ?_ (Sublist.refl _) (fun _ _ => id)
  · intro block _ place
    obtain ⟨same, more⟩ := grows block.chunk
    exact ⟨place.1, same.symm ▸ place.2.1, place.2.2.trans more⟩
  · intro other below
    exact (carved.header other below).trans (grows other).2

variable {length : Nat}

theorem Carved.cut (carved : Carved system) (adding : system.threads thread = .addCur length chunk)
    (below : chunk < system.created) (small : (system.chunks chunk).cur + length < 2 ^ 32)
    (fits : (system.chunks chunk).cur + length ≤ (system.chunks chunk).thrd) :
    Carved ((system.setChunk chunk { system.chunks chunk with
      cur := ((system.chunks chunk).cur + length) % 2 ^ 32 }).setThread thread
        (.addRef ⟨chunk, (system.chunks chunk).cur, length⟩)) := by
  have behind : ∀ block : Block, system.Inside block →
      Block.Apart ⟨chunk, (system.chunks chunk).cur, length⟩ block := by
    intro block place same
    obtain rfl : chunk = block.chunk := same
    exact .inr place.2.2
  have grown : ((system.chunks chunk).cur + length) % 2 ^ 32 =
      (system.chunks chunk).cur + length := Nat.mod_eq_of_lt small
  rw [grown]
  have added : Carved (system.setChunk chunk { system.chunks chunk with
      cur := (system.chunks chunk).cur + length }) :=
    carved.setChunk rfl (Nat.le_add_right _ _)
  have own : ((system.setChunk chunk { system.chunks chunk with
      cur := (system.chunks chunk).cur + length }).setThread thread
        (.addRef ⟨chunk, (system.chunks chunk).cur, length⟩)).Inside
          ⟨chunk, (system.chunks chunk).cur, length⟩ := by
    simp only [Inside, System.setThread, System.setChunk, update_self]
    exact ⟨carved.header chunk below, fits, .refl⟩
  constructor
  · exact added.header
  · exact added.live
  · intro other block held
    by_cases same : other = thread
    · subst same
      rw [threads_setThread] at held
      cases held
      exact own
    · rw [threads_setThread_of_ne same] at held
      exact added.held other block held
  · exact carved.liveApart
  · intro other block held second mem
    by_cases same : other = thread
    · subst same
      rw [threads_setThread] at held
      cases held
      exact behind second (carved.live second mem)
    · rw [threads_setThread_of_ne same] at held
      exact carved.heldLive other block held second mem
  · intro first second block other apart held otherHeld
    by_cases firstOwn : first = thread
    · subst firstOwn
      rw [threads_setThread] at held
      rw [threads_setThread_of_ne (Ne.symm apart)] at otherHeld
      cases held
      exact behind other (carved.held second other otherHeld)
    · rw [threads_setThread_of_ne firstOwn] at held
      by_cases secondOwn : second = thread
      · subst secondOwn
        rw [threads_setThread] at otherHeld
        cases otherHeld
        exact (behind block (carved.held first block held)).symm
      · rw [threads_setThread_of_ne secondOwn] at otherHeld
        exact carved.heldApart first second block other apart held otherHeld

variable {block : Block}

theorem Carved.setBlockCtx (carved : Carved system)
    (setting : system.threads thread = .setBlockCtx block) :
    Carved ({ system with live := system.live ++ [block] }.setThread thread .idle) := by
  have own : (system.threads thread).block = some block := congrArg PC.block setting
  have others : ∀ other held, (({ system with live := system.live ++ [block] } :
      System Thread).setThread thread .idle |>.threads other).block = some held →
      other ≠ thread ∧ (system.threads other).block = some held := by
    intro other held holds
    by_cases same : other = thread
    · subst same
      rw [threads_setThread] at holds
      cases holds
    · rw [threads_setThread_of_ne same] at holds
      exact ⟨same, holds⟩
  constructor
  · exact carved.header
  · intro other mem
    rcases mem_append.mp mem with old | new
    · exact carved.live other old
    · cases mem_singleton.mp new
      exact carved.held thread block own
  · intro other held holds
    exact carved.held other held (others other held holds).2
  · refine pairwise_append.mpr ⟨carved.liveApart, pairwise_singleton _ _, ?_⟩
    intro first mem second new
    cases mem_singleton.mp new
    exact (carved.heldLive thread block own first mem).symm
  · intro other held holds second mem
    obtain ⟨apart, before⟩ := others other held holds
    rcases mem_append.mp mem with old | new
    · exact carved.heldLive other held before second old
    · cases mem_singleton.mp new
      exact carved.heldApart other thread held block apart before own
  · intro first second held other apart holds otherHolds
    exact carved.heldApart first second held other apart (others first held holds).2
      (others second other otherHolds).2

omit [DecidableEq Thread] in
theorem Placed.setChunk (placed : Placed system) (thrd : content.thrd = (system.chunks chunk).thrd)
    (address : content.address = (system.chunks chunk).address)
    (destroyed : content.destroyed = 0 → (system.chunks chunk).destroyed = 0) :
    Placed (system.setChunk chunk content) := by
  have same : ∀ other, ((system.setChunk chunk content).chunks other).thrd =
      (system.chunks other).thrd ∧
      ((system.setChunk chunk content).chunks other).address = (system.chunks other).address ∧
      (((system.setChunk chunk content).chunks other).destroyed = 0 →
        (system.chunks other).destroyed = 0) := by
    intro other
    by_cases own : other = chunk
    · subst own
      simp only [System.setChunk, update_self]
      exact ⟨thrd, address, destroyed⟩
    · simp only [System.setChunk, update_of_ne own]
      exact ⟨trivial, trivial, id⟩
  intro first second firstBelow secondBelow apart firstThere secondThere
  rw [(same first).1, (same first).2.1, (same second).1, (same second).2.1]
  exact placed first second firstBelow secondBelow apart ((same first).2.2 firstThere)
    ((same second).2.2 secondThere)

variable {address : Nat}

omit [DecidableEq Thread] in
theorem Placed.newChunk (placed : Placed system) {size : Nat} (free : system.Free address size) :
    Placed (system.newChunk address size) := by
  intro first second firstBelow secondBelow apart firstThere secondThere
  simp only [System.newChunk, Nat.lt_succ_iff] at firstBelow secondBelow firstThere secondThere ⊢
  by_cases firstNew : first = system.created
  · subst firstNew
    rw [update_self]
    rw [update_of_ne (Ne.symm apart)] at secondThere ⊢
    exact free second (by omega) secondThere
  · rw [update_of_ne firstNew] at firstThere ⊢
    by_cases secondNew : second = system.created
    · subst secondNew
      rw [update_self]
      exact (free first (by omega) firstThere).symm
    · rw [update_of_ne secondNew] at secondThere ⊢
      exact placed first second (by omega) (by omega) apart firstThere secondThere

/-- The lock counts fewer than `2 ^ 31` readers, `cur` of a chunk does not wrap, and
`CreateChunk` is not asked for less than the header, which happens where the size of the chunk
wraps. -/
def Fits (config : Config) (system : System Thread) : PC → Prop
  | .casLockR _ _ => system.nodeLock + 1 < 2 ^ 31
  | .addCur length chunk => (system.chunks chunk).cur + length < 2 ^ 32
  | .createChunk length _ => headerSize ≤ config.chunkSize length
  | .idle | .tryLockR _ | .loadChunk _ | .loadCur _ _ | .addRef _ | .unlockR _ | .setBlockCtx _
  | .upgradeLock _ _ | .giveUpLock _ _ | .tryLockW _ _ | .compareChunk _ _ | .decayLock _
  | .unlockW _ _ | .dropRef _ _ | .destroyChunk _ _ => True

omit [DecidableEq Thread] in
instance (config : Config) (system : System Thread) : ∀ pc, Decidable (Fits config system pc)
  | .casLockR _ _ => inferInstanceAs (Decidable (_ < _))
  | .addCur _ _ => inferInstanceAs (Decidable (_ < _))
  | .createChunk _ _ => inferInstanceAs (Decidable (_ ≤ _))
  | .idle | .tryLockR _ | .loadChunk _ | .loadCur _ _ | .addRef _ | .unlockR _ | .setBlockCtx _
  | .upgradeLock _ _ | .giveUpLock _ _ | .tryLockW _ _ | .compareChunk _ _ | .decayLock _
  | .unlockW _ _ | .dropRef _ _ | .destroyChunk _ _ => inferInstanceAs (Decidable True)

def Allowed (config : Config) (system : System Thread) : Action Thread → Prop
  | .newMemory _ _ | .deleteMemory _ _ => True
  | .step thread | .createChunk thread _ => Fits config system (system.threads thread)

omit [DecidableEq Thread] in
instance (config : Config) (system : System Thread) :
    ∀ action, Decidable (Allowed config system action)
  | .newMemory _ _ | .deleteMemory _ _ => inferInstanceAs (Decidable True)
  | .step _ | .createChunk _ _ => inferInstanceAs (Decidable (Fits _ _ _))

variable [Fintype Thread]

structure Sound (system : System Thread) : Prop where
  locked : Locked system
  counted : Counted system
  carved : Carved system
  placed : Placed system
  roomy : ∀ chunk < system.created, headerSize ≤ (system.chunks chunk).thrd

variable {config : Config}

omit [DecidableEq Thread] in
theorem Sound.init (room : headerSize ≤ config.increSize) :
    Sound (init config : System Thread) where
  locked := {
    lock := by
      have readers : tally PC.reading (fun _ : Thread => PC.idle) = 0 :=
        tally_eq_zero_iff.mpr fun _ => rfl
      have writers : tally PC.writing (fun _ : Thread => PC.idle) = 0 :=
        tally_eq_zero_iff.mpr fun _ => rfl
      exact .inl ⟨writers, congrArg Int.ofNat readers.symm, show (0 : Int) < 2 ^ 31 by decide⟩
    current := fun _ _ held => by cases held
    ready := fun _ => trivial }
  counted := {
    current := Nat.lt_succ_self 0
    counted := by
      intro chunk below
      obtain rfl : chunk = 0 := Nat.lt_one_iff.mp below
      have none : tally (PC.refs 0) (fun _ : Thread => PC.idle) = 0 :=
        tally_eq_zero_iff.mpr fun _ => rfl
      simp only [System.init, if_true, none, countP_nil]
      rfl
    ended := by
      intro chunk below
      have none : tally (PC.dooms chunk) (fun _ : Thread => PC.idle) = 0 :=
        tally_eq_zero_iff.mpr fun _ => rfl
      simp [System.init, none, one_ne_zero]
    fresh := fun _ _ => ⟨tally_eq_zero_iff.mpr fun _ => rfl,
      tally_eq_zero_iff.mpr fun _ => rfl, rfl⟩ }
  carved := {
    header := fun _ _ => .refl
    live := fun _ mem => by cases mem
    held := fun _ _ own => by cases own
    liveApart := Pairwise.nil
    heldLive := fun _ _ own => by cases own
    heldApart := fun _ _ _ _ _ own => by cases own }
  placed := by
    intro first second firstBelow secondBelow apart
    exact absurd ((Nat.lt_one_iff.mp firstBelow).trans (Nat.lt_one_iff.mp secondBelow).symm)
      apart
  roomy _ _ := room

omit [DecidableEq Thread] in
theorem Sound.block_known (sound : Sound system)
    (owned : block ∈ system.live ∨ ∃ thread, (system.threads thread).block = some block) :
    block.chunk < system.created := by
  rcases owned with mem | ⟨thread, held⟩
  · exact sound.counted.live_known mem
  · cases now : system.threads thread with
    | addRef own =>
      rw [now] at held
      cases held
      have current := sound.locked.current thread block.chunk (congrArg PC.locked now)
      exact current.le.trans_lt sound.counted.current
    | unlockR own | setBlockCtx own =>
      rw [now] at held
      cases held
      exact sound.counted.referred_known (congrArg PC.referred now)
    | _ =>
      rw [now] at held
      cases held

theorem Sound.setThread (sound : Sound system) (now : system.threads thread = before)
    (reading : pc.reading = before.reading) (writing : pc.writing = before.writing)
    (cur : ∀ chunk, pc.locked = some chunk → chunk = system.memoryChunk) (ready : pc.Ready)
    (referred : pc.referred = before.referred) (doomed : pc.doomed = before.doomed)
    (block : pc.block = before.block) : Sound (system.setThread thread pc) where
  locked := sound.locked.setThread now reading writing cur ready
  counted := sound.counted.setThread now referred doomed
  carved := sound.carved.setThread now fun _ held => block.symm.trans held
  placed := sound.placed
  roomy := sound.roomy

theorem Sound.setLock (sound : Sound system) {lock : Int}
    (now : system.threads thread = before) (moves : ∀ readers writers,
      LockIs (readers + before.reading) (writers + before.writing) system.nodeLock →
      LockIs (readers + pc.reading) (writers + pc.writing) lock)
    (cur : ∀ chunk, pc.locked = some chunk → chunk = system.memoryChunk) (ready : pc.Ready)
    (referred : pc.referred = before.referred) (doomed : pc.doomed = before.doomed)
    (block : pc.block = before.block) : Sound ((system.setLock lock).setThread thread pc) := by
  have counted := sound.counted.setThread now referred doomed
  have carved := sound.carved.setThread now fun _ held => block.symm.trans held
  subst now
  exact {
    locked := sound.locked.setLock moves cur ready
    counted := { counted with }
    carved := { carved with }
    placed := sound.placed
    roomy := sound.roomy }

theorem Sound.setChunk (sound : Sound system) (thrd : content.thrd = (system.chunks chunk).thrd)
    (address : content.address = (system.chunks chunk).address)
    (destroyed : content.destroyed = 0 → (system.chunks chunk).destroyed = 0)
    (locked : Locked (system.setThread thread pc))
    (counted : Counted ((system.setChunk chunk content).setThread thread pc))
    (carved : Carved ((system.setChunk chunk content).setThread thread pc)) :
    Sound ((system.setChunk chunk content).setThread thread pc) where
  locked := { locked with }
  counted := counted
  carved := carved
  placed := sound.placed.setChunk thrd address destroyed
  roomy := by
    intro other below
    by_cases own : other = chunk
    · subst own
      simp only [System.setThread, System.setChunk, update_self]
      exact (sound.roomy other below).trans thrd.symm.le
    · simp only [System.setThread, System.setChunk, update_of_ne own]
      exact sound.roomy other below

variable {next : System Thread}

theorem Sound.addCur (sound : Sound system)
    (now : system.threads thread = .addCur length chunk)
    (small : (system.chunks chunk).cur + length < 2 ^ 32)
    (went : system.threadStep thread = some next) : Sound next := by
  have current := sound.locked.current thread
  rw [now] at current
  obtain rfl : chunk = system.memoryChunk := current chunk rfl
  have grows : (system.chunks system.memoryChunk).cur ≤
      ((system.chunks system.memoryChunk).cur + length) % 2 ^ 32 := by
    rw [Nat.mod_eq_of_lt small]
    exact Nat.le_add_right _ _
  have counted : ∀ {after : PC}, after.referred = none → after.doomed = none →
      Counted ((system.setChunk system.memoryChunk { system.chunks system.memoryChunk with
        cur := ((system.chunks system.memoryChunk).cur + length) % 2 ^ 32 }).setThread thread
          after) := by
    intro after referred doomed
    have same : ∀ other, ((system.setChunk system.memoryChunk
        { system.chunks system.memoryChunk with
          cur := ((system.chunks system.memoryChunk).cur + length) % 2 ^ 32 }).chunks other).ref =
          (system.chunks other).ref ∧ ((system.setChunk system.memoryChunk
        { system.chunks system.memoryChunk with
          cur := ((system.chunks system.memoryChunk).cur + length) % 2 ^ 32 }).chunks
            other).destroyed = (system.chunks other).destroyed := by
      intro other
      by_cases own : other = system.memoryChunk
      · subst own
        simp only [System.setChunk, update_self]
        exact ⟨trivial, trivial⟩
      · simp only [System.setChunk, update_of_ne own]
        exact ⟨trivial, trivial⟩
    have moved : Counted (system.setThread thread after) :=
      sound.counted.setThread now referred doomed
    constructor
    · exact moved.current
    · intro other below
      exact (same other).1.trans (moved.counted other below)
    · intro other below
      have ended := moved.ended other below
      simp only [System.setThread, (same other).1, (same other).2] at ended ⊢
      exact ended
    · exact moved.fresh
  unfold threadStep at went
  simp only [now] at went
  split at went <;> cases went
  next fits =>
    refine sound.setChunk rfl rfl id ?_ (counted rfl rfl) ?_
    · exact sound.locked.setThread now rfl rfl current trivial
    · exact sound.carved.cut now sound.counted.current small fits
  · refine sound.setChunk rfl rfl id ?_ (counted rfl rfl) ?_
    · exact sound.locked.setThread now rfl rfl current trivial
    · have changed : Carved (system.setChunk system.memoryChunk
          { system.chunks system.memoryChunk with
            cur := ((system.chunks system.memoryChunk).cur + length) % 2 ^ 32 }) :=
        sound.carved.setChunk rfl grows
      exact changed.setThread now fun _ held => by cases held

variable {again : Option Nat}

section

variable (sound : Sound system)
include sound

theorem Sound.dropRef (now : system.threads thread = .dropRef again chunk)
    (reading : pc.reading = 0) (writing : pc.writing = 0) (locked : pc.locked = none)
    (ready : pc.Ready) (block : pc.block = none) (referred : pc.referred = none)
    (doomed : pc.doomed = if (system.chunks chunk).ref = 1 then some chunk else none) :
    Sound ((system.setChunk chunk { system.chunks chunk with
      ref := (system.chunks chunk).ref - 1 }).setThread thread pc) := by
  refine sound.setChunk rfl rfl id ?_ ?_ ?_
  · exact sound.locked.setThread now reading writing
      (fun _ held => by rw [locked] at held; cases held) ready
  · exact sound.counted.dropRef now referred doomed
  · have changed : Carved (system.setChunk chunk { system.chunks chunk with
        ref := (system.chunks chunk).ref - 1 }) := sound.carved.setChunk rfl .refl
    exact changed.setThread now fun _ held => by rw [block] at held; cases held

theorem Sound.destroyChunk (now : system.threads thread = .destroyChunk again chunk)
    (reading : pc.reading = 0) (writing : pc.writing = 0) (locked : pc.locked = none)
    (ready : pc.Ready) (block : pc.block = none) (referred : pc.referred = none)
    (doomed : pc.doomed = none) :
    Sound ((system.setChunk chunk { system.chunks chunk with
      destroyed := (system.chunks chunk).destroyed + 1 }).setThread thread pc) := by
  refine sound.setChunk rfl rfl (fun none => absurd none (Nat.succ_ne_zero _)) ?_ ?_ ?_
  · exact sound.locked.setThread now reading writing
      (fun _ held => by rw [locked] at held; cases held) ready
  · exact sound.counted.destroyChunk now referred doomed
  · have changed : Carved (system.setChunk chunk { system.chunks chunk with
        destroyed := (system.chunks chunk).destroyed + 1 }) :=
      sound.carved.setChunk rfl .refl
    exact changed.setThread now fun _ held => by rw [block] at held; cases held

theorem Sound.threadStep (fits : Fits config system (system.threads thread))
    (went : system.threadStep thread = some next) : Sound next := by
  have current := sound.locked.current thread
  have ready := sound.locked.ready thread
  cases now : system.threads thread with
  | addCur length chunk =>
    rw [now] at fits
    exact sound.addCur now fits went
  | idle | createChunk length chunk => simp only [System.threadStep, now, reduceCtorEq] at went
  | tryLockR length =>
    simp only [System.threadStep, now] at went
    split at went <;> cases went
    next unlocked =>
      exact sound.setThread now rfl rfl (fun _ held => by cases held) unlocked rfl rfl rfl
    · exact sound
  | casLockR length seen =>
    rw [now] at fits ready
    simp only [System.threadStep, now] at went
    split at went <;> cases went
    next same =>
      have least : 0 ≤ system.nodeLock := Int.le_trans ready (Int.le_of_eq same.symm)
      have most : system.nodeLock + 1 < 2 ^ 31 := fits
      rw [int32_eq (by omega) most]
      refine sound.setLock now ?_ (fun _ held => by cases held) trivial rfl rfl rfl
      intro readers writers lock
      simp only [LockIs, PC.reading, PC.writing] at lock ⊢
      omega
    · exact sound.setThread now rfl rfl (fun _ held => by cases held) trivial rfl rfl rfl
  | loadChunk length =>
    simp only [System.threadStep, now] at went
    cases went
    refine sound.setThread now rfl rfl ?_ trivial rfl rfl rfl
    intro chunk held
    cases held
    rfl
  | loadCur length chunk =>
    rw [now] at current
    simp only [System.threadStep, now] at went
    split at went
    all_goals
      cases went
      exact sound.setThread now rfl rfl current trivial rfl rfl rfl
  | addRef block =>
    rw [now] at current
    simp only [System.threadStep, now] at went
    cases went
    refine sound.setChunk rfl rfl id ?_ (sound.counted.addRef now (current _ rfl)) ?_
    · exact sound.locked.setThread now rfl rfl (fun _ held => by cases held) trivial
    · have changed : Carved (system.setChunk block.chunk { system.chunks block.chunk with
          ref := (system.chunks block.chunk).ref + 1 }) :=
        sound.carved.setChunk rfl .refl
      exact changed.setThread now fun _ => id
  | unlockR block | giveUpLock length chunk =>
    simp only [System.threadStep, now] at went
    cases went
    refine sound.setLock now ?_ (fun _ held => by cases held) trivial rfl rfl rfl
    intro readers writers lock
    simp only [LockIs, PC.reading, PC.writing] at lock ⊢
    rw [int32_eq (by omega) (by omega)]
    omega
  | setBlockCtx block =>
    simp only [System.threadStep, now] at went
    cases went
    have moved : Locked (system.setThread thread .idle) :=
      sound.locked.setThread now rfl rfl (fun _ held => by cases held) trivial
    exact {
      locked := { moved with }
      counted := sound.counted.setBlockCtx now
      carved := sound.carved.setBlockCtx now
      placed := sound.placed
      roomy := sound.roomy }
  | upgradeLock length chunk =>
    rw [now] at current
    simp only [System.threadStep, now] at went
    split at went <;> cases went
    next only =>
      refine sound.setLock now ?_ current trivial rfl rfl rfl
      intro readers writers lock
      simp only [LockIs, PC.reading, PC.writing] at lock
      obtain ⟨rfl, rfl⟩ : readers = 0 ∧ writers = 0 := by omega
      exact Or.inr ⟨rfl, rfl, rfl⟩
    · exact sound.setThread now rfl rfl current trivial rfl rfl rfl
  | tryLockW length chunk =>
    simp only [System.threadStep, now] at went
    split at went <;> cases went
    · refine sound.setLock now ?_ (fun _ held => by cases held) trivial rfl rfl rfl
      intro readers writers lock
      simp only [LockIs, PC.reading, PC.writing] at lock
      obtain ⟨rfl, rfl⟩ : readers = 0 ∧ writers = 0 := by omega
      exact Or.inr ⟨rfl, rfl, rfl⟩
    · exact sound.setThread now rfl rfl (fun _ held => by cases held) trivial rfl rfl rfl
  | compareChunk length chunk =>
    simp only [System.threadStep, now] at went
    split at went <;> cases went
    · refine sound.setThread now rfl rfl ?_ trivial rfl rfl rfl
      intro chunk held
      cases held
      rfl
    · exact sound.setThread now rfl rfl (fun _ held => by cases held) trivial rfl rfl rfl
  | decayLock length | unlockW length chunk =>
    simp only [System.threadStep, now] at went
    cases went
    refine sound.setLock now ?_ (fun _ held => by cases held) trivial rfl rfl rfl
    intro readers writers lock
    simp only [LockIs, PC.reading, PC.writing] at lock ⊢
    omega
  | dropRef again chunk =>
    simp only [System.threadStep, now] at went
    split at went
    next last =>
      cases went
      exact sound.dropRef now rfl rfl rfl trivial rfl rfl (if_pos last).symm
    next more =>
      cases went
      cases again with
      | none | some length => exact sound.dropRef now rfl rfl rfl trivial rfl rfl (if_neg more).symm
  | destroyChunk again chunk =>
    simp only [System.threadStep, now] at went
    cases went
    cases again with
    | none | some length => exact sound.destroyChunk now rfl rfl rfl trivial rfl rfl rfl

theorem Sound.newChunk (now : system.threads thread = .createChunk length chunk)
    (room : headerSize ≤ config.chunkSize length)
    (free : system.Free address (config.chunkSize length)) :
    Sound ((system.newChunk address (config.chunkSize length)).setThread thread
      (.unlockW length chunk)) := by
  have current := sound.locked.current thread
  rw [now] at current
  obtain rfl : chunk = system.memoryChunk := current chunk rfl
  have created : Carved (system.newChunk address (config.chunkSize length)) := by
    refine sound.carved.frame ?_ ?_ (Sublist.refl _) (fun _ _ => id)
    · intro block owned place
      have below := sound.block_known owned
      have other : block.chunk ≠ system.created := by omega
      simpa only [Inside, System.newChunk, update_of_ne other] using place
    · intro other below
      simp only [System.newChunk, Nat.lt_succ_iff] at below ⊢
      by_cases own : other = system.created
      · subst own
        rw [update_self]
      · rw [update_of_ne own]
        exact sound.carved.header other (by omega)
  exact {
    locked := sound.locked.newChunk now address (config.chunkSize length)
    counted := sound.counted.newChunk now address (config.chunkSize length)
    carved := created.setThread now fun _ held => by cases held
    placed := sound.placed.newChunk free
    roomy := by
      intro other below
      simp only [System.setThread, System.newChunk, Nat.lt_succ_iff] at below ⊢
      by_cases own : other = system.created
      · subst own
        rw [update_self]
        exact room
      · rw [update_of_ne own]
        exact sound.roomy other (by omega) }

theorem Sound.step {action : Action Thread} (may : Allowed config system action)
    (went : system.step config action = some next) : Sound next := by
  cases action with
  | newMemory thread len =>
    simp only [System.step] at went
    split at went <;> cases went
    next idle =>
      exact sound.setThread idle rfl rfl (fun _ held => by cases held) trivial rfl rfl rfl
  | deleteMemory thread index =>
    simp only [System.step] at went
    split at went
    next idle =>
      obtain ⟨block, found, rfl⟩ := Option.map_eq_some_iff.mp went
      have moved : Locked (system.setThread thread (.dropRef none block.chunk)) :=
        sound.locked.setThread idle rfl rfl (fun _ held => by cases held) trivial
      have fewer : Carved { system with live := system.live.eraseIdx index } :=
        sound.carved.frame (fun _ _ => id) sound.carved.header
          (eraseIdx_sublist _ _) (fun _ _ => id)
      exact {
        locked := { moved with }
        counted := sound.counted.deleteMemory idle found
        carved := fewer.setThread idle fun _ held => by cases held
        placed := sound.placed
        roomy := sound.roomy }
    next => cases went
  | step thread => exact sound.threadStep may went
  | createChunk thread address =>
    simp only [System.step] at went
    split at went
    next length chunk now =>
      split at went <;> cases went
      next free =>
        simp only [Allowed, now] at may
        exact sound.newChunk now may free
    next => cases went

end

def Elsewhere (system : System Thread) (first second : Block) : Prop :=
  RangesApart ((system.chunks first.chunk).address + first.offset) first.length
    ((system.chunks second.chunk).address + second.offset) second.length

/-- Blocks that were returned lie in their chunks and share no byte, a chunk is destroyed once,
when it is not current, its blocks are deleted and no thread is to drop a reference of it, and
no thread reads or writes a chunk that was destroyed. -/
structure Safe (system : System Thread) : Prop where
  header : ∀ chunk < system.created, headerSize ≤ (system.chunks chunk).thrd
  inside : ∀ block ∈ system.live, headerSize ≤ block.offset ∧
    block.offset + block.length ≤ (system.chunks block.chunk).thrd
  apart : system.live.Pairwise system.Elsewhere
  once : ∀ chunk < system.created, (system.chunks chunk).destroyed ≤ 1
  unused : ∀ chunk < system.created, (system.chunks chunk).destroyed ≠ 0 →
    chunk ≠ system.memoryChunk ∧ (∀ block ∈ system.live, block.chunk ≠ chunk) ∧
      ∀ thread, (system.threads thread).referred ≠ some chunk
  ends : ∀ chunk < system.created, chunk ≠ system.memoryChunk →
    (∀ block ∈ system.live, block.chunk ≠ chunk) →
    (∀ thread, (system.threads thread).referred ≠ some chunk ∧
      (system.threads thread).doomed ≠ some chunk) → (system.chunks chunk).destroyed = 1
  reads : ∀ thread chunk, (system.threads thread).accesses = some chunk →
    (system.chunks chunk).destroyed = 0

omit [DecidableEq Thread] in
theorem Sound.live_pos (sound : Sound system) (mem : block ∈ system.live) :
    1 ≤ (system.chunks block.chunk).ref := by
  have known := sound.counted.live_known mem
  have total := sound.counted.counted block.chunk known
  have listed : 0 < system.live.countP (fun other => other.chunk = block.chunk) :=
    countP_pos_iff.mpr ⟨block, mem, decide_eq_true rfl⟩
  split at total <;> omega

omit [DecidableEq Thread] in
theorem Sound.elsewhere (sound : Sound system) {first second : Block}
    (firstMember : first ∈ system.live) (secondMember : second ∈ system.live)
    (apart : first.Apart second) : system.Elsewhere first second := by
  obtain ⟨_, firstEnd, _⟩ := sound.carved.live first firstMember
  obtain ⟨_, secondEnd, _⟩ := sound.carved.live second secondMember
  unfold Elsewhere RangesApart
  by_cases same : first.chunk = second.chunk
  · have ranges := apart same
    rw [same]
    unfold RangesApart at ranges
    omega
  · have firstKnown := sound.counted.live_known firstMember
    have secondKnown := sound.counted.live_known secondMember
    have chunks := sound.placed first.chunk second.chunk firstKnown secondKnown same
      (sound.counted.not_destroyed firstKnown (sound.live_pos firstMember))
      (sound.counted.not_destroyed secondKnown (sound.live_pos secondMember))
    unfold RangesApart at chunks
    omega

omit [DecidableEq Thread] in
theorem Sound.reads (sound : Sound system)
    (accesses : (system.threads thread).accesses = some chunk) :
    (system.chunks chunk).destroyed = 0 := by
  rcases PC.accesses_cases accesses with held | held | doomed
  · obtain rfl := sound.locked.current thread chunk held
    exact sound.counted.not_destroyed sound.counted.current sound.counted.current_pos
  · exact sound.counted.not_destroyed (sound.counted.referred_known held)
      (sound.counted.referred_pos held)
  · have ended := sound.counted.ended chunk (sound.counted.doomed_known doomed)
    have own := le_tally (PC.dooms chunk) system.threads thread
    rw [PC.dooms, if_pos doomed] at own
    split at ended <;> omega

omit [DecidableEq Thread] in
theorem Sound.safe (sound : Sound system) : Safe system := by
  constructor
  · exact sound.roomy
  · intro block mem
    obtain ⟨first, second, _⟩ := sound.carved.live block mem
    exact ⟨first, second⟩
  · refine Pairwise.imp_of_mem ?_ sound.carved.liveApart
    intro first second firstMember secondMember apart
    exact sound.elsewhere firstMember secondMember apart
  · intro chunk below
    have ended := sound.counted.ended chunk below
    split at ended <;> omega
  · intro chunk below destroyed
    have ended := sound.counted.ended chunk below
    have total := sound.counted.counted chunk below
    have gone : (system.chunks chunk).ref = 0 := by
      by_contra some
      rw [if_neg some] at ended
      omega
    refine ⟨?_, ?_, ?_⟩
    · intro cur
      rw [if_pos cur] at total
      omega
    · intro block mem same
      have positive := sound.live_pos mem
      rw [same] at positive
      omega
    · intro thread held
      have positive := sound.counted.referred_pos held
      omega
  · intro chunk below notCurrent noLive noThread
    have ended := sound.counted.ended chunk below
    have total := sound.counted.counted chunk below
    have refs : tally (PC.refs chunk) system.threads = 0 :=
      tally_eq_zero_iff.mpr fun thread => if_neg (noThread thread).1
    have dooms : tally (PC.dooms chunk) system.threads = 0 :=
      tally_eq_zero_iff.mpr fun thread => if_neg (noThread thread).2
    have live : system.live.countP (fun block => block.chunk = chunk) = 0 :=
      countP_eq_zero.mpr fun block mem same =>
        noLive block mem (of_decide_eq_true same)
    rw [if_neg notCurrent, refs, live] at total
    rw [if_pos (by omega), dooms] at ended
    exact ended
  · intro thread chunk accesses
    exact sound.reads accesses

/-- The memory of the allocator is safe in every run in which the 32-bit numbers suffice. -/
theorem memory_is_disjoint {config : Config} (room : headerSize ≤ config.increSize)
    {actions : List (Action Thread)}
    (allowed : Guarded (System.step config) (Allowed config) (init config) actions)
    {final : System Thread}
    (ran : execute (System.step config) (init config) actions = some final) : final.Safe := by
  have sound : Sound final :=
    invariant_of_guarded (fun sound allowed stepped => sound.step allowed stepped)
      (Sound.init room) allowed ran
  exact sound.safe

end

def pages : Config where
  pageSize := 4096
  batchingIncre := 0

/-- The second block does not fit and its thread replaces the chunk; the first is deleted and
its chunk with it. -/
def replacingRun : List (Action Bool) :=
  [.newMemory false 100000] ++ replicate 8 (.step false) ++ [.newMemory true 100000] ++
    replicate 5 (.step true) ++ [.createChunk true 131072] ++
    replicate 10 (.step true) ++ [.deleteMemory false 0, .step false, .step false]

theorem memory_is_disjoint_replacing : ∃ final,
    (execute (System.step pages) (init pages) replacingRun = some final ∧
      final.live = [⟨1, headerSize, 100008⟩] ∧ (final.chunks 0).destroyed = 1) ∧ final.Safe := by
  have ran : ∃ final, execute (System.step pages) (init pages) replacingRun = some final ∧
      final.live = [⟨1, headerSize, 100008⟩] ∧ (final.chunks 0).destroyed = 1 :=
    execute_check (by decide +kernel)
  obtain ⟨final, finished, facts⟩ := ran
  exact ⟨final, ⟨finished, facts⟩,
    memory_is_disjoint (by decide +kernel) (by decide +kernel) finished⟩

def hugePages : Config where
  pageSize := 4096
  batchingIncre := 0xC0000000

/-- Three threads find room for two gibibytes each. The second of them takes `cur` past
`2 ^ 32`, and the third gets the bytes of the first. -/
local instance three : NeZero 3 := ⟨by decide⟩

def wrappingRun : List (Action (Fin 3)) :=
  (finRange 3).flatMap (fun thread =>
    Action.newMemory thread 0x7FFFFFF8 :: replicate 4 (.step thread)) ++
    [.step 0, .step 1, .step 2] ++ replicate 3 (.step 0) ++ replicate 3 (.step 2)

theorem cur_wraps_blocks_overlap : ∃ final,
    execute (System.step hugePages) (init hugePages) wrappingRun = some final ∧
      final.live = [⟨0, headerSize, 2 ^ 31⟩, ⟨0, headerSize, 2 ^ 31⟩] ∧ ¬final.Safe := by
  have ran : ∃ final, execute (System.step hugePages) (init hugePages) wrappingRun = some final ∧
        final.live = [⟨0, headerSize, 2 ^ 31⟩, ⟨0, headerSize, 2 ^ 31⟩] :=
    execute_check (by decide +kernel)
  obtain ⟨final, finished, live⟩ := ran
  refine ⟨final, finished, live, fun safe => ?_⟩
  have apart := safe.apart
  rw [live] at apart
  have ranges := rel_of_pairwise_cons apart (mem_singleton_self _)
  unfold Elsewhere RangesApart at ranges
  simp only at ranges
  omega

end System

end AdkAaf.Adk.MemoryPoolVariant
