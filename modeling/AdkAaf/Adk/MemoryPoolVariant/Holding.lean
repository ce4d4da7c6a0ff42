import AdkAaf.Adk.MemoryPoolVariant.Allocator
import AdkAaf.Lib.Tally

/-! What the threads of the allocator hold: the lock and the references of the chunks. The lock
keeps the current chunk in place while it is read, and the references keep a chunk while a block
of it is in use. -/

set_option autoImplicit false

namespace AdkAaf.Adk.MemoryPoolVariant

open Function Lib Option

namespace PC

def reading : PC → Nat
  | .loadChunk _ | .loadCur _ _ | .addCur _ _ | .addRef _ | .unlockR _ | .upgradeLock _ _
  | .giveUpLock _ _ => 1
  | _ => 0

def writing : PC → Nat
  | .compareChunk _ _ | .decayLock _ | .createChunk _ _ | .unlockW _ _ => 1
  | _ => 0

def locked : PC → Option Nat
  | .loadCur _ chunk | .addCur _ chunk | .upgradeLock _ chunk | .giveUpLock _ chunk
  | .createChunk _ chunk => some chunk
  | .addRef block => some block.chunk
  | _ => none

def referred : PC → Option Nat
  | .unlockR block | .setBlockCtx block => some block.chunk
  | .unlockW _ chunk | .dropRef _ chunk => some chunk
  | _ => none

def doomed : PC → Option Nat
  | .destroyChunk _ chunk => some chunk
  | _ => none

def block : PC → Option Block
  | .addRef block | .unlockR block | .setBlockCtx block => some block
  | _ => none

def accesses : PC → Option Nat
  | .loadCur _ chunk | .addCur _ chunk | .dropRef _ chunk | .destroyChunk _ chunk => some chunk
  | .addRef block | .setBlockCtx block => some block.chunk
  | _ => none

def Ready : PC → Prop
  | .casLockR _ seen => 0 ≤ seen
  | _ => True

def refs (chunk : Nat) (pc : PC) : Nat := if pc.referred = some chunk then 1 else 0

def dooms (chunk : Nat) (pc : PC) : Nat := if pc.doomed = some chunk then 1 else 0

end PC

variable {Thread : Type}

namespace System

section

variable [Fintype Thread]

def LockIs (readers writers : Nat) (lock : Int) : Prop :=
  (writers = 0 ∧ lock = readers ∧ lock < 2 ^ 31) ∨ (writers = 1 ∧ readers = 0 ∧ lock = -1)

structure Locked (system : System Thread) : Prop where
  lock : LockIs (tally PC.reading system.threads) (tally PC.writing system.threads)
    system.nodeLock
  current : ∀ thread chunk, (system.threads thread).locked = some chunk →
    chunk = system.memoryChunk
  ready : ∀ thread, (system.threads thread).Ready

/-- One reference for being the current chunk or for the thread that replaced it, and one for
each block. -/
structure Counted (system : System Thread) : Prop where
  current : system.memoryChunk < system.created
  counted : ∀ chunk < system.created, (system.chunks chunk).ref =
    (if chunk = system.memoryChunk then 1 else 0) +
      tally (PC.refs chunk) system.threads +
      system.live.countP (fun block => block.chunk = chunk)
  ended : ∀ chunk < system.created, (system.chunks chunk).destroyed +
    tally (PC.dooms chunk) system.threads = if (system.chunks chunk).ref = 0 then 1 else 0
  fresh : ∀ chunk, system.created ≤ chunk → tally (PC.refs chunk) system.threads = 0 ∧
    tally (PC.dooms chunk) system.threads = 0 ∧
    system.live.countP (fun block => block.chunk = chunk) = 0

end

theorem PC.accesses_cases {pc : PC} {chunk : Nat} (accesses : pc.accesses = some chunk) :
    pc.locked = some chunk ∨ pc.referred = some chunk ∨ pc.doomed = some chunk := by
  cases pc with
  | loadCur len own | addCur len own | addRef block => exact .inl accesses
  | setBlockCtx block | dropRef again own => exact .inr (.inl accesses)
  | destroyChunk again own => exact .inr (.inr accesses)
  | _ => cases accesses

theorem PC.lock_of_locked {pc : PC} {chunk : Nat} (held : pc.locked = some chunk) :
    pc.reading + pc.writing = 1 := by
  cases pc <;> first | rfl | cases held

section

variable [DecidableEq Thread] {system : System Thread} {thread other : Thread} {pc : PC}

@[simp] theorem threads_setThread : (system.setThread thread pc).threads thread = pc :=
  update_self _ _ _

theorem threads_setThread_of_ne (away : other ≠ thread) :
    (system.setThread thread pc).threads other = system.threads other :=
  update_of_ne away _ _

end

section

variable [Fintype Thread] {system : System Thread} {thread : Thread} {chunk : Nat}

section

variable (counted : Counted system)
include counted

theorem Counted.referred_known (referred : (system.threads thread).referred = some chunk) :
    chunk < system.created := by
  by_contra beyond
  have none := (counted.fresh chunk (Nat.le_of_not_lt beyond)).1
  have own := le_tally (PC.refs chunk) system.threads thread
  rw [PC.refs, if_pos referred] at own
  omega

theorem Counted.doomed_known (doomed : (system.threads thread).doomed = some chunk) :
    chunk < system.created := by
  by_contra beyond
  have none := (counted.fresh chunk (Nat.le_of_not_lt beyond)).2.1
  have own := le_tally (PC.dooms chunk) system.threads thread
  rw [PC.dooms, if_pos doomed] at own
  omega

theorem Counted.live_known {block : Block} (mem : block ∈ system.live) :
    block.chunk < system.created := by
  by_contra beyond
  have none := (counted.fresh block.chunk (Nat.le_of_not_lt beyond)).2.2
  exact (List.countP_eq_zero.mp none) block mem (decide_eq_true rfl)

theorem Counted.referred_pos (referred : (system.threads thread).referred = some chunk) :
    1 ≤ (system.chunks chunk).ref := by
  have total := counted.counted chunk (counted.referred_known referred)
  have own := le_tally (PC.refs chunk) system.threads thread
  rw [PC.refs, if_pos referred] at own
  split at total <;> omega

theorem Counted.current_pos : 1 ≤ (system.chunks system.memoryChunk).ref := by
  have total := counted.counted system.memoryChunk counted.current
  omega

theorem Counted.not_destroyed (known : chunk < system.created)
    (pos : 1 ≤ (system.chunks chunk).ref) : (system.chunks chunk).destroyed = 0 := by
  have ended := counted.ended chunk known
  rw [if_neg (by omega)] at ended
  omega

end

end

theorem int32_eq {value : Int} (least : -2 ^ 31 ≤ value) (most : value < 2 ^ 31) :
    int32 value = value := by
  unfold int32
  rw [Int.bmod_eq_emod]
  split <;> omega

section

variable [Fintype Thread] [DecidableEq Thread] {system : System Thread} {thread : Thread} {pc : PC}

theorem refs_setThread (system : System Thread) (thread : Thread) (pc : PC) (chunk : Nat) :
    tally (PC.refs chunk) (system.setThread thread pc).threads +
        (system.threads thread).refs chunk = tally (PC.refs chunk) system.threads + pc.refs chunk :=
  tally_update (PC.refs chunk) system.threads thread pc

theorem dooms_setThread (system : System Thread) (thread : Thread) (pc : PC) (chunk : Nat) :
    tally (PC.dooms chunk) (system.setThread thread pc).threads +
        (system.threads thread).dooms chunk =
      tally (PC.dooms chunk) system.threads + pc.dooms chunk :=
  tally_update (PC.dooms chunk) system.threads thread pc

theorem Locked.setLock (locked : Locked system) {lock : Int}
    (moves : ∀ readers writers, LockIs (readers + (system.threads thread).reading)
        (writers + (system.threads thread).writing) system.nodeLock →
      LockIs (readers + pc.reading) (writers + pc.writing) lock)
    (cur : ∀ chunk, pc.locked = some chunk → chunk = system.memoryChunk) (ready : pc.Ready) :
    Locked ((system.setLock lock).setThread thread pc) := by
  constructor
  · have readers := tally_update PC.reading system.threads thread pc
    have writers := tally_update PC.writing system.threads thread pc
    have reader := le_tally PC.reading system.threads thread
    have writer := le_tally PC.writing system.threads thread
    have before := locked.lock
    rw [← Nat.sub_add_cancel reader, ← Nat.sub_add_cancel writer] at before
    have after := moves _ _ before
    have readersAre : tally PC.reading (update system.threads thread pc) =
        tally PC.reading system.threads - (system.threads thread).reading + pc.reading := by
      omega
    have writersAre : tally PC.writing (update system.threads thread pc) =
        tally PC.writing system.threads - (system.threads thread).writing + pc.writing := by
      omega
    rw [← readersAre, ← writersAre] at after
    exact after
  · intro other chunk held
    by_cases own : other = thread
    · subst own
      rw [threads_setThread] at held
      exact cur chunk held
    · rw [threads_setThread_of_ne own] at held
      exact locked.current other chunk held
  · intro other
    by_cases own : other = thread
    · subst own
      rw [threads_setThread]
      exact ready
    · rw [threads_setThread_of_ne own]
      exact locked.ready other

theorem Locked.setThread (locked : Locked system) {before : PC}
    (now : system.threads thread = before) (reading : pc.reading = before.reading)
    (writing : pc.writing = before.writing)
    (cur : ∀ chunk, pc.locked = some chunk → chunk = system.memoryChunk)
    (ready : pc.Ready) : Locked (system.setThread thread pc) := by
  subst now
  have moved : Locked ((system.setLock system.nodeLock).setThread thread pc) :=
    locked.setLock (fun readers writers before => by rw [reading, writing]; exact before) cur
      ready
  exact moved

theorem Locked.alone (locked : Locked system) {other : Thread}
    (writing : (system.threads thread).writing = 1) (apart : other ≠ thread) :
    (system.threads other).reading = 0 ∧ (system.threads other).writing = 0 := by
  have writers := @Lib.add_le_tally _ _ _ PC.writing system.threads _ _ _ apart
  have reader := le_tally PC.reading system.threads other
  have lock := locked.lock
  unfold LockIs at lock
  omega

theorem Locked.newChunk (locked : Locked system) {len chunk : Nat}
    (creating : system.threads thread = .createChunk len chunk) (address size : Nat) :
    Locked ((system.newChunk address size).setThread thread (.unlockW len chunk)) := by
  have writing : (system.threads thread).writing = 1 := congrArg PC.writing creating
  constructor
  · have readers := tally_update PC.reading system.threads thread (.unlockW len chunk)
    have writers := tally_update PC.writing system.threads thread (.unlockW len chunk)
    rw [creating] at readers writers
    have sameReaders : tally PC.reading (update system.threads thread (.unlockW len chunk)) =
          tally PC.reading system.threads := readers
    have sameWriters : tally PC.writing (update system.threads thread (.unlockW len chunk)) =
          tally PC.writing system.threads := Nat.add_right_cancel writers
    have before := locked.lock
    rw [← sameReaders, ← sameWriters] at before
    exact before
  · intro other held under
    by_cases own : other = thread
    · subst own
      rw [threads_setThread] at under
      cases under
    · rw [threads_setThread_of_ne own] at under
      have alone := locked.alone writing own
      have part := @PC.lock_of_locked (system.threads other) _ under
      omega
  · intro other
    by_cases own : other = thread
    · subst own
      rw [threads_setThread]
      trivial
    · rw [threads_setThread_of_ne own]
      exact locked.ready other

section

variable (counted : Counted system)
include counted

theorem Counted.change {next : System Thread}
    (threads : next.threads = update system.threads thread pc)
    (created : next.created = system.created) (cur : next.memoryChunk = system.memoryChunk)
    (balance : ∀ chunk < system.created, (next.chunks chunk).ref +
        (system.threads thread).refs chunk + system.live.countP (fun block => block.chunk = chunk) =
      (system.chunks chunk).ref + pc.refs chunk +
        next.live.countP (fun block => block.chunk = chunk))
    (ended : ∀ chunk < system.created, (next.chunks chunk).destroyed + pc.dooms chunk +
        (if (system.chunks chunk).ref = 0 then 1 else 0) =
      (system.chunks chunk).destroyed + (system.threads thread).dooms chunk +
        if (next.chunks chunk).ref = 0 then 1 else 0)
    (fresh : ∀ chunk, system.created ≤ chunk → pc.refs chunk = 0 ∧ pc.dooms chunk = 0 ∧
      next.live.countP (fun block => block.chunk = chunk) = 0) : Counted next := by
  have refs := refs_setThread system thread pc
  have dooms := dooms_setThread system thread pc
  constructor
  · rw [cur, created]
    exact counted.current
  · intro chunk below
    rw [created] at below
    have before := counted.counted chunk below
    have change := balance chunk below
    have moved := refs chunk
    rw [cur, threads]
    simp only [setThread] at moved
    omega
  · intro chunk below
    rw [created] at below
    have before := counted.ended chunk below
    have change := ended chunk below
    have moved := dooms chunk
    rw [threads]
    simp only [setThread] at moved
    omega
  · intro chunk beyond
    rw [created] at beyond
    obtain ⟨noRefs, noDooms, noLive⟩ := counted.fresh chunk beyond
    obtain ⟨refsAre, doomsAre, liveIs⟩ := fresh chunk beyond
    have movedRefs := refs chunk
    have movedDooms := dooms chunk
    simp only [setThread] at movedRefs movedDooms
    rw [threads]
    omega

theorem Counted.setThread {before : PC} (now : system.threads thread = before)
    (referred : pc.referred = before.referred) (doomed : pc.doomed = before.doomed) :
    Counted (system.setThread thread pc) := by
  subst now
  have refs : ∀ chunk, pc.refs chunk = (system.threads thread).refs chunk := by
    intro chunk
    rw [PC.refs, referred, PC.refs]
  have dooms : ∀ chunk, pc.dooms chunk = (system.threads thread).dooms chunk := by
    intro chunk
    rw [PC.dooms, doomed, PC.dooms]
  refine counted.change rfl rfl rfl ?_ ?_ ?_
  · intro chunk _
    rw [refs]
    rfl
  · intro chunk _
    rw [dooms]
    rfl
  · intro chunk beyond
    obtain ⟨noRefs, noDooms, noLive⟩ := counted.fresh chunk beyond
    have own := le_tally (PC.refs chunk) system.threads thread
    have ownDooms := le_tally (PC.dooms chunk) system.threads thread
    rw [refs, dooms]
    exact ⟨by omega, by omega, noLive⟩

theorem Counted.addRef {block : Block} (adding : system.threads thread = .addRef block)
    (cur : block.chunk = system.memoryChunk) :
    Counted ((system.setChunk block.chunk { system.chunks block.chunk with
      ref := (system.chunks block.chunk).ref + 1 }).setThread thread (.unlockR block)) := by
  have positive := counted.current_pos
  rw [← cur] at positive
  refine counted.change rfl rfl rfl ?_ ?_ ?_
  · intro chunk _
    by_cases own : chunk = block.chunk
    · subst own
      simp only [System.setThread, setChunk, update_self, adding, PC.refs, PC.referred,
        reduceCtorEq, if_false, if_true]
      omega
    · simp [System.setThread, setChunk, update_of_ne own, adding, PC.refs, PC.referred,
      reduceCtorEq, some.injEq, Ne.symm own]
  · intro chunk _
    by_cases own : chunk = block.chunk
    · subst own
      simp only [System.setThread, setChunk, update_self, adding, PC.dooms, PC.doomed,
        reduceCtorEq, if_false]
      rw [if_neg (by omega), if_neg (by omega)]
    · simp [System.setThread, setChunk, update_of_ne own, adding, PC.dooms, PC.doomed, reduceCtorEq]
  · intro chunk beyond
    have away : block.chunk ≠ chunk := by
      have known := counted.current
      omega
    refine ⟨?_, rfl, (counted.fresh chunk beyond).2.2⟩
    simp [PC.refs, PC.referred, some.injEq, away]

theorem Counted.setBlockCtx {block : Block} (setting : system.threads thread = .setBlockCtx block) :
    Counted ({ system with live := system.live ++ [block] }.setThread thread .idle) := by
  have known := counted.referred_known (congrArg PC.referred setting)
  refine counted.change rfl rfl rfl ?_ ?_ ?_
  · intro chunk _
    simp only [System.setThread, setting, PC.refs, PC.referred, some.injEq, reduceCtorEq,
      if_false, List.countP_append, List.countP_singleton, decide_eq_true_eq]
    omega
  · intro chunk _
    simp only [System.setThread, setting, PC.dooms, PC.doomed, reduceCtorEq, if_false]
    rfl
  · intro chunk beyond
    have away : block.chunk ≠ chunk := by omega
    refine ⟨rfl, rfl, ?_⟩
    simp only [System.setThread, List.countP_append, List.countP_singleton, decide_eq_true_eq,
      away, if_false]
    exact (counted.fresh chunk beyond).2.2

end

theorem countP_eraseIdx {live : List Block} {i : Nat} {block : Block}
    (found : live[i]? = some block) (chunk : Nat) :
    live.countP (fun other => other.chunk = chunk) =
      (live.eraseIdx i).countP (fun other => other.chunk = chunk) +
        if block.chunk = chunk then 1 else 0 := by
  obtain ⟨inside, rfl⟩ := List.getElem?_eq_some_iff.mp found
  rw [← (List.getElem_cons_eraseIdx_perm inside).countP_eq, List.countP_cons]
  simp [decide_eq_true_eq]

section

variable (counted : Counted system)
include counted

theorem Counted.deleteMemory {j : Nat} {block : Block} (idle : system.threads thread = .idle)
    (found : system.live[j]? = some block) :
    Counted ({ system with live := system.live.eraseIdx j }.setThread thread
      (.dropRef none block.chunk)) := by
  have known := counted.live_known (List.mem_of_getElem? found)
  refine counted.change rfl rfl rfl ?_ ?_ ?_
  · intro chunk _
    rw [countP_eraseIdx found chunk]
    simp only [System.setThread, idle, PC.refs, PC.referred, some.injEq, reduceCtorEq,
      if_false]
    omega
  · intro chunk _
    simp only [System.setThread, idle, PC.dooms, PC.doomed, reduceCtorEq, if_false]
    rfl
  · intro chunk beyond
    have away : block.chunk ≠ chunk := by omega
    have none := (counted.fresh chunk beyond).2.2
    rw [countP_eraseIdx found chunk] at none
    refine ⟨?_, rfl, by simp only [System.setThread]; omega⟩
    simp [PC.refs, PC.referred, some.injEq, away]

theorem Counted.dropRef {again : Option Nat} {chunk : Nat}
    (dropping : system.threads thread = .dropRef again chunk) (referred : pc.referred = none)
    (doomed : pc.doomed = if (system.chunks chunk).ref = 1 then some chunk else none) :
    Counted ((system.setChunk chunk { system.chunks chunk with
      ref := (system.chunks chunk).ref - 1 }).setThread thread pc) := by
  have held := congrArg PC.referred dropping
  have known := counted.referred_known held
  have positive := counted.referred_pos held
  refine counted.change rfl rfl rfl ?_ ?_ ?_
  · intro other _
    by_cases own : other = chunk
    · subst own
      simp only [System.setThread, setChunk, update_self, dropping, PC.refs, referred,
        reduceCtorEq, if_false]
      simp only [PC.referred, if_true]
      omega
    · simp only [System.setThread, setChunk, update_of_ne own, dropping, PC.refs,
        referred, reduceCtorEq, if_false]
      simp [PC.referred, some.injEq, Ne.symm own]
  · intro other _
    by_cases own : other = chunk
    · subst own
      simp only [System.setThread, setChunk, update_self, dropping, PC.dooms, doomed]
      simp only [PC.doomed, reduceCtorEq, if_false]
      by_cases last : (system.chunks other).ref = 1
      · rw [if_pos last, if_pos rfl, if_neg (by omega), if_pos (by omega)]
      · have some : ¬(system.chunks other).ref = 0 := by omega
        have more : ¬(system.chunks other).ref - 1 = 0 := by omega
        rw [if_neg last, if_neg some, if_neg more]
        rfl
    · have away : (if (system.chunks chunk).ref = 1 then some chunk else none) ≠ some other := by
        split
        next => exact fun same => own (some.inj same).symm
        next => exact fun same => by cases same
      simp only [System.setThread, setChunk, update_of_ne own, dropping, PC.dooms, doomed,
        away, if_false]
      simp [PC.doomed, reduceCtorEq]
  · intro other beyond
    have away : (if (system.chunks chunk).ref = 1 then some chunk else none) ≠ some other := by
      split
      next => exact fun same => by have equal := some.inj same; omega
      next => exact fun same => by cases same
    refine ⟨?_, ?_, (counted.fresh other beyond).2.2⟩
    · simp [PC.refs, referred, reduceCtorEq]
    · simp [PC.dooms, doomed, away]

theorem Counted.destroyChunk {again : Option Nat} {chunk : Nat}
    (destroying : system.threads thread = .destroyChunk again chunk) (referred : pc.referred = none)
    (doomed : pc.doomed = none) :
    Counted ((system.setChunk chunk { system.chunks chunk with
      destroyed := (system.chunks chunk).destroyed + 1 }).setThread thread pc) := by
  refine counted.change rfl rfl rfl ?_ ?_ ?_
  · intro other _
    have same : ((system.setChunk chunk { system.chunks chunk with
        destroyed := (system.chunks chunk).destroyed + 1 }).chunks other).ref =
          (system.chunks other).ref := by
      by_cases own : other = chunk
      · subst own
        simp [setChunk, update_self]
      · simp [setChunk, update_of_ne own]
    simp only [System.setThread, same, destroying, PC.refs, referred, reduceCtorEq, if_false]
    rfl
  · intro other _
    by_cases own : other = chunk
    · subst own
      simp only [System.setThread, setChunk, update_self, destroying, PC.dooms, doomed,
        reduceCtorEq, if_false]
      simp [PC.doomed]
    · simp only [System.setThread, setChunk, update_of_ne own, destroying, PC.dooms,
        doomed, reduceCtorEq, if_false]
      simp [PC.doomed, some.injEq, Ne.symm own]
  · intro other beyond
    refine ⟨?_, ?_, (counted.fresh other beyond).2.2⟩
    · simp [PC.refs, referred, reduceCtorEq]
    · simp [PC.dooms, doomed, reduceCtorEq]

theorem Counted.newChunk {len : Nat}
    (creating : system.threads thread = .createChunk len system.memoryChunk)
    (address size : Nat) : Counted
      ((system.newChunk address size).setThread thread (.unlockW len system.memoryChunk)) := by
  have known := counted.current
  have refs := refs_setThread system thread (.unlockW len system.memoryChunk)
  have dooms := dooms_setThread system thread (.unlockW len system.memoryChunk)
  simp only [System.setThread, creating, PC.refs, PC.referred, reduceCtorEq, if_false,
    some.injEq] at refs
  simp only [System.setThread, creating, PC.dooms, PC.doomed, reduceCtorEq, if_false] at dooms
  constructor
  · exact Nat.lt_succ_self _
  · intro chunk below
    have moved := refs chunk
    simp only [System.newChunk, System.setThread, Nat.lt_succ_iff] at below ⊢
    by_cases own : chunk = system.created
    · subst own
      have none := counted.fresh system.created .refl
      rw [update_self]
      rw [if_neg (by omega)] at moved
      simp only [if_true]
      omega
    · have before := counted.counted chunk (by omega)
      simp only [update_of_ne own, own, if_false]
      by_cases cur : chunk = system.memoryChunk
      · subst cur
        rw [if_pos rfl] at moved before
        omega
      · rw [if_neg (Ne.symm cur)] at moved
        omega
  · intro chunk below
    have moved := dooms chunk
    simp only [System.newChunk, System.setThread, Nat.lt_succ_iff] at below ⊢
    by_cases own : chunk = system.created
    · subst own
      have none := counted.fresh system.created .refl
      simp only [update_self, one_ne_zero, if_false]
      omega
    · have before := counted.ended chunk (by omega)
      simp only [update_of_ne own]
      omega
  · intro chunk beyond
    simp only [System.newChunk, System.setThread] at beyond ⊢
    have none := counted.fresh chunk (by omega)
    have movedRefs := refs chunk
    have movedDooms := dooms chunk
    rw [if_neg (by omega)] at movedRefs
    exact ⟨by omega, by omega, none.2.2⟩

end

end

end System

end AdkAaf.Adk.MemoryPoolVariant
