import AdkAaf.Lib.RingWindow
import AdkAaf.Lib.Transition
import Mathlib.Data.List.TakeDrop

/-! `MemoryAllocator` of `adk/include/adk/memory_pool_variant.h`, from the return of `Init`
on, with any number of threads in `NewMemory<true>` and `DeleteMemory`.

Each action is one access to memory that the threads share. A chunk is known by the number of
its creation, since `new` may place it where a destroyed one was: two pointers are compared by
address. Sizes are `uint32_t` or `size_t` as in the source, so that `cur` wraps at `2 ^ 32`;
`node_lock_` is an `int32_t`. A chunk has one reference for at least eight of its bytes, and
`ref` cannot wrap. -/

set_option autoImplicit false

namespace AdkAaf.Adk.MemoryPoolVariant

open Function

def roundUp (value unit : Nat) : Nat := (value + (unit - 1)) / unit * unit

def int32 (value : Int) : Int := value.bmod (2 ^ 32)

/-- The page size of the machine and the argument of `Init`. -/
structure Config where
  pageSize : Nat
  batchingIncre : UInt32

/-- `ADK_OFFSET_OF(struct MemoryChunk, memory)`, which is the size of the header too. -/
def headerSize : Nat := 12

def reserveSize : Nat := 8

def allocateLen (len : UInt32) : Nat := roundUp (reserveSize + len.toNat) 8

namespace Config

/-- `incre_size_` after `Init`. -/
def increSize (config : Config) : Nat :=
  roundUp (max (128 * 1024) config.batchingIncre.toNat) config.pageSize % 2 ^ 32

def chunkSize (config : Config) (length : Nat) : Nat :=
  if length + headerSize > config.increSize then
    roundUp (length + headerSize) config.pageSize % 2 ^ 32
  else
    config.increSize

end Config

/-- `destroyed` counts the calls of `DestroyChunk`. -/
structure MemoryChunk where
  ref : Int := 0
  cur : Nat := 0
  thrd : Nat := 0
  address : Nat := 0
  destroyed : Nat := 0

structure Block where
  chunk : Nat
  offset : Nat
  length : Nat
  deriving DecidableEq

/-- Where a thread stands; `length` is `allocate_len` and `chunk` the local `memory_chunk`.
After a reference is dropped a thread in `NewMemory` tries again, one in `DeleteMemory`
returns. -/
inductive PC where
  | idle
  | tryLockR (length : Nat)
  | casLockR (length : Nat) (seen : Int)
  | loadChunk (length : Nat)
  | loadCur (length chunk : Nat)
  | addCur (length chunk : Nat)
  | addRef (block : Block)
  | unlockR (block : Block)
  | setBlockCtx (block : Block)
  | upgradeLock (length chunk : Nat)
  | giveUpLock (length chunk : Nat)
  | tryLockW (length chunk : Nat)
  | compareChunk (length chunk : Nat)
  | decayLock (length : Nat)
  | createChunk (length chunk : Nat)
  | unlockW (length chunk : Nat)
  | dropRef (again : Option Nat) (chunk : Nat)
  | destroyChunk (again : Option Nat) (chunk : Nat)
  deriving DecidableEq

/-- `live` lists the blocks that were returned and not passed to `DeleteMemory`. -/
structure System (Thread : Type) where
  nodeLock : Int
  memoryChunk : Nat
  created : Nat
  chunks : Nat → MemoryChunk
  threads : Thread → PC
  live : List Block

inductive Action (Thread : Type) where
  | newMemory (thread : Thread) (len : UInt32)
  | deleteMemory (thread : Thread) (index : Nat)
  | step (thread : Thread)
  | createChunk (thread : Thread) (address : Nat)

variable {Thread : Type}

namespace System

/-- `Init`; the first chunk is placed at address zero of the model. -/
def init (config : Config) : System Thread where
  nodeLock := 0
  memoryChunk := 0
  created := 1
  chunks := fun _ =>
    { ref := 1, cur := headerSize, thrd := config.increSize, address := 0 }
  threads := fun _ => .idle
  live := []

/-- `new` does not place a chunk over one that was not destroyed. -/
def Free (system : System Thread) (address size : Nat) : Prop :=
  ∀ chunk < system.created, (system.chunks chunk).destroyed = 0 →
    Lib.RangesApart address size (system.chunks chunk).address (system.chunks chunk).thrd

instance (system : System Thread) (address size : Nat) :
    Decidable (system.Free address size) :=
  inferInstanceAs (Decidable (∀ chunk < system.created, _))

variable [DecidableEq Thread] (system : System Thread)

def setThread (thread : Thread) (pc : PC) : System Thread :=
  { system with threads := update system.threads thread pc }

def setChunk (chunk : Nat) (content : MemoryChunk) : System Thread :=
  { system with chunks := update system.chunks chunk content }

def setLock (lock : Int) : System Thread := { system with nodeLock := lock }

def proceed (thread : Thread) (again : Option Nat) : System Thread :=
  system.setThread thread (again.elim .idle .tryLockR)

def threadStep (thread : Thread) : Option (System Thread) :=
  match system.threads thread with
  | .idle | .createChunk _ _ => none
  | .tryLockR length =>
    if 0 ≤ system.nodeLock then
      some (system.setThread thread (.casLockR length system.nodeLock))
    else
      some system
  | .casLockR length seen =>
    if system.nodeLock = seen then
      some ((system.setLock (int32 (system.nodeLock + 1))).setThread thread (.loadChunk length))
    else
      some (system.setThread thread (.tryLockR length))
  | .loadChunk length => some (system.setThread thread (.loadCur length system.memoryChunk))
  | .loadCur length chunk =>
    if (system.chunks chunk).cur + length ≤ (system.chunks chunk).thrd then
      some (system.setThread thread (.addCur length chunk))
    else
      some (system.setThread thread (.upgradeLock length chunk))
  | .addCur length chunk =>
    let content := system.chunks chunk
    let added := system.setChunk chunk { content with cur := (content.cur + length) % 2 ^ 32 }
    if content.cur + length ≤ content.thrd then
      some (added.setThread thread (.addRef ⟨chunk, content.cur, length⟩))
    else
      some (added.setThread thread (.upgradeLock length chunk))
  | .addRef block =>
    let content := system.chunks block.chunk
    some ((system.setChunk block.chunk { content with ref := content.ref + 1 }).setThread thread
      (.unlockR block))
  | .unlockR block =>
    some ((system.setLock (int32 (system.nodeLock - 1))).setThread thread (.setBlockCtx block))
  | .setBlockCtx block =>
    some ({ system with live := system.live ++ [block] }.setThread thread .idle)
  | .upgradeLock length chunk =>
    if system.nodeLock = 1 then
      some ((system.setLock (-1)).setThread thread (.createChunk length chunk))
    else
      some (system.setThread thread (.giveUpLock length chunk))
  | .giveUpLock length chunk =>
    some ((system.setLock (int32 (system.nodeLock - 1))).setThread thread (.tryLockW length chunk))
  | .tryLockW length chunk =>
    if system.nodeLock = 0 then
      some ((system.setLock (-1)).setThread thread (.compareChunk length chunk))
    else
      some (system.setThread thread (.tryLockR length))
  | .compareChunk length chunk =>
    if (system.chunks chunk).address = (system.chunks system.memoryChunk).address then
      -- an equal pointer is one to the current chunk, whatever chunk it was read for
      some (system.setThread thread (.createChunk length system.memoryChunk))
    else
      some (system.setThread thread (.decayLock length))
  | .decayLock length => some ((system.setLock 1).setThread thread (.loadChunk length))
  | .unlockW length chunk =>
    some ((system.setLock 0).setThread thread (.dropRef (some length) chunk))
  | .dropRef again chunk =>
    let content := system.chunks chunk
    let dropped := system.setChunk chunk { content with ref := content.ref - 1 }
    if content.ref = 1 then
      some (dropped.setThread thread (.destroyChunk again chunk))
    else
      some (dropped.proceed thread again)
  | .destroyChunk again chunk =>
    let content := system.chunks chunk
    some ((system.setChunk chunk { content with destroyed := content.destroyed + 1 }).proceed
      thread again)

def newChunk (address size : Nat) : System Thread :=
  { system with
    memoryChunk := system.created
    created := system.created + 1
    chunks := update system.chunks system.created
      { ref := 1, cur := headerSize, thrd := size, address } }

def step (config : Config) (system : System Thread) : Action Thread → Option (System Thread)
  | .newMemory thread len =>
    if system.threads thread = .idle then
      some (system.setThread thread (.tryLockR (allocateLen len)))
    else
      none
  | .deleteMemory thread index =>
    if system.threads thread = .idle then
      system.live[index]?.map fun block =>
        { system with live := system.live.eraseIdx index }.setThread thread
          (.dropRef none block.chunk)
    else
      none
  | .step thread => system.threadStep thread
  | .createChunk thread address =>
    match system.threads thread with
    | .createChunk length chunk =>
      if system.Free address (config.chunkSize length) then
        some ((system.newChunk address (config.chunkSize length)).setThread thread
          (.unlockW length chunk))
      else
        none
    | _ => none

end System

end AdkAaf.Adk.MemoryPoolVariant
