import AdkAaf.Adk.ShmContChannel.Restart

/-! Where the entries lie in the shared memory, and what the consumer finds at
one that has been posted. -/

set_option autoImplicit false

namespace AdkAaf.Adk.Sccl.Channel

open Lib Option List

variable {channel : Channel} {history : List Reservation}

section

variable (valid : channel.Valid history)
include valid

theorem Valid.cursorAt_eq (number : Nat) : channel.cursorAt number = position history number := by
  rw [cursorAt, valid.lengths, ← map_take]
  rfl

theorem Valid.lengths_eq_some {number length : Nat}
    (found : channel.lengths[number]? = some length) :
    ∃ reservation, history[number]? = some reservation ∧ reservation.allocLen = length := by
  rw [valid.lengths, getElem?_map] at found
  exact map_eq_some_iff.mp found

theorem Valid.memorySize_pos {number : Nat} {reservation : Reservation}
    (pending : channel.consumed ≤ number) (found : history[number]? = some reservation) :
    0 < channel.shm.memorySize.toNat := by
  have layout := valid.coherent.layout
  have above := layout.head_le pending
  have ends := position_add_le_published found
  have large := (layout.sizes _ (mem_of_getElem? found)).allocLen_ge
  have window := layout.window
  omega

theorem Valid.regions_apart {first second : Nat} {reservation reservation' : Reservation}
    (pending : channel.consumed ≤ first) (ordered : first < second)
    (found : history[first]? = some reservation) (found' : history[second]? = some reservation') :
    RangesApart (channel.shm.getEntry (position history first)) reservation.allocLen
      (channel.shm.getEntry (position history second)) reservation'.allocLen := by
  have layout := valid.coherent.layout
  have before := position_add_le found ordered
  have ends := position_add_le_published found'
  exact layout.apart (layout.head_le pending) before (ends.trans layout.window)
    (valid.memorySize_pos pending found)

theorem Valid.memoryLaidOut : channel.MemoryLaidOut where
  head := by
    rw [valid.cursorAt_eq]
    exact valid.coherent.layout.head
  tail := by
    rw [valid.coherent.restore_tail, valid.lengths]
    rfl
  entry index buffer inHand := by
    have held := valid.held index buffer inHand
    refine ⟨held.pending, ?_, ?_⟩
    · rw [valid.lengths, getElem?_map, held.found]
      rfl
    · rw [valid.cursorAt_eq]
      exact held.position
  starts index buffer inHand := by
    have held := valid.held index buffer inHand
    exact valid.coherent.layout.sized.getEntry_eq
      (valid.memorySize_pos held.pending held.found) buffer.cursor
  covers index buffer inHand := by
    have fits := (valid.held index buffer inHand).fits
    rw [allocLen_eq fits.1]
    omega
  inside index buffer inHand := by
    have held := valid.held index buffer inHand
    have positive := valid.memorySize_pos held.pending held.found
    have limit := held.fits.2
    have begins := Nat.mod_lt buffer.cursor positive
    rw [valid.coherent.layout.sized.getEntry_eq positive]
    omega
  apart first second length length' pending pending' different found found' := by
    obtain ⟨reservation, at_, rfl⟩ := valid.lengths_eq_some found
    obtain ⟨reservation', at_', rfl⟩ := valid.lengths_eq_some found'
    rw [valid.cursorAt_eq, valid.cursorAt_eq]
    rcases Nat.lt_or_gt_of_ne different with less | greater
    · exact valid.regions_apart pending less at_ at_'
    · exact (valid.regions_apart pending' greater at_' at_).symm

end

/-- In every run, through any number of restarts, the buffers lie where the tail
says, have room for what was asked for, and overlap no pending entry. -/
theorem memoryLaidOut_of_allowed (memorySize maxMessageSize : UInt32) (memory : Memory)
    (shm : Shm) (created : Shm.create memorySize maxMessageSize memory = some shm)
    (actions : List Action) (final : Channel)
    (allowed : Guarded step Allowed { shm := shm } actions)
    (ran : execute step { shm := shm } actions = some final) : final.MemoryLaidOut :=
  (valid_of_allowed created allowed ran).elim fun _ valid => valid.memoryLaidOut

def reserve (index : Nat) (length : UInt32) : List Action :=
  .allocBuffer index length :: replicate 5 (.proceed index)

/-- The second buffer of proxy 1 runs over the end of the ring, and that of proxy 2
fills it up. -/
def wrappedRun : List Action :=
  flatten
    [[.allocWAL 1, .allocWAL 2], reserve 1 8,
      [.postBuffer 1 0 8, .tryWaitEntry, .examineEntry, .freeEntry],
      reserve 1 12, [.proceed 1], reserve 2 0, [.proceed 2]]

theorem wrappedRun_memoryLaidOut :
    Shm.create 32 24 (fun _ => 0) = some (smallShm 32 24) ∧
      Guarded step Allowed { shm := smallShm 32 24 } wrappedRun ∧
      ∃ final, execute step { shm := smallShm 32 24 } wrappedRun = some final ∧
        (final.lengths = [16, 24, 8] ∧ final.buffers 1 = [⟨12, 16, 1⟩] ∧
          final.buffers 2 = [⟨0, 40, 2⟩]) ∧ final.MemoryLaidOut := by
  have created : Shm.create 32 24 (fun _ => 0) = some (smallShm 32 24) := rfl
  have allowed : Guarded step Allowed { shm := smallShm 32 24 } wrappedRun := by
    decide +kernel
  obtain ⟨final, ran, facts⟩ :
      ∃ final, execute step { shm := smallShm 32 24 } wrappedRun = some final ∧
        (final.lengths = [16, 24, 8] ∧ final.buffers 1 = [⟨12, 16, 1⟩] ∧
          final.buffers 2 = [⟨0, 40, 2⟩]) :=
    execute_check (by decide +kernel)
  exact ⟨created, allowed, final, ran, facts,
    memoryLaidOut_of_allowed 32 24 (fun _ => 0) _ created wrappedRun final allowed ran⟩

/-- A request of `2 ^ 32 - 8` bytes is given an entry without bytes. -/
def emptyRegionRun : List Action := .allocWAL 1 :: reserve 1 0xFFFFFFF8

theorem emptyRegionRun_not_laidOut :
    Shm.create 64 32 (fun _ => 0) = some (smallShm 64 32) ∧
      ∃ final, execute step { shm := smallShm 64 32 } emptyRegionRun = some final ∧
        (final.buffers 1 = [⟨0xFFFFFFF8, 0, 0⟩] ∧ final.lengths = [0]) ∧ ¬ final.MemoryLaidOut := by
  obtain ⟨final, ran, inHand, lengths⟩ :
      ∃ final, execute step { shm := smallShm 64 32 } emptyRegionRun = some final ∧
        (final.buffers 1 = [⟨0xFFFFFFF8, 0, 0⟩] ∧ final.lengths = [0]) :=
    execute_check (by decide +kernel)
  refine ⟨rfl, final, ran, ⟨inHand, lengths⟩, fun laidOut => ?_⟩
  have covers := laidOut.covers 1 ⟨0xFFFFFFF8, 0, 0⟩ (by rw [inHand]; exact mem_singleton_self _)
  revert covers
  decide

theorem run_posts {next : Channel} {operation : System → Option System}
    (went : channel.run operation = some next) : next.posts = channel.posts := by
  obtain ⟨system, -, rfl⟩ := run_eq_some went
  rfl

theorem posts_pos_step {next : Channel} {action : Action}
    (pos : ∀ post ∈ channel.posts, 0 < post.2) (allowed : action.postsNothing = false)
    (went : channel.step action = some next) : ∀ post ∈ next.posts, 0 < post.2 := by
  have unchanged : next.posts = channel.posts → ∀ post ∈ next.posts, 0 < post.2 := by
    intro same
    rw [same]
    exact pos
  cases action with
  | proceed index =>
    apply unchanged
    simp only [step, Channel.proceed] at went
    split at went
    · cases went
      rfl
    · exact run_posts went
  | writeByte index place offset byte =>
    apply unchanged
    simp only [step, Channel.writeByte] at went
    split at went
    · split at went
      · cases went
        rfl
      · cases went
    · cases went
  | postBuffer index place size =>
    simp only [step, Channel.postBuffer] at went
    split at went
    · split at went
      · cases went
        intro post mem
        rcases mem_cons.mp mem with rfl | old
        · have nonzero : size ≠ 0 := by simpa [Action.postsNothing] using allowed
          exact Nat.pos_of_ne_zero nonzero
        · exact pos post old
      · cases went
    · cases went
  | die index =>
    apply unchanged
    obtain ⟨after, ran, rfl⟩ := map_eq_some_iff.mp went
    exact (run_posts ran :)
  | restart =>
    have started : channel.restart = next := some.inj went
    rw [← started]
    intro post mem
    obtain ⟨before, kept, rfl⟩ := mem_map.mp mem
    exact pos before (mem_filter.mp kept).1
  | _ =>
    unfold step at went
    exact unchanged (run_posts went)

theorem Valid.postedConsumable (valid : channel.Valid history)
    (pos : ∀ post ∈ channel.posts, 0 < post.2) : channel.PostedConsumable where
  found size posted idle := by
    obtain ⟨reservation, found, -⟩ := valid.posts _ posted (pos _ posted)
    have ends := position_add_le_published found
    have layout := valid.coherent.layout
    have large := (layout.sizes _ (mem_of_getElem? found)).allocLen_ge
    have short : channel.shm.refreshThreshold.head < channel.shm.refreshThreshold.headThreshold := by
      unfold Shm.refreshThreshold
      split
      · rw [valid.coherent.restore_tail]
        rw [← layout.head] at ends
        simp only
        omega
      · next above => exact Nat.lt_of_not_le above
    simp only [Channel.step, run, system, System.tryWaitEntry, idle, if_neg (Nat.not_le.mpr short),
      map_some]
    exact ⟨_, rfl, rfl⟩
  taken size posted examining := by
    obtain ⟨reservation, found, status⟩ := valid.posts _ posted (pos _ posted)
    obtain ⟨reservation', found', sized, word⟩ := valid.entry_at_head examining
    have same : reservation' = reservation := some.inj (found'.symm.trans found)
    rw [same] at sized word
    have large := (sized.posted size status).1
    simp only [Channel.step, run, system, System.examineEntry, examining, word, sized.bufferSize, status,
      Status.postedSize, getD_some, large, if_true, map_some]
    exact ⟨_, rfl, .inl rfl⟩

/-- In every run without a post of size zero, the consumer is given every posted
entry it comes to. -/
theorem postedConsumable_of_allowedPost (memorySize maxMessageSize : UInt32)
    (memory : Memory) (shm : Shm)
    (created : Shm.create memorySize maxMessageSize memory = some shm) (actions : List Action)
    (final : Channel) (allowed : Guarded step AllowedPost { shm := shm } actions)
    (ran : execute step { shm := shm } actions = some final) : final.PostedConsumable := by
  have steps : ∀ {channel next : Channel} {action : Action},
      ((∃ history, channel.Valid history) ∧ ∀ post ∈ channel.posts, 0 < post.2) →
      channel.AllowedPost action → channel.step action = some next →
      (∃ later, next.Valid later) ∧ ∀ post ∈ next.posts, 0 < post.2 := by
    rintro channel next action ⟨⟨history, valid⟩, positive⟩ allowed stepped
    exact ⟨valid.step allowed.1 stepped, posts_pos_step positive allowed.2 stepped⟩
  obtain ⟨⟨history, valid⟩, positive⟩ := invariant_of_guarded steps
    ⟨⟨[], create_valid created⟩, fun _ member => absurd member not_mem_nil⟩ allowed ran
  exact valid.postedConsumable positive

def headPostedRun : List Action :=
  flatten
    [[.allocWAL 1], reserve 1 8, reserve 1 4,
      [.postBuffer 1 0 1, .tryWaitEntry, .examineEntry, .postBuffer 1 0 7, .tryWaitEntry]]

theorem headPostedRun_consumable :
    Shm.create 64 32 (fun _ => 0) = some (smallShm 64 32) ∧
      Guarded step AllowedPost { shm := smallShm 64 32 } headPostedRun ∧
      ∃ final, execute step { shm := smallShm 64 32 } headPostedRun = some final ∧
        (final.posts = [(0, 7), (1, 1)] ∧ final.consumed = 0 ∧ final.consumer = .examining) ∧
          final.PostedConsumable := by
  have created : Shm.create 64 32 (fun _ => 0) = some (smallShm 64 32) := rfl
  have allowed : Guarded step AllowedPost { shm := smallShm 64 32 } headPostedRun := by
    decide +kernel
  obtain ⟨final, ran, facts⟩ :
      ∃ final, execute step { shm := smallShm 64 32 } headPostedRun = some final ∧
        (final.posts = [(0, 7), (1, 1)] ∧ final.consumed = 0 ∧ final.consumer = .examining) :=
    execute_check (by decide +kernel)
  exact ⟨created, allowed, final, ran, facts,
    postedConsumable_of_allowedPost 64 32 (fun _ => 0) _ created headPostedRun final allowed ran⟩

def emptyPostRun : List Action :=
  .allocWAL 1 :: reserve 1 8 ++ [.postBuffer 1 0 0, .tryWaitEntry]

theorem emptyPostRun_not_consumable :
    Shm.create 64 32 (fun _ => 0) = some (smallShm 64 32) ∧
      ∃ final, execute step { shm := smallShm 64 32 } emptyPostRun = some final ∧
        (final.posts = [(0, 0)] ∧ final.consumed = 0 ∧ final.buffers 1 = []) ∧
          ¬ final.PostedConsumable := by
  obtain ⟨final, ran, ⟨posts, consumed, inHand⟩, examining, waits⟩ :
      ∃ final, execute step { shm := smallShm 64 32 } emptyPostRun = some final ∧
        (final.posts = [(0, 0)] ∧ final.consumed = 0 ∧ final.buffers 1 = []) ∧
          final.consumer = .examining ∧
          (final.step .examineEntry).all (fun next =>
            next.consumer = .idle ∧ next.consumed = 0) = true :=
    execute_check (by decide +kernel)
  refine ⟨rfl, final, ran, ⟨posts, consumed, inHand⟩, fun consumable => ?_⟩
  have posted : (final.consumed, 0) ∈ final.posts := by
    rw [posts, consumed]
    exact mem_singleton_self _
  obtain ⟨next, stepped, outcome⟩ := consumable.taken 0 posted examining
  rw [stepped, all_some, decide_eq_true_eq] at waits
  rcases outcome with holding | advanced
  · rw [waits.1] at holding
    cases holding
  · rw [waits.2, consumed] at advanced
    cases advanced

end AdkAaf.Adk.Sccl.Channel
