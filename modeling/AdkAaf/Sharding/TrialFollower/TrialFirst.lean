import AdkAaf.Sharding.TrialFollower.Basic

/-! The realtime process of the advanced follower never runs ahead of the trial
processes. The two counters, the two ring heads and the program counters are
tied together by one invariant; it survives a death of the trial process
everywhere except between the store of `nr_shm_processed_sqn` and `FreeEntry`. -/

set_option autoImplicit false

namespace AdkAaf.Sharding.TrialFollower

open Lib Option List

section Property

variable {Body : Type}

/-- What is delivered has been completed by some trial process, and every trial
process starts on the trial ring at the entry its inherited counter names. -/
structure TrialFirst (system : System Body) : Prop where
  delivered : ∀ entry ∈ system.delivered, entry ∈ system.completed
  started : ∀ start ∈ system.started,
    start.rxContShm = .trial ∧ start.nextIndex = start.nrShmProcessedSqn.toNat

def TrialPC.isFreeEntry : TrialPC Body → Bool
  | .freeEntry _ => true
  | _ => false

/-- The next statement of the trial process is `FreeEntry`: the shared counter
has passed the entry, the head of the ring has not. -/
def AwaitsFreeEntry (system : System Body) : Prop :=
  system.trial.any (·.pc.isFreeEntry) = true

def FixesTrialWhenIdle (system : System Body) : Prop :=
  system.realtime.pc = .checkAndFixTrial ∧ system.trial = none ∧
    system.flrLaunch.nrShmProcessedSqn ≤ system.realtime.nrShmProcessedSqn

/-- A trial process dies only where the counter and the ring head agree, a dead
one is only ever replaced from `WaitTrialProcess`, and fewer than `2 ^ 64`
entries are posted. -/
def Allowed (system : System Body) : Action Body → Prop
  | .postFirst _ => system.trialRing.posted.length + 1 < 2 ^ 64
  | .trialDies => ¬ AwaitsFreeEntry system
  | .realtimeStep => ¬ FixesTrialWhenIdle system
  | .postSecond | .trialStep => True

instance (system : System Body) : Decidable (AwaitsFreeEntry system) :=
  inferInstanceAs (Decidable (_ = true))

instance [DecidableEq Body] (system : System Body) : Decidable (FixesTrialWhenIdle system) :=
  inferInstanceAs (Decidable (_ ∧ _ ∧ _))

instance [DecidableEq Body] (system : System Body) :
    ∀ action, Decidable (Allowed system action)
  | .postFirst _ => inferInstanceAs (Decidable (_ < _))
  | .trialDies | .realtimeStep => inferInstanceAs (Decidable (¬ _))
  | .postSecond | .trialStep => inferInstanceAs (Decidable True)

def RxRing.HasHead (ring : RxRing Body) (entry : ContEntry Body) : Prop :=
  entry.index = ring.head ∧ ring.posted[ring.head]? = some entry.content

def RingsAgree (trialPosted realtimePosted : List (RxEntry Body)) :
    Option (RingName × RxEntry Body) → Prop
  | none => trialPosted = realtimePosted
  | some (.realtime, entry) => trialPosted = realtimePosted ++ [entry]
  | some (.trial, entry) => realtimePosted = trialPosted ++ [entry]

/-- The shared counter against the head of the trial ring: they differ only
between the store of the counter and `FreeEntry`. -/
def TrialPC.Consistent (ring : RxRing Body) (counter shared : Nat)
    (completed : List (ContEntry Body)) : TrialPC Body → Prop
  | .tryWaitEntry => shared = ring.head ∧ counter = ring.head
  | .storeDeliverdSqn entry | .deliverMessage entry | .deliveEvent entry =>
    shared = ring.head ∧ counter = ring.head ∧ ring.HasHead entry
  | .storeProcessedSqn entry | .countShmProcessed entry =>
    shared = ring.head ∧ counter = ring.head ∧ ring.HasHead entry ∧ entry ∈ completed
  | .storeShmProcessedSqn entry =>
    shared = ring.head ∧ counter = ring.head + 1 ∧ ring.HasHead entry ∧ entry ∈ completed
  | .freeEntry entry =>
    shared = ring.head + 1 ∧ counter = ring.head + 1 ∧ ring.HasHead entry ∧ entry ∈ completed

def TrialConsistent (ring : RxRing Body) (shared : UInt64) (completed : List (ContEntry Body)) :
    Option (Trial Body) → Prop
  | none => shared.toNat = ring.head
  | some trial =>
    trial.rxContShm = .trial ∧
      trial.pc.Consistent ring trial.nrShmProcessedSqn.toNat shared.toNat completed

/-- The realtime counter against the head of the realtime ring and the shared
counter. -/
def RealtimePC.Consistent (ring : RxRing Body) (counter shared : Nat)
    (trial : Option (Trial Body)) : RealtimePC Body → Prop
  | .tryWaitEntry | .checkAndFixTrial => ring.head = counter ∧ counter ≤ shared
  | .waitTrialProcess entry | .isTrialAlive entry =>
    ring.head = counter ∧ counter ≤ shared ∧ ring.HasHead entry
  | .deliver entry => ring.head = counter ∧ counter < shared ∧ ring.HasHead entry
  | .countShmProcessed => ring.head = counter ∧ counter < shared
  | .freeEntry => ring.head + 1 = counter ∧ counter ≤ shared
  | .onTrialError caller | .skipRealtime caller | .startTrialProcess caller =>
    ring.head = counter ∧ shared = counter ∧ trial = none ∧ caller = .waitTrialProcess
  | .skipTrial caller _ =>
    ring.head = counter + 1 ∧ shared = counter ∧ trial = none ∧ caller = .waitTrialProcess

structure Valid (system : System Body) : Prop where
  rings : RingsAgree system.trialRing.posted system.realtimeRing.posted system.posting
  trialRoom : system.trialRing.posted.length < 2 ^ 64
  realtimeRoom : system.realtimeRing.posted.length < 2 ^ 64
  trial : TrialConsistent system.trialRing system.flrLaunch.nrShmProcessedSqn system.completed
    system.trial
  realtime : system.realtime.pc.Consistent system.realtimeRing
    system.realtime.nrShmProcessedSqn.toNat system.flrLaunch.nrShmProcessedSqn.toNat system.trial
  /-- Between the two counters lie entries that trials have completed. -/
  passed : ∀ index, system.realtime.nrShmProcessedSqn.toNat ≤ index →
    index < system.flrLaunch.nrShmProcessedSqn.toNat →
    ∃ content, system.trialRing.posted[index]? = some content ∧
      (⟨index, content⟩ : ContEntry Body) ∈ system.completed
  trialFirst : TrialFirst system

section Preservation

variable {system : System Body}

variable {ring : RxRing Body} {entry : ContEntry Body}

theorem RxRing.hasHead_of_tryWaitEntry (found : ring.tryWaitEntry = some entry) :
    ring.HasHead entry := by
  obtain ⟨content, posted, rfl⟩ := map_eq_some_iff.mp found
  exact ⟨rfl, posted⟩

theorem RxRing.HasHead.lt (held : ring.HasHead entry) : ring.head < ring.posted.length :=
  (List.getElem?_eq_some_iff.mp held.2).1

variable {index : Nat}

theorem getElem?_append_of_some {first second : List (RxEntry Body)} {content : RxEntry Body}
    (found : first[index]? = some content) : (first ++ second)[index]? = some content := by
  rw [List.getElem?_append_left (List.getElem?_eq_some_iff.mp found).1]
  exact found

theorem RxRing.HasHead.postEntry (held : ring.HasHead entry) (posted : RxEntry Body) :
    (ring.postEntry posted).HasHead entry :=
  ⟨held.1, getElem?_append_of_some held.2⟩

variable {completed : List (ContEntry Body)} {counter shared : Nat}

theorem TrialPC.Consistent.postEntry {pc : TrialPC Body}
    (consistent : pc.Consistent ring counter shared completed) (posted : RxEntry Body) :
    pc.Consistent (ring.postEntry posted) counter shared completed := by
  cases pc with
  | tryWaitEntry => exact consistent
  | storeDeliverdSqn entry | deliverMessage entry | deliveEvent entry =>
    obtain ⟨same, counted, held⟩ := consistent
    exact ⟨same, counted, held.postEntry posted⟩
  | _ =>
    obtain ⟨same, counted, held, done⟩ := consistent
    exact ⟨same, counted, held.postEntry posted, done⟩

theorem TrialConsistent.postEntry {shared : UInt64} {trial : Option (Trial Body)}
    (consistent : TrialConsistent ring shared completed trial) (posted : RxEntry Body) :
    TrialConsistent (ring.postEntry posted) shared completed trial := by
  cases trial with
  | none => exact consistent
  | some trial => exact ⟨consistent.1, consistent.2.postEntry posted⟩

variable {pc : RealtimePC Body}

theorem RealtimePC.Consistent.postEntry {trial : Option (Trial Body)}
    (consistent : pc.Consistent ring counter shared trial) (posted : RxEntry Body) :
    pc.Consistent (ring.postEntry posted) counter shared trial := by
  cases pc with
  | waitTrialProcess entry | isTrialAlive entry | deliver entry =>
    obtain ⟨same, ordered, held⟩ := consistent
    exact ⟨same, ordered, held.postEntry posted⟩
  | _ => exact consistent

variable {posting : Option (RingName × RxEntry Body)}

theorem RingsAgree.same {trialPosted realtimePosted : List (RxEntry Body)}
    (agree : RingsAgree trialPosted realtimePosted posting)
    {trialContent realtimeContent : RxEntry Body}
    (inTrial : trialPosted[index]? = some trialContent)
    (inRealtime : realtimePosted[index]? = some realtimeContent) :
    trialContent = realtimeContent := by
  match posting, agree with
  | none, agree =>
    rw [agree, inRealtime] at inTrial
    exact (some.inj inTrial).symm
  | some (.realtime, entry), agree =>
    rw [agree, getElem?_append_of_some inRealtime] at inTrial
    exact (some.inj inTrial).symm
  | some (.trial, entry), agree =>
    rw [agree, getElem?_append_of_some inTrial] at inRealtime
    exact some.inj inRealtime

theorem Valid.postTrial (ok : Valid system) (entry : RxEntry Body)
    (agree : RingsAgree (system.trialRing.posted ++ [entry]) system.realtimeRing.posted posting)
    (room : system.trialRing.posted.length + 1 < 2 ^ 64) :
    Valid { system with trialRing := system.trialRing.postEntry entry, posting := posting } where
  rings := agree
  trialRoom := by simpa [RxRing.postEntry] using room
  __ := ok
  trial := ok.trial.postEntry entry
  passed index above below := by
    obtain ⟨content, posted, done⟩ := ok.passed index above below
    exact ⟨content, getElem?_append_of_some posted, done⟩
  trialFirst := ⟨ok.trialFirst.delivered, ok.trialFirst.started⟩

theorem Valid.postRealtime (ok : Valid system) (entry : RxEntry Body)
    (agree : RingsAgree system.trialRing.posted (system.realtimeRing.posted ++ [entry]) posting)
    (room : system.realtimeRing.posted.length + 1 < 2 ^ 64) :
    Valid { system with
      realtimeRing := system.realtimeRing.postEntry entry, posting := posting } where
  rings := agree
  __ := ok
  realtimeRoom := by simpa [RxRing.postEntry] using room
  realtime := ok.realtime.postEntry entry
  trialFirst := ⟨ok.trialFirst.delivered, ok.trialFirst.started⟩

variable {next : System Body}

theorem Valid.postFirst (ok : Valid system) {entry : RxEntry Body}
    (room : system.trialRing.posted.length + 1 < 2 ^ 64)
    (went : system.postFirst entry = some next) : Valid next := by
  unfold System.postFirst at went
  split at went
  · cases went
  · next idle =>
    have agree := ok.rings
    rw [idle] at agree
    cases kind : entry.msgType with simp only [kind, System.postOrder, some.injEq] at went
    | amiRxMsg =>
      subst went
      exact ok.postTrial entry (congrArg (· ++ [entry]) agree) room
    | amiEvent | shardingPost =>
      subst went
      exact ok.postRealtime entry (congrArg (· ++ [entry]) agree.symm) (agree ▸ room)

theorem Valid.postSecond (ok : Valid system) (went : system.postSecond = some next) :
    Valid next := by
  unfold System.postSecond at went
  split at went
  · cases went
  · next second entry posting =>
    cases went
    have agree := ok.rings
    rw [posting] at agree
    cases second with
    | trial =>
      have room := ok.realtimeRoom
      rw [agree, length_append] at room
      have posted : RingsAgree (system.trialRing.posted ++ [entry]) system.realtimeRing.posted
          none := agree.symm
      exact ok.postTrial entry posted room
    | realtime =>
      have room := ok.trialRoom
      rw [agree, length_append] at room
      have posted : RingsAgree system.trialRing.posted (system.realtimeRing.posted ++ [entry])
          none := agree
      exact ok.postRealtime entry posted room

theorem toNat_add_one {counter : UInt64} (below : counter.toNat + 1 < 2 ^ 64) :
    (counter + 1).toNat = counter.toNat + 1 := by
  rw [UInt64.toNat_add, UInt64.toNat_one, Nat.mod_eq_of_lt below]

variable {trial : Trial Body}

/-- While a trial process is alive the realtime process is not in `OnTrialError`,
so what it relies on does not mention the trial process. -/
theorem RealtimePC.Consistent.while_alive
    (consistent : pc.Consistent ring counter shared (some trial)) (other : Option (Trial Body)) :
    pc.Consistent ring counter shared other := by
  cases pc with
  | onTrialError caller | skipRealtime caller | startTrialProcess caller =>
    cases consistent.2.2.1
  | skipTrial caller totalOrderSqn => cases consistent.2.2.1
  | _ => exact consistent

theorem RealtimePC.Consistent.shared_succ
    (consistent : pc.Consistent ring counter shared (some trial)) :
    pc.Consistent ring counter (shared + 1) (some trial) := by
  cases pc with
  | tryWaitEntry | checkAndFixTrial | freeEntry =>
    exact ⟨consistent.1, Nat.le_succ_of_le consistent.2⟩
  | waitTrialProcess entry | isTrialAlive entry =>
    exact ⟨consistent.1, Nat.le_succ_of_le consistent.2.1, consistent.2.2⟩
  | deliver entry => exact ⟨consistent.1, Nat.lt_succ_of_lt consistent.2.1, consistent.2.2⟩
  | countShmProcessed => exact ⟨consistent.1, Nat.lt_succ_of_lt consistent.2⟩
  | onTrialError caller | skipRealtime caller | startTrialProcess caller =>
    cases consistent.2.2.1
  | skipTrial caller totalOrderSqn => cases consistent.2.2.1

section

variable (ok : Valid system)
include ok

theorem Valid.trialProgress (alive : system.trial = some trial) (after : Trial Body)
    {launch : FlrProxyLaunchShm}
    (sameCounter : launch.nrShmProcessedSqn = system.flrLaunch.nrShmProcessedSqn)
    (grows : system.completed ⊆ completed)
    (consistent : TrialConsistent system.trialRing system.flrLaunch.nrShmProcessedSqn completed
      (some after)) :
    Valid { system with
      trial := some after, flrLaunch := launch, completed := completed } where
  __ := ok
  trial := by simpa only [sameCounter] using consistent
  realtime := by
    have stage := ok.realtime
    rw [alive] at stage
    simpa only [sameCounter] using stage.while_alive (some after)
  passed index above below := by
    obtain ⟨content, posted, done⟩ := ok.passed index above (by rwa [sameCounter] at below)
    exact ⟨content, posted, grows done⟩
  trialFirst := ⟨fun entry given => grows (ok.trialFirst.delivered entry given),
    ok.trialFirst.started⟩

theorem Valid.storeShmProcessedSqn (alive : system.trial = some trial)
    (pc : trial.pc = .storeShmProcessedSqn entry) :
    Valid { system with
      trial := some { trial with pc := .freeEntry entry }
      flrLaunch :=
        { system.flrLaunch with nrShmProcessedSqn := trial.nrShmProcessedSqn } } := by
  have consistent := ok.trial
  rw [alive, TrialConsistent, pc] at consistent
  obtain ⟨onTrialRing, same, counted, held, done⟩ := consistent
  have succeeds : trial.nrShmProcessedSqn.toNat =
      system.flrLaunch.nrShmProcessedSqn.toNat + 1 := by rw [counted, same]
  exact {
    __ := ok
    trial := ⟨onTrialRing, counted, counted, held, done⟩
    realtime := by
      have stage := ok.realtime
      rw [alive] at stage
      simpa only [succeeds] using stage.shared_succ.while_alive _
    passed := by
      intro i above below
      simp only [succeeds, Nat.lt_succ_iff_lt_or_eq] at below
      rcases below with before | rfl
      · exact ok.passed i above before
      · rw [same]
        refine ⟨entry.content, held.2, ?_⟩
        rw [← held.1]
        exact done
    trialFirst := ⟨ok.trialFirst.delivered, ok.trialFirst.started⟩ }

theorem Valid.trialFreeEntry (alive : system.trial = some trial)
    (pc : trial.pc = .freeEntry entry) :
    Valid { system with
      trial := some { trial with pc := .tryWaitEntry }
      trialRing := system.trialRing.freeEntry } := by
  have consistent := ok.trial
  rw [alive, TrialConsistent, pc] at consistent
  obtain ⟨onTrialRing, same, counted, held, done⟩ := consistent
  exact {
    __ := ok
    trial := ⟨onTrialRing, same, counted⟩
    realtime := by
      have stage := ok.realtime
      rw [alive] at stage
      exact stage.while_alive _
    trialFirst := ⟨ok.trialFirst.delivered, ok.trialFirst.started⟩ }

theorem Valid.trialStep (went : system.trialStep = some next) : Valid next := by
  unfold System.trialStep at went
  split at went
  · cases went
  · next trial alive =>
    have consistent := ok.trial
    rw [alive, TrialConsistent] at consistent
    obtain ⟨onTrialRing, consistent⟩ := consistent
    split at went
    · next pc =>
      obtain ⟨entry, found, rfl⟩ := map_eq_some_iff.mp went
      rw [onTrialRing] at found
      rw [pc] at consistent
      obtain ⟨same, counted⟩ := consistent
      have held := RxRing.hasHead_of_tryWaitEntry found
      cases entry.content.msgType with
      | amiRxMsg | amiEvent | shardingPost =>
        exact ok.trialProgress alive { trial with pc := _ } rfl (Subset.refl _)
          ⟨onTrialRing, same, counted, held⟩
    · next entry pc =>
      cases went
      rw [pc] at consistent
      obtain ⟨same, counted, held⟩ := consistent
      refine ok.trialProgress alive { trial with pc := .deliverMessage entry } ?_
        (Subset.refl _) ⟨onTrialRing, same, counted, held⟩
      rfl
    · next entry pc =>
      cases went
      rw [pc] at consistent
      obtain ⟨same, counted, held⟩ := consistent
      exact ok.trialProgress alive { trial with pc := .storeProcessedSqn entry } rfl
        (subset_append_left _ _) ⟨onTrialRing, same, counted, held, by simp⟩
    · next entry pc =>
      cases went
      rw [pc] at consistent
      obtain ⟨same, counted, held, done⟩ := consistent
      refine ok.trialProgress alive { trial with pc := .countShmProcessed entry } ?_
        (Subset.refl _) ⟨onTrialRing, same, counted, held, done⟩
      rfl
    · next entry pc =>
      cases went
      rw [pc] at consistent
      obtain ⟨same, counted, held⟩ := consistent
      exact ok.trialProgress alive { trial with pc := .countShmProcessed entry } rfl
        (subset_append_left _ _) ⟨onTrialRing, same, counted, held, by simp⟩
    · next entry pc =>
      cases went
      rw [pc] at consistent
      obtain ⟨same, counted, held, done⟩ := consistent
      have room : trial.nrShmProcessedSqn.toNat + 1 < 2 ^ 64 := by
        rw [counted]
        exact Nat.lt_of_le_of_lt held.lt ok.trialRoom
      refine ok.trialProgress alive { trial with
          nrShmProcessedSqn := trial.nrShmProcessedSqn + 1, pc := .storeShmProcessedSqn entry }
        rfl (Subset.refl _) ⟨onTrialRing, same, ?_, held, done⟩
      simp [toNat_add_one room, counted]
    · next entry pc =>
      cases went
      exact ok.storeShmProcessedSqn alive pc
    · next entry pc =>
      cases went
      rw [onTrialRing]
      exact ok.trialFreeEntry alive pc

theorem Valid.trialDies (settled : ¬ AwaitsFreeEntry system)
    (went : system.trialDies = some next) : Valid next := by
  unfold System.trialDies at went
  split at went
  · cases went
  · next trial alive =>
    cases went
    have consistent := ok.trial
    rw [alive] at consistent
    exact {
      __ := ok
      trial := by
        obtain ⟨-, consistent⟩ := consistent
        cases pc : trial.pc with
        | freeEntry entry =>
          exact absurd (by simp [AwaitsFreeEntry, alive, pc, TrialPC.isFreeEntry]) settled
        | _ =>
          rw [pc] at consistent
          exact consistent.1
      realtime := by
        have stage := ok.realtime
        rw [alive] at stage
        exact stage.while_alive none
      trialFirst := ⟨ok.trialFirst.delivered, ok.trialFirst.started⟩ }

theorem Valid.setRealtimePC
    (consistent : pc.Consistent system.realtimeRing system.realtime.nrShmProcessedSqn.toNat
      system.flrLaunch.nrShmProcessedSqn.toNat system.trial) : Valid (system.setRealtimePC pc) where
  __ := ok
  realtime := consistent
  trialFirst := ⟨ok.trialFirst.delivered, ok.trialFirst.started⟩

theorem Valid.deliver (pc : system.realtime.pc = .deliver entry) :
    Valid { system.setRealtimePC .countShmProcessed with
      delivered := system.delivered ++ [entry] } := by
  have consistent := ok.realtime
  rw [pc] at consistent
  obtain ⟨same, ordered, index, posted⟩ := consistent
  obtain ⟨content, inTrial, done⟩ := ok.passed _ .refl ordered
  rw [same] at posted index
  obtain rfl := ok.rings.same inTrial posted
  have completed : entry ∈ system.completed := by
    rw [← index] at done
    exact done
  exact {
    __ := ok
    realtime := ⟨same, ordered⟩
    trialFirst := by
      refine ⟨fun other given => ?_, ok.trialFirst.started⟩
      rcases mem_append.mp given with before | new
      · exact ok.trialFirst.delivered other before
      · rw [mem_singleton.mp new]
        exact completed }

theorem Valid.countShmProcessed (pc : system.realtime.pc = .countShmProcessed) :
    Valid { system with
      realtime :=
        { nrShmProcessedSqn := system.realtime.nrShmProcessedSqn + 1, pc := .freeEntry } } := by
  have consistent := ok.realtime
  rw [pc] at consistent
  obtain ⟨same, ordered⟩ := consistent
  have succeeds := toNat_add_one
    ((Nat.succ_le_of_lt ordered).trans_lt (UInt64.toNat_lt _))
  exact {
    __ := ok
    realtime := by
      rw [RealtimePC.Consistent, succeeds]
      exact ⟨congrArg (· + 1) same, ordered⟩
    passed := fun i above below => by
      rw [succeeds] at above
      exact ok.passed i (Nat.le_of_succ_le above) below
    trialFirst := ⟨ok.trialFirst.delivered, ok.trialFirst.started⟩ }

theorem Valid.realtimeFreeEntry (pc : system.realtime.pc = .freeEntry) :
    Valid { system.setRealtimePC .tryWaitEntry with
      realtimeRing := system.realtimeRing.freeEntry } := by
  have consistent := ok.realtime
  rw [pc] at consistent
  exact {
    __ := ok
    realtime := consistent
    trialFirst := ⟨ok.trialFirst.delivered, ok.trialFirst.started⟩ }

end

variable {caller : ErrorCaller}

theorem Valid.skipRealtime (ok : Valid system)
    (pc : system.realtime.pc = .skipRealtime caller) (totalOrderSqn : UInt64) :
    Valid { system.setRealtimePC (.skipTrial caller totalOrderSqn) with
      realtimeRing := system.realtimeRing.freeEntry } := by
  have consistent := ok.realtime
  rw [pc] at consistent
  obtain ⟨same, settled, dead, fromWait⟩ := consistent
  exact {
    __ := ok
    realtime := ⟨congrArg (· + 1) same, settled, dead, fromWait⟩
    trialFirst := ⟨ok.trialFirst.delivered, ok.trialFirst.started⟩ }

theorem Valid.skipTrial (ok : Valid system) {totalOrderSqn : UInt64}
    (pc : system.realtime.pc = .skipTrial caller totalOrderSqn)
    (found : system.trialRing.tryWaitEntry = some entry) :
    Valid { system with
      trialRing := system.trialRing.freeEntry
      flrLaunch :=
        { system.flrLaunch with
          nrMsgProcessedSqn := totalOrderSqn
          nrShmProcessedSqn := system.realtime.nrShmProcessedSqn + 1 }
      realtime :=
        { nrShmProcessedSqn := system.realtime.nrShmProcessedSqn + 1
          pc := .startTrialProcess caller } } := by
  have consistent := ok.realtime
  rw [pc] at consistent
  obtain ⟨same, settled, dead, fromWait⟩ := consistent
  have trialHead := ok.trial
  rw [dead] at trialHead
  have counter : system.realtime.nrShmProcessedSqn.toNat = system.trialRing.head :=
    settled.symm.trans trialHead
  have room : system.realtime.nrShmProcessedSqn.toNat + 1 < 2 ^ 64 := by
    rw [counter]
    exact Nat.lt_of_le_of_lt (RxRing.hasHead_of_tryWaitEntry found).lt ok.trialRoom
  have succeeds := toNat_add_one room
  exact {
    __ := ok
    trial := by
      rw [dead]
      exact succeeds.trans (congrArg (· + 1) counter)
    realtime := ⟨same.trans succeeds.symm, rfl, dead, fromWait⟩
    passed := fun i above below => absurd below (Nat.not_lt.mpr above)
    trialFirst := ⟨ok.trialFirst.delivered, ok.trialFirst.started⟩ }

theorem Valid.startTrialProcess (ok : Valid system)
    (pc : system.realtime.pc = .startTrialProcess caller) :
    Valid ((system.setRealtimePC .tryWaitEntry).startTrialProcess (System.childRing caller)) := by
  have consistent := ok.realtime
  rw [pc] at consistent
  obtain ⟨same, settled, dead, rfl⟩ := consistent
  have trialHead := ok.trial
  rw [dead] at trialHead
  have counter : system.realtime.nrShmProcessedSqn.toNat = system.trialRing.head :=
    settled.symm.trans trialHead
  exact {
    __ := ok
    trial := ⟨rfl, trialHead, counter⟩
    realtime := ⟨same, settled.symm.le⟩
    trialFirst := by
      refine ⟨ok.trialFirst.delivered, fun start given => ?_⟩
      rcases mem_append.mp given with before | new
      · exact ok.trialFirst.started start before
      · obtain rfl := mem_singleton.mp new
        exact ⟨rfl, counter.symm⟩ }

theorem Valid.realtimeStep (ok : Valid system) (may : ¬ FixesTrialWhenIdle system)
    (went : system.realtimeStep = some next) : Valid next := by
  have consistent := ok.realtime
  unfold System.realtimeStep at went
  cases pc : system.realtime.pc with
  | tryWaitEntry =>
    simp only [pc] at consistent went
    split at went
    · next entry found =>
      cases went
      exact ok.setRealtimePC ⟨consistent.1, consistent.2, RxRing.hasHead_of_tryWaitEntry found⟩
    · cases went
      exact ok.setRealtimePC consistent
  | waitTrialProcess entry =>
    simp only [pc] at consistent went
    obtain ⟨same, ordered, held⟩ := consistent
    split at went
    · cases went
      exact ok.setRealtimePC ⟨same, ordered, held⟩
    · next passed =>
      cases went
      exact ok.setRealtimePC ⟨same, UInt64.lt_iff_toNat_lt.mp (UInt64.not_le.mp passed), held⟩
  | isTrialAlive entry =>
    simp only [pc] at consistent went
    obtain ⟨same, ordered, held⟩ := consistent
    split at went
    · cases went
      exact ok.setRealtimePC ⟨same, ordered, held⟩
    · next dead =>
      split at went
      · next passed =>
        cases went
        exact ok.setRealtimePC ⟨same, UInt64.lt_iff_toNat_lt.mp passed, held⟩
      · next waiting =>
        cases went
        have settled := UInt64.le_iff_toNat_le.mp (UInt64.not_lt.mp waiting)
        exact ok.setRealtimePC ⟨same, settled.antisymm ordered, by simpa using dead, rfl⟩
  | checkAndFixTrial =>
    simp only [pc] at consistent went
    split at went
    · cases went
      exact ok.setRealtimePC consistent
    · next dead =>
      split at went
      · cases went
        exact ok.setRealtimePC consistent
      · next waiting =>
        exact absurd ⟨pc, by simpa using dead, UInt64.not_lt.mp waiting⟩ may
  | deliver entry =>
    simp only [pc] at went
    cases went
    exact ok.deliver pc
  | countShmProcessed =>
    simp only [pc] at went
    cases went
    exact ok.countShmProcessed pc
  | freeEntry =>
    simp only [pc] at went
    cases went
    exact ok.realtimeFreeEntry pc
  | onTrialError caller =>
    simp only [pc] at consistent went
    split at went
    all_goals
      cases went
      exact ok.setRealtimePC consistent
  | skipRealtime caller =>
    simp only [pc] at went
    obtain ⟨entry, found, rfl⟩ := map_eq_some_iff.mp went
    exact ok.skipRealtime pc _
  | skipTrial caller totalOrderSqn =>
    simp only [pc] at went
    obtain ⟨entry, found, rfl⟩ := map_eq_some_iff.mp went
    exact ok.skipTrial pc found
  | startTrialProcess caller =>
    simp only [pc] at went
    cases went
    exact ok.startTrialProcess pc

theorem Valid.step {action : Action Body} (ok : Valid system) (may : Allowed system action)
    (went : system.step action = some next) : Valid next := by
  cases action with
  | postFirst entry => exact ok.postFirst may went
  | postSecond => exact ok.postSecond went
  | trialStep => exact ok.trialStep went
  | trialDies => exact ok.trialDies may went
  | realtimeStep => exact ok.realtimeStep may went

end Preservation

theorem initial_valid : Valid (System.initial : System Body) where
  rings := rfl
  trialRoom := by simp [System.initial, System.startTrialProcess]
  realtimeRoom := by simp [System.initial, System.startTrialProcess]
  trial := ⟨rfl, rfl, rfl⟩
  realtime := ⟨rfl, .refl⟩
  passed := fun _ _ below => absurd below (Nat.not_lt_zero _)
  trialFirst := by
    refine ⟨fun entry given => absurd given not_mem_nil, fun start given => ?_⟩
    obtain rfl := mem_singleton.mp given
    exact ⟨rfl, rfl⟩

/-- However often the trial process dies elsewhere, the realtime process
delivers only what a trial process has completed, and every new trial process
resumes at the entry its counter names. -/
theorem trialFirst_of_allowed (actions : List (Action Body)) (final : System Body)
    (allowed : Guarded System.step Allowed System.initial actions)
    (ran : execute System.step System.initial actions = some final) : TrialFirst final :=
  (invariant_of_guarded Valid.step initial_valid allowed ran).trialFirst

end Property

def rxMessage (totalOrderSqn : UInt64) : RxEntry Unit := ⟨.amiRxMsg, totalOrderSqn, ()⟩

/-- The second message kills the trial process; the next one resumes at the
event behind it. -/
def killedRun : List (Action Unit) :=
  flatten
    [[.postFirst (rxMessage 1), .postSecond, .postFirst (rxMessage 2), .postSecond],
      replicate 9 .trialStep, [.trialDies], replicate 12 .realtimeStep,
      [.postFirst ⟨.amiEvent, 0, ()⟩, .postSecond], replicate 5 .trialStep,
      replicate 3 .realtimeStep]

theorem killedRun_trialFirst : Guarded System.step Allowed System.initial killedRun ∧
      ∃ final, execute System.step System.initial killedRun = some final ∧
        (final.delivered.map (·.index) = [0, 2] ∧
          final.started = [⟨0, .trial, 0⟩, ⟨2, .trial, 2⟩]) ∧ TrialFirst final := by
  have allowed : Guarded System.step Allowed System.initial killedRun := by decide +kernel
  obtain ⟨final, ran, delivered⟩ :
      ∃ final, execute System.step System.initial killedRun = some final ∧
        (final.delivered.map (·.index) = [0, 2] ∧
          final.started = [⟨0, .trial, 0⟩, ⟨2, .trial, 2⟩]) :=
    execute_check (by decide +kernel)
  exact ⟨allowed, final, ran, delivered, trialFirst_of_allowed killedRun final allowed ran⟩

/-- The trial process dies between the store of `nr_shm_processed_sqn` and
`FreeEntry`; its successor reads the first message again and counts it as the
second. -/
def shiftedRun : List (Action Unit) :=
  flatten
    [[.postFirst (rxMessage 1), .postSecond], replicate 6 .trialStep, [.trialDies],
      replicate 5 .realtimeStep, [.postFirst (rxMessage 2), .postSecond],
      replicate 5 .realtimeStep, replicate 6 .trialStep,
      replicate 3 .realtimeStep]

theorem shiftedRun_delivers_untried :
    ∃ final, execute System.step System.initial shiftedRun = some final ∧
      (⟨1, rxMessage 2⟩ ∈ final.delivered ∧ ⟨1, rxMessage 2⟩ ∉ final.completed ∧
        ⟨1, .trial, 0⟩ ∈ final.started) ∧ ¬ TrialFirst final := by
  obtain ⟨final, ran, untried⟩ :
      ∃ final, execute System.step System.initial shiftedRun = some final ∧
        (⟨1, rxMessage 2⟩ ∈ final.delivered ∧ ⟨1, rxMessage 2⟩ ∉ final.completed ∧
          ⟨1, .trial, 0⟩ ∈ final.started) :=
    execute_check (by decide +kernel)
  exact ⟨final, ran, untried, fun trialFirst =>
    untried.2.1 (trialFirst.delivered _ untried.1)⟩

/-- The trial process dies while both rings are empty; the successor that
`CheckAndFixTrial` starts takes its entries from the realtime ring. -/
def strayRun : List (Action Unit) :=
  flatten
    [[.trialDies], replicate 4 .realtimeStep, [.postFirst (rxMessage 1), .postSecond],
      replicate 7 .trialStep, [.postFirst (rxMessage 2), .postSecond],
      replicate 3 .realtimeStep]

example : ∃ final, execute System.step System.initial strayRun = some final ∧
    (final.delivered = [⟨1, rxMessage 2⟩] ∧ final.completed = [⟨0, rxMessage 1⟩] ∧
      ⟨0, .realtime, 0⟩ ∈ final.started) :=
  execute_check (by decide +kernel)

end AdkAaf.Sharding.TrialFollower
