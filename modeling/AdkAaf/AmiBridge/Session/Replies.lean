import AdkAaf.AmiBridge.Session.Sender

/-! The TCP thread of the sending bridge counts what the other side has. It never counts beyond
what is there, and the packets leave the queue in their order. -/

set_option autoImplicit false

namespace AdkAaf.AmiBridge.Session

open List

open Adk.IoEngine (toInt32 toInt32_of_small toInt32_bounds)
open Lib State

variable {phase : Phase} {state next : State}

theorem target_le (holds : state.Invariant phase) :
    state.sender.target ≤ state.receiver.amiTxMsgCnt := by
  have ascending := holds.ascending
  rw [State.replies, pairwise_cons] at ascending
  exact ascending.1 _ (mem_append_right _ (mem_singleton.mpr rfl))

theorem low_le_target {sender : SendSide} : sender.low ≤ sender.target := by
  rw [SendSide.low, SendSide.target]
  split
  next => exact Nat.sub_le _ _
  next => exact Nat.sub_le _ _
  next => exact .refl

variable {toSender : List Reply}

theorem invariant_withTcp (holds : state.Invariant phase) {after : SendSide}
    (active : state.sender.tcp ≠ .idle ∨ state.toSender ≠ []) (sound : after.Sound)
    (run : after.run = state.sender.run) (tcpStat : after.tcpStat = state.sender.tcpStat)
    (high : after.high = state.sender.high) (sent : after.sent = state.sender.sent)
    (syncFirst : SyncFirst { state with toSender := toSender, sender := after })
    (ascending : (State.replies
      { state with toSender := toSender, sender := after }).Pairwise (· ≤ ·))
    (announced : ∀ recvPacketSqn, state.Announced recvPacketSqn →
      (∀ reply ∈ toSender, reply.number = recvPacketSqn) ∧
        (after.tcp.syncs = true → after.target = recvPacketSqn) ∧
          (after.peerSyncFinish = true → after.low = recvPacketSqn)) :
    Invariant phase { state with toSender := toSender, sender := after } := by
  have notClosed : ¬ state.Closed := by
    intro closed
    cases active with
    | inl handles => exact handles closed.tcp
    | inr some => exact some closed.toSender
  refine
    { sender := sound
      receiver := holds.receiver
      closed := fun closed => absurd (holds.closed (run.symm.trans closed)) notClosed
      connecting := fun stat => absurd (holds.connecting (tcpStat.symm.trans stat)).1 notClosed
      peerClosed := fun run => { holds.peerClosed run with }
      peerConnecting := fun stat => (holds.peerConnecting stat).imp_left ({ · with })
      syncFirst := syncFirst
      ascending := ascending
      pending := by
        rw [high]
        exact holds.pending
      quiet := fun fresh =>
        have quiet := holds.quiet fresh
        { quiet with }
      agreed := ?_ }
  have agreed := holds.agreed
  cases phase with
  | down => exact agreed
  | fresh =>
    cases active with
    | inl handles => exact absurd agreed.tcp handles
    | inr some => exact absurd agreed.toSender some
  | announced recvPacketSqn =>
    obtain ⟨numbers, target, low⟩ := announced recvPacketSqn agreed
    exact
      { up := agreed.up
        sender := tcpStat.trans agreed.sender
        __ := agreed
        toSender := numbers
        target := target
        low := low
        run := run.symm ▸ agreed.run }
  | sending =>
    refine ⟨⟨agreed.up, tcpStat.trans agreed.sender, agreed.receiver⟩, agreed.peer,
      run.symm ▸ agreed.run, ?_⟩
    rw [sent]
    exact agreed.sent

namespace SendSide

variable {sender : SendSide}

theorem Sound.pop (sound : sender.Sound) {n : Nat} {queue : List Nat} {tcp : TcpPc}
    (holds : sender.tcpPacketsQueue = n :: queue)
    (low : SendSide.low { sender with tcp := tcp } = sender.low + 1)
    (handler : SendSide.Handler { sender with tcp := tcp }) :
    Sound { sender with
      tcpPacketsQueue := queue, popped := sender.popped ++ [n], tcp := tcp } := by
  have packets := sound.packets
  rw [SendSide.packets, holds] at packets
  obtain ⟨rfl, packets⟩ := packets
  refine ⟨?_, ?_, sound.amiRxQueue, sound.taken, handler, ?_⟩
  · change Consecutive (SendSide.low { sender with tcp := tcp }) sender.high
      (queue ++ (sender.run.hand ++ sender.otherQueue))
    rw [low]
    exact packets
  · change Consecutive 0 (SendSide.low { sender with tcp := tcp })
      (sender.popped ++ [sender.low + 1])
    rw [low]
    exact sound.popped.concat
  · exact { sound.places with }

theorem Sound.withTcp (sound : sender.Sound) {tcp : TcpPc} {lastRecvAckSeq tcpTxPacketCnt : Nat}
    {peerSyncFinish : Bool}
    (low : SendSide.low { sender with tcp := tcp, lastRecvAckSeq := lastRecvAckSeq } = sender.low)
    (handler : SendSide.Handler { sender with tcp := tcp })
    (finish : sender.peerSyncFinish = true → peerSyncFinish = true) :
    Sound { sender with
      tcp := tcp
      lastRecvAckSeq := lastRecvAckSeq
      tcpTxPacketCnt := tcpTxPacketCnt
      peerSyncFinish := peerSyncFinish } := by
  refine ⟨?_, ?_, sound.amiRxQueue, sound.taken, handler, sound.places.other, sound.places.send,
    fun swap => finish (sound.places.swap swap), sound.places.recorderRetransmitNum,
    sound.places.recorder, sound.places.recorderSend⟩
  · change Consecutive (SendSide.low { sender with tcp := tcp, lastRecvAckSeq := lastRecvAckSeq })
      sender.high sender.packets
    rw [low]
    exact sound.packets
  · change Consecutive 0
      (SendSide.low { sender with tcp := tcp, lastRecvAckSeq := lastRecvAckSeq }) sender.popped
    rw [low]
    exact sound.popped

end SendSide

theorem popNum_eq {recvPacketSqn lastRecvAckSeq : Nat} (le : lastRecvAckSeq ≤ recvPacketSqn)
    (near : (recvPacketSqn : Int) - lastRecvAckSeq < 2 ^ 31) :
    toInt32 (recvPacketSqn - lastRecvAckSeq) = (recvPacketSqn - lastRecvAckSeq : Nat) := by
  rw [toInt32_of_small (by omega) near]
  omega

theorem State.SyncFirst.rest (syncFirst : state.SyncFirst) {first : Reply} {rest : List Reply}
    (replies : state.toSender = first :: rest) : ∀ reply ∈ rest, reply.syncs = false := by
  have tail := syncFirst.tail
  rw [replies] at tail
  exact tail

theorem syncFirst_of_none {after : SendSide} (none : ∀ reply ∈ toSender, reply.syncs = false)
    (handler : after.tcp.syncs = true → after.Unsynced) :
    SyncFirst { state with toSender := toSender, sender := after } := by
  refine ⟨?_, ?_, fun syncs => ⟨handler syncs, none⟩⟩
  · intro reply mem
    exact none reply (mem_of_mem_tail mem)
  · rintro ⟨reply, mem, syncs⟩
    exact absurd (syncs.symm.trans (none reply mem)) (by decide)

variable {recvPacketSqn : Nat}

section

variable (holds : state.Invariant phase)
include holds

theorem invariant_handleSyncMsg {rest : List Reply} (idle : state.sender.tcp = .idle)
    (replies : state.toSender = .peerSync recvPacketSqn :: rest)
    (near : Near state.sender (.peerSync recvPacketSqn)) :
    Invariant phase { state with
      toSender := rest, sender := handleSyncMsg state.sender recvPacketSqn } := by
  have ascending := holds.ascending
  rw [State.replies, replies, SendSide.target, idle] at ascending
  obtain ⟨ahead, ascending⟩ := pairwise_cons.mp ascending
  have le : state.sender.lastRecvAckSeq ≤ recvPacketSqn := ahead recvPacketSqn mem_cons_self
  have bounds := toInt32_bounds state.sender.tcpPacketsQueue.length
  have fits : recvPacketSqn = state.sender.lastRecvAckSeq ∨
      (recvPacketSqn : Int) - state.sender.lastRecvAckSeq ≤
        toInt32 state.sender.tcpPacketsQueue.length := near
  have popNum := popNum_eq le (by omega)
  have first : Reply.syncs (.peerSync recvPacketSqn) = true := rfl
  have unsynced := holds.syncFirst.head ⟨_, by rw [replies]; exact mem_cons_self, first⟩
  have notFast : ¬ toInt32 (recvPacketSqn - state.sender.lastRecvAckSeq) < 0 := by
    rw [popNum]
    exact Int.not_lt.mpr (Int.natCast_nonneg _)
  rw [handleSyncMsg, if_neg notFast, popNum]
  have low : SendSide.low { state.sender with
      tcp := .handleSyncMsg recvPacketSqn (recvPacketSqn - state.sender.lastRecvAckSeq : Nat)
        (toInt32 state.sender.tcpPacketsQueue.length) } = state.sender.low := by
    rw [SendSide.low, SendSide.low, idle]
    exact Nat.sub_sub_self le
  refine invariant_withTcp holds (.inr (by rw [replies]; simp)) (holds.sender.withTcp low ?_ id)
    rfl rfl rfl rfl (syncFirst_of_none (holds.syncFirst.rest replies) fun _ => ?_) ascending ?_
  · refine ⟨Int.natCast_nonneg _, Int.ofNat_le.mpr (Nat.sub_le _ _), ?_⟩
    omega
  · exact { unsynced with }
  · intro announcedSqn announced
    have numbers := announced.toSender
    rw [replies] at numbers
    refine ⟨fun reply mem => numbers reply (mem_cons_of_mem _ mem), fun _ => ?_, ?_⟩
    · exact numbers _ mem_cons_self
    · intro finished
      exact absurd (unsynced.peerSyncFinish.symm.trans finished) (by decide)

theorem invariant_handleAckMsg {rest : List Reply} (idle : state.sender.tcp = .idle)
    (replies : state.toSender = .tcpAck recvPacketSqn :: rest)
    (near : Near state.sender (.tcpAck recvPacketSqn)) :
    Invariant phase { state with
      toSender := rest
      sender := { state.sender with
        tcp := .handleAckMsg recvPacketSqn
          (toInt32 (recvPacketSqn - state.sender.lastRecvAckSeq)) } } := by
  have ascending := holds.ascending
  rw [State.replies, replies, SendSide.target, idle] at ascending
  obtain ⟨ahead, ascending⟩ := pairwise_cons.mp ascending
  have le : state.sender.lastRecvAckSeq ≤ recvPacketSqn := ahead recvPacketSqn mem_cons_self
  rw [popNum_eq le near]
  have low : SendSide.low { state.sender with
      tcp := .handleAckMsg recvPacketSqn
        (recvPacketSqn - state.sender.lastRecvAckSeq : Nat) } = state.sender.low := by
    rw [SendSide.low, SendSide.low, idle]
    exact Nat.sub_sub_self le
  refine invariant_withTcp holds (.inr (by rw [replies]; simp)) (holds.sender.withTcp low ?_ id)
    rfl rfl rfl rfl (syncFirst_of_none (holds.syncFirst.rest replies) fun no =>
      (Bool.false_ne_true no).elim)
    ascending ?_
  · exact ⟨Int.natCast_nonneg _, Int.ofNat_le.mpr (Nat.sub_le _ _)⟩
  · intro announcedSqn announced
    have numbers := announced.toSender
    rw [replies] at numbers
    refine ⟨fun reply mem => numbers reply (mem_cons_of_mem _ mem),
      fun no => (Bool.false_ne_true no).elim, fun finished => ?_⟩
    exact low.trans (announced.low finished)

theorem invariant_popDuplicate {popNum queueLength : Int} {after : SendSide}
    (tcp : state.sender.tcp = .handleSyncMsg recvPacketSqn popNum queueLength)
    (popped : popDuplicate state.sender recvPacketSqn popNum queueLength = some after) :
    Invariant phase { state with sender := after } := by
  have sound := holds.sender
  have handler := sound.handler
  rw [SendSide.Handler, tcp] at handler
  have syncs : state.sender.tcp.syncs = true := by rw [tcp]; rfl
  obtain ⟨unsynced, none⟩ := holds.syncFirst.handler syncs
  have ascending := holds.ascending
  rw [State.replies, SendSide.target, tcp] at ascending
  have active : state.sender.tcp ≠ .idle ∨ state.toSender ≠ [] := .inl (by rw [tcp]; simp)
  rw [popDuplicate] at popped
  split at popped
  next more =>
    split at popped <;> cases popped
    next n queue holds' =>
      have low : SendSide.low { state.sender with
          tcp := .handleSyncMsg recvPacketSqn (popNum - 1) (queueLength - 1) } =
            state.sender.low + 1 := by
        rw [SendSide.low, SendSide.low, tcp]
        dsimp only
        omega
      refine invariant_withTcp holds active (sound.pop holds' low ?_) rfl rfl rfl rfl
        (syncFirst_of_none none fun _ => ?_) ascending ?_
      · refine ⟨?_, ?_, ?_⟩
        all_goals omega
      · exact { unsynced with }
      · intro announcedSqn announced
        have target := announced.target syncs
        rw [SendSide.target, tcp] at target
        refine ⟨announced.toSender, fun _ => target, fun finished => ?_⟩
        exact absurd (unsynced.peerSyncFinish.symm.trans finished) (by decide)
  next no_more =>
    have done : popNum = 0 := by omega
    obtain rfl := done
    split at popped
    next no => exact absurd no.1 (by decide)
    next =>
      cases popped
      have low : SendSide.low { state.sender with
          tcp := .finish, lastRecvAckSeq := recvPacketSqn } = state.sender.low := by
        rw [SendSide.low, SendSide.low, tcp]
        rfl
      refine invariant_withTcp holds active (sound.withTcp low trivial id) rfl rfl rfl rfl
        (syncFirst_of_none none fun _ => ?_) ascending ?_
      · exact { unsynced with }
      · intro announcedSqn announced
        have target := announced.target syncs
        rw [SendSide.target, tcp] at target
        refine ⟨announced.toSender, fun _ => target, fun finished => ?_⟩
        exact absurd (unsynced.peerSyncFinish.symm.trans finished) (by decide)

theorem invariant_finish (tcp : state.sender.tcp = .finish) :
    Invariant phase { state with
      sender := { state.sender with peerSyncFinish := true, tcp := .idle } } := by
  have syncs : state.sender.tcp.syncs = true := by rw [tcp]; rfl
  obtain ⟨_, none⟩ := holds.syncFirst.handler syncs
  have low : SendSide.low { state.sender with tcp := .idle } = state.sender.low := by
    rw [SendSide.low, SendSide.low, tcp]
  have ascending := holds.ascending
  rw [State.replies, SendSide.target, tcp] at ascending
  refine invariant_withTcp holds (.inl (by rw [tcp]; simp))
    (holds.sender.withTcp low trivial fun _ => rfl) rfl rfl rfl rfl
    (syncFirst_of_none none fun no => (Bool.false_ne_true no).elim) ascending ?_
  intro announcedSqn announced
  have target := announced.target syncs
  rw [SendSide.target, tcp] at target
  exact ⟨announced.toSender, fun no => (Bool.false_ne_true no).elim, fun _ => target⟩

theorem invariant_popAcknowledged {num : Int} {after : SendSide}
    (tcp : state.sender.tcp = .handleAckMsg recvPacketSqn num)
    (popped : popAcknowledged state.sender recvPacketSqn num = some after) :
    Invariant phase { state with sender := after } := by
  have sound := holds.sender
  have handler := sound.handler
  rw [SendSide.Handler, tcp] at handler
  have acked : recvPacketSqn ≤ state.receiver.amiTxMsgCnt := by
    have acked := target_le holds
    rw [SendSide.target, tcp] at acked
    exact acked
  have ascending := holds.ascending
  rw [State.replies, SendSide.target, tcp] at ascending
  have below : state.sender.low = recvPacketSqn - num.toNat := by rw [SendSide.low, tcp]
  have active : state.sender.tcp ≠ .idle ∨ state.toSender ≠ [] := .inl (by rw [tcp]; simp)
  have syncFirst {after : SendSide} (idle : after.tcp.syncs = false)
      (same : state.sender.Unsynced → after.Unsynced) :
      SyncFirst { state with sender := after } :=
    ⟨holds.syncFirst.tail, fun some => same (holds.syncFirst.head some),
      fun no => absurd (idle.symm.trans no) (by decide)⟩
  rw [popAcknowledged] at popped
  split at popped
  next more =>
    split at popped
    next => cases popped
    next n queue holds' =>
      cases popped
      have low : SendSide.low { state.sender with
          tcp := .handleAckMsg recvPacketSqn (num - 1) } = state.sender.low + 1 := by
        rw [SendSide.low, below]
        dsimp only
        omega
      refine invariant_withTcp holds active (sound.pop holds' low ?_) rfl rfl rfl rfl
        (syncFirst rfl fun unsynced => { unsynced with })
        ascending ?_
      · constructor
        all_goals omega
      · intro announcedSqn announced
        refine ⟨announced.toSender, fun no => (Bool.false_ne_true no).elim, fun finished => ?_⟩
        have reached := announced.low finished
        rw [announced.amiTxMsgCnt] at acked
        -- what was announced is popped already
        exfalso
        omega
  next no_more =>
    have done : num = 0 := by omega
    obtain rfl := done
    cases popped
    have low : SendSide.low { state.sender with
        tcp := .idle, lastRecvAckSeq := recvPacketSqn } = state.sender.low := by
      rw [SendSide.low, below]
      rfl
    refine invariant_withTcp holds active (sound.withTcp low trivial id) rfl rfl rfl rfl
      (syncFirst rfl fun unsynced => { unsynced with })
      ascending ?_
    intro announcedSqn announced
    exact ⟨announced.toSender, fun no => (Bool.false_ne_true no).elim,
      fun finished => low.trans (announced.low finished)⟩

theorem invariant_tcpStep (fits : state.Fits .tcp) (went : state.tcpStep = some next) :
    next.Invariant phase := by
  rw [State.tcpStep] at went
  split at went
  next idle =>
    have near := fits idle
    split at went <;> cases went
    next recvPacketSqn rest replies =>
      rw [replies] at near
      exact invariant_handleSyncMsg holds idle replies (near _ rfl)
    next recvPacketSqn rest replies =>
      rw [replies] at near
      exact invariant_handleAckMsg holds idle replies (near _ rfl)
  next tcp =>
    obtain ⟨after, popped, rfl⟩ := Option.map_eq_some_iff.mp went
    exact invariant_popDuplicate holds tcp popped
  next tcp =>
    cases went
    exact invariant_finish holds tcp
  next tcp =>
    obtain ⟨after, popped, rfl⟩ := Option.map_eq_some_iff.mp went
    exact invariant_popAcknowledged holds tcp popped

end

end AdkAaf.AmiBridge.Session
