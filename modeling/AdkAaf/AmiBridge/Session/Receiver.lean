import AdkAaf.AmiBridge.Session.Replies

/-! The steps of the receiving bridge keep what holds between the bridges: the tier channel is
empty when the bridge announces its number, so that no packet of an earlier connection comes
between. -/

set_option autoImplicit false

namespace AdkAaf.AmiBridge.Session

open Lib State List

variable {phase : Phase} {state next : State}

variable {localSyncFinish peerSyncFinish : Bool}

section

variable (holds : state.Invariant phase)
include holds

theorem invariant_withReceiver {later : Phase} {after : ReceiveSide} {toReceiver : List Request}
    (sound : after.Sound) (peerClosed : after.run.closed = true ∨ after.tcpStat = .kConnecting →
      state.up = false ∧ toReceiver = [])
    (connecting : after.tcpStat = .kConnecting → after.run = .connecting) (ascending : (replies
      { state with toReceiver := toReceiver, receiver := after }).Pairwise (· ≤ ·))
    (pending : ∃ upto, upto ≤ state.sender.high ∧ Consecutive after.tierRxPacketCnt upto
      (pending { state with toReceiver := toReceiver, receiver := after }))
    (quiet : after.run.fresh = true →
      Quiet { state with toReceiver := toReceiver, receiver := after })
    (agreed : Agreed { state with toReceiver := toReceiver, receiver := after } later) :
    Invariant later { state with toReceiver := toReceiver, receiver := after } where
  sender := holds.sender
  receiver := sound
  closed run :=
    have none := holds.closed run
    { none with }
  connecting stat := (holds.connecting stat).imp_left fun none => { none with }
  peerClosed closed :=
    have none := peerClosed (.inl closed)
    ⟨none.1, none.2⟩
  peerConnecting stat :=
    have none := peerClosed (.inr stat)
    ⟨⟨none.1, none.2⟩, connecting stat⟩
  syncFirst :=
    { holds.syncFirst with }
  ascending := ascending
  pending := pending
  quiet := quiet
  agreed := agreed

theorem peer_of_up (up : state.up = true) :
    state.receiver.tcpStat = .kConnected ∧
      (phase = .fresh ∧ state.receiver.run.fresh = true ∨ state.receiver.run.settled = true) := by
  have agreed := holds.agreed
  cases phase with
  | down => exact absurd (up.symm.trans agreed) (by decide)
  | fresh => exact ⟨agreed.receiver, .inl ⟨rfl, agreed.peer⟩⟩
  | announced recvPacketSqn | sending => exact ⟨agreed.receiver, .inr agreed.peer⟩

theorem invariant_withPeerRun {later : Phase} {run : PeerRunPc} {ack : AckPc} {tcpStat : TcpStatus}
    (before : state.receiver.run ≠ .waitLocalSync) (after : run ≠ .waitLocalSync)
    (acks : ack = .away ∨ (ack = state.receiver.ack ∨ ack = .loop) ∧ (run = .onRun ∨ run = .join))
    (peerClosed : run.closed = true ∨ tcpStat = .kConnecting →
      state.up = false ∧ state.toReceiver = [])
    (connecting : tcpStat = .kConnecting → run = .connecting)
    (quiet : run.fresh = true → state.Quiet ∧ ∀ n, run = .sendPeerSync n →
      n = state.receiver.amiTxMsgCnt) (agreed : Agreed
      { state with
        receiver := { state.receiver with
          run := run
          ack := ack
          localSyncFinish := localSyncFinish
          peerSyncFinish := peerSyncFinish
          tcpStat := tcpStat } } later) :
    Invariant later
      { state with
        receiver := { state.receiver with
          run := run
          ack := ack
          localSyncFinish := localSyncFinish
          peerSyncFinish := peerSyncFinish
          tcpStat := tcpStat } } := by
  have sound := holds.receiver
  refine invariant_withReceiver holds ⟨sound.handing, ?_, sound.expected, ?_⟩ peerClosed connecting
    ?_ holds.pending ?_ agreed
  · have flush := sound.flush
    rw [ReceiveSide.Flush, if_neg before] at flush
    rw [ReceiveSide.Flush, if_neg after]
    exact flush
  · intro acking
    cases acks with
    | inl away => exact absurd away acking
    | inr places => exact places.2
  · have fewer : (ReceiveSide.reading { state.receiver with
        run := run
        ack := ack
        localSyncFinish := localSyncFinish
        peerSyncFinish := peerSyncFinish
        tcpStat := tcpStat }).Sublist state.receiver.reading := by
      obtain rfl | ⟨rfl | rfl, _⟩ := acks
      · exact nil_sublist _
      · exact Sublist.refl _
      · exact nil_sublist _
    exact holds.ascending.sublist
      ((((Sublist.refl _).append fewer).append_right _).cons_cons _)
  · intro fresh
    obtain ⟨quiet, announces⟩ := quiet fresh
    exact ⟨quiet.pending, quiet.tier, announces⟩

theorem down_of_peer
    (broken : state.receiver.tcpStat ≠ .kConnected ∨ state.receiver.run.fresh = false ∧
      state.receiver.run.settled = false) : state.up = false := by
  cases up : state.up with
  | false => rfl
  | true =>
    obtain ⟨connected, peer⟩ := peer_of_up holds up
    cases broken with
    | inl broken => exact absurd connected broken
    | inr places =>
      cases peer with
      | inl fresh => exact absurd (places.1.symm.trans fresh.2) (by decide)
      | inr settled => exact absurd (places.2.symm.trans settled) (by decide)

theorem not_connecting_of_run (run : state.receiver.run ≠ .connecting) :
    state.receiver.tcpStat ≠ .kConnecting := by
  intro stat
  exact absurd (holds.peerConnecting stat).2 run

end

theorem ack_of_run {receiver : ReceiveSide} (sound : receiver.Sound)
    (run : receiver.run ≠ .onRun ∧ receiver.run ≠ .join) : receiver.ack = .away := by
  by_cases away : receiver.ack = .away
  · exact away
  · cases sound.ack away with
    | inl onRun => exact absurd onRun run.1
    | inr join => exact absurd join run.2

section

variable (holds : state.Invariant phase)
include holds

theorem invariant_syncLocalSession (run : state.receiver.run = .syncLocalSession) :
    Invariant .down { state with
      receiver := { state.receiver with
        tierQueue := state.receiver.tierQueue ++ [.localSync]
        localSyncFinish := false
        run := .waitLocalSync } } := by
  have sound := holds.receiver
  have closed := holds.peerClosed (by rw [run]; rfl)
  have away := ack_of_run sound (by rw [run]; simp)
  have packets : pending { state with
      receiver := { state.receiver with
        tierQueue := state.receiver.tierQueue ++ [.localSync]
        localSyncFinish := false
        run := .waitLocalSync } } = state.pending := by
    simp [pending, RepMsg.packet]
  refine invariant_withReceiver holds ⟨sound.handing, ?_, sound.expected, fun acking =>
      absurd away acking⟩ (fun _ => ⟨closed.up, closed.toReceiver⟩)
    (fun stat => absurd stat (not_connecting_of_run holds (by rw [run]; simp))) holds.ascending
    ?_ (fun no => (Bool.false_ne_true no).elim) closed.up
  · have flush := sound.flush
    rw [ReceiveSide.Flush, if_neg (by rw [run]; simp)] at flush
    obtain ⟨numbers, queue⟩ := flush
    exact ⟨numbers, congrArg (· ++ [RepMsg.localSync]) queue⟩
  · rw [packets]
    exact holds.pending

theorem invariant_localSynced (run : state.receiver.run = .waitLocalSync)
    (finished : state.receiver.localSyncFinish = true) :
    Invariant .down { state with
      receiver := { state.receiver with
        peerSyncFinish := false
        tcpStat := .kConnecting
        run := .connecting } } := by
  have sound := holds.receiver
  have closed := holds.peerClosed (by rw [run]; rfl)
  have away := ack_of_run sound (by rw [run]; simp)
  have flush := sound.flush
  rw [ReceiveSide.Flush, if_pos run, if_pos finished] at flush
  refine invariant_withReceiver holds ⟨sound.handing, ⟨[], flush.1⟩, sound.expected, fun acking =>
      absurd away acking⟩ (fun _ => ⟨closed.up, closed.toReceiver⟩) (fun _ => rfl)
    holds.ascending holds.pending (fun _ => ⟨?_, flush.2, fun n no => by cases no⟩) closed.up
  dsimp only
  rw [flush.1, closed.toReceiver]
  rfl

theorem invariant_of_fresh {run : PeerRunPc} (fresh : state.receiver.run.fresh = true)
    (later : run.fresh = true) (stat : state.receiver.tcpStat ≠ .kConnecting)
    (announces : ∀ n, run = .sendPeerSync n → n = state.receiver.amiTxMsgCnt) :
    Invariant phase { state with receiver := { state.receiver with run := run } } := by
  have away := ack_of_run holds.receiver
    (by cases run : state.receiver.run <;> simp_all [PeerRunPc.fresh])
  have before : state.receiver.run ≠ .waitLocalSync := by
    intro run
    rw [run] at fresh
    cases fresh
  have after : run ≠ .waitLocalSync ∧ run.closed = false := by
    cases run <;> simp_all [PeerRunPc.fresh, PeerRunPc.closed]
  refine invariant_withPeerRun holds before after.1 (.inl away) ?_
    (fun connecting => absurd connecting stat) (fun _ => ⟨holds.quiet fresh, announces⟩) ?_
  · rintro (closed | connecting)
    · exact absurd (after.2.symm.trans closed) (by decide)
    · exact absurd connecting stat
  · have agreed := holds.agreed
    cases phase with
    | down => exact agreed
    | fresh =>
      exact
        { up := agreed.up
          __ := agreed
          peer := later
          run := agreed.run }
    | announced recvPacketSqn | sending => exact absurd agreed.peer (not_settled_of_fresh fresh)

theorem invariant_of_announced (agreed : state.Fresh) (quiet : state.Quiet)
    (stat : state.receiver.tcpStat ≠ .kConnecting) (away : state.receiver.ack = .away) :
    Invariant (.announced state.receiver.amiTxMsgCnt) { state with
      toSender := [.peerSync state.receiver.amiTxMsgCnt]
      receiver := { state.receiver with run := .waitPeerSync } } := by
  have sound := holds.receiver
  have idle := agreed.tcp
  have notClosed (closed : state.Closed) : False :=
    absurd (closed.up.symm.trans agreed.up) (by decide)
  have unsynced : state.sender.Unsynced := by
    have run := agreed.run
    refine ⟨agreed.peerSyncFinish, holds.sender.places.away_of_run ?_, ?_⟩
    · cases run' : state.sender.run <;> simp_all [RunPc.syncs]
    · cases run' : state.sender.run <;> simp_all [RunPc.syncs, RunPc.retransmits]
  have reading : ReceiveSide.reading { state.receiver with run := .waitPeerSync } = [] := by
    rw [ReceiveSide.reading, away]
  refine
    { sender := holds.sender
      receiver := ⟨sound.handing, ?_, sound.expected, fun acking => absurd away acking⟩
      closed := fun run => (notClosed (holds.closed run)).elim
      connecting := fun stat => (notClosed (holds.connecting stat).1).elim
      peerClosed := fun no => (Bool.false_ne_true no).elim
      peerConnecting := fun connecting => absurd connecting stat
      syncFirst := ⟨?_, fun _ => unsynced, ?_⟩
      ascending := ?_
      pending := holds.pending
      quiet := fun no => (Bool.false_ne_true no).elim
      agreed := ?_ }
  · have flush := sound.flush
    rw [ReceiveSide.Flush, if_neg] at flush
    · exact flush
    · intro run
      have peer := agreed.peer
      rw [run] at peer
      cases peer
  · intros; contradiction
  · intro syncs
    rw [idle] at syncs
    cases syncs
  · have le := target_le holds
    rw [replies]
    rw [reading]
    simpa [Reply.number] using le
  · exact
      { up := agreed.up
        __ := agreed
        peer := rfl
        tier := quiet.tier
        amiTxMsgCnt := rfl
        pending := quiet.pending
        toSender := by
          intro reply mem
          rw [mem_singleton.mp mem]
          rfl
        reading := by
          rw [reading]
          intros; contradiction
        target := by
          intro syncs
          rw [idle] at syncs
          cases syncs
        low := fun finished =>
          absurd (agreed.peerSyncFinish.symm.trans finished) (by decide)
        run := .inl agreed.run }

end

variable {amiTxMsgCnt : Nat}

section

variable (holds : state.Invariant phase)
include holds

theorem invariant_sendPeerSync (run : state.receiver.run = .sendPeerSync amiTxMsgCnt) :
    ∃ later, Invariant later { state with
      toSender := state.sendReply (.peerSync amiTxMsgCnt)
      receiver := { state.receiver with run := .waitPeerSync } } := by
  have fresh : state.receiver.run.fresh = true := by rw [run]; rfl
  have quiet := holds.quiet fresh
  obtain rfl := quiet.announces _ run
  have stat := not_connecting_of_run holds (by rw [run]; simp)
  have away := ack_of_run holds.receiver (by rw [run]; simp)
  have alone (later : Phase) (agreed : Agreed { state with
      receiver := { state.receiver with run := .waitPeerSync } } later) :
      Invariant later { state with
        receiver := { state.receiver with run := .waitPeerSync } } :=
    invariant_withPeerRun holds (by rw [run]; simp) (by simp) (.inl away)
      (by simp [PeerRunPc.closed, stat]) (fun connecting => absurd connecting stat)
      (fun no => (Bool.false_ne_true no).elim) agreed
  have agreed := holds.agreed
  cases phase with
  | down =>
    have up : state.up = false := agreed
    have lost : state.sendReply (.peerSync state.receiver.amiTxMsgCnt) = state.toSender := by
      rw [sendReply, up]
      rfl
    rw [lost]
    exact ⟨.down, alone .down agreed⟩
  | fresh =>
    have first : state.sendReply (.peerSync state.receiver.amiTxMsgCnt) =
        [.peerSync state.receiver.amiTxMsgCnt] := by
      rw [sendReply, agreed.up, agreed.toSender]
      rfl
    rw [first]
    exact ⟨_, invariant_of_announced holds agreed quiet stat away⟩
  | announced recvPacketSqn | sending => exact absurd agreed.peer (not_settled_of_fresh fresh)

theorem invariant_peerRunStep (went : state.peerRunStep = some next) :
    ∃ later, next.Invariant later := by
  rw [peerRunStep] at went
  split at went
  next run =>
    split at went <;> cases went
    next broken =>
      have up := down_of_peer holds (.inl (by rw [broken]; simp))
      have stat : state.receiver.tcpStat ≠ .kConnecting := by rw [broken]; simp
      exact ⟨.down, invariant_withPeerRun holds (by rw [run]; simp) (by simp)
        (.inr ⟨.inl rfl, .inr rfl⟩) (by simp [PeerRunPc.closed, stat])
        (fun connecting => absurd connecting stat) (by simp [PeerRunPc.fresh]) up⟩
  next run =>
    split at went <;> cases went
    next away =>
      have up := down_of_peer holds (.inr (by rw [run]; exact ⟨rfl, rfl⟩))
      have stat := not_connecting_of_run holds (by rw [run]; simp)
      exact ⟨.down, invariant_withPeerRun holds (by rw [run]; simp) (by simp)
        (.inl away) (by simp [PeerRunPc.closed, stat])
        (fun connecting => absurd connecting stat) (by simp [PeerRunPc.fresh]) up⟩
  next run =>
    cases went
    have closed := invariant_of_breaks holds prefix_rfl nil_prefix
    have away := ack_of_run holds.receiver (by rw [run]; simp)
    have stat := not_connecting_of_run holds (by rw [run]; simp)
    exact ⟨.down, invariant_withPeerRun closed (by rw [run]; simp) (by simp)
      (.inl away) (fun _ => ⟨rfl, rfl⟩) (fun connecting => absurd connecting stat)
      (by simp [PeerRunPc.fresh]) rfl⟩
  next run =>
    cases went
    exact ⟨.down, invariant_syncLocalSession holds run⟩
  next run =>
    split at went <;> cases went
    next finished => exact ⟨.down, invariant_localSynced holds run finished⟩
  next run =>
    split at went <;> cases went
    next connected =>
      exact ⟨phase, invariant_of_fresh holds (by rw [run]; rfl) rfl (by rw [connected]; simp)
        (fun n no => by cases no)⟩
    next broken =>
      have up := down_of_peer holds (.inl (by rw [broken]; simp))
      have stat : state.receiver.tcpStat ≠ .kConnecting := by rw [broken]; simp
      have away := ack_of_run holds.receiver (by rw [run]; simp)
      exact ⟨.down, invariant_withPeerRun holds (by rw [run]; simp) (by simp) (.inl away)
        (by simp [PeerRunPc.closed, stat]) (fun connecting => absurd connecting stat)
        (by simp [PeerRunPc.fresh]) up⟩
  next run =>
    cases went
    have stat := not_connecting_of_run holds (by rw [run]; simp)
    exact ⟨phase, invariant_of_fresh holds (by rw [run]; rfl) rfl stat
      (fun n same => (PeerRunPc.sendPeerSync.inj same).symm)⟩
  next amiTxMsgCnt run =>
    cases went
    exact invariant_sendPeerSync holds run
  next run =>
    have stat := not_connecting_of_run holds (by rw [run]; simp)
    have away := ack_of_run holds.receiver (by rw [run]; simp)
    split at went
    next =>
      cases went
      refine ⟨phase, invariant_withPeerRun holds (by rw [run]; simp) (by simp)
        (.inr ⟨.inr rfl, .inl rfl⟩) (by simp [PeerRunPc.closed, stat])
        (fun connecting => absurd connecting stat) (by simp [PeerRunPc.fresh]) ?_⟩
      have agreed := holds.agreed
      cases phase with
      | down => exact agreed
      | fresh =>
        have peer := agreed.peer
        rw [run] at peer
        cases peer
      | announced recvPacketSqn =>
        exact
          { up := agreed.up
            __ := agreed
            peer := rfl
            reading := fun n no => by cases no
            run := agreed.run }
      | sending =>
        exact
          { up := agreed.up
            __ := agreed
            peer := rfl
            sent := agreed.sent }
    next =>
      split at went <;> cases went
      next broken =>
        have up := down_of_peer holds (.inl broken)
        exact ⟨.down, invariant_withPeerRun holds (by rw [run]; simp) (by simp) (.inl away)
          (by simp [PeerRunPc.closed, stat]) (fun connecting => absurd connecting stat)
          (by simp [PeerRunPc.fresh]) up⟩

theorem invariant_withQueue {toReceiver : List Request} {tierQueue : List RepMsg}
    (flush : ReceiveSide.Flush { state.receiver with
      tierQueue := tierQueue
      localSyncFinish := localSyncFinish
      peerSyncFinish := peerSyncFinish })
    (packets : pending { state with
      toReceiver := toReceiver
      receiver := { state.receiver with
        tierQueue := tierQueue
        localSyncFinish := localSyncFinish
        peerSyncFinish := peerSyncFinish } } = state.pending)
    (closed : state.PeerClosed → toReceiver = []) :
    Invariant phase { state with
      toReceiver := toReceiver
      receiver := { state.receiver with
        tierQueue := tierQueue
        localSyncFinish := localSyncFinish
        peerSyncFinish := peerSyncFinish } } := by
  have sound := holds.receiver
  refine invariant_withReceiver holds { sound with flush := flush } ?_
    (fun stat => (holds.peerConnecting stat).2) holds.ascending ?_ ?_ ?_
  · rintro (run | stat)
    · exact ⟨(holds.peerClosed run).up, closed (holds.peerClosed run)⟩
    · exact ⟨(holds.peerConnecting stat).1.up, closed (holds.peerConnecting stat).1⟩
  · rw [packets]
    exact holds.pending
  · intro fresh
    have quiet := holds.quiet fresh
    exact ⟨packets.trans quiet.pending, quiet.tier, quiet.announces⟩
  · have agreed := holds.agreed
    cases phase with
    | down => exact agreed
    | fresh =>
      exact
        { up := agreed.up
          __ := agreed
          run := agreed.run }
    | announced recvPacketSqn =>
      exact
        { up := agreed.up
          __ := agreed
          pending := packets.trans agreed.pending
          run := agreed.run }
    | sending =>
      refine ⟨{ agreed with }, agreed.peer, agreed.run, ?_⟩
      rw [packets]
      exact agreed.sent

theorem invariant_peerTcpStep (went : state.peerTcpStep = some next) : next.Invariant phase := by
  have flush := holds.receiver.flush
  rw [peerTcpStep] at went
  split at went <;> cases went
  next rest requests =>
    refine invariant_withQueue holds flush ?_ fun closed => ?_
    · rw [pending, pending, requests]
      rfl
    · have empty := closed.toReceiver
      rw [requests] at empty
      cases empty
  next totalSqn rest requests =>
    have notClosed : ¬ state.PeerClosed := by
      intro closed
      have empty := closed.toReceiver
      rw [requests] at empty
      cases empty
    refine invariant_withQueue holds ?_ ?_ fun closed => absurd closed notClosed
    · have before : state.receiver.run ≠ .waitLocalSync := by
        intro run
        exact notClosed (holds.peerClosed (by rw [run]; rfl))
      rw [ReceiveSide.Flush, if_neg before] at flush ⊢
      obtain ⟨numbers, queue⟩ := flush
      refine ⟨numbers ++ [totalSqn], ?_⟩
      rw [queue, map_append]
      rfl
    · simp [pending, requests, RepMsg.packet, Request.packet]

end

variable {queue : List RepMsg}

section

variable (holds : state.Invariant phase)
include holds

theorem invariant_localSync (tier : state.receiver.tier = .idle)
    (messages : state.receiver.tierQueue = .localSync :: queue) :
    Invariant phase { state with
      receiver := { state.receiver with tierQueue := queue, localSyncFinish := true } } := by
  have flush := holds.receiver.flush
  have notPacket (numbers : List Nat) : RepMsg.localSync :: queue ≠ numbers.map .amiPacket := by
    intro same
    cases numbers with
    | nil | cons n rest => cases same
  refine invariant_withQueue holds ?_ ?_ PeerClosed.toReceiver
  · rw [ReceiveSide.Flush, messages] at flush
    split at flush
    next run =>
      split at flush
      next => cases flush.1
      next =>
        obtain ⟨numbers, same⟩ := flush
        rw [ReceiveSide.Flush, if_pos run]
        refine ⟨?_, tier⟩
        cases numbers with
        | nil => exact (cons.inj same).2
        | cons n rest => cases same
    next =>
      obtain ⟨numbers, same⟩ := flush
      exact absurd same (notPacket numbers)
  · rw [pending, pending, messages]
    rfl

theorem next_of_tierQueue {totalSqn : Nat}
    (messages : state.receiver.tierQueue = .amiPacket totalSqn :: queue) :
    totalSqn = state.receiver.tierRxPacketCnt + 1 ∧
      state.pending = totalSqn :: pending { state with
        receiver := { state.receiver with
          tierQueue := queue, tierRxPacketCnt := totalSqn, tier := .newMessage totalSqn } } := by
  have packets : state.pending = totalSqn :: pending { state with
      receiver := { state.receiver with
        tierQueue := queue, tierRxPacketCnt := totalSqn, tier := .newMessage totalSqn } } := by
    rw [pending, pending, messages]
    rfl
  obtain ⟨upto, _, consecutive⟩ := holds.pending
  rw [packets] at consecutive
  exact ⟨consecutive.1, packets⟩

theorem invariant_amiPacket {totalSqn : Nat} (tier : state.receiver.tier = .idle)
    (messages : state.receiver.tierQueue = .amiPacket totalSqn :: queue) :
    Invariant phase { state with
      receiver := { state.receiver with
        tierQueue := queue, tierRxPacketCnt := totalSqn, tier := .newMessage totalSqn } } := by
  have sound := holds.receiver
  obtain ⟨following, packets⟩ := next_of_tierQueue holds messages
  have handing := sound.handing
  rw [ReceiveSide.Handing, tier] at handing
  have some : state.pending ≠ [] := by
    rw [packets]
    simp
  refine invariant_withReceiver holds ⟨?_, ?_, sound.expected, sound.ack⟩ ?_
    (fun stat => (holds.peerConnecting stat).2) holds.ascending ?_
    (fun fresh => absurd (holds.quiet fresh).pending some) ?_
  · refine ⟨rfl, ?_, ?_⟩
    · rw [following]
      exact congrArg (· + 1) handing.1
    · exact handing.1 ▸ handing.2
  · have flush := sound.flush
    rw [ReceiveSide.Flush, messages] at flush
    rw [ReceiveSide.Flush]
    split at flush
    next run =>
      rw [if_pos run]
      split at flush
      next => cases flush.1
      next unfinished =>
        rw [if_neg unfinished]
        obtain ⟨numbers, same⟩ := flush
        cases numbers with
        | nil => cases same
        | cons n rest => exact ⟨rest, (cons.inj same).2⟩
    next run =>
      rw [if_neg run]
      obtain ⟨numbers, same⟩ := flush
      cases numbers with
      | nil => cases same
      | cons n rest => exact ⟨rest, (cons.inj same).2⟩
  · intro no
    exact ⟨(holds.severed no).up, (holds.severed no).toReceiver⟩
  · obtain ⟨upto, le, consecutive⟩ := holds.pending
    rw [packets, consecutive_cons_iff, ← following] at consecutive
    exact ⟨upto, le, consecutive.2⟩
  · have agreed := holds.agreed
    cases phase with
    | down => exact agreed
    | fresh => exact absurd (holds.quiet agreed.peer).pending some
    | announced recvPacketSqn => exact absurd agreed.pending some
    | sending =>
      refine ⟨{ agreed with }, agreed.peer, agreed.run, ?_⟩
      have sent := agreed.sent
      rw [packets, consecutive_cons_iff, ← following] at sent
      exact sent.2

theorem invariant_withTier {tier : TierPc} {handed : List Nat} (busy : state.receiver.tier ≠ .idle)
    (handing : ReceiveSide.Handing { state.receiver with
      tier := tier, handed := handed, amiTxMsgCnt := amiTxMsgCnt })
    (le : state.receiver.amiTxMsgCnt ≤ amiTxMsgCnt) :
    Invariant phase { state with
      receiver := { state.receiver with
        tier := tier, handed := handed, amiTxMsgCnt := amiTxMsgCnt } } := by
  have sound := holds.receiver
  refine invariant_withReceiver holds ⟨handing, ?_, sound.expected, sound.ack⟩ ?_
    (fun stat => (holds.peerConnecting stat).2) ?_ holds.pending
    (fun fresh => absurd (holds.quiet fresh).tier busy) ?_
  · have flush := sound.flush
    rw [ReceiveSide.Flush] at flush ⊢
    split at flush
    next run =>
      rw [if_pos run]
      split at flush
      next => exact absurd flush.2 busy
      next unfinished =>
        rw [if_neg unfinished]
        exact flush
    next run =>
      rw [if_neg run]
      exact flush
  · intro no
    exact ⟨(holds.severed no).up, (holds.severed no).toReceiver⟩
  · have ascending := holds.ascending
    rw [replies, ← cons_append, pairwise_append] at ascending ⊢
    obtain ⟨front, _, below⟩ := ascending
    refine ⟨front, pairwise_singleton _ _, ?_⟩
    intro n mem last same
    rw [mem_singleton.mp same]
    exact Nat.le_trans (below n mem _ (mem_singleton.mpr rfl)) le
  · have agreed := holds.agreed
    cases phase with
    | down => exact agreed
    | fresh => exact absurd (holds.quiet agreed.peer).tier busy
    | announced recvPacketSqn => exact absurd agreed.tier busy
    | sending =>
      exact { agreed with toLinked := { agreed with } }

theorem invariant_tierStep {outcome : Outcome} (fits : state.Fits (.tier outcome))
    (went : state.tierStep outcome = some next) : next.Invariant phase := by
  have handing := holds.receiver.handing
  rw [tierStep] at went
  split at went
  next tier =>
    split at went
    next => cases went
    next queue messages =>
      cases went
      exact invariant_localSync holds tier messages
    next totalSqn queue messages =>
      split at went
      next =>
        cases went
        exact invariant_amiPacket holds tier messages
      next unexpected => exact absurd (next_of_tierQueue holds messages).1 unexpected
  next n tier =>
    have sent : outcome = .sendMsg := fits (by rw [tier]; rfl)
    obtain rfl := sent
    cases went
    rw [ReceiveSide.Handing, tier] at handing
    obtain ⟨count, rfl, handed⟩ := handing
    exact invariant_withTier holds (by rw [tier]; simp) ⟨count, rfl, handed.concat⟩ .refl
  next n tier =>
    cases went
    rw [ReceiveSide.Handing, tier] at handing
    obtain ⟨count, rfl, handed⟩ := handing
    exact invariant_withTier holds (by rw [tier]; simp) ⟨count.symm, count ▸ handed⟩
      (Nat.le_succ _)

theorem invariant_withAck {ack : AckPc} (acking : state.receiver.ack ≠ .away)
    (ascending : (replies { state with
      receiver := { state.receiver with ack := ack } }).Pairwise (· ≤ ·))
    (reading : ∀ n ∈ ReceiveSide.reading { state.receiver with ack := ack },
      n = state.receiver.amiTxMsgCnt) :
    Invariant phase { state with receiver := { state.receiver with ack := ack } } := by
  have sound := holds.receiver
  have places := sound.ack acking
  have notFresh : ¬ state.receiver.run.fresh = true := by
    cases places with
    | inl run | inr run => rw [run]; simp [PeerRunPc.fresh]
  refine invariant_withReceiver holds { sound with ack := fun _ => places }
    ?_ (fun stat => (holds.peerConnecting stat).2) ascending holds.pending
    (fun fresh => absurd fresh notFresh) ?_
  · intro no
    exact ⟨(holds.severed no).up, (holds.severed no).toReceiver⟩
  · have agreed := holds.agreed
    cases phase with
    | down => exact agreed
    | fresh => exact absurd agreed.peer notFresh
    | announced recvPacketSqn =>
      exact
        { up := agreed.up
          __ := agreed
          reading := fun n mem => (reading n mem).trans agreed.amiTxMsgCnt
          run := agreed.run }
    | sending =>
      exact { agreed with toLinked := { agreed with } }

theorem ascending_of_no_reading {ack : AckPc}
    (none : ReceiveSide.reading { state.receiver with ack := ack } = []) :
    (replies { state with
      receiver := { state.receiver with ack := ack } }).Pairwise (· ≤ ·) := by
  rw [replies]
  rw [none]
  exact holds.ascending.sublist
    ((((Sublist.refl _).append (nil_sublist _)).append_right _).cons_cons _)

end

theorem State.SyncFirst.concat (syncFirst : state.SyncFirst) (recvPacketSqn : Nat) :
    SyncFirst { state with toSender := state.toSender ++ [.tcpAck recvPacketSqn] } := by
  refine ⟨?_, ?_, ?_⟩
  · intro reply mem
    have tail := syncFirst.tail
    cases replies : state.toSender with
    | nil =>
      rw [replies] at mem
      cases mem
    | cons first rest =>
      rw [replies] at mem tail
      cases mem_append.mp mem with
      | inl before => exact tail reply before
      | inr last => rw [mem_singleton.mp last]; rfl
  · rintro ⟨reply, mem, syncs⟩
    cases mem_append.mp mem with
    | inl before => exact syncFirst.head ⟨reply, before, syncs⟩
    | inr last =>
      rw [mem_singleton.mp last] at syncs
      cases syncs
  · intro handles
    obtain ⟨unsynced, none⟩ := syncFirst.handler handles
    refine ⟨unsynced, fun reply mem => ?_⟩
    cases mem_append.mp mem with
    | inl before => exact none reply before
    | inr last => rw [mem_singleton.mp last]; rfl

theorem invariant_withReply (holds : state.Invariant phase) {recvPacketSqn : Nat}
    (up : state.up = true) (notFresh : ¬ state.receiver.run.fresh = true)
    (ascending : (replies { state with
      toSender := state.toSender ++ [.tcpAck recvPacketSqn] }).Pairwise (· ≤ ·))
    (announced : ∀ announcedSqn, phase = .announced announcedSqn → recvPacketSqn = announcedSqn) :
    Invariant phase { state with toSender := state.toSender ++ [.tcpAck recvPacketSqn] } := by
  have notClosed (closed : state.Closed) : False :=
    absurd (closed.up.symm.trans up) (by decide)
  refine
    { sender := holds.sender
      __ := holds
      closed := fun run => (notClosed (holds.closed run)).elim
      connecting := fun stat => (notClosed (holds.connecting stat).1).elim
      peerClosed := fun run => { holds.peerClosed run with }
      peerConnecting := fun stat => (holds.peerConnecting stat).imp_left ({ · with })
      syncFirst := holds.syncFirst.concat recvPacketSqn
      ascending := ascending
      quiet := fun fresh => absurd fresh notFresh
      agreed := ?_ }
  have agreed := holds.agreed
  cases phase with
  | down => exact agreed
  | fresh => exact absurd agreed.peer notFresh
  | announced announcedSqn =>
    exact
      { up := agreed.up
        __ := agreed
        toSender := by
          intro reply mem
          cases mem_append.mp mem with
          | inl before => exact agreed.toSender reply before
          | inr last =>
            rw [mem_singleton.mp last]
            exact announced announcedSqn rfl
        run := agreed.run }
  | sending =>
    exact { agreed with toLinked := { agreed with } }

theorem invariant_sendAck (holds : state.Invariant phase)
    (ack : state.receiver.ack = .send amiTxMsgCnt) :
    Invariant phase { state with
      toSender := state.sendReply (.tcpAck amiTxMsgCnt)
      receiver := { state.receiver with ack := .loop } } := by
  have acking : state.receiver.ack ≠ .away := by rw [ack]; simp
  have reading : state.receiver.reading = [amiTxMsgCnt] := by rw [ReceiveSide.reading, ack]
  have alone := @invariant_withAck phase state holds .loop acking
    (ascending_of_no_reading holds rfl) (fun n mem => by cases mem)
  by_cases up : state.up = true
  · have more : state.sendReply (.tcpAck amiTxMsgCnt) =
        state.toSender ++ [.tcpAck amiTxMsgCnt] := by
      rw [sendReply, if_pos up]
    rw [more]
    refine invariant_withReply alone up ?_ ?_ ?_
    · cases holds.receiver.ack acking with
      | inl run | inr run => rw [run]; simp [PeerRunPc.fresh]
    · have ascending := holds.ascending
      rw [replies, reading] at ascending
      simpa [replies, ReceiveSide.reading, Reply.number] using ascending
    · rintro announcedSqn rfl
      have agreed := holds.agreed
      exact agreed.reading amiTxMsgCnt (by rw [reading]; exact mem_cons_self)
  · have lost : state.sendReply (.tcpAck amiTxMsgCnt) = state.toSender := by
      rw [sendReply, if_neg up]
    rw [lost]
    exact alone

theorem invariant_ackStep (holds : state.Invariant phase) (went : state.ackStep = some next) :
    next.Invariant phase := by
  rw [ackStep] at went
  split at went
  next => cases went
  next ack =>
    have acking : state.receiver.ack ≠ .away := by rw [ack]; simp
    split at went
    all_goals
      cases went
      exact invariant_withAck holds acking (ascending_of_no_reading holds rfl)
        (fun n mem => by cases mem)
  next ack =>
    cases went
    have acking : state.receiver.ack ≠ .away := by rw [ack]; simp
    refine invariant_withAck holds acking ?_ (fun n mem => mem_singleton.mp mem)
    have ascending := holds.ascending
    rw [replies, ReceiveSide.reading, ack, append_nil, ← cons_append] at ascending
    rw [replies, ← cons_append]
    refine pairwise_append.mpr ⟨ascending, pairwise_singleton _ _, ?_⟩
    intro n mem last same
    obtain rfl := mem_singleton.mp same
    obtain ⟨_, _, below⟩ := pairwise_append.mp ascending
    rw [← cons_append] at mem
    cases mem_append.mp mem with
    | inl before => exact below n before _ (mem_singleton.mpr rfl)
    | inr read => exact (mem_singleton.mp read).le
  next amiTxMsgCnt ack =>
    cases went
    exact invariant_sendAck holds ack

end AdkAaf.AmiBridge.Session
