import AdkAaf.AmiBridge.Session.Receiver

/-! However the two bridges lose their connection and make it again, the receiving bridge hands
the messages to AMI once and in their order, as long as it gives none of them up. -/

set_option autoImplicit false

namespace AdkAaf.AmiBridge.Session

open Lib State

variable {phase : Phase} {state next : State}

section

variable (holds : state.Invariant phase)
include holds

theorem invariant_connect (went : state.connect = some next) : next.Invariant .fresh := by
  rw [connect] at went
  split at went <;> cases went
  next waits =>
    obtain ⟨closed, run, peerSyncFinish⟩ := holds.connecting waits.1
    obtain ⟨peerClosed, peerRun⟩ := holds.peerConnecting waits.2
    have sound := holds.sender
    have peerSound := holds.receiver
    have fresh : state.receiver.run.fresh = true := by rw [peerRun]; rfl
    have quiet := holds.quiet fresh
    have packets : state.pending = pending { state with
        up := true
        toSender := []
        toReceiver := []
        sender := { state.sender with tcpStat := .kConnected }
        receiver := { state.receiver with tcpStat := .kConnected } } := by
      rw [pending, pending, peerClosed.toReceiver]
    have ascending := holds.ascending
    rw [replies, closed.toSender] at ascending
    have pending := holds.pending
    rw [packets] at pending
    refine
      { sender := { sound with places := { sound.places with } }
        receiver := { peerSound with }
        closed := ?_
        connecting := fun no => by cases no
        peerClosed := ?_
        peerConnecting := fun no => by cases no
        syncFirst := ⟨?_, ?_, ?_⟩
        ascending := ascending
        pending := pending
        quiet := fun _ => ⟨packets.symm.trans quiet.pending, quiet.tier, quiet.announces⟩
        agreed := ⟨⟨rfl, rfl, rfl⟩, fresh, rfl, closed.tcp, peerSyncFinish, ?_⟩ }
    · intro closed
      rw [run] at closed
      cases closed
    · intro closed
      rw [peerRun] at closed
      cases closed
    · intros; contradiction
    · rintro ⟨reply, no, _⟩
      cases no
    · intro syncs
      rw [closed.tcp] at syncs
      cases syncs
    · rw [run]
      rfl

theorem down_of_not_up (up : ¬ state.up = true) : phase = .down := by
  have agreed := holds.agreed
  cases phase with
  | down => rfl
  | fresh | announced recvPacketSqn | sending => exact absurd agreed.up up

structure SendSide.Same (sender after : SendSide) : Prop where
  run : after.run = sender.run
  send : after.send = sender.send
  tcp : after.tcp = sender.tcp
  peerSyncFinish : after.peerSyncFinish = sender.peerSyncFinish
  lastRecvAckSeq : after.lastRecvAckSeq = sender.lastRecvAckSeq
  high : after.high = sender.high
  sent : after.sent = sender.sent

theorem invariant_of_same {after : SendSide} (sound : after.Sound) (same : state.sender.Same after)
    (stat : after.tcpStat = state.sender.tcpStat ∨ phase = .down ∧ after.tcpStat = .kBroken) :
    Invariant phase { state with sender := after } := by
  have target : after.target = state.sender.target := by
    rw [SendSide.target, SendSide.target, same.tcp, same.lastRecvAckSeq]
  have low : after.low = state.sender.low := by
    rw [SendSide.low, SendSide.low, same.tcp, same.lastRecvAckSeq]
  have unsynced (unsynced : state.sender.Unsynced) : after.Unsynced :=
    ⟨same.peerSyncFinish.trans unsynced.peerSyncFinish, same.send.trans unsynced.send,
      same.run.symm ▸ unsynced.run⟩
  have closed (closed : state.Closed) : Closed { state with sender := after } :=
    ⟨closed.up, closed.toSender, same.tcp.trans closed.tcp⟩
  refine
    { sender := sound
      receiver := holds.receiver
      closed := fun run => closed (holds.closed (same.run.symm.trans run))
      connecting := ?_
      peerClosed := fun run => { holds.peerClosed run with }
      peerConnecting := fun stat => (holds.peerConnecting stat).imp_left ({ · with })
      syncFirst := ⟨holds.syncFirst.tail, fun some => unsynced (holds.syncFirst.head some),
        fun syncs => (holds.syncFirst.handler (same.tcp ▸ syncs)).imp_left unsynced⟩
      ascending := ?_
      pending := ?_
      quiet := fun fresh =>
        have quiet := holds.quiet fresh
        { quiet with }
      agreed := ?_ }
  · intro connecting
    cases stat with
    | inl same' =>
      obtain ⟨none, run, finish⟩ := holds.connecting (same'.symm.trans connecting)
      exact ⟨closed none, same.run.trans run, same.peerSyncFinish.trans finish⟩
    | inr broken =>
      have no := broken.2.symm.trans connecting
      cases no
  · have ascending := holds.ascending
    rw [replies] at ascending ⊢
    rw [target]
    exact ascending
  · rw [same.high]
    exact holds.pending
  · have agreed := holds.agreed
    cases stat with
    | inr broken =>
      obtain ⟨rfl, _⟩ := broken
      exact agreed
    | inl stat =>
      cases phase with
      | down => exact agreed
      | fresh =>
        exact
          { up := agreed.up
            sender := stat.trans agreed.sender
            __ := agreed
            tcp := same.tcp.trans agreed.tcp
            peerSyncFinish := same.peerSyncFinish.trans agreed.peerSyncFinish
            run := same.run.symm ▸ agreed.run }
      | announced recvPacketSqn =>
        exact
          { up := agreed.up
            sender := stat.trans agreed.sender
            __ := agreed
            target := fun syncs => target.trans (agreed.target (same.tcp ▸ syncs))
            low := fun finished => low.trans (agreed.low (same.peerSyncFinish ▸ finished))
            run := same.run.symm ▸ agreed.run }
      | sending =>
        refine ⟨⟨agreed.up, stat.trans agreed.sender, agreed.receiver⟩, agreed.peer,
          same.run.symm ▸ agreed.run, ?_⟩
        rw [same.sent]
        exact agreed.sent

theorem invariant_senderOnEvent (went : state.senderOnEvent = some next) :
    next.Invariant phase := by
  rw [senderOnEvent] at went
  split at went <;> cases went
  next up =>
    obtain rfl := down_of_not_up holds up
    have sound := holds.sender
    exact invariant_of_same holds
      { sound with places := { sound.places with } }
      ⟨rfl, rfl, rfl, rfl, rfl, rfl, rfl⟩ (.inr ⟨rfl, rfl⟩)

theorem invariant_receiverOnEvent (went : state.receiverOnEvent = some next) :
    next.Invariant phase := by
  rw [receiverOnEvent] at went
  split at went <;> cases went
  next up =>
    obtain rfl := down_of_not_up holds up
    have sound := holds.receiver
    refine invariant_withReceiver holds { sound with } ?_
      (fun no => by cases no) holds.ascending holds.pending ?_ holds.agreed
    · rintro (run | no)
      · exact ⟨(holds.peerClosed run).up, (holds.peerClosed run).toReceiver⟩
      · cases no
    · intro fresh
      have quiet := holds.quiet fresh
      exact { quiet with }

end

theorem SendSide.Taken.of_same {sender after : SendSide} (taken : sender.Taken)
    (send : after.send = sender.send) (freed : after.freed = sender.freed)
    (head : ∀ n, sender.amiRxQueue.head? = some n →
      after.amiRxQueue.head? = some n) : after.Taken := by
  rw [SendSide.Taken] at taken ⊢
  rw [send]
  cases holds : sender.send with
  | push n | freeEntry n =>
    rw [holds] at taken
    exact head n taken
  | send n =>
    rw [holds] at taken
    exact ⟨taken.1.trans freed.symm, taken.2⟩
  | away | loop | waitEntry => trivial

theorem invariant_onMessage (holds : state.Invariant phase) : state.onMessage.Invariant phase := by
  have sound := holds.sender
  have freed : state.onMessage.sender.freed = state.sender.freed := by
    change state.sender.received + 1 -
      (state.sender.amiRxQueue ++ [state.sender.received + 1]).length = _
    rw [List.length_append, List.length_singleton, Nat.add_sub_add_right]
    rfl
  have high : state.onMessage.sender.high = state.sender.high :=
    congrArg (· + state.sender.send.pushed) freed
  have sent : state.onMessage.sender.sent = state.sender.sent :=
    congrArg (· - state.sender.unsent) high
  refine invariant_of_same holds ⟨?_, sound.popped, ?_, sound.taken.of_same rfl freed ?_,
    sound.handler, { sound.places with }⟩
    ⟨rfl, rfl, rfl, rfl, rfl, high, sent⟩ (.inl rfl)
  · change Consecutive state.sender.low state.onMessage.sender.high state.sender.packets
    rw [high]
    exact sound.packets
  · change Consecutive state.onMessage.sender.freed (state.sender.received + 1)
      (state.sender.amiRxQueue ++ [state.sender.received + 1])
    rw [freed]
    exact sound.amiRxQueue.concat
  · intro n first
    obtain ⟨queue, holds⟩ := SendSide.head_eq first
    rw [holds]
    rfl

theorem invariant_step {action : Action}
    (holds : ∃ phase, state.Invariant phase) (fits : state.Fits action)
    (went : state.step action = some next) : ∃ phase, next.Invariant phase := by
  obtain ⟨phase, holds⟩ := holds
  cases action with
  | connect => exact ⟨.fresh, invariant_connect holds went⟩
  | breaks toSender toReceiver =>
    cases went
    exact ⟨.down, invariant_of_breaks holds (List.take_prefix _ _) (List.take_prefix _ _)⟩
  | senderOnEvent => exact ⟨phase, invariant_senderOnEvent holds went⟩
  | receiverOnEvent => exact ⟨phase, invariant_receiverOnEvent holds went⟩
  | onMessage =>
    cases went
    exact ⟨phase, invariant_onMessage holds⟩
  | run => exact invariant_runStep holds went
  | send => exact ⟨phase, invariant_sendStep holds went⟩
  | sendFails => exact ⟨phase, invariant_sendFails holds went⟩
  | tcp => exact ⟨phase, invariant_tcpStep holds fits went⟩
  | peerRun => exact invariant_peerRunStep holds went
  | peerTcp => exact ⟨phase, invariant_peerTcpStep holds went⟩
  | tier outcome => exact ⟨phase, invariant_tierStep holds fits went⟩
  | ack => exact ⟨phase, invariant_ackStep holds went⟩

theorem sound_start {send : SendPc} (idle : send = .away ∨ send = .loop) (tcpStat : TcpStatus) :
    SendSide.Sound { tcpStat := tcpStat, send := send } := by
  refine ⟨?_, rfl, rfl, ?_, trivial, ⟨fun _ => rfl, fun _ => .inl rfl, ?_, rfl, ?_, ?_⟩⟩
  · obtain rfl | rfl := idle
    all_goals rfl
  · obtain rfl | rfl := idle
    all_goals trivial
  all_goals nofun

theorem invariant_start (connected : Bool) : ∃ phase, (start connected).Invariant phase := by
  have receiver (ack : AckPc) (tcpStat : TcpStatus) :
      ReceiveSide.Sound { tcpStat := tcpStat, ack := ack } :=
    ⟨⟨rfl, rfl⟩, ⟨[], rfl⟩, rfl, fun _ => .inl rfl⟩
  have syncFirst : (start connected).SyncFirst := by
    have none : (start connected).toSender = [] ∧ (start connected).sender.tcp = .idle := by
      cases connected with
      | true | false => exact ⟨rfl, rfl⟩
    refine ⟨?_, ?_, ?_⟩
    · rw [none.1]
      nofun
    · rw [none.1]
      rintro ⟨reply, no, _⟩
      cases no
    · rw [none.2]
      nofun
  cases connected with
  | true =>
    exact ⟨.sending,
      { sender := sound_start (.inr rfl) _
        receiver := receiver _ _
        closed := fun no => by cases no
        connecting := fun no => by cases no
        peerClosed := fun no => by cases no
        peerConnecting := fun no => by cases no
        syncFirst := syncFirst
        ascending := by decide
        pending := ⟨0, .refl, rfl⟩
        quiet := fun no => by cases no
        agreed := ⟨⟨rfl, rfl, rfl⟩, rfl, .inr rfl, rfl⟩ }⟩
  | false =>
    exact ⟨.down,
      { sender := sound_start (.inl rfl) _
        receiver := receiver _ _
        closed := fun no => by cases no
        connecting := fun no => by cases no
        peerClosed := fun no => by cases no
        peerConnecting := fun no => by cases no
        syncFirst := syncFirst
        ascending := by decide
        pending := ⟨0, .refl, rfl⟩
        quiet := fun no => by cases no
        agreed := rfl }⟩

theorem delivered_of_invariant (holds : state.Invariant phase) : state.Delivered := by
  obtain ⟨count, handed, le⟩ : ∃ count, Consecutive 0 count state.receiver.handed ∧
      state.receiver.amiTxMsgCnt ≤ count := by
    have handing := holds.receiver.handing
    rw [ReceiveSide.Handing] at handing
    split at handing
    next => exact ⟨_, handing.2, handing.1.le⟩
    next => exact ⟨_, handing.2.2, .refl⟩
    next => exact ⟨_, handing.2.2, handing.2.1 ▸ Nat.le_succ _⟩
  refine ⟨handed.eq_range', holds.receiver.expected, ?_⟩
  intro n popped
  obtain ⟨above, below⟩ := holds.sender.popped.mem_iff.mp popped
  have acked := low_le_target.trans (target_le holds)
  exact handed.mem_iff.mpr ⟨above, (below.trans acked).trans le⟩

/-- Over any breaks and reconnections the receiving bridge hands over the messages once and in
their order, and no packet leaves the queue before that. -/
theorem delivered_over_reconnects {connected : Bool} {actions : List Action} {state : State}
    (guarded : Guarded step Fits (start connected) actions)
    (ran : execute step (start connected) actions = some state) : state.Delivered := by
  have kept : ∀ {state : State} {action next}, (∃ phase, state.Invariant phase) →
    state.Fits action →
      state.step action = some next → ∃ phase, next.Invariant phase := invariant_step
  obtain ⟨phase, holds⟩ := invariant_of_guarded kept (invariant_start connected) guarded ran
  exact delivered_of_invariant holds

/-- Over any breaks the sending bridge loses no message and keeps none twice: each is popped or in
a packet, or in the queue of AMI behind the one just pushed. -/
theorem kept_over_reconnects {connected : Bool} {actions : List Action} {state : State}
    (guarded : Guarded step Fits (start connected) actions)
    (ran : execute step (start connected) actions = some state) :
    state.sender.popped ++ state.sender.packets ++
      state.sender.amiRxQueue.drop state.sender.send.pushed =
        List.range' 1 state.sender.received := by
  obtain ⟨_, holds⟩ := invariant_of_guarded
    (fun holds => invariant_step holds) (invariant_start connected) guarded ran
  have rest : Consecutive state.sender.high state.sender.received
      (state.sender.amiRxQueue.drop state.sender.send.pushed) := by
    have queue := holds.sender.amiRxQueue
    have taken := holds.sender.taken
    cases send : state.sender.send <;> rw [SendSide.high, send]
    case freeEntry =>
      rw [SendSide.Taken, send] at taken
      obtain ⟨_, cons⟩ := SendSide.head_eq taken
      rw [cons] at queue ⊢
      exact queue.2
    all_goals exact queue
  have all := (holds.sender.popped.append holds.sender.packets).append rest
  rw [all.eq_range', ← Nat.zero_add (List.length _), all.length]

def firstMessage : List Action :=
  [.onMessage, .send, .send, .send, .send, .send, .peerTcp, .tier .sendMsg]

/-- The connection breaks, and both bridges make a new one, up to the end of `HandleSyncMsg`. -/
def reconnect : List Action :=
  [.breaks 0 0, .senderOnEvent, .receiverOnEvent, .send, .run, .run, .run, .run, .ack, .peerRun,
    .peerRun, .peerRun, .peerRun, .tier .sendMsg, .peerRun, .connect, .run, .run, .peerRun,
    .peerRun, .peerRun, .tcp, .tcp, .tcp]

/-- A packet is handed over, and the sending bridge learns of it only on the next connection. -/
theorem delivered_reconnect : ∃ state, execute step (start true)
      (firstMessage ++ [.tier .sendMsg, .tier .sendMsg] ++ reconnect) = some state ∧
    state.Delivered ∧ state.sender.popped = [1] := by
  obtain ⟨state, ran, popped⟩ := (execute_check (by decide +kernel) : ∃ state,
    execute step (start true)
      (firstMessage ++ [.tier .sendMsg, .tier .sendMsg] ++ reconnect) = some state ∧
    state.sender.popped = [1])
  exact ⟨state, ran, delivered_over_reconnects (by decide +kernel) ran, popped⟩

/-- The connection breaks while a message is in a packet and in the queue of AMI. -/
theorem kept_broken : ∃ state, execute step (start true)
      (firstMessage.take 4 ++ [.breaks 0 0]) = some state ∧
    state.sender.amiRxQueue = [1] ∧ state.sender.popped ++ state.sender.packets ++ [] = [1] := by
  obtain ⟨state, ran, queue, pushed, received⟩ := (execute_check (by decide +kernel) :
    ∃ state, execute step (start true) (firstMessage.take 4 ++ [.breaks 0 0]) = some state ∧
    state.sender.amiRxQueue = [1] ∧ state.sender.send.pushed = 1 ∧ state.sender.received = 1)
  have kept := kept_over_reconnects (by decide +kernel) ran
  rw [queue, pushed, received] at kept
  exact ⟨state, ran, queue, kept⟩

/-- A packet whose partition is zero is not handed over and not counted. It is sent again on the
next connection, where it is taken for one that was resent. -/
theorem given_up_packet_resent : ∃ state, execute step (start true)
      (firstMessage ++ [.tier .partitionZero] ++ reconnect ++
        [.run, .run, .run, .run, .run, .run, .peerTcp, .peerTcp, .tier .sendMsg]) = some state ∧
    ¬ state.Delivered := by
  obtain ⟨state, ran, unexpected⟩ := (execute_check (by decide +kernel) : ∃ state,
    execute step (start true)
      (firstMessage ++ [.tier .partitionZero] ++ reconnect ++
        [.run, .run, .run, .run, .run, .run, .peerTcp, .peerTcp, .tier .sendMsg]) = some state ∧
    state.receiver.unexpected = true)
  refine ⟨state, ran, fun delivered => ?_⟩
  rw [delivered.expected] at unexpected
  cases unexpected

end AdkAaf.AmiBridge.Session
