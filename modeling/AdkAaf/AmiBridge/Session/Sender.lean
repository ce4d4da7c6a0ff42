import AdkAaf.AmiBridge.Session.Invariant

/-! The steps of the sending bridge keep what holds between the bridges. `SendAmiMsg` and
`RetransmitMsg` only move packets; the other steps are about the connection. -/

set_option autoImplicit false

namespace AdkAaf.AmiBridge.Session

open List

open Adk.IoEngine (toInt32)
open Lib State

variable {phase : Phase} {state next : State}

theorem pending_sendRequest_amiPacket (n : Nat) (sender : SendSide) :
    State.pending { state with
      toReceiver := state.sendRequest (.amiPacket n), sender := sender } =
      if state.up then state.pending ++ [n] else state.pending := by
  rw [State.pending, State.pending, State.sendRequest]
  split
  next => simp [Request.packet]
  next => rfl

variable {toReceiver : List Request}

theorem pending_of_peerSync
    (requests : toReceiver = state.toReceiver ∨ toReceiver = state.sendRequest .peerSync)
    (sender : SendSide) :
    State.pending { state with toReceiver := toReceiver, sender := sender } = state.pending := by
  cases requests with
  | inl same =>
    obtain rfl := same
    rfl
  | inr request =>
    obtain rfl := request
    rw [State.pending, State.pending, State.sendRequest]
    split
    next => simp [Request.packet]
    next => rfl

theorem not_settled_of_fresh {run : PeerRunPc} (fresh : run.fresh = true) :
    ¬ run.settled = true := by
  cases run <;> simp_all [PeerRunPc.fresh, PeerRunPc.settled]

theorem State.PeerClosed.sendRequest (closed : state.PeerClosed) (request : Request) :
    state.sendRequest request = [] := by
  rw [State.sendRequest, closed.up]
  exact closed.toReceiver

def SendSide.Busy (sender : SendSide) : Prop :=
  sender.send ≠ .away ∨ sender.run.retransmits = true

structure SendSide.Moves (sender next : SendSide) : Prop where
  busy : sender.Busy
  tcp : next.tcp = sender.tcp
  lastRecvAckSeq : next.lastRecvAckSeq = sender.lastRecvAckSeq
  tcpStat : next.tcpStat = sender.tcpStat
  run : next.run = sender.run ∨
    sender.run.retransmits = true ∧ (next.run.retransmits = true ∨ next.run = .onRun)
  high : sender.high ≤ next.high

namespace SendSide

variable {sender after : SendSide}

theorem Busy.not_unsynced (busy : sender.Busy) : ¬ sender.Unsynced := by
  intro unsynced
  cases busy with
  | inl sends => exact sends unsynced.send
  | inr resends =>
    rw [unsynced.run] at resends
    cases resends

theorem Busy.run (busy : sender.Busy) (places : sender.Places) :
    sender.run.retransmits = true ∨ sender.run = .onRun ∨ sender.run = .join := by
  cases busy with
  | inl sends => exact .inr (places.send sends)
  | inr resends => exact .inl resends

theorem not_syncs_of_retransmits {run : RunPc} (retransmits : run.retransmits = true) :
    run ≠ .connecting ∧ run ≠ .swap ∧ run.syncs = false := by
  cases run with
  | recorder | recorderSend | history | resend | push => exact ⟨by simp, by simp, rfl⟩
  | _ => cases retransmits

theorem Busy.not_syncs (busy : sender.Busy) (places : sender.Places) :
    sender.run ≠ .connecting ∧ sender.run ≠ .swap ∧ sender.run.syncs = false := by
  cases busy.run places with
  | inl resends => exact not_syncs_of_retransmits resends
  | inr away =>
    cases away with
    | inl run | inr run => rw [run]; exact ⟨by simp, by simp, rfl⟩

theorem Moves.target (moves : sender.Moves after) : after.target = sender.target := by
  rw [SendSide.target, SendSide.target, moves.tcp, moves.lastRecvAckSeq]

theorem Moves.not_syncLocalSession (moves : sender.Moves after) (places : sender.Places) :
    after.run ≠ .syncLocalSession := by
  intro closed
  cases moves.run with
  | inl same =>
    rw [same] at closed
    cases moves.busy.run places with
    | inl resends => rw [closed] at resends; cases resends
    | inr away => rw [closed] at away; simp at away
  | inr resends =>
    rw [closed] at resends
    simp [RunPc.retransmits] at resends

end SendSide

theorem phase_of_busy (holds : state.Invariant phase) (busy : state.sender.Busy) :
    phase = .down ∨ phase = .sending := by
  obtain ⟨connecting, swap, syncs⟩ := busy.not_syncs holds.sender.places
  have agreed := holds.agreed
  cases phase with
  | down => exact .inl rfl
  | sending => exact .inr rfl
  | fresh =>
    have run := agreed.run
    rw [syncs] at run
    cases run
  | announced recvPacketSqn =>
    cases agreed.run with
    | inl run => rw [syncs] at run; cases run
    | inr run => exact absurd run swap

theorem pending_of_moves (holds : state.Invariant phase) {after : SendSide}
    (moves : state.sender.Moves after) (sent : toReceiver = state.toReceiver ∧
        (phase = .down ∨ after.sent = state.sender.sent) ∨
      ∃ n, toReceiver = state.sendRequest (.amiPacket n) ∧
        n = state.sender.sent + 1 ∧ after.sent = n ∧ n ≤ after.high) :
    ∃ pending, State.pending { state with toReceiver := toReceiver, sender := after } = pending ∧
      ((phase = .down ∨ after.sent = state.sender.sent) ∧ pending = state.pending ∨
        phase = .sending ∧ after.sent = state.sender.sent + 1 ∧ after.sent ≤ after.high ∧
          pending = state.pending ++ [state.sender.sent + 1]) := by
  refine ⟨_, rfl, ?_⟩
  cases sent with
  | inl same =>
    obtain ⟨rfl, same⟩ := same
    exact .inl ⟨same, rfl⟩
  | inr packet =>
    obtain ⟨n, rfl, rfl, count, le⟩ := packet
    rw [pending_sendRequest_amiPacket]
    have agreed := holds.agreed
    cases phase_of_busy holds moves.busy with
    | inl down =>
      obtain rfl := down
      have up : state.up = false := agreed
      rw [up]
      exact .inl ⟨.inl rfl, rfl⟩
    | inr sending =>
      obtain rfl := sending
      rw [agreed.up]
      exact .inr ⟨rfl, count, count ▸ le, rfl⟩

theorem invariant_of_moves (holds : state.Invariant phase) {after : SendSide}
    (sound : after.Sound) (moves : state.sender.Moves after) (sent : toReceiver = state.toReceiver ∧
        (phase = .down ∨ after.sent = state.sender.sent) ∨
      ∃ n, toReceiver = state.sendRequest (.amiPacket n) ∧
        n = state.sender.sent + 1 ∧ after.sent = n ∧ n ≤ after.high) :
    Invariant phase { state with toReceiver := toReceiver, sender := after } := by
  have places := holds.sender.places
  obtain ⟨pending, moved, packets⟩ := pending_of_moves holds moves sent
  obtain ⟨not_connecting, _, _⟩ := moves.busy.not_syncs places
  have agreed := holds.agreed
  have phases := phase_of_busy holds moves.busy
  have closed (closed : state.PeerClosed) : PeerClosed
      { state with toReceiver := toReceiver, sender := after } := by
    refine ⟨closed.up, ?_⟩
    cases sent with
    | inl same => exact same.1.trans closed.toReceiver
    | inr packet =>
      obtain ⟨n, rfl, _⟩ := packet
      exact closed.sendRequest (.amiPacket n)
  refine
    { sender := sound
      receiver := holds.receiver
      closed := fun run => absurd run (moves.not_syncLocalSession places)
      connecting := fun stat => absurd
        (holds.connecting (moves.tcpStat.symm.trans stat)).2.1 not_connecting
      peerClosed := fun run => closed (holds.peerClosed run)
      peerConnecting := fun stat =>
        ⟨closed (holds.peerConnecting stat).1, (holds.peerConnecting stat).2⟩
      syncFirst := ⟨holds.syncFirst.tail,
        fun some => absurd (holds.syncFirst.head some) moves.busy.not_unsynced, ?_⟩
      ascending := ?_
      pending := ?_
      quiet := ?_
      agreed := ?_ }
  · intro syncs
    rw [moves.tcp] at syncs
    exact absurd (holds.syncFirst.handler syncs).1 moves.busy.not_unsynced
  · have ascending := holds.ascending
    rw [State.replies] at ascending ⊢
    rw [moves.target]
    exact ascending
  · rw [moved]
    cases packets with
    | inl same =>
      obtain ⟨upto, le, consecutive⟩ := holds.pending
      rw [same.2]
      exact ⟨upto, le.trans moves.high, consecutive⟩
    | inr packet =>
      obtain ⟨rfl, count, le, more⟩ := packet
      rw [more]
      exact ⟨_, count ▸ le, agreed.sent.concat⟩
  · intro fresh
    cases packets with
    | inl same =>
      have quiet := holds.quiet fresh
      exact ⟨moved.trans (same.2.trans quiet.pending), quiet.tier, quiet.announces⟩
    | inr packet =>
      obtain ⟨rfl, _⟩ := packet
      exact absurd agreed.peer (not_settled_of_fresh fresh)
  · cases phases with
    | inl down =>
      obtain rfl := down
      exact agreed
    | inr sending =>
      obtain rfl := sending
      refine ⟨⟨agreed.up, moves.tcpStat.trans agreed.sender, agreed.receiver⟩, agreed.peer, ?_, ?_⟩
      · cases moves.run with
        | inl same => exact same.symm ▸ agreed.run
        | inr resends => exact resends.2
      · rw [moved]
        cases packets with
        | inl same =>
          obtain ⟨either, same⟩ := same
          cases either with
          | inl down => cases down
          | inr count => rw [same, count]; exact agreed.sent
        | inr packet =>
          obtain ⟨_, count, _, more⟩ := packet
          rw [more, count]
          exact agreed.sent.concat

namespace SendSide

variable {sender : SendSide}

theorem Places.all_queued (places : sender.Places) (sends : sender.send ≠ .away) :
    sender.otherQueue = [] ∧ sender.run.unsent = 0 ∧ sender.run.hand = [] ∧
      sender.run.retransmits = false := by
  cases places.send sends with
  | inl run | inr run => exact ⟨places.other (by rw [run]; rfl), by rw [run]; exact ⟨rfl, rfl, rfl⟩⟩

theorem Places.away_of_retransmits (places : sender.Places)
    (retransmits : sender.run.retransmits = true) : sender.send = .away := by
  cases send : sender.send with
  | away => rfl
  | _ =>
    have queued := places.all_queued (by rw [send]; simp)
    rw [queued.2.2.2] at retransmits
    cases retransmits

variable {amiRxMsgCnt : Nat}

variable {send : SendPc}

theorem high_withSend (pushed : send.pushed = sender.send.pushed) :
    SendSide.high { sender with send := send, amiRxMsgCnt := amiRxMsgCnt } = sender.high :=
  congrArg (sender.freed + ·) pushed

theorem sent_withSend (pushed : send.pushed = sender.send.pushed)
    (unsent : send.unsent = sender.send.unsent) :
    SendSide.sent { sender with send := send, amiRxMsgCnt := amiRxMsgCnt } = sender.sent := by
  rw [SendSide.sent, high_withSend pushed]
  exact congrArg (fun unsent => sender.high -
    (sender.otherQueue.length + sender.run.unsent + unsent)) unsent

theorem Sound.withSend (sound : sender.Sound) (pushed : send.pushed = sender.send.pushed)
    (taken : Taken { sender with send := send, amiRxMsgCnt := amiRxMsgCnt })
    (sends : sender.send ≠ .away) :
    Sound { sender with send := send, amiRxMsgCnt := amiRxMsgCnt } := by
  refine { sound with
    packets := ?_
    taken := taken
    places := { sound.places with send := fun _ => sound.places.send sends } }
  rw [high_withSend pushed]
  exact sound.packets

variable {number : Nat}

theorem Sound.next_message (sound : sender.Sound) {queue : List Nat}
    (holds : sender.amiRxQueue = number :: queue) :
    number = sender.freed + 1 ∧ sender.received - queue.length = sender.freed + 1 := by
  have consecutive := sound.amiRxQueue
  rw [holds] at consecutive
  have length := consecutive.length
  rw [length_cons] at length
  refine ⟨consecutive.1, ?_⟩
  omega

theorem head_eq {numbers : List Nat} (head : numbers.head? = some number) :
    ∃ queue, numbers = number :: queue := by
  cases numbers with
  | nil => cases head
  | cons first queue =>
    obtain rfl : first = number := Option.some.inj head
    exact ⟨queue, rfl⟩

theorem Sound.push (sound : sender.Sound) (send : sender.send = .push number) :
    Sound { sender with
        tcpPacketsQueue := sender.tcpPacketsQueue ++ [number], send := .freeEntry number } := by
  have taken := sound.taken
  rw [Taken, send] at taken
  obtain ⟨queue, holds⟩ := head_eq taken
  obtain ⟨rfl, _⟩ := sound.next_message holds
  obtain ⟨other, _, hand, _⟩ := sound.places.all_queued (by rw [send]; simp)
  refine { sound with
    packets := ?_
    taken := taken
    places := { sound.places with send := fun _ => sound.places.send (by rw [send]; simp) } }
  have packets : Consecutive sender.low sender.freed sender.tcpPacketsQueue := by
    simpa [SendSide.packets, hand, other, SendSide.high, send, SendPc.pushed] using sound.packets
  have queued : SendSide.packets { sender with
      tcpPacketsQueue := sender.tcpPacketsQueue ++ [sender.freed + 1]
      send := .freeEntry (sender.freed + 1) } = sender.tcpPacketsQueue ++ [sender.freed + 1] := by
    simp [SendSide.packets, hand, other]
  rw [queued]
  exact packets.concat

theorem Sound.freeEntry (sound : sender.Sound) (send : sender.send = .freeEntry number) :
    Sound { sender with
        amiRxQueue := sender.amiRxQueue.tail, tcpTxPacketCnt := number, send := .send number } ∧
      number = sender.freed + 1 ∧ sender.received - sender.amiRxQueue.tail.length = number := by
  have taken := sound.taken
  rw [Taken, send] at taken
  obtain ⟨queue, holds⟩ := head_eq taken
  obtain ⟨rfl, freed⟩ := sound.next_message holds
  have amiRxQueue := sound.amiRxQueue
  rw [holds] at amiRxQueue ⊢
  have packets := sound.packets
  rw [SendSide.high, send] at packets
  refine ⟨⟨?_, sound.popped, ?_, ⟨freed.symm, Nat.succ_pos _⟩, sound.handler,
    { sound.places with send := fun _ => sound.places.send (by rw [send]; simp) }⟩, rfl, freed⟩
  · change Consecutive sender.low (sender.received - queue.length) sender.packets
    rw [freed]
    exact packets
  · change Consecutive (sender.received - queue.length) sender.received queue
    rw [freed]
    exact amiRxQueue.2

end SendSide

theorem invariant_withSend (holds : state.Invariant phase) {send : SendPc} {amiRxMsgCnt : Nat}
    (sends : state.sender.send ≠ .away) (pushed : send.pushed = state.sender.send.pushed)
    (unsent : send.unsent = state.sender.send.unsent)
    (taken : SendSide.Taken { state.sender with send := send, amiRxMsgCnt := amiRxMsgCnt }) :
    Invariant phase { state with
      sender := { state.sender with send := send, amiRxMsgCnt := amiRxMsgCnt } } :=
  invariant_of_moves holds (holds.sender.withSend pushed taken sends)
    ⟨.inl sends, rfl, rfl, rfl, .inl rfl, (SendSide.high_withSend pushed).symm.le⟩
    (.inl ⟨rfl, .inr (SendSide.sent_withSend pushed unsent)⟩)

theorem invariant_sendStep (holds : state.Invariant phase) (went : state.sendStep = some next) :
    next.Invariant phase := by
  have sound := holds.sender
  rw [State.sendStep] at went
  split at went
  next => cases went
  next send =>
    have sends : state.sender.send ≠ .away := by rw [send]; simp
    split at went
    all_goals
      cases went
      exact invariant_withSend holds sends (by rw [send]; rfl) (by rw [send]; rfl) trivial
  next send =>
    have sends : state.sender.send ≠ .away := by rw [send]; simp
    split at went <;> cases went
    · exact invariant_withSend holds sends (by rw [send]; rfl) (by rw [send]; rfl) trivial
    next holds' =>
      exact invariant_withSend holds sends (by rw [send]; rfl) (by rw [send]; rfl)
        (congrArg head? holds')
  next number send =>
    cases went
    have sends : state.sender.send ≠ .away := by rw [send]; simp
    refine invariant_of_moves holds (sound.push send)
      ⟨.inl sends, rfl, rfl, rfl, .inl rfl, ?_⟩ (.inl ⟨rfl, .inr ?_⟩)
    · rw [SendSide.high, send]
      exact Nat.le_succ _
    · rw [SendSide.sent, SendSide.sent, SendSide.high, SendSide.high, SendSide.unsent,
        SendSide.unsent, send]
      exact Nat.add_sub_add_right _ 1 _
  next number send =>
    cases went
    have sends : state.sender.send ≠ .away := by rw [send]; simp
    obtain ⟨freed, rfl, next_freed⟩ := sound.freeEntry send
    have next_high : SendSide.high { state.sender with
        amiRxQueue := state.sender.amiRxQueue.tail
        tcpTxPacketCnt := state.sender.freed + 1
        send := .send (state.sender.freed + 1) } = state.sender.high := by
      rw [SendSide.high, SendSide.high, send]
      exact next_freed
    refine invariant_of_moves holds freed
      ⟨.inl sends, rfl, rfl, rfl, .inl rfl, next_high.symm.le⟩ (.inl ⟨rfl, .inr ?_⟩)
    rw [SendSide.sent, SendSide.sent, next_high, SendSide.unsent, SendSide.unsent, send]
    rfl
  next number send =>
    cases went
    have sends : state.sender.send ≠ .away := by rw [send]; simp
    have taken := sound.taken
    rw [SendSide.Taken, send] at taken
    obtain ⟨rfl, some⟩ := taken
    obtain ⟨other, unsent, _, _⟩ := sound.places.all_queued sends
    have pushed : SendPc.loop.pushed = state.sender.send.pushed := by rw [send]; rfl
    refine invariant_of_moves holds (sound.withSend pushed trivial sends)
      ⟨.inl sends, rfl, rfl, rfl, .inl rfl, (SendSide.high_withSend pushed).symm.le⟩
      (.inr ⟨_, rfl, ?_, ?_, ?_⟩)
    · rw [SendSide.sent, SendSide.high, SendSide.unsent, other, unsent, send]
      exact (Nat.sub_add_cancel some).symm
    · rw [SendSide.sent, SendSide.unsent]
      rw [other, unsent]
      rfl
    · exact .refl

theorem invariant_sendFails (holds : state.Invariant phase)
    (went : state.sendFails = some next) : next.Invariant phase := by
  rw [State.sendFails] at went
  split at went
  next n send =>
    cases went
    exact invariant_withSend holds (by rw [send]; simp) (by rw [send]; rfl) (by rw [send]; rfl)
      trivial
  next n send =>
    split at went <;> cases went
    next broken =>
      have sends : state.sender.send ≠ .away := by rw [send]; simp
      have pushed : SendPc.away.pushed = state.sender.send.pushed := by rw [send]; rfl
      have down : phase = .down := by
        cases phase_of_busy holds (.inl sends) with
        | inl down => exact down
        | inr sending =>
          obtain rfl := sending
          have agreed := holds.agreed
          exact absurd agreed.sender broken
      exact invariant_of_moves holds (holds.sender.withSend pushed trivial sends)
        ⟨.inl sends, rfl, rfl, rfl, .inl rfl, (SendSide.high_withSend pushed).symm.le⟩
        (.inl ⟨rfl, .inl down⟩)
  next => cases went

namespace SendSide

variable {sender : SendSide}

theorem places_of_retransmits
    (run : sender.run = .history ∨ ∃ n, sender.run = .resend n ∨ sender.run = .push n)
    (away : sender.send = .away) (none : sender.recorderRetransmitNum = 0) : sender.Places := by
  obtain run | ⟨n, run | run⟩ := run
  all_goals
    refine ⟨?_, fun sends => absurd away sends, ?_, none, ?_, ?_⟩
    · intro no
      rw [run] at no
      cases no
    · intro no
      rw [run] at no
      cases no
    · intro left no
      rw [run] at no
      cases no
    · intro n left no
      rw [run] at no
      cases no

theorem Sound.history (sound : sender.Sound) (run : sender.run = .recorder []) :
    Sound { sender with run := .history } := by
  have away := sound.places.away_of_retransmits (by rw [run]; rfl)
  refine { sound with
    packets := ?_
    places := places_of_retransmits (.inl rfl) away sound.places.recorderRetransmitNum }
  have packets := sound.packets
  rw [SendSide.packets, run] at packets
  exact packets

variable {number : Nat}

section

variable (sound : sender.Sound)
include sound

theorem Sound.resend (run : sender.run = .history) {queue : List Nat}
    (holds : sender.otherQueue = number :: queue) :
    Sound { sender with otherQueue := queue, run := .resend number } := by
  have away := sound.places.away_of_retransmits (by rw [run]; rfl)
  refine ⟨?_, sound.popped, sound.amiRxQueue, sound.taken, sound.handler,
    places_of_retransmits (.inr ⟨number, .inl rfl⟩) away sound.places.recorderRetransmitNum⟩
  have packets := sound.packets
  rw [SendSide.packets, run, holds] at packets
  exact packets

theorem Sound.next_packet (run : sender.run = .resend number) :
    0 < number ∧ number + sender.otherQueue.length = sender.high := by
  have packets := sound.packets
  rw [SendSide.packets, run] at packets
  obtain ⟨below, _, rest⟩ := consecutive_append_iff.mp packets
  obtain ⟨rfl, rest⟩ := rest
  exact ⟨Nat.succ_pos below, rest.length⟩

theorem Sound.resent (run : sender.run = .resend number) :
    Sound { sender with run := .push number } := by
  have away := sound.places.away_of_retransmits (by rw [run]; rfl)
  refine ⟨?_, sound.popped, sound.amiRxQueue, sound.taken, sound.handler,
    places_of_retransmits (.inr ⟨number, .inr rfl⟩) away sound.places.recorderRetransmitNum⟩
  have packets := sound.packets
  rw [SendSide.packets, run] at packets
  exact packets

theorem Sound.pushAgain (run : sender.run = .push number) :
    Sound { sender with
        tcpPacketsQueue := sender.tcpPacketsQueue ++ [number]
        tcpTxPacketCnt := number
        run := .history } := by
  have away := sound.places.away_of_retransmits (by rw [run]; rfl)
  refine { sound with
    packets := ?_
    places := places_of_retransmits (.inl rfl) away sound.places.recorderRetransmitNum }
  have packets := sound.packets
  rw [SendSide.packets, run, ← append_assoc] at packets
  exact packets

theorem Sound.resume (run : sender.run = .history) (empty : sender.otherQueue = []) :
    Sound { sender with run := .onRun, send := .loop } := by
  have away := sound.places.away_of_retransmits (by rw [run]; rfl)
  refine ⟨?_, sound.popped, sound.amiRxQueue, trivial, sound.handler, fun _ => empty,
    fun _ => .inl rfl, ?_, sound.places.recorderRetransmitNum, ?_, ?_⟩
  · have packets := sound.packets
    rw [SendSide.packets, run, SendSide.high, away] at packets
    exact packets
  · nofun
  · nofun
  · nofun

end

end SendSide

theorem invariant_of_retransmits (holds : state.Invariant phase)
    (retransmits : state.sender.run.retransmits = true) (went : state.runStep = some next) :
    next.Invariant phase := by
  have sound := holds.sender
  have away := sound.places.away_of_retransmits retransmits
  rw [State.runStep] at went
  split at went
  all_goals try next run => rw [run] at retransmits; cases retransmits
  next run =>
    cases went
    refine invariant_of_moves holds (sound.history run)
      ⟨.inr retransmits, rfl, rfl, rfl, .inr ⟨retransmits, .inl rfl⟩, .refl⟩
      (.inl ⟨rfl, .inr ?_⟩)
    rw [SendSide.sent, SendSide.sent, SendSide.unsent, SendSide.unsent, run]
    rfl
  next number left run => cases sound.places.recorder _ run
  next number left run => exact absurd run (sound.places.recorderSend number left)
  next run =>
    split at went <;> cases went
    next empty =>
      refine invariant_of_moves holds (sound.resume run empty)
        ⟨.inr retransmits, rfl, rfl, rfl, .inr ⟨retransmits, .inr rfl⟩, ?_⟩ (.inl ⟨rfl, .inr ?_⟩)
      · rw [SendSide.high, away]
        exact .refl
      · rw [SendSide.sent, SendSide.sent, SendSide.high, SendSide.high, SendSide.unsent,
          SendSide.unsent, run, away]
        rfl
    next number queue holds' =>
      refine invariant_of_moves holds (sound.resend run holds')
        ⟨.inr retransmits, rfl, rfl, rfl, .inr ⟨retransmits, .inl rfl⟩, .refl⟩
        (.inl ⟨rfl, .inr ?_⟩)
      rw [SendSide.sent, SendSide.sent, SendSide.unsent, SendSide.unsent, run, holds']
      rfl
  next number run =>
    cases went
    obtain ⟨some, high⟩ := sound.next_packet run
    have unsent : state.sender.unsent = state.sender.otherQueue.length + 1 := by
      rw [SendSide.unsent, run, away]
      rfl
    have later : SendSide.unsent { state.sender with run := .push number } =
        state.sender.otherQueue.length := by
      rw [SendSide.unsent, away]
      rfl
    refine invariant_of_moves holds (sound.resent run)
      ⟨.inr retransmits, rfl, rfl, rfl, .inr ⟨retransmits, .inl rfl⟩, .refl⟩
      (.inr ⟨number, rfl, ?_, ?_, ?_⟩)
    · rw [SendSide.sent, unsent, ← high]
      omega
    · rw [SendSide.sent, later]
      exact Nat.sub_eq_of_eq_add high.symm
    · exact Nat.le.intro high
  next number run =>
    cases went
    refine invariant_of_moves holds (sound.pushAgain run)
      ⟨.inr retransmits, rfl, rfl, rfl, .inr ⟨retransmits, .inl rfl⟩, .refl⟩
      (.inl ⟨rfl, .inr ?_⟩)
    rw [SendSide.sent, SendSide.sent, SendSide.unsent, SendSide.unsent, run]
    rfl

theorem State.SyncFirst.of_prefix (syncFirst : state.SyncFirst)
    (replies : next.toSender <+: state.toSender) (sender : next.sender = state.sender) :
    next.SyncFirst := by
  refine ⟨?_, ?_, ?_⟩
  · intro reply mem
    obtain ⟨behind, more⟩ := replies
    have tail : reply ∈ state.toSender.tail := by
      cases holds : next.toSender with
      | nil =>
        rw [holds] at mem
        cases mem
      | cons first rest =>
        rw [holds] at mem more
        rw [← more]
        exact mem_append_left behind mem
    exact syncFirst.tail reply tail
  · rintro ⟨reply, mem, syncs⟩
    rw [sender]
    exact syncFirst.head ⟨reply, replies.mem mem, syncs⟩
  · intro syncs
    rw [sender] at syncs ⊢
    obtain ⟨unsynced, none⟩ := syncFirst.handler syncs
    exact ⟨unsynced, fun reply mem => none reply (replies.mem mem)⟩

theorem invariant_of_breaks (holds : state.Invariant phase) {toSender : List Reply}
    (replies : toSender <+: state.toSender) (requests : toReceiver <+: state.toReceiver) :
    Invariant .down
      { state with up := false, toSender := toSender, toReceiver := toReceiver } := by
  have packets : State.pending
      { state with up := false, toSender := toSender, toReceiver := toReceiver } <+:
        state.pending :=
    (prefix_append_right_inj _).mpr (requests.filterMap Request.packet)
  have closed (closed : state.Closed) : Closed
      { state with up := false, toSender := toSender, toReceiver := toReceiver } :=
    ⟨rfl, prefix_nil.mp (closed.toSender ▸ replies), closed.tcp⟩
  have peerClosed (closed : state.PeerClosed) : PeerClosed
      { state with up := false, toSender := toSender, toReceiver := toReceiver } :=
    ⟨rfl, prefix_nil.mp (closed.toReceiver ▸ requests)⟩
  refine
    { sender := holds.sender
      receiver := holds.receiver
      closed := fun run => closed (holds.closed run)
      connecting := fun stat => (holds.connecting stat).imp_left closed
      peerClosed := fun run => peerClosed (holds.peerClosed run)
      peerConnecting := fun stat => (holds.peerConnecting stat).imp_left peerClosed
      syncFirst := holds.syncFirst.of_prefix replies rfl
      ascending := ?_
      pending := ?_
      quiet := ?_
      agreed := rfl }
  · have fewer := ((replies.sublist.map Reply.number).append_right
      (state.receiver.reading)).append_right [state.receiver.amiTxMsgCnt]
    exact holds.ascending.sublist (fewer.cons_cons state.sender.target)
  · obtain ⟨upto, le, consecutive⟩ := holds.pending
    obtain ⟨behind, more⟩ := packets
    rw [← more] at consecutive
    obtain ⟨middle, before, consecutive⟩ := consecutive.of_append
    exact ⟨middle, before.trans le, consecutive⟩
  · intro fresh
    have quiet := holds.quiet fresh
    exact ⟨prefix_nil.mp (quiet.pending ▸ packets), quiet.tier, quiet.announces⟩

namespace SendSide

variable {sender : SendSide}

theorem hand_of_not_retransmits {run : RunPc} (before : run.retransmits = false) :
    run.hand = [] ∧ run.unsent = 0 := by
  cases run with
  | recorder | recorderSend | history | resend | push => cases before
  | _ => exact ⟨rfl, rfl⟩

theorem Sound.withRun (sound : sender.Sound) {run : RunPc} {peerSyncFinish : Bool}
    {tcpStat : TcpStatus} (before : sender.run.retransmits = false)
    (later : run.retransmits = false) (send : sender.send = .away ∨ run = .onRun ∨ run = .join)
    (swap : run = .swap → peerSyncFinish = true) :
    Sound { sender with run := run, peerSyncFinish := peerSyncFinish, tcpStat := tcpStat } := by
  refine ⟨?_, sound.popped, sound.amiRxQueue, sound.taken, sound.handler,
    fun _ => sound.places.other before, ?_, swap, sound.places.recorderRetransmitNum, ?_, ?_⟩
  · have packets := sound.packets
    rw [SendSide.packets, (hand_of_not_retransmits before).1] at packets
    rw [SendSide.packets, (hand_of_not_retransmits later).1]
    exact packets
  · intro sends
    cases send with
    | inl away => exact absurd away sends
    | inr places => exact places
  · rintro left rfl
    cases later
  · rintro n left rfl
    cases later

end SendSide

theorem invariant_withRun (holds : state.Invariant phase) {later : Phase} {run : RunPc}
    {peerSyncFinish : Bool} {tcpStat : TcpStatus}
    (before : state.sender.run.retransmits = false) (after : run.retransmits = false)
    (send : state.sender.send = .away ∨ run = .onRun ∨ run = .join)
    (swap : run = .swap → peerSyncFinish = true)
    (finish : state.sender.peerSyncFinish = false → peerSyncFinish = false)
    (requests : toReceiver = state.toReceiver ∨ toReceiver = state.sendRequest .peerSync)
    (closed : run = .syncLocalSession → state.Closed) (connecting : tcpStat = .kConnecting →
      state.Closed ∧ run = .connecting ∧ peerSyncFinish = false)
    (agreed : State.Agreed
      { state with
        toReceiver := toReceiver
        sender := { state.sender with
          run := run, peerSyncFinish := peerSyncFinish, tcpStat := tcpStat } } later) :
    Invariant later
      { state with
        toReceiver := toReceiver
        sender := { state.sender with
          run := run, peerSyncFinish := peerSyncFinish, tcpStat := tcpStat } } := by
  have unsynced (unsynced : state.sender.Unsynced) : SendSide.Unsynced { state.sender with
      run := run, peerSyncFinish := peerSyncFinish, tcpStat := tcpStat } :=
    ⟨finish unsynced.peerSyncFinish, unsynced.send, after⟩
  have peerClosed (closed : state.PeerClosed) : toReceiver = [] := by
    cases requests with
    | inl same => exact same.trans closed.toReceiver
    | inr request => exact request.trans (closed.sendRequest .peerSync)
  exact
    { sender := holds.sender.withRun before after send swap
      __ := holds
      closed := fun run =>
        have none := closed run
        { none with }
      connecting := fun stat =>
        have none := connecting stat
        ⟨{ none.1 with }, none.2⟩
      peerClosed := fun run => ⟨(holds.peerClosed run).up, peerClosed (holds.peerClosed run)⟩
      peerConnecting := fun stat =>
        have none := holds.peerConnecting stat
        ⟨⟨none.1.up, peerClosed none.1⟩, none.2⟩
      syncFirst := ⟨holds.syncFirst.tail, fun some => unsynced (holds.syncFirst.head some),
        fun syncs => (holds.syncFirst.handler syncs).imp_left unsynced⟩
      pending := by rw [pending_of_peerSync requests]; exact holds.pending
      quiet := fun fresh =>
        have quiet := holds.quiet fresh
        ⟨(pending_of_peerSync requests _).trans quiet.pending, quiet.tier, quiet.announces⟩
      agreed := agreed }

theorem down_of_broken (holds : state.Invariant phase)
    (broken : state.sender.tcpStat ≠ .kConnected) : state.up = false := by
  have agreed := holds.agreed
  cases phase with
  | down => exact agreed
  | fresh | announced recvPacketSqn | sending => exact absurd agreed.sender broken

theorem down_of_run (holds : state.Invariant phase) (syncs : state.sender.run.syncs = false)
    (retransmits : state.sender.run.retransmits = false)
    (run : state.sender.run ≠ .swap ∧ state.sender.run ≠ .onRun) : state.up = false := by
  have agreed := holds.agreed
  cases phase with
  | down => exact agreed
  | fresh => exact absurd (syncs.symm.trans agreed.run) (by decide)
  | announced recvPacketSqn =>
    cases agreed.run with
    | inl run => exact absurd (syncs.symm.trans run) (by decide)
    | inr swap => exact absurd swap run.1
  | sending =>
    cases agreed.run with
    | inl run => exact absurd (retransmits.symm.trans run) (by decide)
    | inr onRun => exact absurd onRun run.2

theorem SendSide.Places.away_of_run {sender : SendSide} (places : sender.Places)
    (run : sender.run ≠ .onRun ∧ sender.run ≠ .join) : sender.send = .away := by
  by_cases away : sender.send = .away
  · exact away
  · cases places.send away with
    | inl onRun => exact absurd onRun run.1
    | inr join => exact absurd join run.2

theorem invariant_of_syncs (holds : state.Invariant phase) {run : RunPc}
    (syncs : state.sender.run.syncs = true) (stat : state.sender.tcpStat ≠ .kConnecting)
    (later : run.syncs = true ∨ run = .swap ∧ state.sender.peerSyncFinish = true)
    (requests : toReceiver = state.toReceiver ∨ toReceiver = state.sendRequest .peerSync) :
    Invariant phase
      { state with toReceiver := toReceiver, sender := { state.sender with run := run } } := by
  have away := holds.sender.places.away_of_run
    (by cases run : state.sender.run <;> simp_all [RunPc.syncs])
  have before : state.sender.run.retransmits = false := by
    cases run : state.sender.run <;> simp_all [RunPc.syncs, RunPc.retransmits]
  have after : run.retransmits = false ∧ run ≠ .syncLocalSession := by
    cases run <;> simp_all [RunPc.syncs, RunPc.retransmits]
  have swap : run = .swap → state.sender.peerSyncFinish = true := by
    rintro rfl
    cases later with
    | inl syncs => cases syncs
    | inr swap => exact swap.2
  refine invariant_withRun holds before after.1 (.inl away) swap id requests
    (fun closed => absurd closed after.2) (fun connecting => absurd connecting stat) ?_
  have agreed := holds.agreed
  cases phase with
  | down => exact agreed
  | fresh =>
    cases later with
    | inl syncs => exact { agreed with run := syncs }
    | inr swap => exact absurd (agreed.peerSyncFinish.symm.trans swap.2) (by decide)
  | announced recvPacketSqn =>
    exact { agreed with
      pending := (pending_of_peerSync requests _).trans agreed.pending
      run := later.imp_right And.left }
  | sending =>
    cases agreed.run with
    | inl run => exact absurd (before.symm.trans run) (by decide)
    | inr onRun =>
      rw [onRun] at syncs
      cases syncs

theorem SendSide.Sound.exchange {sender : SendSide} (sound : sender.Sound)
    (run : sender.run = .swap) :
    Sound { sender with
        tcpPacketsQueue := [], otherQueue := sender.tcpPacketsQueue, run := .recorder [] } ∧
      sent { sender with
        tcpPacketsQueue := [], otherQueue := sender.tcpPacketsQueue, run := .recorder [] } =
          sender.low := by
  have places := sound.places
  have away := places.away_of_run (by rw [run]; simp)
  have empty := places.other (by rw [run]; rfl)
  have packets : Consecutive sender.low sender.high sender.tcpPacketsQueue := by
    simpa [SendSide.packets, run, RunPc.hand, empty] using sound.packets
  constructor
  · refine ⟨packets, sound.popped, sound.amiRxQueue, sound.taken, sound.handler, ?_,
      fun sends => absurd away sends, ?_, places.recorderRetransmitNum, ?_, ?_⟩
    · nofun
    · nofun
    · intro left equal
      exact (RunPc.recorder.inj equal).symm
    · nofun
  · have unsent : SendSide.unsent { sender with
        tcpPacketsQueue := [], otherQueue := sender.tcpPacketsQueue, run := .recorder [] } =
          sender.tcpPacketsQueue.length := by
      rw [SendSide.unsent, away]
      rfl
    rw [SendSide.sent, unsent]
    exact Nat.sub_eq_of_eq_add packets.length.symm

theorem invariant_swap (holds : state.Invariant phase) (run : state.sender.run = .swap) :
    ∃ later, Invariant later { state with
      sender := { state.sender with
        tcpPacketsQueue := state.sender.otherQueue
        otherQueue := state.sender.tcpPacketsQueue
        run := .recorder (leftOver state.sender) } } := by
  have sound := holds.sender
  have finished := sound.places.swap run
  have nothing : leftOver state.sender = [] := by
    rw [leftOver, sound.places.recorderRetransmitNum]
    rfl
  rw [nothing, sound.places.other (by rw [run]; rfl)]
  obtain ⟨exchanged, sent⟩ := sound.exchange run
  have unsynced : ¬ state.sender.Unsynced := by
    intro unsynced
    exact absurd (unsynced.peerSyncFinish.symm.trans finished) (by decide)
  have later (later : Phase) (agreed : State.Agreed { state with
      sender := { state.sender with
        tcpPacketsQueue := []
        otherQueue := state.sender.tcpPacketsQueue
        run := .recorder [] } } later) : Invariant later { state with
      sender := { state.sender with
        tcpPacketsQueue := []
        otherQueue := state.sender.tcpPacketsQueue
        run := .recorder [] } } := by
    exact
      { sender := exchanged
        __ := holds
        closed := fun no => by cases no
        connecting := holds.not_connecting (by simp [run])
        peerClosed := fun run => { holds.peerClosed run with }
        peerConnecting := fun stat => (holds.peerConnecting stat).imp_left ({ · with })
        syncFirst := ⟨holds.syncFirst.tail, fun some => absurd (holds.syncFirst.head some) unsynced,
          fun syncs => absurd (holds.syncFirst.handler syncs).1 unsynced⟩
        quiet := fun fresh =>
          have quiet := holds.quiet fresh
          { quiet with }
        agreed := agreed }
  have agreed := holds.agreed
  cases phase with
  | down => exact ⟨.down, later .down agreed⟩
  | fresh => exact absurd (agreed.peerSyncFinish.symm.trans finished) (by decide)
  | announced recvPacketSqn =>
    refine ⟨.sending, later .sending
      ⟨{ agreed with }, agreed.peer, .inl rfl, ?_⟩⟩
    have handing := holds.receiver.handing
    rw [ReceiveSide.Handing, agreed.tier] at handing
    rw [sent, agreed.low finished]
    have none : State.pending { state with
        sender := { state.sender with
          tcpPacketsQueue := []
          otherQueue := state.sender.tcpPacketsQueue
          run := .recorder [] } } = [] := agreed.pending
    rw [none]
    exact handing.1.symm.trans agreed.amiTxMsgCnt
  | sending =>
    have run' := agreed.run
    rw [run] at run'
    cases run' with
    | inl retransmits | inr retransmits => cases retransmits

theorem invariant_runStep (holds : state.Invariant phase) (went : state.runStep = some next) :
    ∃ later, next.Invariant later := by
  cases retransmits : state.sender.run.retransmits with
  | true => exact ⟨phase, invariant_of_retransmits holds retransmits went⟩
  | false =>
    rw [State.runStep] at went
    split at went
    all_goals try next run => rw [run] at retransmits; cases retransmits
    next run =>
      split at went <;> cases went
      next broken =>
        have up := down_of_broken holds (by rw [broken]; simp)
        refine ⟨.down, invariant_withRun holds retransmits rfl (.inr (.inr rfl)) (by simp) id
          (.inl rfl) (by simp) (by rw [broken]; simp) up⟩
    next run =>
      split at went <;> cases went
      next away =>
        have up := down_of_run holds (by rw [run]; rfl) retransmits (by rw [run]; simp)
        refine ⟨.down, invariant_withRun holds retransmits rfl (.inl away) (by simp)
          (fun _ => rfl) (.inl rfl) (by simp) (holds.not_connecting (by simp [run])) up⟩
    next run =>
      have away := holds.sender.places.away_of_run (by rw [run]; simp)
      split at went <;> cases went
      next idle =>
        have closed := invariant_of_breaks holds List.nil_prefix prefix_rfl
        exact ⟨.down, invariant_withRun closed retransmits rfl (.inl away) (by simp) id
          (.inl rfl) (fun _ => ⟨rfl, rfl, idle⟩) (holds.not_connecting (by simp [run])) rfl⟩
    next run =>
      cases went
      have away := holds.sender.places.away_of_run (by rw [run]; simp)
      have closed := holds.closed run
      exact ⟨.down, invariant_withRun holds retransmits rfl (.inl away) (by simp)
        (fun _ => rfl) (.inl rfl) (by simp) (fun _ => ⟨closed, rfl, rfl⟩) closed.up⟩
    next run =>
      split at went <;> cases went
      next connected =>
        exact ⟨phase, invariant_of_syncs holds (by rw [run]; rfl) (by rw [connected]; simp)
          (.inl rfl) (.inl rfl)⟩
      next broken =>
        have up := down_of_broken holds (by rw [broken]; simp)
        refine ⟨.down, invariant_withRun holds retransmits rfl (.inr (.inl rfl)) (by simp) id
          (.inl rfl) (by simp) (by rw [broken]; simp) up⟩
    next run =>
      cases went
      exact ⟨phase, invariant_of_syncs holds (by rw [run]; rfl)
        (holds.not_connecting (by simp [run])) (.inl rfl) (.inr rfl)⟩
    next run =>
      split at went
      next synced =>
        cases went
        exact ⟨phase, invariant_of_syncs holds (by rw [run]; rfl) (by rw [synced.2]; simp)
          (.inr ⟨rfl, synced.1⟩) (.inl rfl)⟩
      next =>
        split at went <;> cases went
        next broken =>
          have up := down_of_broken holds broken
          refine ⟨.down, invariant_withRun holds retransmits rfl (.inr (.inl rfl)) (by simp) id
            (.inl rfl) (by simp) (holds.not_connecting (by simp [run])) up⟩
    next run =>
      cases went
      exact invariant_swap holds run

end AdkAaf.AmiBridge.Session
