import AdkAaf.AmiBridge.Failover

/-! The connection after the peer has restarted, at the sending side of a leader: the threads of
TCP, of the tier channel, of `OnRun` and of `SendAmiMsg`, where each access to what they share is
a step. A message and its packet are given by their number. -/

set_option autoImplicit false

namespace AdkAaf.AmiBridge.PeerRestart

open List

open Adk.IoEngine (toInt32 toInt32_of_small toInt32_bounds)
open Lib

inductive RunType where
  | kUnknow
  | kRestart
  | kReconnect
  deriving DecidableEq

inductive TcpPc where
  | handleSyncMsg
  | replicateMsg
  | idle
  | handleAckMsg (recvPacketSqn : Nat) (num : Int)
  deriving DecidableEq

inductive TierPc where
  | idle
  | clear
  | setTxPacketCnt
  | setRecvAckSeq
  | finish
  | done
  deriving DecidableEq

/-- The thread in `SyncPeerSession` and `RetransmitMsg`; `recorder` has the messages that are
still to come from the recorder. -/
inductive MainPc where
  | syncPeerSession
  | wait
  | swap
  | recorder (left : List Nat)
  | recorderSent (number : Nat) (left : List Nat)
  | history
  | resend (number : Nat)
  | resent (number : Nat)
  | done
  deriving DecidableEq

inductive SendPc where
  | away
  | waitEntry
  | push (number : Nat)
  | pushed (number : Nat)
  deriving DecidableEq

/-- `received` is the number of the last message that came from AMI, `replicated` says whether the
tier channel holds the `PeerSyncMsg`, `sendPacketSqn` is what was announced to the peer, and
`discarded` are the packets that `HandleAckMsg` has popped after the reset. -/
structure State where
  tcpPacketsQueue : List Nat
  otherQueue : List Nat := []
  amiRxQueue : List Nat
  recorder : List Nat := []
  received : Nat
  amiRxMsgCnt : Nat
  tcpTxPacketCnt : Nat
  lastRecvAckSeq : Nat
  recorderRetransmitNum : Nat := 0
  recorderRetransmitBegin : Nat := 0
  runType : RunType := .kUnknow
  replicated : Bool := false
  peerSyncFinish : Bool := false
  sendPacketSqn : Nat := 0
  tcp : TcpPc := .handleSyncMsg
  tier : TierPc := .idle
  main : MainPc := .syncPeerSession
  send : SendPc := .away
  discarded : List Nat := []

namespace State

variable (state : State)

def reset : Bool :=
  match state.tier with
  | .finish => true
  | .done => true
  | _ => false

def tcpStep : Option State :=
  match state.tcp with
  | .handleSyncMsg => some { state with runType := .kRestart, tcp := .replicateMsg }
  | .replicateMsg => some { state with replicated := true, tcp := .idle }
  | .idle => none
  | .handleAckMsg recvPacketSqn num =>
    if 0 < num then
      match state.tcpPacketsQueue with
      | [] => none
      | number :: queue => some { state with
          tcpPacketsQueue := queue
          discarded := if state.reset then state.discarded ++ [number] else state.discarded
          tcp := .handleAckMsg recvPacketSqn (num - 1) }
    else
      some { state with lastRecvAckSeq := recvPacketSqn, tcp := .idle }

/-- A `TcpAckMsg` comes, which the peer sends after it has got the number that is announced to
it. -/
def handleAckMsg (state : State) (recvPacketSqn : Nat) : Option State :=
  if state.tcp = .idle ∧ state.main ≠ .syncPeerSession ∧ state.sendPacketSqn ≤ recvPacketSqn then
    some { state with
      tcp := .handleAckMsg recvPacketSqn (toInt32 (recvPacketSqn - state.lastRecvAckSeq)) }
  else
    none

def tierStep : Option State :=
  match state.tier with
  | .idle =>
    if state.replicated then
      some { state with
        replicated := false
        tier := if state.runType = .kRestart then .clear else .finish }
    else
      none
  | .clear =>
    match state.tcpPacketsQueue with
    | [] => some { state with tier := .setTxPacketCnt }
    | _ :: queue => some { state with tcpPacketsQueue := queue }
  | .setTxPacketCnt =>
    some { state with tcpTxPacketCnt := state.amiRxMsgCnt, tier := .setRecvAckSeq }
  | .setRecvAckSeq => some { state with lastRecvAckSeq := state.amiRxMsgCnt, tier := .finish }
  | .finish => some { state with peerSyncFinish := true, tier := .done }
  | .done => none

/-- What `RetransmitMsg` reads from the recorder. -/
def leftOver : List Nat :=
  if 0 < state.recorderRetransmitNum then
    (state.recorder.take ((state.recorderRetransmitBegin + state.recorderRetransmitNum) % 2 ^ 32 -
      1)).drop (state.recorderRetransmitBegin - 1)
  else []

def mainStep : Option State :=
  match state.main with
  | .syncPeerSession => some { state with sendPacketSqn := state.tcpTxPacketCnt, main := .wait }
  | .wait => if state.peerSyncFinish then some { state with main := .swap } else none
  | .swap => some { state with
      tcpPacketsQueue := state.otherQueue
      otherQueue := state.tcpPacketsQueue
      main := .recorder state.leftOver }
  | .recorder [] => some { state with main := .history }
  | .recorder (number :: left) => some { state with
      tcpPacketsQueue := state.tcpPacketsQueue ++ [number]
      main := .recorderSent number left }
  | .recorderSent number left => some { state with
      tcpTxPacketCnt := number
      recorderRetransmitNum := (state.recorderRetransmitNum + 2 ^ 32 - 1) % 2 ^ 32
      main := .recorder left }
  | .history =>
    match state.otherQueue with
    | [] => some { state with main := .done, send := .waitEntry }
    | number :: queue => some { state with otherQueue := queue, main := .resend number }
  | .resend number => some { state with
      tcpPacketsQueue := state.tcpPacketsQueue ++ [number]
      main := .resent number }
  | .resent number => some { state with tcpTxPacketCnt := number, main := .history }
  | .done => none

def sendStep : Option State :=
  match state.send with
  | .away => none
  | .waitEntry =>
    match state.amiRxQueue with
    | [] => none
    | number :: queue =>
      some { state with amiRxQueue := queue, amiRxMsgCnt := number, send := .push number }
  | .push number => some { state with
      tcpPacketsQueue := state.tcpPacketsQueue ++ [number]
      send := .pushed number }
  | .pushed number => some { state with tcpTxPacketCnt := number, send := .waitEntry }

/-- `AmiBridge::OnMessage`; AMI numbers its messages one by one. -/
def onMessage (state : State) : State :=
  { state with
    received := state.received + 1
    amiRxQueue := state.amiRxQueue ++ [state.received + 1] }

end State

inductive Action where
  | onMessage
  | tcp
  | handleAckMsg (recvPacketSqn : Nat)
  | tier
  | main
  | send

def State.step (state : State) : Action → Option State
  | .onMessage => some state.onMessage
  | .tcp => state.tcpStep
  | .handleAckMsg recvPacketSqn => state.handleAckMsg recvPacketSqn
  | .tier => state.tierStep
  | .main => state.mainStep
  | .send => state.sendStep

namespace State

/-- A leader whose connection has just been made, with any queue and any counters. -/
structure Start (state : State) : Prop where
  tcp : state.tcp = .handleSyncMsg
  tier : state.tier = .idle
  main : state.main = .syncPeerSession
  send : state.send = .away
  replicated : state.replicated = false
  peerSyncFinish : state.peerSyncFinish = false
  otherQueue : state.otherQueue = []
  discarded : state.discarded = []
  acked : state.lastRecvAckSeq ≤ state.tcpTxPacketCnt
  received : state.amiRxMsgCnt ≤ state.received
  amiRxQueue : state.amiRxQueue =
    range' (state.amiRxMsgCnt + 1) (state.received - state.amiRxMsgCnt)

structure Quiet (state : State) : Prop where
  tcp : state.tcp = .handleSyncMsg ∨ state.tcp = .idle
  tier : state.tier = .idle ∨ state.tier = .done
  main : state.main = .syncPeerSession ∨ state.main = .wait ∨ state.main = .done
  send : state.send = .away ∨ state.send = .waitEntry

/-- The queue holds the packets that were sent and are not acknowledged. -/
def Exact (state : State) : Prop :=
  state.tcpPacketsQueue =
    range' (state.lastRecvAckSeq + 1) (state.tcpTxPacketCnt - state.lastRecvAckSeq)

/-- `HandleAckMsg` and the reset of the tier thread keep out of each other's way, a number that is
acknowledged is not below the one before and is near enough for `num`, and no range of an earlier
connection is left when `RetransmitMsg` begins. -/
def Ordered (state : State) : Action → Prop
  | .handleAckMsg recvPacketSqn =>
    (state.tier = .idle ∨ state.reset = true) ∧ state.lastRecvAckSeq ≤ recvPacketSqn ∧
      recvPacketSqn - state.lastRecvAckSeq < 2 ^ 31
  | .tier => state.tier = .idle → state.tcp = .idle
  | .main => state.main = .swap → state.leftOver = []
  | _ => True

instance (state : State) : ∀ action, Decidable (state.Ordered action)
  | .onMessage => inferInstanceAs (Decidable True)
  | .tcp => inferInstanceAs (Decidable True)
  | .handleAckMsg recvPacketSqn => inferInstanceAs (Decidable
      ((state.tier = .idle ∨ state.reset = true) ∧ state.lastRecvAckSeq ≤ recvPacketSqn ∧
        recvPacketSqn - state.lastRecvAckSeq < 2 ^ 31))
  | .tier => inferInstanceAs (Decidable (state.tier = .idle → state.tcp = .idle))
  | .main => inferInstanceAs (Decidable (state.main = .swap → state.leftOver = []))
  | .send => inferInstanceAs (Decidable True)

instance (state : State) : Decidable state.Quiet :=
  decidable_of_iff ((state.tcp = .handleSyncMsg ∨ state.tcp = .idle) ∧
      (state.tier = .idle ∨ state.tier = .done) ∧
      (state.main = .syncPeerSession ∨ state.main = .wait ∨ state.main = .done) ∧
      (state.send = .away ∨ state.send = .waitEntry))
    ⟨fun ⟨tcp, tier, main, send⟩ => ⟨tcp, tier, main, send⟩,
      fun ⟨tcp, tier, main, send⟩ => ⟨tcp, tier, main, send⟩⟩

instance (state : State) : Decidable state.Exact :=
  inferInstanceAs (Decidable (_ = _))

end State

namespace State

variable (state : State)

def low : Nat :=
  match state.tcp with
  | .handleAckMsg recvPacketSqn num => recvPacketSqn - num.toNat
  | _ => state.lastRecvAckSeq

def Acks : Prop :=
  ∀ recvPacketSqn num, state.tcp = .handleAckMsg recvPacketSqn num →
    0 ≤ num ∧ num ≤ recvPacketSqn

def high : Nat :=
  match state.send with
  | .pushed number => number
  | _ => state.tcpTxPacketCnt

/-- The queue as it is also while packets are popped and pushed. -/
structure Held (state : State) : Prop where
  queue : state.tcpPacketsQueue = range' (state.low + 1) (state.high - state.low)
  low_le : state.low ≤ state.high

structure Early (state : State) : Prop where
  main : state.main = .syncPeerSession ∨ state.main = .wait
  send : state.send = .away
  peerSyncFinish : state.peerSyncFinish = false
  discarded : state.discarded = []

/-- Where the thread in `RetransmitMsg` can be after the reset; there is nothing to send before
`SendAmiMsg` begins. -/
def Idle : Prop :=
  match state.main with
  | .recorderSent _ _ => False
  | .resend _ => False
  | .resent _ => False
  | .recorder left => left = [] ∧ state.send = .away
  | .done => True
  | _ => state.send = .away

def Sending : Prop :=
  match state.send with
  | .push number => number = state.tcpTxPacketCnt + 1 ∧ number = state.amiRxMsgCnt
  | .pushed number => number = state.tcpTxPacketCnt + 1 ∧ number = state.amiRxMsgCnt
  | _ => state.tcpTxPacketCnt = state.amiRxMsgCnt

structure Late (state : State) : Prop where
  held : state.Held
  idle : state.Idle
  sending : state.Sending
  empty : state.send = .away → state.tcpPacketsQueue = []
  discarded : ∀ number ∈ state.discarded, number ≤ state.low

def Phase (initial state : State) : Prop :=
  match state.tier with
  | .idle => state.Early ∧ (initial.Exact → state.Held)
  | .clear => state.Early ∧ state.tcp = .idle
  | .setTxPacketCnt => state.Early ∧ state.tcp = .idle ∧ state.tcpPacketsQueue = []
  | .setRecvAckSeq => state.Early ∧ state.tcp = .idle ∧ state.tcpPacketsQueue = [] ∧
      state.tcpTxPacketCnt = state.amiRxMsgCnt
  | .finish | .done => state.Late

structure Invariant (initial state : State) : Prop where
  received : state.amiRxMsgCnt ≤ state.received
  amiRxQueue : state.amiRxQueue =
    range' (state.amiRxMsgCnt + 1) (state.received - state.amiRxMsgCnt)
  otherQueue : state.otherQueue = []
  runType : state.tcp = .handleSyncMsg ∨ state.runType = .kRestart
  replicated : state.replicated = true → state.runType = .kRestart
  acks : state.Acks
  phase : Phase initial state

end State

section Preserved

open State

variable {initial state next : State}

theorem held_start (start : initial.Start) (exact : initial.Exact) : initial.Held := by
  have low : initial.low = initial.lastRecvAckSeq := by rw [State.low, start.tcp]
  have high : initial.high = initial.tcpTxPacketCnt := by rw [State.high, start.send]
  refine ⟨?_, ?_⟩
  · rw [low, high]
    exact exact
  · rw [low, high]
    exact start.acked

theorem invariant_start (start : initial.Start) : Invariant initial initial := by
  refine { start with runType := .inl start.tcp, replicated := ?_, acks := ?_, phase := ?_ }
  · intro replicated
    rw [start.replicated] at replicated
    cases replicated
  · intro recvPacketSqn num handling
    rw [start.tcp] at handling
    cases handling
  · rw [Phase, start.tier]
    exact ⟨{ start with main := .inl start.main }, held_start start⟩

theorem State.Held.same (held : state.Held)
    (queue : next.tcpPacketsQueue = state.tcpPacketsQueue) (low : next.low = state.low)
    (high : next.high = state.high) : next.Held := by
  refine ⟨?_, ?_⟩
  · rw [queue, low, high]
    exact held.queue
  · rw [low, high]
    exact held.low_le

theorem tcpStep_cases (went : state.tcpStep = some next) :
    (state.tcp = .handleSyncMsg ∧
      next = { state with runType := .kRestart, tcp := .replicateMsg }) ∨
    (state.tcp = .replicateMsg ∧ next = { state with replicated := true, tcp := .idle }) ∨
    (∃ recvPacketSqn num number queue, state.tcp = .handleAckMsg recvPacketSqn num ∧ 0 < num ∧
      state.tcpPacketsQueue = number :: queue ∧ next = { state with
        tcpPacketsQueue := queue
        discarded := if state.reset then state.discarded ++ [number] else state.discarded
        tcp := .handleAckMsg recvPacketSqn (num - 1) }) ∨
    (∃ recvPacketSqn num, state.tcp = .handleAckMsg recvPacketSqn num ∧ num ≤ 0 ∧
      next = { state with lastRecvAckSeq := recvPacketSqn, tcp := .idle }) := by
  rw [tcpStep] at went
  split at went
  next syncing =>
    cases went
    exact .inl ⟨syncing, rfl⟩
  next replicating =>
    cases went
    exact .inr (.inl ⟨replicating, rfl⟩)
  next => cases went
  next recvPacketSqn num handling =>
    split at went
    next more =>
      split at went <;> cases went
      next number queue holds =>
        exact .inr (.inr (.inl ⟨recvPacketSqn, num, number, queue, handling, more, holds, rfl⟩))
    next none =>
      cases went
      exact .inr (.inr (.inr ⟨recvPacketSqn, num, handling, Int.not_lt.mp none, rfl⟩))

theorem range'_cons {first count n : Nat} {queue : List Nat}
    (same : n :: queue = range' first count) :
    n = first ∧ queue = range' (first + 1) (count - 1) ∧ 0 < count := by
  cases count with
  | zero => cases same
  | succ count =>
    obtain ⟨head, tail⟩ := cons.inj same
    exact ⟨head, tail, Nat.succ_pos count⟩

theorem held_tcpStep (held : state.Held) (acks : state.Acks) (went : state.tcpStep = some next) :
    next.Held ∧ state.low ≤ next.low ∧ ((∀ number ∈ state.discarded, number ≤ state.low) →
        ∀ number ∈ next.discarded, number ≤ next.low) := by
  have same (queue : next.tcpPacketsQueue = state.tcpPacketsQueue) (low : next.low = state.low)
      (high : next.high = state.high) (discarded : next.discarded = state.discarded) :
      next.Held ∧ state.low ≤ next.low ∧ ((∀ number ∈ state.discarded, number ≤ state.low) →
          ∀ number ∈ next.discarded, number ≤ next.low) := by
    refine ⟨held.same queue low high, low.symm.le, ?_⟩
    rw [discarded, low]
    exact id
  obtain ⟨syncing, rfl⟩ | ⟨replicating, rfl⟩ | popped | finished := tcpStep_cases went
  · exact same rfl (by simp [State.low, syncing]) rfl rfl
  · exact same rfl (by simp [State.low, replicating]) rfl rfl
  · obtain ⟨recvPacketSqn, num, number, queue, handling, more, holds, rfl⟩ := popped
    obtain ⟨_, num_le⟩ := acks _ _ handling
    have low : state.low = recvPacketSqn - num.toNat := by rw [State.low, handling]
    generalize after : { state with
      tcpPacketsQueue := queue
      discarded := if state.reset then state.discarded ++ [number] else state.discarded
      tcp := .handleAckMsg recvPacketSqn (num - 1) } = next
    have next_low : next.low = state.low + 1 := by
      subst after
      change recvPacketSqn - (num - 1).toNat = _
      omega
    have next_high : next.high = state.high := by rw [← after]; rfl
    obtain ⟨first, rest, some⟩ := range'_cons (holds.symm.trans held.queue)
    refine ⟨⟨?_, ?_⟩, ?_, ?_⟩
    · rw [next_low, next_high, ← after, ← Nat.sub_sub]
      exact rest
    · rw [next_low, next_high]
      exact Nat.lt_of_sub_pos some
    · exact Nat.le_of_lt (Nat.lt_of_lt_of_eq (Nat.lt_succ_self _) next_low.symm)
    · intro below popped mem
      rw [next_low]
      have either : popped ∈ state.discarded ∨ popped = number := by
        rw [← after] at mem
        split at mem
        next => simpa using mem
        next => exact .inl mem
      cases either with
      | inl before => exact Nat.le_succ_of_le (below popped before)
      | inr same => exact (same.trans first).le
  · obtain ⟨recvPacketSqn, num, handling, none, rfl⟩ := finished
    obtain ⟨nonneg, _⟩ := acks _ _ handling
    have low : state.low = recvPacketSqn := by
      have zero : num = 0 := Int.le_antisymm none nonneg
      rw [State.low, handling, zero]
      rfl
    exact same rfl low.symm rfl rfl

structure TcpFrame (state next : State) : Prop where
  tier : next.tier = state.tier
  main : next.main = state.main
  send : next.send = state.send
  peerSyncFinish : next.peerSyncFinish = state.peerSyncFinish
  received : next.received = state.received
  amiRxQueue : next.amiRxQueue = state.amiRxQueue
  amiRxMsgCnt : next.amiRxMsgCnt = state.amiRxMsgCnt
  tcpTxPacketCnt : next.tcpTxPacketCnt = state.tcpTxPacketCnt
  otherQueue : next.otherQueue = state.otherQueue
  queue : state.tcpPacketsQueue = [] → next.tcpPacketsQueue = []
  discarded : state.reset = false → next.discarded = state.discarded

theorem tcpFrame (went : state.tcpStep = some next) : TcpFrame state next := by
  obtain ⟨_, rfl⟩ | ⟨_, rfl⟩ | popped | finished := tcpStep_cases went
  · exact ⟨rfl, rfl, rfl, rfl, rfl, rfl, rfl, rfl, rfl, id, fun _ => rfl⟩
  · exact ⟨rfl, rfl, rfl, rfl, rfl, rfl, rfl, rfl, rfl, id, fun _ => rfl⟩
  · obtain ⟨recvPacketSqn, num, number, queue, handling, more, holds, rfl⟩ := popped
    refine ⟨rfl, rfl, rfl, rfl, rfl, rfl, rfl, rfl, rfl, ?_, ?_⟩
    · intro empty
      rw [holds] at empty
      cases empty
    · intro early
      exact if_neg (by rw [early]; decide)
  · obtain ⟨recvPacketSqn, num, handling, none, rfl⟩ := finished
    exact ⟨rfl, rfl, rfl, rfl, rfl, rfl, rfl, rfl, rfl, id, fun _ => rfl⟩

theorem State.Early.tcp (early : state.Early) (frame : TcpFrame state next)
    (unset : state.reset = false) : next.Early where
  main := by rw [frame.main]; exact early.main
  send := frame.send.trans early.send
  peerSyncFinish := frame.peerSyncFinish.trans early.peerSyncFinish
  discarded := (frame.discarded unset).trans early.discarded

theorem State.Late.same (late : state.Late)
    (queue : next.tcpPacketsQueue = state.tcpPacketsQueue) (low : next.low = state.low)
    (main : next.main = state.main) (send : next.send = state.send)
    (tcpTxPacketCnt : next.tcpTxPacketCnt = state.tcpTxPacketCnt)
    (amiRxMsgCnt : next.amiRxMsgCnt = state.amiRxMsgCnt)
    (discarded : next.discarded = state.discarded) : next.Late := by
  have high : next.high = state.high := by rw [State.high, State.high, send, tcpTxPacketCnt]
  refine ⟨late.held.same queue low high, ?_, ?_, ?_, ?_⟩
  · rw [Idle, main, send]
    exact late.idle
  · rw [Sending, send, tcpTxPacketCnt, amiRxMsgCnt]
    exact late.sending
  · rw [send, queue]
    exact late.empty
  · rw [discarded, low]
    exact late.discarded

theorem State.Late.tcp (late : state.Late)
    (acks : state.Acks) (went : state.tcpStep = some next) : next.Late := by
  have frame := tcpFrame went
  obtain ⟨held, _, discarded⟩ := held_tcpStep late.held acks went
  refine ⟨held, ?_, ?_, ?_, discarded late.discarded⟩
  · rw [Idle, frame.main, frame.send]
    exact late.idle
  · rw [Sending, frame.send, frame.tcpTxPacketCnt, frame.amiRxMsgCnt]
    exact late.sending
  · intro away
    exact frame.queue (late.empty (frame.send.symm.trans away))

theorem restart_tcpStep (runType : state.tcp = .handleSyncMsg ∨ state.runType = .kRestart)
    (acks : state.Acks) (went : state.tcpStep = some next) :
    next.runType = .kRestart ∧ next.Acks := by
  obtain ⟨_, rfl⟩ | ⟨replicating, rfl⟩ | popped | finished := tcpStep_cases went
  · refine ⟨rfl, ?_⟩
    nofun
  · refine ⟨?_, ?_⟩
    · cases runType with
      | inl syncing => exact absurd (syncing.symm.trans replicating) (by decide)
      | inr restart => exact restart
    · nofun
  · obtain ⟨recvPacketSqn, num, number, queue, handling, more, holds, rfl⟩ := popped
    refine ⟨?_, ?_⟩
    · cases runType with
      | inl syncing => exact absurd (syncing.symm.trans handling) (by simp)
      | inr restart => exact restart
    · intro _ _ counts
      obtain ⟨_, num_le⟩ := acks _ _ handling
      cases counts
      exact ⟨by omega, by omega⟩
  · obtain ⟨recvPacketSqn, num, handling, none, rfl⟩ := finished
    refine ⟨?_, ?_⟩
    · cases runType with
      | inl syncing => exact absurd (syncing.symm.trans handling) (by simp)
      | inr restart => exact restart
    · nofun

theorem invariant_tcpStep (inv : Invariant initial state)
    (went : state.tcpStep = some next) : Invariant initial next := by
  have frame := tcpFrame went
  obtain ⟨restart, acks⟩ := restart_tcpStep inv.runType inv.acks went
  refine ⟨?_, ?_, ?_, .inr restart, fun _ => restart, acks, ?_⟩
  · rw [frame.amiRxMsgCnt, frame.received]
    exact inv.received
  · rw [frame.amiRxQueue, frame.amiRxMsgCnt, frame.received]
    exact inv.amiRxQueue
  · exact frame.otherQueue.trans inv.otherQueue
  · have phase := inv.phase
    rw [Phase] at phase ⊢
    rw [frame.tier]
    have stuck {fact : Prop} (idle : state.tcp = .idle) : fact := by
      rw [tcpStep, idle] at went
      cases went
    cases tier : state.tier with rw [tier] at phase
    | idle =>
      obtain ⟨early, held⟩ := phase
      have unset : state.reset = false := by rw [reset, tier]
      exact ⟨early.tcp frame unset, fun exact =>
        (held_tcpStep (held exact) inv.acks went).1⟩
    | clear => exact stuck phase.2
    | setTxPacketCnt | setRecvAckSeq => exact stuck phase.2.1
    | finish | done => exact phase.tcp inv.acks went

theorem invariant_handleAckMsg (inv : Invariant initial state) {recvPacketSqn : Nat}
    (ordered : state.Ordered (.handleAckMsg recvPacketSqn))
    (went : state.handleAckMsg recvPacketSqn = some next) : Invariant initial next := by
  obtain ⟨place, low_le, near⟩ := ordered
  rw [handleAckMsg] at went
  split at went <;> cases went
  next conditions =>
    have num : toInt32 (recvPacketSqn - state.lastRecvAckSeq) =
        (recvPacketSqn - state.lastRecvAckSeq : Nat) := by
      rw [toInt32_of_small (by omega) (by omega)]
      omega
    rw [num]
    generalize after : { state with
      tcp := .handleAckMsg recvPacketSqn (recvPacketSqn - state.lastRecvAckSeq : Nat) } = next
    have low : next.low = state.low := by
      rw [State.low, State.low, ← after, conditions.1]
      dsimp only
      omega
    subst after
    refine { inv with runType := ?_, acks := ?_, phase := ?_ }
    · cases inv.runType with
      | inl syncing => exact absurd (syncing.symm.trans conditions.1) (by decide)
      | inr restart => exact .inr restart
    · intro _ _ counts
      cases counts
      exact ⟨Int.natCast_nonneg _, by omega⟩
    · have phase := inv.phase
      rw [Phase] at phase ⊢
      rw [reset] at place
      cases tier : state.tier with
      | idle =>
        rw [tier] at phase
        obtain ⟨early, held⟩ := phase
        exact ⟨{ early with }, fun exact => (held exact).same rfl low rfl⟩
      | clear | setTxPacketCnt | setRecvAckSeq => simp [tier] at place
      | finish | done =>
        rw [tier] at phase
        exact phase.same rfl low rfl rfl rfl rfl rfl

theorem late_setRecvAckSeq (early : state.Early) (tcp : state.tcp = .idle)
    (empty : state.tcpPacketsQueue = []) (level : state.tcpTxPacketCnt = state.amiRxMsgCnt) :
    State.Late { state with lastRecvAckSeq := state.amiRxMsgCnt, tier := .finish } := by
  have low : State.low { state with
      lastRecvAckSeq := state.amiRxMsgCnt, tier := .finish } = state.amiRxMsgCnt := by
    rw [State.low]
    rw [tcp]
  have high : State.high { state with
      lastRecvAckSeq := state.amiRxMsgCnt, tier := .finish } = state.amiRxMsgCnt := by
    rw [early.send]
    exact level
  refine ⟨⟨?_, ?_⟩, ?_, ?_, fun _ => empty, ?_⟩
  · rw [low, high, Nat.sub_self]
    exact empty
  · exact (low.trans high.symm).le
  · rw [Idle]
    cases early.main with
    | inl syncing | inr syncing =>
      rw [syncing]
      exact early.send
  · rw [Sending]
    rw [early.send]
    exact level
  · intro n mem
    rw [early.discarded] at mem
    cases mem

theorem invariant_tierStep (inv : Invariant initial state)
    (ordered : state.Ordered .tier) (went : state.tierStep = some next) :
    Invariant initial next := by
  have phase := inv.phase
  rw [Phase] at phase
  rw [tierStep] at went
  cases tier : state.tier with
  | idle =>
    rw [tier] at phase went
    dsimp only at went
    split at went <;> cases went
    next replicated =>
      have restart := inv.replicated replicated
      refine { inv with runType := .inr restart, replicated := fun _ => restart, phase := ?_ }
      rw [Phase, if_pos restart]
      exact ⟨{ phase.1 with }, ordered tier⟩
  | clear =>
    rw [tier] at phase went
    dsimp only at went
    obtain ⟨early, tcp⟩ := phase
    have early' : ∀ queue place, State.Early
        { state with tcpPacketsQueue := queue, tier := place } :=
      fun _ _ => { early with }
    split at went <;> cases went
    next empty =>
      exact ⟨inv.received, inv.amiRxQueue, inv.otherQueue, inv.runType,
        inv.replicated, inv.acks, early' _ _, tcp, empty⟩
    next queue _ =>
      refine { inv with phase := ?_ }
      exact ⟨{ early with }, tcp⟩
  | setTxPacketCnt =>
    rw [tier] at phase went
    cases went
    obtain ⟨early, tcp, empty⟩ := phase
    exact ⟨inv.received, inv.amiRxQueue, inv.otherQueue, inv.runType,
      inv.replicated, inv.acks,
      { early with }, tcp, empty, rfl⟩
  | setRecvAckSeq =>
    rw [tier] at phase went
    cases went
    obtain ⟨early, tcp, empty, level⟩ := phase
    refine { inv with acks := ?_, phase := late_setRecvAckSeq early tcp empty level }
    exact inv.acks
  | finish =>
    rw [tier] at phase went
    cases went
    exact { inv with phase := phase.same rfl rfl rfl rfl rfl rfl rfl }
  | done =>
    rw [tier] at went
    cases went

structure Untouched (state next : State) : Prop where
  early : next.Early
  tcp : next.tcp = state.tcp
  tcpPacketsQueue : next.tcpPacketsQueue = state.tcpPacketsQueue
  tcpTxPacketCnt : next.tcpTxPacketCnt = state.tcpTxPacketCnt
  amiRxMsgCnt : next.amiRxMsgCnt = state.amiRxMsgCnt
  lastRecvAckSeq : next.lastRecvAckSeq = state.lastRecvAckSeq

theorem phase_same (phase : Phase initial state) (tier : next.tier = state.tier)
    (before : state.Early → Untouched state next) (after : state.Late → next.Late) :
    Phase initial next := by
  rw [Phase] at phase ⊢
  rw [tier]
  cases place : state.tier with rw [place] at phase
  | idle =>
    obtain ⟨early, held⟩ := phase
    have same := before early
    refine ⟨same.early, fun exact => (held exact).same same.tcpPacketsQueue ?_ ?_⟩
    · rw [State.low, State.low, same.tcp, same.lastRecvAckSeq]
    · rw [State.high, State.high, same.early.send, early.send]
      exact same.tcpTxPacketCnt
  | clear =>
    have same := before phase.1
    exact ⟨same.early, same.tcp.trans phase.2⟩
  | setTxPacketCnt =>
    obtain ⟨early, tcp, empty⟩ := phase
    have same := before early
    exact ⟨same.early, same.tcp.trans tcp, same.tcpPacketsQueue.trans empty⟩
  | setRecvAckSeq =>
    obtain ⟨early, tcp, empty, level⟩ := phase
    have same := before early
    refine ⟨same.early, same.tcp.trans tcp, same.tcpPacketsQueue.trans empty, ?_⟩
    rw [same.tcpTxPacketCnt, same.amiRxMsgCnt]
    exact level
  | finish | done => exact after phase

theorem State.Early.main_cases (early : state.Early) (went : state.mainStep = some next) :
    next = { state with sendPacketSqn := state.tcpTxPacketCnt, main := .wait } := by
  rw [mainStep] at went
  cases early.main with
  | inl syncing =>
    rw [syncing] at went
    cases went
    rfl
  | inr waiting =>
    rw [waiting, early.peerSyncFinish] at went
    cases went

theorem State.Late.mainStep (late : state.Late) (otherQueue : state.otherQueue = [])
    (ordered : state.Ordered .main) (went : state.mainStep = some next) :
    next.Late ∧ next.otherQueue = [] := by
  have idle := late.idle
  rw [Idle] at idle
  rw [State.mainStep] at went
  cases main : state.main with
  | syncPeerSession =>
    rw [main] at idle went
    cases went
    exact ⟨{ late with held := late.held.same rfl rfl rfl, idle := idle }, otherQueue⟩
  | wait =>
    rw [main] at idle went
    dsimp only at went
    split at went <;> cases went
    exact ⟨{ late with held := late.held.same rfl rfl rfl, idle := idle }, otherQueue⟩
  | swap =>
    rw [main] at idle went
    cases went
    have empty := late.empty idle
    refine ⟨⟨?_, ⟨ordered main, idle⟩, late.sending, fun _ => otherQueue, late.discarded⟩, empty⟩
    exact late.held.same (otherQueue.trans empty.symm) rfl rfl
  | recorder left =>
    rw [main] at idle went
    obtain ⟨nothing, away⟩ := idle
    subst nothing
    cases went
    exact ⟨{ late with held := late.held.same rfl rfl rfl, idle := away }, otherQueue⟩
  | recorderSent n left | resend n | resent n =>
    rw [main] at idle
    exact idle.elim
  | history =>
    rw [main] at idle went
    rw [otherQueue] at went
    cases went
    have sending := late.sending
    rw [Sending] at sending
    rw [idle] at sending
    refine ⟨⟨late.held.same rfl rfl ?_, trivial, sending, ?_, late.discarded⟩, rfl⟩
    · rw [State.high, State.high, idle]
    · nofun
  | done =>
    rw [main] at went
    cases went

structure MainFrame (state next : State) : Prop where
  tier : next.tier = state.tier
  tcp : next.tcp = state.tcp
  runType : next.runType = state.runType
  replicated : next.replicated = state.replicated
  received : next.received = state.received
  amiRxMsgCnt : next.amiRxMsgCnt = state.amiRxMsgCnt
  amiRxQueue : next.amiRxQueue = state.amiRxQueue

theorem mainFrame (went : state.mainStep = some next) : MainFrame state next := by
  rw [mainStep] at went
  split at went
  case h_2 =>
    split at went <;> cases went
    exact ⟨rfl, rfl, rfl, rfl, rfl, rfl, rfl⟩
  case h_7 =>
    split at went
    all_goals
      cases went
      exact ⟨rfl, rfl, rfl, rfl, rfl, rfl, rfl⟩
  case h_10 => cases went
  all_goals
    cases went
    exact ⟨rfl, rfl, rfl, rfl, rfl, rfl, rfl⟩

theorem early_or_late (phase : Phase initial state) : state.Early ∨ state.Late := by
  rw [Phase] at phase
  split at phase
  next => exact .inl phase.1
  next => exact .inl phase.1
  next => exact .inl phase.1
  next => exact .inl phase.1
  all_goals exact .inr phase

theorem invariant_mainStep (inv : Invariant initial state)
    (ordered : state.Ordered .main) (went : state.mainStep = some next) :
    Invariant initial next := by
  have frame := mainFrame went
  refine ⟨?_, ?_, ?_, ?_, ?_, ?_, ?_⟩
  · rw [frame.amiRxMsgCnt, frame.received]
    exact inv.received
  · rw [frame.amiRxQueue, frame.amiRxMsgCnt, frame.received]
    exact inv.amiRxQueue
  · cases early_or_late inv.phase with
    | inl early =>
      rw [early.main_cases went]
      exact inv.otherQueue
    | inr late => exact (late.mainStep inv.otherQueue ordered went).2
  · rw [frame.tcp, frame.runType]
    exact inv.runType
  · rw [frame.replicated, frame.runType]
    exact inv.replicated
  · rw [Acks, frame.tcp]
    exact inv.acks
  · apply phase_same inv.phase frame.tier
    · intro early
      rw [early.main_cases went]
      exact ⟨{ early with main := .inr rfl },
        rfl, rfl, rfl, rfl, rfl⟩
    · intro late
      exact (late.mainStep inv.otherQueue ordered went).1

theorem State.Late.done (late : state.Late) (busy : state.send ≠ .away) : state.main = .done := by
  have idle := late.idle
  rw [Idle] at idle
  split at idle
  next => exact idle.elim
  next => exact idle.elim
  next => exact idle.elim
  next => exact absurd idle.2 busy
  next done => exact done
  next => exact absurd idle busy

theorem State.Idle.done {state : State} (done : state.main = .done) : state.Idle := by
  rw [Idle, done]
  trivial

theorem State.Late.sendStep (late : state.Late) (amiRxQueue : state.amiRxQueue =
      range' (state.amiRxMsgCnt + 1) (state.received - state.amiRxMsgCnt))
    (went : state.sendStep = some next) :
    next.Late ∧ (state.amiRxMsgCnt ≤ state.received → next.amiRxMsgCnt ≤ next.received) ∧
      next.amiRxQueue = range' (next.amiRxMsgCnt + 1) (next.received - next.amiRxMsgCnt) := by
  have sending := late.sending
  rw [Sending] at sending
  rw [State.sendStep] at went
  cases send : state.send with
  | away =>
    rw [send] at went
    cases went
  | waitEntry =>
    rw [send] at went sending
    dsimp only at went
    have done := late.done (by rw [send]; decide)
    split at went <;> cases went
    next n queue holds =>
      obtain ⟨rfl, rest, more⟩ := range'_cons (holds.symm.trans amiRxQueue)
      refine ⟨⟨late.held.same rfl rfl ?_, .done done, ?_, ?_, late.discarded⟩, ?_, ?_⟩
      · rw [State.high, State.high, send]
      · exact ⟨congrArg (· + 1) sending.symm, rfl⟩
      · nofun
      · intro _
        exact Nat.lt_of_sub_pos more
      · rw [rest, Nat.sub_sub]
  | push n =>
    rw [send] at went sending
    have done := late.done (by rw [send]; simp)
    cases went
    have high : state.high = state.tcpTxPacketCnt := by rw [State.high, send]
    have low_le := late.held.low_le
    have queue := late.held.queue
    rw [high] at low_le queue
    refine ⟨⟨⟨?_, ?_⟩, .done done, sending, ?_, late.discarded⟩, id, amiRxQueue⟩
    · change state.tcpPacketsQueue ++ [n] = range' (state.low + 1) (n - state.low)
      have count : n - state.low = state.tcpTxPacketCnt - state.low + 1 := by omega
      have last : n = state.low + 1 + (state.tcpTxPacketCnt - state.low) := by omega
      rw [count, range'_1_concat, ← queue, ← last]
    · change state.low ≤ n
      omega
    · nofun
  | pushed n =>
    rw [send] at went sending
    have done := late.done (by rw [send]; simp)
    cases went
    refine ⟨⟨late.held.same rfl rfl ?_, .done done, sending.2, ?_, late.discarded⟩, id, amiRxQueue⟩
    · rw [State.high, State.high, send]
    · nofun

theorem invariant_sendStep (inv : Invariant initial state)
    (went : state.sendStep = some next) : Invariant initial next := by
  have late : state.Late := by
    cases early_or_late inv.phase with
    | inl early =>
      rw [sendStep, early.send] at went
      cases went
    | inr late => exact late
  obtain ⟨late', received, amiRxQueue⟩ := late.sendStep inv.amiRxQueue went
  have frame : next.tier = state.tier ∧ next.tcp = state.tcp ∧ next.runType = state.runType ∧
      next.replicated = state.replicated ∧ next.otherQueue = state.otherQueue := by
    rw [sendStep] at went
    split at went
    next => cases went
    next =>
      split at went <;> cases went
      exact ⟨rfl, rfl, rfl, rfl, rfl⟩
    next =>
      cases went
      exact ⟨rfl, rfl, rfl, rfl, rfl⟩
    next =>
      cases went
      exact ⟨rfl, rfl, rfl, rfl, rfl⟩
  obtain ⟨tier, tcp, runType, replicated, otherQueue⟩ := frame
  refine ⟨received inv.received, amiRxQueue, otherQueue.trans inv.otherQueue, ?_, ?_,
    ?_, ?_⟩
  · rw [tcp, runType]
    exact inv.runType
  · rw [replicated, runType]
    exact inv.replicated
  · rw [Acks, tcp]
    exact inv.acks
  · apply phase_same inv.phase tier
    · intro early
      rw [sendStep, early.send] at went
      cases went
    · intro _
      exact late'

theorem invariant_onMessage (inv : Invariant initial state) :
    Invariant initial state.onMessage := by
  have received := inv.received
  refine { inv with received := Nat.le_succ_of_le received, amiRxQueue := ?_, phase := ?_ }
  · change state.amiRxQueue ++ [state.received + 1] =
      range' (state.amiRxMsgCnt + 1) (state.received + 1 - state.amiRxMsgCnt)
    have last : state.received + 1 =
        state.amiRxMsgCnt + 1 + (state.received - state.amiRxMsgCnt) := by omega
    rw [inv.amiRxQueue, Nat.sub_add_comm received, range'_1_concat, ← last]
  · have tier : state.onMessage.tier = state.tier := rfl
    apply phase_same inv.phase tier
    · intro early
      exact ⟨{ early with },
        rfl, rfl, rfl, rfl, rfl⟩
    · intro late
      exact late.same rfl rfl rfl rfl rfl rfl rfl

theorem invariant_step {action : Action} (inv : Invariant initial state)
    (ordered : state.Ordered action) (went : state.step action = some next) :
    Invariant initial next := by
  cases action with
  | onMessage =>
    cases went
    exact invariant_onMessage inv
  | tcp => exact invariant_tcpStep inv went
  | handleAckMsg recvPacketSqn => exact invariant_handleAckMsg inv ordered went
  | tier => exact invariant_tierStep inv ordered went
  | main => exact invariant_mainStep inv ordered went
  | send => exact invariant_sendStep inv went

theorem held_of_quiet (inv : Invariant initial state) (quiet : state.Quiet)
    (settled : state.tier = .done ∨ initial.Exact) :
    state.Held ∧ ∀ n ∈ state.discarded, n ≤ state.low := by
  have phase := inv.phase
  rw [Phase] at phase
  cases quiet.tier with
  | inl before =>
    rw [before] at phase
    obtain ⟨early, held⟩ := phase
    refine ⟨held ?_, ?_⟩
    · cases settled with
      | inl done => exact absurd (before.symm.trans done) (by decide)
      | inr exact => exact exact
    · rw [early.discarded]
      nofun
  | inr done =>
    rw [done] at phase
    exact ⟨phase.held, phase.discarded⟩

/-- In runs in which `HandleAckMsg` does not meet the reset, the queue holds the packets that
were sent and are not acknowledged whenever no handler is in progress, and none of these has been
discarded. Before the reset the queue of the connection has to be such a queue. -/
theorem unacknowledged_kept {final : State} {actions : List Action} (start : initial.Start)
    (ordered : Guarded State.step State.Ordered initial actions)
    (ran : execute State.step initial actions = some final) (quiet : final.Quiet)
    (settled : final.tier = .done ∨ initial.Exact) :
    final.Exact ∧ ∀ number ∈ final.discarded, number ≤ final.lastRecvAckSeq := by
  have invariant : Invariant initial final :=
    invariant_of_guarded invariant_step (invariant_start start) ordered ran
  obtain ⟨held, discarded⟩ := held_of_quiet invariant quiet settled
  have low : final.low = final.lastRecvAckSeq := by
    rw [State.low]
    cases quiet.tcp with
    | inl syncing | inr syncing => rw [syncing]
  have high : final.high = final.tcpTxPacketCnt := by
    rw [State.high]
    cases quiet.send with
    | inl away | inr away => rw [away]
  rw [low] at discarded
  refine ⟨?_, discarded⟩
  rw [Exact, ← low, ← high]
  exact held.queue

def twoSent : State where
  tcpPacketsQueue := [1, 2]
  amiRxQueue := []
  received := 2
  amiRxMsgCnt := 2
  tcpTxPacketCnt := 2
  lastRecvAckSeq := 0

theorem start_twoSent : twoSent.Start :=
  ⟨rfl, rfl, rfl, rfl, rfl, rfl, rfl, rfl, by decide, by decide, rfl⟩

/-- The peer acknowledges message 3, which has come and was sent after the restart. -/
def ackAfterReset : List Action :=
  [.main, .tcp, .tcp, .tier, .tier, .tier, .tier, .tier, .tier, .tier, .main, .main, .main, .main,
    .onMessage, .send, .send, .send, .handleAckMsg 3, .tcp, .tcp]

theorem kept_ackAfterReset : ∃ final, execute State.step twoSent ackAfterReset = some final ∧
    final.Exact ∧ ∀ number ∈ final.discarded, number ≤ final.lastRecvAckSeq := by
  have run : ∃ final, execute State.step twoSent ackAfterReset = some final ∧
      final.Quiet ∧ final.tier = .done := execute_check (by decide +kernel)
  obtain ⟨final, ran, quiet, done⟩ := run
  have ordered : Guarded State.step State.Ordered twoSent ackAfterReset := by decide +kernel
  exact ⟨final, ran, unacknowledged_kept start_twoSent ordered ran quiet (.inl done)⟩

/-- The acknowledgement of what was announced to the peer comes before the tier thread has reset
the counters. Message 3, which is not acknowledged, is discarded. -/
theorem ack_before_reset : twoSent.Start ∧ ∃ final, execute State.step twoSent
        [.main, .tcp, .tcp, .handleAckMsg 2, .tcp, .tier, .tier, .tier, .tier, .tier, .tier,
          .main, .main, .main, .main, .onMessage, .send, .send, .send, .tcp, .tcp] = some final ∧
      final.Quiet ∧ final.tier = .done ∧ ¬ final.Exact ∧ 3 ∈ final.discarded ∧
        final.lastRecvAckSeq = 2 := by
  refine ⟨start_twoSent, ?_⟩
  exact execute_check (by decide +kernel)

end Preserved

end AdkAaf.AmiBridge.PeerRestart
