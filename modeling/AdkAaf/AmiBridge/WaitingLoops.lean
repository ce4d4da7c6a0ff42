import AdkAaf.AmiBridge.Msg
import AdkAaf.Adk.IoEngine.SendMessage

/-! The loops of a bridge that wait for a queue or for the connection, from a moment on at which
the connection is broken or the application stops, and no message arrives any more. -/

set_option autoImplicit false

namespace AdkAaf.AmiBridge.WaitingLoops

open List

/-- What the loops look at. `sendMsg` says whether a call of `SendMsg` succeeds, by the number of
calls before it. -/
structure Bridge where
  isRunning : Bool
  connected : Bool
  peerSyncFinish : Bool
  sendMsg : Nat → Bool

/-- `tcp_stat_` is `kBroken` and every `SendMsg` fails, or the application does not run. -/
def Bridge.Over (bridge : Bridge) : Prop :=
  bridge.connected = false ∧ (∀ retries, bridge.sendMsg retries = false) ∨ bridge.isRunning = false

/-- Where a loop is, with `tcp_packets_queue_` and `ami_rx_queue_`. The two loops of
`HandleSyncMsg` are told apart by the length that is counted down. -/
inductive Loop where
  | handleAckMsg (num : Int) (tcpPackets : List AmiMsgPacket)
  | handleSyncMsg (popNum queueLength : Int) (tcpPackets : List AmiMsgPacket)
    (amiRx : List Message)
  | retransmitMsg (retries : Nat)
  | send (retries : Nat)
  | syncPeerSession (retries : Nat)
  | peerSync

def ofAck (lastRecvAckSeq recvPacketSqn : Nat) (tcpPackets : List AmiMsgPacket) : Loop :=
  .handleAckMsg (Adk.IoEngine.toInt32 (recvPacketSqn - lastRecvAckSeq)) tcpPackets

def ofSync (lastRecvAckSeq recvPacketSqn : Nat) (tcpPackets : List AmiMsgPacket)
    (amiRx : List Message) : Loop :=
  .handleSyncMsg (Adk.IoEngine.toInt32 (recvPacketSqn - lastRecvAckSeq))
    (Adk.IoEngine.toInt32 tcpPackets.length) tcpPackets amiRx

/-- A turn of a loop; `none` is behind the loop, or behind the function. -/
def step (bridge : Bridge) : Loop → Option Loop
  | .handleAckMsg num tcpPackets =>
    if 0 < num then
      match tcpPackets with
      | [] => some (.handleAckMsg num [])
      | _ :: rest => some (.handleAckMsg (num - 1) rest)
    else none
  | .handleSyncMsg popNum queueLength tcpPackets amiRx =>
    if 0 < popNum ∧ 0 < queueLength then
      match tcpPackets with
      | [] => if bridge.isRunning then some (.handleSyncMsg popNum queueLength [] amiRx) else none
      | _ :: rest => some (.handleSyncMsg (popNum - 1) (queueLength - 1) rest amiRx)
    else if 0 < popNum ∧ queueLength = 0 then
      match amiRx with
      | [] => if bridge.isRunning then some (.handleSyncMsg popNum 0 tcpPackets []) else none
      | _ :: rest => some (.handleSyncMsg (popNum - 1) 0 tcpPackets rest)
    else none
  | .retransmitMsg retries =>
    -- `StopAmiApp` is called again and does not end the loop
    if bridge.sendMsg retries then none else some (.retransmitMsg (retries + 1))
  | .send retries =>
    if bridge.sendMsg retries then none
    else if bridge.connected then some (.send (retries + 1)) else none
  | .syncPeerSession retries =>
    if bridge.sendMsg retries then some .peerSync
    else if bridge.isRunning && bridge.connected then some (.syncPeerSession (retries + 1))
    else none
  | .peerSync =>
    if bridge.peerSyncFinish then none
    else if bridge.isRunning && bridge.connected then some .peerSync else none

inductive Ends (bridge : Bridge) : Loop → Prop where
  | stop {loop : Loop} (stopped : step bridge loop = none) : Ends bridge loop
  | next {loop later : Loop} (stepped : step bridge loop = some later) (ends : Ends bridge later) :
    Ends bridge loop

/-- Enough is queued where a loop pops, and `SendMsg` succeeds again where that is waited for. -/
def EndsWhen (bridge : Bridge) : Loop → Prop
  | .handleAckMsg num tcpPackets => num ≤ tcpPackets.length
  | .handleSyncMsg popNum queueLength tcpPackets amiRx =>
    bridge.isRunning = true → 0 ≤ queueLength →
      min popNum queueLength ≤ tcpPackets.length ∧ popNum ≤ queueLength + amiRx.length
  | .retransmitMsg retries => ∃ later ≥ retries, bridge.sendMsg later = true
  | .send retries => bridge.connected = true → ∃ later ≥ retries, bridge.sendMsg later = true
  | .syncPeerSession _ | .peerSync => True

variable {bridge : Bridge}

theorem ends_congr {loop later : Loop} (went : step bridge loop = some later) :
    Ends bridge loop ↔ Ends bridge later := by
  constructor
  · rintro (stopped | ⟨also, ends⟩)
    · cases stopped.symm.trans went
    · cases also.symm.trans went
      exact ends
  · exact .next went

theorem not_ends_of_idle {loop : Loop} (idle : step bridge loop = some loop) :
    ¬ Ends bridge loop := by
  intro ends
  induction ends with
  | stop stopped => cases stopped.symm.trans idle
  | next went _ ih =>
    cases went.symm.trans idle
    exact ih idle

/-- A loop that counts its turns ends where one of them does. -/
theorem ends_counting_iff {loop : Nat → Loop}
    (goes : ∀ turn, step bridge (loop turn) = none ∨ step bridge (loop turn) =
      some (loop (turn + 1))) {turn : Nat} :
    Ends bridge (loop turn) ↔ ∃ later ≥ turn, step bridge (loop later) = none := by
  constructor
  · intro ends
    generalize here : loop turn = start at ends
    induction ends generalizing turn with
    | stop stopped => exact ⟨turn, Nat.le_refl turn, here ▸ stopped⟩
    | next went _ ih =>
      subst here
      obtain stopped | goesOn := goes turn
      · cases stopped.symm.trans went
      · obtain ⟨later, above, stopped⟩ := ih (Option.some.inj (goesOn.symm.trans went))
        exact ⟨later, Nat.le_of_succ_le above, stopped⟩
  · rintro ⟨later, above, stopped⟩
    obtain ⟨more, rfl⟩ := Nat.exists_eq_add_of_le above
    clear above
    induction more generalizing turn with
    | zero => exact .stop stopped
    | succ more ih =>
      obtain here | goesOn := goes turn
      · exact .stop here
      · rw [Nat.add_comm more, ← Nat.add_assoc] at stopped
        exact .next goesOn (ih stopped)

theorem ends_handleAckMsg_iff {num : Int} {tcpPackets : List AmiMsgPacket} :
    Ends bridge (.handleAckMsg num tcpPackets) ↔ num ≤ tcpPackets.length := by
  induction tcpPackets generalizing num with
  | nil =>
    by_cases pos : 0 < num
    · exact iff_of_false (not_ends_of_idle (if_pos pos)) (Int.not_le.mpr pos)
    · exact iff_of_true (.stop (if_neg pos)) (Int.not_lt.mp pos)
  | cons packet rest ih =>
    rw [length_cons]
    by_cases pos : 0 < num
    · have went : step bridge (.handleAckMsg num (packet :: rest)) =
        some (.handleAckMsg (num - 1) rest) := if_pos pos
      rw [ends_congr went, ih]
      omega
    · exact iff_of_true (.stop (if_neg pos)) (by omega)

section

variable {popNum queueLength : Int} {tcpPackets : List AmiMsgPacket} {amiRx : List Message}

theorem ends_handleSyncMsg_none (none : popNum ≤ 0 ∨ queueLength < 0) :
    Ends bridge (.handleSyncMsg popNum queueLength tcpPackets amiRx) := by
  refine .stop ?_
  rw [step.eq_def]
  dsimp only
  rw [if_neg (by omega), if_neg (by omega)]

theorem ends_amiRx_iff : Ends bridge (.handleSyncMsg popNum 0 tcpPackets amiRx) ↔
    (bridge.isRunning = true → popNum ≤ amiRx.length) := by
  by_cases pos : 0 < popNum
  · induction amiRx generalizing popNum with
    | nil =>
      cases running : bridge.isRunning with
      | true =>
        have idle : step bridge (.handleSyncMsg popNum 0 tcpPackets []) =
          some (.handleSyncMsg popNum 0 tcpPackets []) := by simp [step, pos, running]
        simpa using iff_of_false (not_ends_of_idle idle) (Int.not_le.mpr pos)
      | false => exact iff_of_true (.stop (by simp [step, running])) Bool.noConfusion
    | cons message rest ih =>
      have went : step bridge (.handleSyncMsg popNum 0 tcpPackets (message :: rest)) =
        some (.handleSyncMsg (popNum - 1) 0 tcpPackets rest) := by simp [step, pos]
      rw [ends_congr went, length_cons]
      obtain last | more := Int.lt_or_eq_of_le (Int.add_one_le_of_lt pos)
      · rw [ih (by omega)]
        exact imp_congr_right fun _ => by omega
      · exact iff_of_true (ends_handleSyncMsg_none (by omega)) fun _ => by omega
  · exact iff_of_true (ends_handleSyncMsg_none (by omega)) fun _ => by omega

theorem ends_handleSyncMsg_inactive (counted : 0 ≤ queueLength)
    (inactive : ¬ (0 < popNum ∧ 0 < queueLength)) :
    Ends bridge (.handleSyncMsg popNum queueLength tcpPackets amiRx) ↔
      (bridge.isRunning = true → min popNum queueLength ≤ tcpPackets.length ∧
        popNum ≤ queueLength + amiRx.length) := by
  by_cases pos : 0 < popNum
  · obtain rfl : queueLength = 0 := by omega
    rw [ends_amiRx_iff]
    exact imp_congr_right fun _ => by omega
  · exact iff_of_true (ends_handleSyncMsg_none (by omega)) fun _ => by omega

theorem ends_handleSyncMsg_iff (counted : 0 ≤ queueLength) :
    Ends bridge (.handleSyncMsg popNum queueLength tcpPackets amiRx) ↔
      (bridge.isRunning = true → min popNum queueLength ≤ tcpPackets.length ∧
        popNum ≤ queueLength + amiRx.length) := by
  induction tcpPackets generalizing popNum queueLength with
  | nil =>
    by_cases active : 0 < popNum ∧ 0 < queueLength
    · cases running : bridge.isRunning with
      | true =>
        have idle : step bridge (.handleSyncMsg popNum queueLength [] amiRx) =
          some (.handleSyncMsg popNum queueLength [] amiRx) := by simp [step, active, running]
        refine iff_of_false (not_ends_of_idle idle) fun enough => ?_
        have packets := (enough rfl).1
        rw [length_nil] at packets
        omega
      | false => exact iff_of_true (.stop (by simp [step, active, running])) Bool.noConfusion
    · exact ends_handleSyncMsg_inactive counted active
  | cons packet rest ih =>
    by_cases active : 0 < popNum ∧ 0 < queueLength
    · have went : step bridge (.handleSyncMsg popNum queueLength (packet :: rest) amiRx) =
        some (.handleSyncMsg (popNum - 1) (queueLength - 1) rest amiRx) := if_pos active
      rw [ends_congr went, ih (by omega), length_cons]
      exact imp_congr_right fun _ => by omega
    · exact ends_handleSyncMsg_inactive counted active

end

theorem ends_retransmitMsg_iff {retries : Nat} :
    Ends bridge (.retransmitMsg retries) ↔ ∃ later ≥ retries, bridge.sendMsg later = true := by
  refine (@ends_counting_iff bridge .retransmitMsg (fun turn => ?_) retries).trans ?_
  · simp only [step]
    exact ite_eq_or_eq ..
  · simp [step]

theorem ends_send_iff {retries : Nat} : Ends bridge (.send retries) ↔
    (bridge.connected = true → ∃ later ≥ retries, bridge.sendMsg later = true) := by
  refine (@ends_counting_iff bridge .send (fun turn => ?_) retries).trans ?_
  · simp only [step]
    split <;> simp
  · cases connected : bridge.connected with
    | true => simp [step, connected]
    | false => simpa [step, connected] using ⟨retries, Nat.le_refl retries⟩

/-- Behind a broken connection or a stop a loop ends if and only if what it waits for is there
already, or succeeds again. -/
theorem ends_iff (past : bridge.Over) (loop : Loop) : Ends bridge loop ↔ EndsWhen bridge loop := by
  have gone : (bridge.isRunning && bridge.connected) = false := by
    obtain ⟨broken, -⟩ | stopped := past <;> simp [*]
  have peerSync : Ends bridge .peerSync := .stop (by simp [step, gone])
  cases loop with
  | handleAckMsg num tcpPackets => exact ends_handleAckMsg_iff
  | handleSyncMsg popNum queueLength tcpPackets amiRx =>
    by_cases counted : 0 ≤ queueLength
    · exact (ends_handleSyncMsg_iff counted).trans
        (imp_congr_right fun _ => (imp_iff_right counted).symm)
    · exact iff_of_true (ends_handleSyncMsg_none (.inr (Int.not_le.mp counted))) fun _ also =>
        absurd also counted
  | retransmitMsg retries => exact ends_retransmitMsg_iff
  | send retries => exact ends_send_iff
  | peerSync => exact iff_of_true peerSync trivial
  | syncPeerSession retries =>
    refine iff_of_true ?_ trivial
    cases sent : bridge.sendMsg retries with
    | true => exact .next (if_pos sent) peerSync
    | false => exact .stop (by simp [step, sent, gone])

def onePacket : List AmiMsgPacket := [⟨false, 7, 1, 1, 0, 0, 1, 0, []⟩]

def broken : Bridge := ⟨true, false, false, fun _ => false⟩

def stopped : Bridge := ⟨false, true, false, fun _ => false⟩

theorem ends_ack_of_sent : broken.Over ∧ Ends broken (ofAck 0 1 onePacket) := by
  have past : broken.Over := .inl ⟨rfl, fun _ => rfl⟩
  exact ⟨past, (ends_iff past (ofAck 0 1 onePacket)).mpr (show (_ : Int) ≤ _ by decide)⟩

/-- The peer acknowledges or announces 2, a packet is read again from the recorder behind a
broken connection, and one is sent by an application that stops. -/
theorem waiting_loops_endless : broken.Over ∧ stopped.Over ∧
    ¬ Ends broken (ofAck 0 2 onePacket) ∧ ¬ Ends stopped (ofAck 0 2 onePacket) ∧
    ¬ Ends broken (ofSync 0 2 onePacket []) ∧ ¬ Ends broken (.retransmitMsg 0) ∧
    ¬ Ends stopped (.retransmitMsg 0) ∧ ¬ Ends stopped (.send 0) := by
  refine ⟨.inl ⟨rfl, fun _ => rfl⟩, .inr rfl, ?_, ?_, ?_, ?_, ?_, ?_⟩
  · exact mt ends_handleAckMsg_iff.mp (by decide)
  · exact mt ends_handleAckMsg_iff.mp (by decide)
  · exact mt (ends_handleSyncMsg_iff (by decide)).mp (by decide)
  · exact mt ends_retransmitMsg_iff.mp (by simp [broken])
  · exact mt ends_retransmitMsg_iff.mp (by simp [stopped])
  · exact mt ends_send_iff.mp (by simp [stopped])

end AdkAaf.AmiBridge.WaitingLoops
