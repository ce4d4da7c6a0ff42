import AdkAaf.AmiBridge.TierChannel

/-! What `CheckEndpoints` finds out about the endpoints that a peer announces. -/

set_option autoImplicit false

namespace AdkAaf.AmiBridge

open Lib List

def PeerSyncMsg.endpoints (message : PeerSyncMsg) : List EndpointInfo :=
  message.endpointInfo.getD []

/-- The endpoint is the first with its identifier, the one that `emplace` keeps. -/
def PeerSyncMsg.Keeps (message : PeerSyncMsg) (info : EndpointInfo) : Prop :=
  message.endpoints.find? (·.epId = info.epId) = some info

namespace Receiver

variable (bridge : Receiver) (message : PeerSyncMsg) (info : EndpointInfo)

/-- The partitions of the local tx endpoint of a name. Two local endpoints have two names. -/
def localPartitions (epName : String) : Option (List Int) :=
  (bridge.txepMap.find? (·.epName = epName)).bind fun stuff =>
    (bridge.txInfoMap.find? (·.1 = stuff.epId)).map Prod.snd

/-- There is a local tx endpoint of the name with all the partitions. -/
def Known : Prop :=
  ∃ partitions, bridge.localPartitions info.epName = some partitions ∧ info.partitions ⊆ partitions

/-- There is no local tx endpoint of the name, or it has not the first partition. -/
def Refused : Prop :=
  ∀ partitions, bridge.localPartitions info.epName = some partitions →
    ∃ partition ∈ info.partitions.head?, partition ∉ partitions

/-- The local tx endpoint has fewer partitions than the list has entries. -/
def Overlong : Prop :=
  ∃ partitions, bridge.localPartitions info.epName = some partitions ∧
    partitions.length < info.partitions.length

/-- No call of a handler replaces the endpoints of the peer. -/
def Unsynced : ReceiverAction → Prop
  | .handleSyncMsg _ | .onMessage _ (.kPeerSync _) _ => False
  | _ => True

/-- The check accepts the peer if and only if its endpoints are known. A packet that is accepted
from it later, of a partition announced for its endpoint, has a partition known here. -/
def HandshakeAgrees : Prop :=
  let checked := bridge.makePeerRxEndPointInfo message
  (checked.checkEndpoints message ↔ ∀ info ∈ message.endpoints, bridge.Known info) ∧
    (checked.checkEndpoints message → ∀ actions later, (∀ action ∈ actions, Unsynced action) →
      execute step checked actions = some later →
      ∀ packet selected next replicated,
        later.handleAmiMsg packet selected = some (next, some replicated) →
      ∀ peer, later.peerRxep packet.endpointId = some peer → packet.partitionNo ∈ peer.partitions →
      ∃ partitions, later.localPartitions peer.epName = some partitions ∧
        packet.partitionNo ∈ partitions)

def entry : PeerRxEndPointStuff :=
  { info with localTxepStuff := bridge.txepMap.find? (·.epName = info.epName) }

variable {bridge message info}

theorem mem_foldl_emplace {infos : List EndpointInfo} {peers : List PeerRxEndPointStuff}
    {peer : PeerRxEndPointStuff} : peer ∈ infos.foldl (fun peers info =>
        if peers.any (·.epId = info.epId) then peers else peers ++ [bridge.entry info]) peers ↔
      peer ∈ peers ∨ ∃ info, infos.find? (·.epId = info.epId) = some info ∧
        (∀ earlier ∈ peers, earlier.epId ≠ info.epId) ∧ peer = bridge.entry info := by
  induction infos generalizing peers with
  | nil => simp
  | cons head rest ih =>
    rw [foldl_cons, ih]
    split
    next present =>
      obtain ⟨earlier, mem, same⟩ := any_eq_true.mp present
      refine or_congr_right (exists_congr fun info => ?_)
      by_cases here : head.epId = info.epId
      · constructor <;> rintro ⟨-, absent, -⟩
        all_goals exact absurd ((of_decide_eq_true same).trans here) (absent earlier mem)
      · simp [here]
    next absent =>
      have fresh : ∀ earlier ∈ peers, earlier.epId ≠ head.epId := by simpa using absent
      rw [mem_append, mem_singleton, or_assoc]
      refine or_congr_right ⟨?_, ?_⟩
      · rintro (rfl | ⟨info, found, others, rfl⟩)
        · exact ⟨head, by simp, fresh, rfl⟩
        · have other : head.epId ≠ info.epId :=
            others (bridge.entry head) (mem_append_right _ (mem_singleton_self _))
          exact ⟨info, by simpa [other] using found,
            fun earlier mem => others earlier (mem_append_left _ mem), rfl⟩
      · rintro ⟨info, found, others, rfl⟩
        by_cases here : head.epId = info.epId
        · have same : head = info := by simpa [here] using found
          exact .inl (same ▸ rfl)
        · refine .inr ⟨info, by simpa [here] using found, ?_, rfl⟩
          simpa [or_imp, forall_and, entry, here] using others

theorem mem_peerRxepMap (current : message.epInfoSize = 0) {peer : PeerRxEndPointStuff} :
    peer ∈ (bridge.makePeerRxEndPointInfo message).peerRxepMap ↔
      ∃ info, message.Keeps info ∧ peer = bridge.entry info := by
  rw [makePeerRxEndPointInfo, if_neg (fun old => old current)]
  refine mem_foldl_emplace.trans ?_
  simp [PeerSyncMsg.Keeps, PeerSyncMsg.endpoints]

@[simp]
theorem localPartitions_makePeerRxEndPointInfo {epName : String} :
    (bridge.makePeerRxEndPointInfo message).localPartitions epName =
      bridge.localPartitions epName := by
  rw [makePeerRxEndPointInfo]
  split <;> rfl

theorem checkEndpoint_entry {checked : Receiver} (infoMap : checked.txInfoMap = bridge.txInfoMap) :
    checked.checkEndpoint (bridge.entry info) = true ↔
      ¬ bridge.Refused info ∧ ¬ bridge.Overlong info := by
  cases named : bridge.txepMap.find? (·.epName = info.epName) with
  | none => simp [checkEndpoint, entry, Refused, localPartitions, named]
  | some stuff =>
    cases partitioned : bridge.txInfoMap.find? (·.1 = stuff.epId) with
    | none => simp [checkEndpoint, entry, Refused, localPartitions, infoMap, named, partitioned]
    | some kept =>
      rw [checkEndpoint, entry, Refused, Overlong, localPartitions]
      cases info.partitions <;> simp [infoMap, named, partitioned, and_comm]

theorem checkEndpoints_iff : (bridge.makePeerRxEndPointInfo message).checkEndpoints message = true ↔
    ¬ (∃ info, message.Keeps info ∧ bridge.Refused info) ∧
      ¬ (message.epInfoSize ≠ 0 ∨ ∃ info, message.Keeps info ∧ bridge.Overlong info) := by
  rw [checkEndpoints, Bool.and_eq_true, decide_eq_true_eq, all_eq_true]
  have infoMap : (bridge.makePeerRxEndPointInfo message).txInfoMap = bridge.txInfoMap := by
    rw [makePeerRxEndPointInfo]
    split <;> rfl
  constructor
  · rintro ⟨current, all⟩
    have both {info : EndpointInfo} (keeps : message.Keeps info) :=
      (checkEndpoint_entry infoMap).mp (all _ ((mem_peerRxepMap current).mpr ⟨info, keeps, rfl⟩))
    constructor
    · rintro ⟨_, keeps, refused⟩
      exact (both keeps).1 refused
    · rintro (old | ⟨_, keeps, overlong⟩)
      · exact old current
      · exact (both keeps).2 overlong
  · rintro ⟨named, rest⟩
    obtain ⟨current, short⟩ := not_or.mp rest
    refine ⟨Decidable.not_not.mp current, fun peer mem => ?_⟩
    obtain ⟨info, keeps, rfl⟩ := (mem_peerRxepMap (Decidable.not_not.mp current)).mp mem
    exact (checkEndpoint_entry infoMap).mpr
      ⟨fun refused => named ⟨info, keeps, refused⟩, fun overlong => short ⟨info, keeps, overlong⟩⟩

theorem Refused.unknown (refused : bridge.Refused info) : ¬ bridge.Known info := by
  rintro ⟨partitions, found, known⟩
  obtain ⟨partition, first, unknown⟩ := refused partitions found
  exact unknown (known (mem_of_mem_head? first))

theorem step_keeps {next : Receiver} {action : ReceiverAction} (unsynced : Unsynced action)
    (went : bridge.step action = some next) :
    next.peerRxepMap = bridge.peerRxepMap ∧ next.txepMap = bridge.txepMap ∧
      next.txInfoMap = bridge.txInfoMap := by
  cases action with
  | handleSyncMsg message => exact unsynced.elim
  | recoveryBreakpoint localSessionId peerSessionId lastMsgSeq | sendAckMsg =>
    cases went
    exact ⟨rfl, rfl, rfl⟩
  | handleAmiMsg packet selected =>
    simp only [step, handleAmiMsg] at went
    repeat' split at went
    all_goals cases went
    all_goals exact ⟨rfl, rfl, rfl⟩
  | onMessage isLeader message answers =>
    cases message with
    | kPeerSync message => exact unsynced.elim
    | kLocalSync sessionId | unknown =>
      cases went
      exact ⟨rfl, rfl, rfl⟩
    | kAmiPacket packet =>
      simp only [step, onMessage, onAmiPacket] at went
      repeat' split at went
      all_goals cases went
      all_goals exact ⟨rfl, rfl, rfl⟩

theorem execute_keeps {later : Receiver} {actions : List ReceiverAction}
    (unsynced : ∀ action ∈ actions, Unsynced action)
    (ran : execute step bridge actions = some later) :
    later.peerRxepMap = bridge.peerRxepMap ∧ later.txepMap = bridge.txepMap ∧
      later.txInfoMap = bridge.txInfoMap := by
  induction actions generalizing bridge with
  | nil =>
    cases ran
    exact ⟨rfl, rfl, rfl⟩
  | cons action rest ih =>
    obtain ⟨next, went, ran⟩ := execute_cons.mp ran
    obtain ⟨first, others⟩ := forall_mem_cons.mp unsynced
    obtain ⟨peers, txeps, infos⟩ := step_keeps first went
    exact peers ▸ txeps ▸ infos ▸ ih others ran

/-- The check is right if and only if it refuses an endpoint by its name or its first partition,
or there is a list too long, or an old message, just when there is an unknown endpoint. -/
theorem handshakeAgrees_iff (bridge : Receiver) (message : PeerSyncMsg) :
    bridge.HandshakeAgrees message ↔ (∃ info, message.Keeps info ∧ bridge.Refused info) ∨
        ((message.epInfoSize ≠ 0 ∨ ∃ info, message.Keeps info ∧ bridge.Overlong info) ↔
          ∃ info ∈ message.endpoints, ¬ bridge.Known info) := by
  have kept {info : EndpointInfo} (keeps : message.Keeps info) : info ∈ message.endpoints :=
    mem_of_find?_eq_some keeps
  have unknown : (∃ info, message.Keeps info ∧ bridge.Refused info) →
      ∃ info ∈ message.endpoints, ¬ bridge.Known info := by
    rintro ⟨info, keeps, refused⟩
    exact ⟨info, kept keeps, refused.unknown⟩
  have known : (∀ info ∈ message.endpoints, bridge.Known info) ↔
      ¬ ∃ info ∈ message.endpoints, ¬ bridge.Known info := by simp
  rw [HandshakeAgrees]
  refine (and_iff_left_of_imp fun agrees accepted actions later unsynced ran packet selected next
    replicated _ peer found announced => ?_).trans ?_
  · obtain ⟨peers, txeps, infos⟩ := execute_keeps unsynced ran
    have current : message.epInfoSize = 0 :=
      Decidable.not_not.mp (not_or.mp (checkEndpoints_iff.mp accepted).2).1
    have member := mem_of_find?_eq_some found
    rw [peers] at member
    obtain ⟨info, keeps, rfl⟩ := (mem_peerRxepMap current).mp member
    obtain ⟨partitions, here, all⟩ := agrees.mp accepted info (kept keeps)
    refine ⟨partitions, ?_, all announced⟩
    rw [← here, ← @localPartitions_makePeerRxEndPointInfo bridge message]
    simp only [localPartitions, txeps, infos]
    rfl
  · rw [checkEndpoints_iff, known]
    by_cases refused : ∃ info, message.Keeps info ∧ bridge.Refused info
    · exact iff_of_true (iff_of_false (fun accepts => accepts.1 refused)
        fun all => all (unknown refused)) (.inl refused)
    · rw [and_iff_right refused, or_iff_right refused, not_iff_not]

end Receiver

def twoPartitions : Receiver where
  txepMap := [⟨7, "orders", false, false⟩]
  txInfoMap := [(7, [1, 2])]

def announcing (partitions : List Int) : PeerSyncMsg where
  sessionId := 1
  recvPacketSqn := 0
  sendPacketSqn := 0
  epInfoSize := 0
  endpointInfo := some [⟨9, "orders", partitions⟩]

theorem unknown_partition_accepted :
    ((twoPartitions.makePeerRxEndPointInfo (announcing [1, 3])).checkEndpoints
        (announcing [1, 3]) = true ∧
      (twoPartitions.makePeerRxEndPointInfo (announcing [1, 1, 2])).checkEndpoints
        (announcing [1, 1, 2]) = false) ∧ ¬ twoPartitions.HandshakeAgrees (announcing [1, 3]) ∧
      ¬ twoPartitions.HandshakeAgrees (announcing [1, 1, 2]) := by
  refine ⟨by decide, fun agrees => ?_, fun agrees => ?_⟩
  · obtain ⟨partitions, found, all⟩ := agrees.1.mp (by decide) ⟨9, "orders", [1, 3]⟩ (by decide)
    cases found
    exact absurd (@all 3 (by decide)) (by decide)
  · refine absurd (agrees.1.mpr ?_) (by decide)
    rintro info member
    cases List.mem_singleton.mp member
    exact ⟨[1, 2], rfl, by decide⟩

end AdkAaf.AmiBridge
