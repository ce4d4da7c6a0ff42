import AdkAaf.Adk.LockFreeMsgQueue.Mpsc.Invariant

/-! The statements of the producers keep the invariant. -/

set_option autoImplicit false

namespace AdkAaf.Adk.LockFreeMsgQueue.Mpsc.State

open Function Lib Option List

variable {Thread : Type} {usage : Usage Thread} {state : State Thread}

variable {index other : Nat}

section

variable (holds : usage.ring.Holds usage.payloadSize) (different : other ≠ index)
  (above : state.release ≤ index ∧ state.release ≤ other)
  (below : index < state.limit usage ∧ other < state.limit usage)
include holds different above below

theorem payload_storeByte {offset : Nat} (inside : offset < usage.payloadSize) (byte : UInt8) :
    (state.bytes.storeByte (usage.ring.entry index + 8 + offset) byte).loadBytes
        (usage.ring.entry other + 8) usage.payloadSize = state.payload usage other := by
  have apart := holds.apart different ⟨above.2, above.1⟩ ⟨below.2, below.1⟩
  apply Memory.loadBytes_congr
  apply Memory.storeByte_agreeOn
  rcases apart with before | behind
  · right
    omega
  · left
    omega

theorem entry_ne : usage.ring.entry other ≠ usage.ring.entry index := by
  intro equal
  rcases holds.apart different ⟨above.2, above.1⟩ ⟨below.2, below.1⟩ with before | behind <;> omega

end

variable [DecidableEq Thread] {thread : Thread} {producer : Producer}

theorem owned_window (ok : state.Valid usage)
    (mem : index ∈ (state.producers thread).reservations usage.family) : state.release ≤ index :=
  (ok.release_le.trans ok.head_le).trans (ok.tickets.le mem)

theorem Valid.produced (ok : state.Valid usage) (reserve : Nat) (pos : Nat → Nat)
    (bytes : Memory) (threshold : Nat → Nat)
    (tickets : Tickets (fun other =>
      (update state.producers thread producer other).reservations usage.family) state.tail reserve)
    (ordered : state.tail ≤ reserve) (room : usage.family ≠ .exp → reserve ≤ state.limit usage)
    (threshold_le : ∀ handle, threshold handle ≤ state.limit usage)
    (same : ∀ index, state.release ≤ index → index < state.limit usage →
      index ∉ (state.producers thread).reservations usage.family →
      Same usage state { state with pos := pos, bytes := bytes } index)
    (own : ProducerValid usage { state with pos := pos, bytes := bytes } producer) :
    Valid usage { state with
        reserve := reserve
        pos := pos
        bytes := bytes
        threshold := threshold
        producers := update state.producers thread producer } where
  __ := ok
  tail_le := ordered
  reserve_le := room
  threshold := threshold_le
  tickets := tickets
  producers other := by
    dsimp only
    by_cases equal : other = thread
    · subst equal
      rw [update_self]
      exact own.mono .refl (fun _ _ _ => ⟨rfl, rfl⟩) fun _ _ => id
    · rw [update_of_ne equal]
      refine (ok.producers other).mono .refl (fun index mem below => ?_)
        fun _ _ => id
      have kept := same index (owned_window ok mem) below
        fun mine => equal (ok.tickets.alone mem mine)
      exact ⟨kept.pos, kept.payload⟩
  kept message mem unreleased := by
    have below : message.index < state.tail := by
      have found : message.index ∈ state.messages.map Message.index := mem_map_of_mem mem
      rw [ok.numbered, mem_range'_1] at found
      omega
    have kept := same message.index unreleased (below.trans_le ok.window)
      fun mine => absurd (ok.tickets.le mine) (Nat.not_le_of_lt below)
    exact (ok.kept message mem unreleased).mono ⟨kept.pos, kept.payload⟩
  consumer := by
    refine ok.consumer.mono rfl rfl rfl .refl (fun index above below => ?_)
      ok.head_le
    have kept := same index above (below.trans_le ok.window)
      fun mine => absurd (ok.tickets.le mine) (Nat.not_le_of_lt below)
    exact ⟨kept.pos, kept.payload⟩

theorem others_update (other : Thread) (different : other ≠ thread) :
    (update state.producers thread producer other).reservations usage.family =
      (state.producers other).reservations usage.family := by
  rw [update_of_ne different]

theorem Valid.update (ok : state.Valid usage) (here : (producer.reservations usage.family).Perm
      ((state.producers thread).reservations usage.family))
    (own : state.ProducerValid usage producer) :
    (state.setProducer thread producer).Valid usage := by
  refine ok.produced state.reserve state.pos state.bytes state.threshold ?_ ok.tail_le
    ok.reserve_le ok.threshold (fun _ _ _ _ => ⟨rfl, rfl⟩) own
  refine ok.tickets.keep others_update ?_
  rw [update_self]
  exact here

theorem Valid.goto (ok : state.Valid usage) {pc : ProducerPc}
    (here : pc.reserved usage.family = (state.producers thread).pc.reserved usage.family)
    (own : state.PcValid usage pc) : (state.goto thread pc).Valid usage := by
  refine ok.update ?_ ⟨own, (ok.producers thread).held⟩
  rw [Producer.reservations, Producer.reservations, here]

variable {entry : Granted}

section

variable (ok : state.Valid usage)
include ok

theorem Valid.grant (here : (state.producers thread).pc.reserved usage.family = some entry.index)
    (own : state.HeldValid usage entry) : (state.grant thread entry).Valid usage := by
  refine ok.update ?_ ⟨trivial, fun other mem => ?_⟩
  · rw [Producer.reservations, Producer.reservations, here]
    simp only [ProducerPc.reserved, toList_none, nil_append, map_append,
      map_cons, map_nil, toList_some, singleton_append]
    exact perm_append_singleton _ _
  · rcases mem_append.mp mem with old | added
    · exact (ok.producers thread).held other old
    · exact mem_singleton.mp added ▸ own

theorem Valid.store {threshold : Nat}
    (storing : (state.producers thread).pc = .store index threshold) :
    Valid usage { state.goto thread (.recheck index) with
        threshold := Function.update state.threshold (usage.handle thread) threshold } := by
  have bound : state.PcValid usage (state.producers thread).pc := (ok.producers thread).pc
  rw [storing] at bound
  refine ok.produced state.reserve state.pos state.bytes _ ?_ ok.tail_le
    ok.reserve_le (fun handle => ?_) (fun _ _ _ _ => ⟨rfl, rfl⟩)
    ⟨trivial, (ok.producers thread).held⟩
  · refine ok.tickets.keep others_update ?_
    rw [update_self, Producer.reservations, Producer.reservations, storing]
    exact Perm.refl _
  · rw [update_apply]
    split
    · exact bound
    · exact ok.threshold handle

theorem Valid.pc {pc : ProducerPc} (at_ : (state.producers thread).pc = pc) :
    state.PcValid usage pc :=
  at_ ▸ (ok.producers thread).pc

theorem Valid.draw {pc : ProducerPc}
    (before : (state.producers thread).pc.reserved usage.family = none)
    (after : pc.reserved usage.family = some state.reserve)
    (room : usage.family ≠ .exp → state.reserve < state.limit usage)
    (own : state.PcValid usage pc) :
    Valid usage { state.goto thread pc with reserve := state.reserve + 1 } := by
  refine ok.produced (state.reserve + 1) state.pos state.bytes state.threshold ?_
    (Nat.le_succ_of_le ok.tail_le) room ok.threshold (fun _ _ _ _ => ⟨rfl, rfl⟩)
    ⟨own, (ok.producers thread).held⟩
  refine ok.tickets.draw others_update ok.tail_le ?_
  rw [update_self, Producer.reservations, Producer.reservations, before, after]
  exact Perm.refl _

theorem Valid.giveBack (family : usage.family = .exp)
    (rolling : (state.producers thread).pc = .rollBack index) (last : state.reserve = index + 1) :
    Valid usage { state.goto thread .idle with reserve := index } := by
  have here : ((state.producers thread).reservations usage.family).Perm
      (index :: (state.producers thread).held.map Granted.index) := by
    rw [Producer.reservations, rolling, ProducerPc.reserved, if_pos family]
    exact Perm.refl _
  have mine : index ∈ (state.producers thread).reservations usage.family :=
    here.mem_iff.mpr mem_cons_self
  refine ok.produced index state.pos state.bytes state.threshold ?_ (ok.tickets.le mine)
    (fun other => absurd family other) ok.threshold (fun _ _ _ _ => ⟨rfl, rfl⟩)
    ⟨trivial, (ok.producers thread).held⟩
  have tickets := ok.tickets
  rw [last] at tickets
  refine tickets.giveBack others_update ?_
  rw [update_self]
  exact here

theorem Valid.reserved (here : (state.producers thread).pc.reserved usage.family =
      if usage.family = .exp then some index else none) (below : index < state.limit usage) :
    (state.reserved usage thread index).Valid usage := by
  unfold State.reserved
  cases family : usage.family with
  | plain | tsc =>
    refine ok.goto ?_ ⟨by simp [family], below⟩
    rw [here]
    rfl
  | exp =>
    refine ok.grant (by rw [here, if_pos family]) ⟨⟨below, fun other => ?_⟩, ?_⟩
    · exact absurd family other
    · nofun

theorem Valid.below_threshold {handle : Nat} (below : ¬ index ≥ state.threshold handle) :
    index < state.limit usage :=
  (Nat.lt_of_not_le below).trans_le (ok.threshold handle)

theorem Valid.wrote (pos : Nat → Nat) (bytes : Memory)
    (own : (state.producers thread).pc.reserved usage.family = some index)
    (others : ∀ other, state.release ≤ index → state.release ≤ other →
      other < state.limit usage → other ≠ index →
        Same usage state { state with pos := pos, bytes := bytes } other)
    (here : (producer.reservations usage.family).Perm
      ((state.producers thread).reservations usage.family))
    (pc : PcValid usage { state with pos := pos, bytes := bytes } producer.pc)
    (held : ∀ entry ∈ producer.held, entry ∈ (state.producers thread).held ∨
      HeldValid usage { state with pos := pos, bytes := bytes } entry) :
    Valid usage { state.setProducer thread producer with
        pos := pos
        bytes := bytes } := by
  have mine : index ∈ (state.producers thread).reservations usage.family :=
    mem_append_left _ (mem_toList.mpr own)
  have same := fun other above => others other (owned_window ok mine) above
  refine ok.produced state.reserve pos bytes state.threshold ?_ ok.tail_le
    ok.reserve_le ok.threshold (fun other above below notMine => ?_)
    ⟨pc, fun entry mem => ?_⟩
  · refine ok.tickets.keep others_update ?_
    rw [update_self]
    exact here
  · exact same other above below fun equal => notMine (equal ▸ mine)
  · rcases held entry mem with old | new
    · -- it is another entry of the producer
      have before := (ok.producers thread).held entry old
      have distinct := ok.tickets.nodup thread
      rw [Producer.reservations, own] at distinct
      have other : entry.index ∈ (state.producers thread).held.map Granted.index :=
        mem_map_of_mem old
      refine before.mono .refl (same entry.index ?_ before.ready.lt fun equal => ?_)
      · exact owned_window ok (mem_append_right _ other)
      · exact (nodup_cons.mp distinct).1 (equal ▸ other)
    · exact new

end

omit [DecidableEq Thread] in
theorem same_of_pos (holds : usage.ring.Holds usage.payloadSize) (below : index < state.limit usage)
    (value : Nat) (first : state.release ≤ index) (above : state.release ≤ other)
    (below' : other < state.limit usage) (different : other ≠ index) :
    Same usage state
      { state with pos := update state.pos (usage.ring.entry index) value } other where
  pos := update_of_ne (entry_ne holds different ⟨first, above⟩ ⟨below, below'⟩) _ _
  payload := rfl

theorem Valid.setPos (ok : state.Valid usage) (holds : usage.ring.Holds usage.payloadSize)
    (at_ : (state.producers thread).pc = .setPos index) :
    Valid usage { state.grant thread { index := index } with
        pos := Function.update state.pos (usage.ring.entry index) index } := by
  obtain ⟨family, below⟩ := ok.pc at_
  refine ok.wrote _ state.bytes (by rw [at_]; rfl)
    (fun other => same_of_pos holds below index) ?_ trivial fun entry mem => ?_
  · rw [Producer.reservations, Producer.reservations, at_, map_append]
    exact perm_append_singleton _ _
  · rcases mem_append.mp mem with old | added
    · exact .inl old
    · rw [mem_singleton.mp added]
      refine .inr ⟨⟨below, fun _ => update_self ..⟩, ?_⟩
      nofun

variable {payload : List UInt8} {byte : UInt8}

theorem take_loadBytes_storeByte (bytes : Memory) {addr count written : Nat}
    (inside : written < count) (found : payload[written]? = some byte)
    (before : (bytes.loadBytes addr count).take written = payload.take written) :
    ((bytes.storeByte (addr + written) byte).loadBytes addr count).take (written + 1) =
      payload.take (written + 1) := by
  have length := Memory.length_loadBytes bytes addr count
  rw [Memory.loadBytes_storeByte bytes addr count written byte inside,
    take_add_one, take_add_one, take_set_of_le (Nat.le_refl written), before,
    List.getElem?_set_self (by omega), found]

theorem Valid.writeByte (ok : state.Valid usage) (holds : usage.ring.Holds usage.payloadSize)
    {written : Nat} (at_ : (state.producers thread).pc = .write index payload written)
    (found : payload[written]? = some byte) :
    Valid usage { state.goto thread (.write index payload (written + 1)) with
        bytes := state.bytes.storeByte (usage.ring.entry index + 8 + written) byte } := by
  obtain ⟨ready, length, -, copied⟩ := ok.pc at_
  have inside : written < payload.length := (List.getElem?_eq_some_iff.mp found).1
  have within : written < usage.payloadSize := length ▸ inside
  refine ok.wrote state.pos _ (by rw [at_]; rfl) (fun other first above below different => ?_)
    ?_ ⟨⟨ready.lt, ready.pos⟩, length, inside, ?_⟩ fun _ => .inl
  · exact ⟨rfl, payload_storeByte holds different ⟨first, above⟩ ⟨ready.lt, below⟩ within byte⟩
  · rw [Producer.reservations, Producer.reservations, at_]
    exact Perm.refl _
  · exact take_loadBytes_storeByte state.bytes within found copied

theorem Valid.written (ok : state.Valid usage) {written : Nat}
    (at_ : (state.producers thread).pc = .write index payload written)
    (ended : payload[written]? = none) :
    (state.grant thread { index := index, payload := some payload }).Valid usage := by
  obtain ⟨ready, length, bound, copied⟩ := ok.pc at_
  have all : written = payload.length := bound.antisymm (List.getElem?_eq_none_iff.mp ended)
  refine ok.grant (by rw [at_]; rfl) ⟨ready, fun other mem => ?_⟩
  cases mem
  rw [all, take_length] at copied
  rw [← copied, take_of_length_le]
  rw [State.payload, Memory.length_loadBytes]
  exact length.symm.le

variable {message : Message} {pos : Nat}

section

variable (ok : state.Valid usage)
include ok

theorem Valid.stamp (holds : usage.ring.Holds usage.payloadSize) (value : Nat)
    (at_ : (state.producers thread).pc = .stamp message pos) :
    Valid usage { state.goto thread (.publish message pos) with
        pos := Function.update state.pos (usage.ring.entry message.index) value } := by
  obtain ⟨family, equal, turn, held⟩ := ok.pc at_
  refine ok.wrote _ state.bytes (by rw [at_]; rfl)
    (fun other => same_of_pos holds held.ready.lt value) ?_
    ⟨equal, turn, held.ready.lt, held.written _ rfl, fun plain => ?_⟩ fun _ => .inl
  · rw [Producer.reservations, Producer.reservations, at_]
    exact Perm.refl _
  · rw [family] at plain
    cases plain

theorem Valid.length_messages : state.messages.length = state.tail - 1 := by
  have numbers := congrArg List.length ok.numbered
  rwa [length_map, length_range'] at numbers

theorem Valid.tail_pos : 1 ≤ state.tail :=
  ok.first_pos.trans (Nat.le_trans ok.first_le
    (ok.release_le.trans ok.head_le))

theorem Valid.publish (at_ : (state.producers thread).pc = .publish message pos) :
    Valid usage { state.goto thread .idle with
        tail := pos + 1
        posted := state.posted ++ [(thread, message)] } := by
  obtain ⟨rfl, turn, below, kept⟩ := ok.pc at_
  have positive := ok.tail_pos
  have here : ((state.producers thread).reservations usage.family).Perm
      (state.tail :: (state.producers thread).held.map Granted.index) := by
    rw [Producer.reservations, at_, turn]
    exact Perm.refl _
  have mine : state.tail ∈ (state.producers thread).reservations usage.family :=
    here.mem_iff.mpr mem_cons_self
  have messages : (state.posted ++ [(thread, message)]).map Prod.snd =
      state.messages ++ [message] := by
    rw [map_append]
    rfl
  have popped : state.popped.length ≤ (state.messages.drop (state.first - 1)).length := by
    have count := ok.count
    have ahead := ok.head_le
    have begun := ok.first_pos
    rw [length_drop, ok.length_messages]
    omega
  have given : state.popped = ((state.messages ++ [message]).drop (state.first - 1)).take
      state.popped.length := by
    have before : state.first - 1 ≤ state.messages.length := by
      have order := ok.first_le.trans (ok.release_le.trans ok.head_le)
      rw [ok.length_messages]
      exact Nat.sub_le_sub_right order 1
    rw [drop_append_of_le_length before, take_append_of_le_length popped]
    exact ok.popped
  rw [← turn]
  exact {
    __ := ok
    head_le := Nat.le_succ_of_le ok.head_le
    tail_le := ok.tickets.lt mine
    window := turn ▸ below
    tickets := by
      refine ok.tickets.serve others_update ?_
      dsimp only [State.goto, State.setProducer]
      rw [update_self]
      exact here
    producers := fun other => by
      dsimp only [State.goto, State.setProducer]
      by_cases equal : other = thread
      · subst equal
        rw [update_self]
        refine ⟨trivial, fun entry mem => ?_⟩
        exact ((ok.producers other).held entry mem).mono .refl ⟨rfl, rfl⟩
      · rw [update_of_ne equal]
        refine (ok.producers other).mono .refl (fun _ _ _ => ⟨rfl, rfl⟩) ?_
        intro index mem served
        exact absurd (ok.tickets.alone (served ▸ mem) mine) equal
    numbered := by
      rw [State.messages, messages, map_append, ok.numbered, map_singleton, ← turn,
        Nat.add_sub_cancel]
      have last : range' 1 (state.tail - 1 + 1) =
          range' 1 (state.tail - 1) ++ [1 + 1 * (state.tail - 1)] := range'_concat
      rw [Nat.one_mul, Nat.sub_add_cancel positive, Nat.add_sub_cancel' positive] at last
      exact last.symm
    kept := fun other mem above => by
      rw [State.messages, messages] at mem
      rcases mem_append.mp mem with old | added
      · exact (ok.kept other old above).mono ⟨rfl, rfl⟩
      · rw [mem_singleton.mp added]
        exact kept.mono ⟨rfl, rfl⟩
    consumer := ok.consumer.mono rfl rfl rfl (Nat.le_succ _) (fun _ _ _ => ⟨rfl, rfl⟩)
      ok.head_le
    popped := by
      rw [State.messages, messages]
      exact given
    count := ok.count }

theorem Valid.wait (at_ : (state.producers thread).pc = .wait message pos)
    (turn : state.tail = pos) :
    Valid usage (match usage.family with
        | .plain | .exp => state.goto thread (.publish message pos)
        | .tsc => state.goto thread (.stamp message pos)) := by
  obtain ⟨equal, held⟩ := ok.pc at_
  have kept : state.Kept usage message :=
    ⟨held.written _ rfl, fun plain => held.ready.pos (by rw [plain]; decide)⟩
  cases family : usage.family with
  | plain | exp => exact ok.goto (by rw [at_]; rfl) ⟨equal, turn.trans equal, held.ready.lt, kept⟩
  | tsc => exact ok.goto (by rw [at_]; rfl) ⟨family, equal, turn.trans equal, held⟩

end

variable {next : State Thread}

theorem Valid.produce (ok : state.Valid usage) (holds : usage.ring.Holds usage.payloadSize)
    {ticks : Nat} (went : state.produce usage thread ticks = some next) : next.Valid usage := by
  cases at_ : (state.producers thread).pc with
  | idle =>
    simp only [State.produce, at_] at went
    cases went
  | load =>
    simp only [State.produce, at_] at went
    cases family : usage.family with simp only [family] at went
    | plain | tsc =>
      cases went
      refine ok.goto ?_ trivial
      rw [at_, family]
      rfl
    | exp =>
      cases went
      refine ok.draw (by rw [at_]; rfl) ?_ (fun other => absurd family other) trivial
      rw [family]
      rfl
  | check index =>
    simp only [State.produce, at_] at went
    split at went
    · cases went
      exact ok.goto (by rw [at_]; rfl) trivial
    · next below =>
      cases went
      exact ok.reserved (by rw [at_]; rfl) (ok.below_threshold below)
  | readRelease index =>
    simp only [State.produce, at_] at went
    cases went
    exact ok.goto (by rw [at_]; rfl) .refl
  | store index threshold =>
    simp only [State.produce, at_] at went
    cases went
    exact ok.store at_
  | recheck index =>
    simp only [State.produce, at_] at went
    split at went
    · cases family : usage.family with
      | plain | tsc =>
        simp only [family] at went
        cases went
        refine ok.goto ?_ trivial
        rw [at_, family]
        rfl
      | exp =>
        simp only [family] at went
        cases went
        exact ok.goto (by rw [at_]; rfl) family
    · next below =>
      cases went
      exact ok.reserved (by rw [at_]; rfl) (ok.below_threshold below)
  | swap index =>
    obtain ⟨family, below⟩ := ok.pc at_
    simp only [State.produce, at_] at went
    split at went
    · next same =>
      cases went
      rw [← same] at below ⊢
      exact ok.draw (by rw [at_, ProducerPc.reserved, if_neg family]) rfl (fun _ => below)
        ⟨family, below⟩
    · cases went
      exact ok.goto (by rw [at_, ProducerPc.reserved, ProducerPc.reserved, if_neg family])
        trivial
  | rollBack index =>
    have family := ok.pc at_
    simp only [State.produce, at_] at went
    split at went
    · next last =>
      cases went
      exact ok.giveBack family at_ last
    · cases went
      exact ok.goto (by rw [at_]; rfl) trivial
  | setPos index =>
    simp only [State.produce, at_] at went
    cases went
    exact ok.setPos holds at_
  | write index payload written =>
    simp only [State.produce, at_] at went
    split at went
    · next byte found =>
      cases went
      exact ok.writeByte holds at_ found
    · next ended =>
      cases went
      exact ok.written at_ ended
  | readPos message =>
    obtain ⟨family, held⟩ := ok.pc at_
    simp only [State.produce, at_] at went
    cases went
    exact ok.goto (by rw [at_]; rfl) ⟨held.ready.pos family, held⟩
  | wait message pos =>
    simp only [State.produce, at_] at went
    split at went
    · next turn =>
      have moved := ok.wait at_ turn
      cases family : usage.family with
      | plain | exp | tsc =>
        simp only [family] at went moved
        cases went
        exact moved
    · cases went
      exact ok
  | stamp message pos =>
    simp only [State.produce, at_] at went
    cases went
    exact ok.stamp holds _ at_
  | publish message pos =>
    simp only [State.produce, at_] at went
    cases went
    exact ok.publish at_

theorem Valid.takeHeld (ok : state.Valid usage) {pc : ProducerPc}
    (idle : (state.producers thread).pc = .idle) (mem : entry ∈ (state.producers thread).held)
    (here : pc.reserved usage.family = some entry.index) (own : state.PcValid usage pc) :
    (state.setProducer thread { state.producers thread with
        pc := pc
        held := (state.producers thread).held.erase entry }).Valid usage := by
  refine ok.update ?_ ⟨own, fun other kept => ?_⟩
  · rw [Producer.reservations, Producer.reservations, here, idle]
    exact (perm_cons_erase mem).symm.map Granted.index
  · exact (ok.producers thread).held other (mem_of_mem_erase kept)

theorem Valid.produceMove (ok : state.Valid usage) (holds : usage.ring.Holds usage.payloadSize)
    {move : ProducerMove} (went : state.produceMove usage thread move = some next) :
    next.Valid usage := by
  cases move with
  | alloc =>
    simp only [State.produceMove] at went
    split at went
    · next idle =>
      cases went
      exact ok.goto (by rw [idle]; rfl) trivial
    · cases went
  | fill index payload =>
    simp only [State.produceMove] at went
    split at went
    · next may =>
      obtain ⟨entry, found, rfl⟩ := map_eq_some_iff.mp went
      have mem := mem_of_find?_eq_some found
      have equal : entry.index = index := by
        simpa using find?_some found
      have held := (ok.producers thread).held entry mem
      refine ok.takeHeld may.1 mem (equal ▸ rfl)
        ⟨equal ▸ held.ready, may.2, Nat.zero_le _, rfl⟩
    · cases went
  | post index =>
    simp only [State.produceMove] at went
    split at went
    · next idle =>
      obtain ⟨entry, found, posting⟩ := bind_eq_some_iff.mp went
      obtain ⟨payload, written, rfl⟩ := map_eq_some_iff.mp posting
      have mem := mem_of_find?_eq_some found
      have equal : entry.index = index := by
        simpa using find?_some found
      have held := (ok.producers thread).held entry mem
      have known : state.HeldValid usage ⟨index, some payload⟩ := by
        refine ⟨equal ▸ held.ready, fun other given => ?_⟩
        cases given
        exact equal ▸ held.written payload written
      cases family : usage.family with
      | plain | tsc =>
        refine ok.takeHeld idle mem (equal ▸ rfl) ⟨?_, known⟩
        rw [family]
        decide
      | exp => exact ok.takeHeld idle mem (equal ▸ rfl) ⟨rfl, known⟩
    · cases went
  | next ticks => exact ok.produce holds went

end AdkAaf.Adk.LockFreeMsgQueue.Mpsc.State
