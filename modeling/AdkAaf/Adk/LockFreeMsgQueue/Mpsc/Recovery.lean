import AdkAaf.Adk.LockFreeMsgQueue.Mpsc.Alone
import AdkAaf.Adk.LockFreeMsgQueue.Mpsc.Fifo

/-! A queue in shared memory whose processes may end between any two of their steps. When the
sides that have ended are restored, the queue works on, and the sessions of the consumer follow
each other by the flag of `ConsumerEndConsistent`. -/

set_option autoImplicit false

namespace AdkAaf.Adk.LockFreeMsgQueue.Mpsc

open Lib List

theorem ConsumerPc.taken_le (pc : ConsumerPc) : pc.taken ≤ 1 := by
  unfold taken
  split <;> decide

namespace Session

def upto (session : Session) : Nat := session.first + session.popped.length

def restart (session : Session) (fixElemLeak : Bool) : Nat :=
  if fixElemLeak then session.release else session.head

def indices (session : Session) : List Nat := session.popped.map Message.index

/-- Messages of the queue were given from `first` on, in the order of their indices. The entries
below `release` were freed; `head` may have passed one entry that was not given. -/
structure Valid (messages : List Message) (session : Session) : Prop where
  numbered : session.indices = range' session.first session.popped.length
  contents : ∀ message ∈ session.popped, message ∈ messages
  first_le : session.first ≤ session.release
  release_le : session.release ≤ session.upto
  upto_le : session.upto ≤ session.head
  head_le : session.head ≤ session.upto + 1

variable {messages : List Message} {session : Session}

theorem Valid.mem_indices (ok : session.Valid messages) {i : Nat} :
    i ∈ session.indices ↔ session.first ≤ i ∧ i < session.upto := by
  rw [ok.numbered, mem_range'_1]
  exact .rfl

theorem Valid.mono (valid : session.Valid messages) {more : List Message}
    (grown : messages <+: more) : session.Valid more :=
  { valid with contents := fun message mem => grown.subset (valid.contents message mem) }

end Session

/-- Each session begins where the one before was restarted; the next one begins at `upto`. -/
def Follows (fixElemLeak : Bool) : Nat → Nat → List Session → Prop
  | below, upto, [] => below = upto
  | below, upto, session :: rest =>
    session.first = below ∧ Follows fixElemLeak (session.restart fixElemLeak) upto rest

namespace Follows

variable {fixElemLeak : Bool} {below upto : Nat} {sessions : List Session}
variable {messages : List Message}

theorem concat (follows : Follows fixElemLeak below upto sessions) {session : Session}
    (begins : session.first = upto) :
    Follows fixElemLeak below (session.restart fixElemLeak) (sessions ++ [session]) := by
  induction sessions generalizing below with
  | nil =>
    cases follows
    exact ⟨begins, rfl⟩
  | cons first rest ih => exact ⟨follows.1, ih follows.2⟩

theorem covers (follows : Follows true below upto sessions)
    (ok : ∀ session ∈ sessions, session.Valid messages) {index : Nat} (above : below ≤ index)
    (last : sessions.getLast?.any fun session => index < session.upto) :
    ∃ session ∈ sessions, index ∈ session.indices := by
  induction sessions generalizing below with
  | nil => cases last
  | cons first rest ih =>
    obtain ⟨rfl, later⟩ := follows
    have known := ok first mem_cons_self
    by_cases within : index < first.upto
    · exact ⟨first, mem_cons_self, known.mem_indices.mpr ⟨above, within⟩⟩
    · have reached : first.restart true ≤ index :=
        known.release_le.trans (Nat.le_of_not_lt within)
      have final : rest.getLast?.any fun session => index < session.upto := by
        cases rest with
        | nil => simp [within] at last
        | cons second others => exact last
      obtain ⟨session, mem, found⟩ :=
        ih later (fun session mem => ok session (mem_cons_of_mem _ mem)) reached final
      exact ⟨session, mem_cons_of_mem _ mem, found⟩

theorem increasing (follows : Follows false below upto sessions)
    (ok : ∀ session ∈ sessions, session.Valid messages) :
    (sessions.flatMap Session.indices).Pairwise (· < ·) ∧
      ∀ index ∈ sessions.flatMap Session.indices, below ≤ index := by
  induction sessions generalizing below with
  | nil => exact ⟨Pairwise.nil, fun _ mem => absurd mem not_mem_nil⟩
  | cons first rest ih =>
    obtain ⟨rfl, later⟩ := follows
    have known := ok first mem_cons_self
    obtain ⟨sorted, above⟩ :=
      ih later fun session mem => ok session (mem_cons_of_mem _ mem)
    have forward : first.upto ≤ first.restart false := known.upto_le
    rw [flatMap_cons, pairwise_append]
    refine ⟨⟨?_, sorted, fun index mem other member' => ?_⟩, fun index mem => ?_⟩
    · rw [known.numbered]
      exact pairwise_lt_range'
    · have before := (known.mem_indices.mp mem).2
      exact before.trans_le (forward.trans (above other member'))
    · rcases mem_append.mp mem with own | other
      · exact (known.mem_indices.mp own).1
      · have order : first.first ≤ first.upto := Nat.le_add_right _ _
        exact order.trans (forward.trans (above index other))

end Follows

namespace State

variable {Thread : Type} [DecidableEq Thread] {usage : Usage Thread} {state next : State Thread}

def sessions (state : State Thread) : List Session := state.earlier ++ [state.session]

theorem Valid.release_le_given (ok : state.Valid usage) :
    state.release ≤ state.first + state.popped.length := by
  have count := ok.count
  have ordered := ok.release_le
  cases at_ : state.consumer.pc with
  | give i =>
    obtain ⟨-, moved, none, has⟩ := ok.consumerPc at_
    have upto := has.2
    simp only [none] at upto
    rw [at_, moved] at count
    simp only [ConsumerPc.taken] at count
    omega
  | copy i copied =>
    obtain ⟨moved, first, -⟩ := ok.consumerPc at_
    rw [at_, moved] at count
    simp only [ConsumerPc.taken] at count
    omega
  | _ =>
    rw [at_] at count
    simp only [ConsumerPc.taken] at count
    omega

theorem Valid.session (ok : state.Valid usage) : state.session.Valid state.messages where
  numbered := by
    have numbered := ok.numbered
    have given := congrArg (map Message.index) ok.popped
    have count := ok.count
    have positive := ok.first_pos
    have ahead := ok.head_le
    have begins : 1 + (state.first - 1) * 1 = state.first := by omega
    rw [map_take, map_drop, numbered, drop_range', begins,
      take_range'_of_length_ge (by omega)] at given
    exact given
  contents message mem := by
    have found : message ∈ state.popped := mem
    rw [ok.popped] at found
    exact mem_of_mem_drop (mem_of_mem_take found)
  first_le := ok.first_le
  release_le := ok.release_le_given
  upto_le := by
    have count := ok.count
    change state.first + state.popped.length ≤ state.head
    omega
  head_le := by
    have count := ok.count
    have few := state.consumer.pc.taken_le
    change state.head ≤ state.first + state.popped.length + 1
    omega

structure Logged (fixElemLeak : Bool) (state : State Thread) : Prop where
  follows : Follows fixElemLeak 1 state.first state.earlier
  each : ∀ session ∈ state.earlier, session.Valid state.messages

def Recovers (fixElemLeak : Bool) (state : State Thread) : Action Thread → Prop
  | .restoreConsumer flag => flag = fixElemLeak
  | .restoreProducers => state.ProducersEnded
  | .producer _ _ | .consumer _ | .kill _ | .killConsumer => True

instance [Fintype Thread] (state : State Thread) : Decidable state.ProducersEnded :=
  inferInstanceAs (Decidable (∀ _, _))

instance [Fintype Thread] (fixElemLeak : Bool) (state : State Thread) :
    ∀ action, Decidable (state.Recovers fixElemLeak action)
  | .restoreConsumer _ => inferInstanceAs (Decidable (_ = fixElemLeak))
  | .restoreProducers => inferInstanceAs (Decidable state.ProducersEnded)
  | .producer _ _ | .consumer _ | .kill _ | .killConsumer => inferInstanceAs (Decidable True)

theorem Logged.step {fixElemLeak : Bool} (logged : state.Logged fixElemLeak)
    (ok : state.Valid usage) {action : Action Thread}
    (recovers : state.Recovers fixElemLeak action)
    (went : state.step usage action = some next) : next.Logged fixElemLeak := by
  have called : IsCall action → next.Logged fixElemLeak := by
    intro call
    have same := sameSession_of_call call went
    have grown : state.messages <+: next.messages := same.posted.map Prod.snd
    refine ⟨?_, ?_⟩
    · rw [same.first, same.earlier]
      exact logged.follows
    · rw [same.earlier]
      exact fun session mem => (logged.each session mem).mono grown
  cases action with
  | producer | consumer => exact called trivial
  | kill | killConsumer | restoreProducers =>
    cases went
    exact ⟨logged.follows, logged.each⟩
  | restoreConsumer flag =>
    obtain rfl : flag = fixElemLeak := recovers
    simp only [State.step] at went
    split at went <;> cases went
    refine ⟨?_, fun session mem => ?_⟩
    · have restarted : state.session.restart flag =
          if flag then state.release else state.head := rfl
      rw [← restarted]
      exact logged.follows.concat rfl
    · rcases mem_append.mp mem with old | added
      · exact logged.each session old
      · exact mem_singleton.mp added ▸ ok.session

/-- The consumer runs, and no producer has ended with a reservation. -/
structure Intact (state : State Thread) : Prop where
  consumer : state.consumer.dead = false
  producers : ∀ thread, (state.producers thread).dead = true →
    (state.producers thread).reservations .plain = []

/-- The functions do what they do on a queue whose processes have never ended. -/
structure Works (usage : Usage Thread) (state : State Thread) : Prop where
  alloc : ∀ thread, (state.producers thread).dead = false →
    (state.producers thread).pc = .idle →
    ∃ next, state.step usage (.producer thread .alloc) = some next ∧
      Alone usage (.producer thread (.next 0))
        (if state.reserve < state.limit usage then Allocated thread state
          else Refused thread state) next
  turn : ∀ index, state.tail ≤ index → index < state.reserve →
    ∃ thread, (state.producers thread).dead = false ∧
      index ∈ (state.producers thread).reservations .plain
  post : ∀ thread payload, (state.producers thread).dead = false →
    (state.producers thread).pc = .idle →
    { index := state.tail, payload := some payload } ∈ (state.producers thread).held →
    ∃ next, state.step usage (.producer thread (.post state.tail)) = some next ∧
      Alone usage (.producer thread (.next 0))
        (Published thread { index := state.tail, payload := payload } state) next
  wait : state.consumer.pc = .idle → state.consumer.peeked = none →
    ∃ next, state.step usage (.consumer (.start .wait)) = some next ∧
      Alone usage (.consumer .next)
        (if state.head < state.tail then Waited usage state else Empty state) next
  free : ∀ ordered, state.consumer.pc = .idle → state.consumer.peeked = none →
    state.consumer.held ≠ [] →
    ∃ next, state.step usage (.consumer (.free ordered)) = some next ∧
      Alone usage (.consumer .next) (Freed state) next

theorem Valid.works (ok : state.Valid usage) (plain : usage.family = .plain)
    (intact : state.Intact) : state.Works usage where
  alloc _ alive idle := alone_alloc plain alive idle ok.threshold
  turn index above below := by
    obtain ⟨thread, mem⟩ := ok.tickets.owned index above below
    rw [plain] at mem
    refine ⟨thread, ?_, mem⟩
    by_contra dead
    rw [intact.producers thread (Bool.not_eq_false _ ▸ dead)] at mem
    cases mem
  post _ _ alive idle held := ok.alone_post plain alive idle held
  wait idle none := ok.alone_wait plain intact.consumer idle none
  free ordered idle none held := ok.alone_free plain intact.consumer idle none held ordered

structure Recovered (usage : Usage Thread) (fixElemLeak : Bool) (state : State Thread) :
    Prop where
  cursors : state.release ≤ state.head ∧ state.head ≤ state.tail ∧
    state.tail ≤ state.reserve ∧ state.reserve ≤ state.release + usage.ring.queueSize
  numbered : state.messages.map Message.index = range' 1 (state.tail - 1)
  unread : ∀ message ∈ state.messages, state.release ≤ message.index →
    state.payload usage message.index = message.payload
  sessions : ∀ session ∈ state.sessions, session.Valid state.messages
  follows : Follows fixElemLeak 1 (state.session.restart fixElemLeak) state.sessions
  leastOnce : fixElemLeak = true → ∀ message ∈ state.messages,
    message.index < state.session.upto → ∃ session ∈ state.sessions, message ∈ session.popped
  mostOnce : fixElemLeak = false →
    (state.sessions.flatMap Session.indices).Pairwise (· < ·)
  works : state.Intact → state.Works usage
  restored : state.ProducersEnded → state.consumer.dead = false →
    ∃ next, state.step usage .restoreProducers = some next ∧ next.Intact ∧ next.Works usage

theorem Valid.recovered (ok : state.Valid usage) (plain : usage.family = .plain)
    {fixElemLeak : Bool} (logged : state.Logged fixElemLeak) :
    state.Recovered usage fixElemLeak := by
  have each : ∀ session ∈ state.sessions, session.Valid state.messages := by
    intro session mem
    rcases mem_append.mp mem with old | cur
    · exact logged.each session old
    · exact mem_singleton.mp cur ▸ ok.session
  have follows : Follows fixElemLeak 1 (state.session.restart fixElemLeak) state.sessions :=
    logged.follows.concat rfl
  refine ⟨?_, ok.numbered, fun message mem above => ?_, each, follows, ?_, ?_,
    ok.works plain, ?_⟩
  · refine ⟨ok.release_le, ok.head_le, ok.tail_le, ok.reserve_le ?_⟩
    rw [plain]
    decide
  · exact (ok.kept message mem above).payload
  · rintro rfl message mem passed
    have pos : 1 ≤ message.index := by
      have found : message.index ∈ state.messages.map Message.index := mem_map_of_mem mem
      rw [ok.numbered, mem_range'_1] at found
      exact found.1
    have last : state.sessions.getLast?.any fun session => message.index < session.upto := by
      rw [State.sessions, getLast?_concat]
      exact decide_eq_true passed
    obtain ⟨session, listed, given⟩ := follows.covers each pos last
    obtain ⟨other, popped, same⟩ := mem_map.mp given
    have distinct : (state.messages.map Message.index).Nodup := by
      rw [ok.numbered]
      exact nodup_range'
    have equal := inj_on_of_nodup_map distinct ((each session listed).contents other popped)
      mem same
    exact ⟨session, listed, equal ▸ popped⟩
  · rintro rfl
    exact (follows.increasing each).1
  · intro ended alive
    have restored := ok.restoreProducers ended
    have intact : Intact { state with
          reserve := state.tail
          producers := fun thread =>
            if (state.producers thread).dead then { dead := true }
            else state.producers thread } := by
      refine ⟨alive, fun thread dead => ?_⟩
      dsimp only at dead ⊢
      split
      · rfl
      · next running =>
        rw [if_neg running] at dead
        exact absurd dead running
    exact ⟨_, rfl, intact, restored.works plain intact⟩

end State

/-- In every state that processes reach which may end at any step, and whose sides are restored
with one flag, the queue is as before. -/
theorem recovered_after_deaths {Thread : Type} [DecidableEq Thread] (usage : Usage Thread)
    (fixElemLeak : Bool) (bytes : Memory) (actions : List (Action Thread))
    (final : State Thread) (plain : usage.family = .plain)
    (holds : usage.ring.Holds usage.payloadSize)
    (recovers : Guarded (State.step usage) (State.Recovers fixElemLeak) (start usage bytes) actions)
    (ran : execute (State.step usage) (start usage bytes) actions = some final) :
    final.Recovered usage fixElemLeak := by
  have steps : ∀ {state : State Thread} {action : Action Thread} {next : State Thread},
      state.Valid usage ∧ state.Logged fixElemLeak → state.Recovers fixElemLeak action →
      state.step usage action = some next → next.Valid usage ∧ next.Logged fixElemLeak := by
    intro state action next known recovers stepped
    have contract : state.Contract action := by
      cases action with
      | restoreProducers => exact recovers
      | _ => trivial
    exact ⟨known.1.step holds contract stepped, known.2.step known.1 recovers stepped⟩
  have begins : (start usage bytes).Logged fixElemLeak :=
    ⟨rfl, fun _ member => absurd member not_mem_nil⟩
  have reached := invariant_of_guarded steps ⟨State.start_valid usage bytes, begins⟩ recovers ran
  exact reached.1.recovered plain reached.2

def sharedQueue : Usage (Fin 3) := Usage.created 8 4 .plain 2 fun thread => thread

def waitOne {Thread : Type} (number : Nat) : List (Action Thread) :=
  .consumer (.start .wait) :: replicate number (.consumer .next)

/-- The consumer ends with an entry that it has not freed, one producer while it writes an
entry, and the other one with nothing at hand. -/
def deathsRun : List (Action (Fin 3)) :=
  [.producer 0 .alloc] ++ moves 0 4 ++ fillAndPost 0 1 [7, 8] 3 ++
    [.producer 1 .alloc] ++ moves 1 4 ++ [.producer 1 (.fill 2 [3, 4])] ++ moves 1 1 ++
    waitOne 5 ++ [.killConsumer, .restoreConsumer true, .kill 1, .kill 0, .restoreProducers] ++
    [.producer 2 .alloc] ++ moves 2 4 ++ fillAndPost 2 2 [5, 6] 3 ++ waitOne 5 ++
    waitOne 4

theorem deathsRun_recovered :
    Guarded (State.step sharedQueue) (State.Recovers true) (start sharedQueue fun _ => 0)
        deathsRun ∧
      ∃ final, execute (State.step sharedQueue) (start sharedQueue fun _ => 0) deathsRun =
          some final ∧ (final.sessions.map Session.popped =
            [[⟨1, [7, 8]⟩], [⟨1, [7, 8]⟩, ⟨2, [5, 6]⟩]] ∧ final.reserve = 3) ∧
          final.Recovered sharedQueue true := by
  have recovers : Guarded (State.step sharedQueue) (State.Recovers true)
      (start sharedQueue fun _ => 0) deathsRun := by
    decide +kernel
  obtain ⟨final, ran, facts⟩ :
      ∃ final, execute (State.step sharedQueue) (start sharedQueue fun _ => 0) deathsRun =
          some final ∧
        (final.sessions.map Session.popped =
            [[⟨1, [7, 8]⟩], [⟨1, [7, 8]⟩, ⟨2, [5, 6]⟩]] ∧ final.reserve = 3) :=
    execute_check (by decide +kernel)
  exact ⟨recovers, final, ran, facts, recovered_after_deaths sharedQueue true _ deathsRun final
    rfl (create_holds (by decide +kernel) (by decide)) recovers ran⟩

end AdkAaf.Adk.LockFreeMsgQueue.Mpsc
