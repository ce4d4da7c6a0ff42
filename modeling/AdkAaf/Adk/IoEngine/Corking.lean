import AdkAaf.Adk.IoEngine.FramedDelivery

/-! Corking. `SetRxCork` inside `OnMessage` takes effect at the check behind a message with a
tail, and at the end of the receive job; `SetRxUncork` dispatches the job once more. The job
enters the delivery loop only with what it reads from the socket: what the loop had left stays
when there is nothing to read. -/

set_option autoImplicit false

namespace AdkAaf.Adk.IoEngine.Receiving

open Lib.Frames Lib List

variable {App : Type} {handlers : Handlers App} {messageLength : List UInt8 → Int}
  {receiver : Receiver App}

def Asks (rest : List (List UInt8)) (length : Nat) (dataMore : Int) : Prop :=
  match rest with
  | [] => True
  | message :: _ => dataMore ≤ (message.length - length : Nat)

/-- `OnMessage` returns `kFollowUp`, and consumes the first message when it is complete. It does
not keep the buffer then, which `DoDeliverMessage` asserts. -/
def FollowsUp (handlers : Handlers App) : List (List UInt8) → Prop
  | [] => True
  | message :: rest =>
    (∀ app buffer, buffer <+: stream id (message :: rest) →
      (handlers.onMessage app buffer).2.acquires = false ∧
      if message.length ≤ buffer.length then
        ∃ dataMore, (handlers.onMessage app buffer).2.result = .kFollowUp message.length dataMore ∧
          Asks rest (buffer.length - message.length) dataMore
      else
        ∃ dataMore, (handlers.onMessage app buffer).2.result = .kFollowUp 0 dataMore ∧
          Asks (message :: rest) buffer.length dataMore) ∧
      FollowsUp handlers rest

variable {done rest : List (List UInt8)}

theorem FollowsUp.of_append (follows : FollowsUp handlers (done ++ rest)) :
    FollowsUp handlers rest := by
  induction done with
  | nil => exact follows
  | cons message done ih => exact ih follows.2

theorem Asks.inside {length : Nat} {dataMore : Int} (asks : Asks rest length dataMore)
    (none : rest = [] → length = 0) (waits : 0 < dataMore) : Inside id length rest := by
  cases rest with
  | nil => exact none rfl
  | cons message rest =>
    have bound : dataMore ≤ (message.length - length : Nat) := asks
    show length < message.length
    omega

namespace Receiver

section

variable {consumeLen : Nat} {dataMore : Int}

theorem onMessage_eq {result : HandlerResult} (followed :
    (handlers.onMessage receiver.app receiver.unread).2.result = result) :
    receiver.onMessage handlers receiver.unread [] =
      ((receiver.onMessage handlers receiver.unread []).1, result) :=
  Prod.ext rfl followed

section

variable
  (followed :
    (handlers.onMessage receiver.app receiver.unread).2.result = .kFollowUp consumeLen dataMore)
include followed

theorem doDeliverMessage_stops
    (stops : ¬(toInt32 (receiver.unread.drop consumeLen).length < toInt32 receiver.unread.length ∧
      dataMore ≤ toInt32 (receiver.unread.drop consumeLen).length)) :
    receiver.doDeliverMessage handlers = { (receiver.onMessage handlers receiver.unread []).1 with
        unread := receiver.unread.drop consumeLen, dataMore } := by
  rw [doDeliverMessage, onMessage_eq followed]
  dsimp only
  rw [if_neg stops]

section

variable
  (goesOn : toInt32 (receiver.unread.drop consumeLen).length < toInt32 receiver.unread.length ∧
    dataMore ≤ toInt32 (receiver.unread.drop consumeLen).length)
include goesOn

theorem doDeliverMessage_corked
    (corked : (receiver.onMessage handlers receiver.unread []).1.rxCork = .kRxCorkPre) :
    receiver.doDeliverMessage handlers = { (receiver.onMessage handlers receiver.unread []).1 with
        unread := receiver.unread.drop consumeLen, dataMore, heldBack := true } := by
  rw [doDeliverMessage, onMessage_eq followed]
  dsimp only
  rw [if_pos goesOn, if_pos corked]

theorem doDeliverMessage_goesOn
    (uncorked : (receiver.onMessage handlers receiver.unread []).1.rxCork ≠ .kRxCorkPre) :
    receiver.doDeliverMessage handlers =
      doDeliverMessage handlers { (receiver.onMessage handlers receiver.unread []).1 with
        unread := receiver.unread.drop consumeLen, dataMore } := by
  rw [doDeliverMessage, onMessage_eq followed]
  dsimp only
  rw [if_pos goesOn, if_neg uncorked]

end

end

theorem doDeliverMessage_success
    (succeeded : (handlers.onMessage receiver.app receiver.unread).2.result = .kSuccess) :
    receiver.doDeliverMessage handlers =
      { (receiver.onMessage handlers receiver.unread []).1 with unread := [], dataMore := 0 } := by
  rw [doDeliverMessage, onMessage_eq succeeded]

theorem doDeliverMessage_nil (empty : receiver.unread = []) :
    (receiver.doDeliverMessage handlers).unread = [] ∧
      (receiver.doDeliverMessage handlers).heldBack = receiver.heldBack ∧
      (receiver.doDeliverMessage handlers).origAppData = receiver.origAppData := by
  cases result : (handlers.onMessage receiver.app receiver.unread).2.result with
  | kSuccess =>
    rw [doDeliverMessage_success result]
    exact ⟨rfl, rfl, rfl⟩
  | kFollowUp consumeLen dataMore =>
    have none : receiver.unread.drop consumeLen = receiver.unread := by
      rw [empty, drop_nil]
    rw [doDeliverMessage_stops result (by
      rw [none]
      exact fun both => Int.lt_irrefl _ both.1)]
    exact ⟨none.trans empty, rfl, rfl⟩

theorem doDeliverMessage_waits
    (followed : (handlers.onMessage receiver.app receiver.unread).2.result =
      .kFollowUp 0 dataMore) :
    receiver.doDeliverMessage handlers = { (receiver.onMessage handlers receiver.unread []).1 with
        unread := receiver.unread, dataMore } := by
  rw [doDeliverMessage_stops followed (by
    exact fun both => Int.lt_irrefl _ both.1), drop_zero]

end

theorem doDeliverMessage_consumed (follows : FollowsUp handlers rest)
    (pos : ∀ message ∈ rest, 0 < message.length) (plain : receiver.origAppData = false)
    (entered : receiver.heldBack = false) (comes : receiver.unread <+: stream id rest)
    (short : receiver.unread.length < 2 ^ 31) :
    (receiver.doDeliverMessage handlers).origAppData = false ∧
      ∃ done rest', Consumed rest receiver (receiver.doDeliverMessage handlers) done rest' ∧
        Asks rest' (receiver.doDeliverMessage handlers).unread.length
          (receiver.doDeliverMessage handlers).dataMore := by
  induction len : receiver.unread.length using Nat.strongRecOn generalizing receiver rest with
  | ind _ ih =>
    subst len
    have notHeld : ¬receiver.heldBack = true := Bool.eq_false_iff.mp entered
    cases rest with
    | nil =>
      obtain ⟨empty, held, same⟩ := @doDeliverMessage_nil _ handlers _ (prefix_nil.mp comes)
      refine ⟨same.trans plain, [], [], ⟨?_, fun _ => ?_, fun still =>
        absurd (held.symm.trans still) notHeld⟩,
        trivial⟩
      · rw [empty, prefix_nil.mp comes]
        exact .none nil_prefix
      · rw [empty]
        rfl
    | cons message rest =>
      have result := (follows.1 receiver.app receiver.unread comes).2
      have later : ∀ message ∈ rest, 0 < message.length :=
        fun other mem => pos other (mem_cons_of_mem _ mem)
      split at result
      next whole =>
        obtain ⟨dataMore, followed, asks⟩ := result
        have taken := Taken.first whole comes
        have some := pos message mem_cons_self
        have left : (receiver.unread.drop message.length).length =
            receiver.unread.length - message.length := length_drop
        rw [← left] at asks
        rw [id] at taken
        have stops := @doDeliverMessage_stops _ _ _ _ _ followed
        have held := @doDeliverMessage_corked _ _ _ _ _ followed
        have goesOn := @doDeliverMessage_goesOn _ _ _ _ _ followed
        generalize receiver.unread.drop message.length = behind at taken asks left stops held goesOn
        have whole : toInt32 receiver.unread.length = receiver.unread.length :=
          toInt32_of_small (by omega) (by omega)
        have wholeLeft : toInt32 behind.length = behind.length :=
          toInt32_of_small (by omega) (by omega)
        rw [whole, wholeLeft] at stops held goesOn
        by_cases asked : dataMore ≤ behind.length
        · have shorter : (behind.length : Int) < receiver.unread.length := by omega
          by_cases corked :
              (receiver.onMessage handlers receiver.unread []).1.rxCork = .kRxCorkPre
          · rw [held ⟨shorter, asked⟩ corked]
            exact ⟨plain, [message], rest, ⟨taken,
              fun held => absurd held.symm Bool.false_ne_true, fun _ => corked⟩, asks⟩
          · rw [goesOn ⟨shorter, asked⟩ corked]
            have more : behind.length < receiver.unread.length := by omega
            obtain ⟨same, done, rest', consumed, asked⟩ := @ih behind.length more
              { (receiver.onMessage handlers receiver.unread []).1 with
                unread := behind, dataMore } rest follows.2 later plain
              entered taken.continues (more.trans short) rfl
            exact ⟨same, message :: done, rest', .trans taken consumed, asked⟩
        · rw [stops fun both => asked both.2]
          refine ⟨plain, [message], rest,
            ⟨taken, fun _ => ?_, fun held => absurd held notHeld⟩, asks⟩
          -- the rest of the buffer is less than what the handler asked for
          refine asks.inside (fun none => ?_) (by omega)
          subst none
          rw [prefix_nil.mp taken.continues]
          rfl
      next whole =>
        obtain ⟨dataMore, followed, asks⟩ := result
        rw [doDeliverMessage_waits followed]
        exact ⟨plain, [], message :: rest, ⟨.none comes, fun _ => Nat.lt_of_not_le whole,
          fun held => absurd held notHeld⟩, asks⟩

end Receiver

inductive Place where
  | epoll
  | active
  | corked
  deriving DecidableEq

structure Endpoint (App : Type) where
  receiver : Receiver App
  place : Place := .epoll
  received : List UInt8 := []

/-- `blocks` is whether `OnRxEndpointBlock` gives the endpoint back to the epoll set. -/
inductive Action where
  | readable
  | recv (bytes : List UInt8)
  | again (blocks : Bool)
  | setRxUncork

namespace Endpoint

/-- A job that read something, with `set_rx_cork_from_pre` at its end. -/
def recv (handlers : Handlers App) (endpoint : Endpoint App) (bytes : List UInt8) :
    Endpoint App :=
  let after := endpoint.receiver.recvAndDeliverMessage handlers bytes
  if after.rxCork = .kRxCorkPre then
    { receiver := { after with rxCork := .kRxCorkSet }
      place := .corked
      received := endpoint.received ++ bytes }
  else
    { receiver := after, place := .active, received := endpoint.received ++ bytes }

def step (handlers : Handlers App) (messages : List (List UInt8)) (endpoint : Endpoint App) :
    Action → Option (Endpoint App)
  | .readable => if endpoint.place = .epoll then some { endpoint with place := .active } else none
  | .recv bytes =>
    if endpoint.place = .active ∧ 0 < bytes.length ∧ bytes.length < 2 ^ 31 ∧
        endpoint.received ++ bytes <+: stream id messages then
      some (endpoint.recv handlers bytes)
    else
      none
  | .again blocks =>
    if endpoint.place = .active then
      some (if blocks then { endpoint with place := .epoll } else endpoint)
    else
      none
  | .setRxUncork =>
    if endpoint.receiver.rxCork = .kRxCorkSet then
      some { endpoint with
        receiver := { endpoint.receiver with rxCork := .kRxCorkNot }
        place := .active }
    else
      some endpoint

def Drained (messages : List (List UInt8)) (endpoint : Endpoint App) : Prop :=
  ∃ done rest, Parsed id messages endpoint.received done rest endpoint.receiver.unread

/-- With so many bytes more, the message at the front of the buffer is complete. -/
def frontComplete (messages : List (List UInt8)) (endpoint : Endpoint App) (more : Nat) : Bool :=
  match following id messages (endpoint.received.length - endpoint.receiver.unread.length) with
  | [] => false
  | message :: _ => message.length ≤ endpoint.receiver.unread.length + more

/-- A job that finds nothing to read does not end the wait of a complete message that the loop
left behind at the check of the cork. A result that completes a message enters the loop: with a
decode template it has `data_more` bytes, and the buffer has fewer than `2 ^ 31`. -/
def Allowed (handlers : Handlers App) (messages : List (List UInt8)) (endpoint : Endpoint App) :
    Action → Prop
  | .readable | .setRxUncork => True
  | .recv bytes => endpoint.frontComplete messages bytes.length = true →
      (handlers.messageLength.isSome = true → endpoint.receiver.dataMore ≤ bytes.length) ∧
        (endpoint.receiver.unread ++ bytes).length < 2 ^ 31
  | .again blocks => blocks = true →
      ¬(endpoint.receiver.heldBack = true ∧ endpoint.frontComplete messages 0 = true)

instance (messages : List (List UInt8)) (endpoint : Endpoint App) :
    ∀ action, Decidable (Allowed handlers messages endpoint action)
  | .readable | .setRxUncork => inferInstanceAs (Decidable True)
  | .recv _ | .again _ => inferInstanceAs (Decidable (_ → _))

end Endpoint

structure Suited (handlers : Handlers App) (messages : List (List UInt8)) : Prop where
  positive : ∀ message ∈ messages, 0 < message.length
  decodes : ∀ messageLength, handlers.messageLength = some messageLength →
    ∀ message ∈ messages, Framed messageLength message
  follows : handlers.messageLength = none → FollowsUp handlers messages

structure Kept (handlers : Handlers App) (messages : List (List UInt8))
    (endpoint : Endpoint App) : Prop where
  plain : endpoint.receiver.origAppData = false
  taken : ∃ done rest, Taken id messages endpoint.received done rest endpoint.receiver.unread ∧
    (endpoint.receiver.heldBack = false → Inside id endpoint.receiver.unread.length rest) ∧
    (handlers.messageLength = none →
      Asks rest endpoint.receiver.unread.length endpoint.receiver.dataMore)
  waits : endpoint.place = .epoll → endpoint.Drained messages

variable {messages : List (List UInt8)} {endpoint next : Endpoint App} {bytes : List UInt8}

theorem Endpoint.frontComplete_iff {more : Nat}
    (pos : ∀ message ∈ messages, 0 < message.length)
    (taken : Taken id messages endpoint.received done rest endpoint.receiver.unread) :
    endpoint.frontComplete messages more = true ↔ ∃ message later, rest = message :: later ∧
        message.length ≤ endpoint.receiver.unread.length + more := by
  have remaining : ∀ message ∈ rest, 0 < (id message).length := by
    intro message mem
    refine pos message ?_
    rw [taken.frames]
    exact mem_append_right _ mem
  have position : endpoint.received.length - endpoint.receiver.unread.length =
      (stream id done).length := by
    rw [taken.received, length_append, Nat.add_sub_cancel]
  rw [frontComplete, position, taken.frames, following_stream remaining]
  cases rest with
  | nil =>
    constructor
    · exact fun complete => absurd complete Bool.false_ne_true
    · rintro ⟨_, _, none, _⟩
      cases none
  | cons message later =>
    rw [decide_eq_true_iff]
    constructor
    · exact fun complete => ⟨message, later, rfl, complete⟩
    · rintro ⟨_, _, same, complete⟩
      cases same
      exact complete

theorem Receiver.deliverMessage_consumed (suited : Suited handlers rest)
    (plain : receiver.origAppData = false) (comes : receiver.unread <+: stream id rest)
    (some : receiver.unread ≠ [])
    (short : (∃ message later, rest = message :: later ∧
      message.length ≤ receiver.unread.length) → receiver.unread.length < 2 ^ 31) :
    (receiver.deliverMessage handlers).origAppData = false ∧
      ∃ done rest', Consumed rest { receiver with heldBack := false }
        (receiver.deliverMessage handlers) done rest' ∧
        (handlers.messageLength = none → Asks rest' (receiver.deliverMessage handlers).unread.length
          (receiver.deliverMessage handlers).dataMore) := by
  cases rest with
  | nil => exact absurd (prefix_nil.mp comes) some
  | cons message later =>
    cases template : handlers.messageLength with
    | some messageLength =>
      have framed := suited.decodes messageLength template
      have small := (framed message mem_cons_self).2.1
      have fits : receiver.unread.length < 2 ^ 31 := by
        by_cases whole : message.length ≤ receiver.unread.length
        · exact short ⟨message, later, rfl, whole⟩
        · exact (Nat.lt_of_not_le whole).trans small
      have loop : receiver.deliverMessage handlers = Receiver.doDeliverDecoded messageLength
          handlers { receiver with heldBack := false } := by
        rw [deliverMessage, template]
      obtain ⟨done, rest', delivered⟩ := @Receiver.doDeliverDecoded_delivered _ handlers
        messageLength { receiver with heldBack := false } _ framed plain rfl comes some fits
      rw [loop]
      exact ⟨delivered.plain, done, rest', delivered.consumed, fun none => by cases none⟩
    | none =>
      have loop : receiver.deliverMessage handlers = Receiver.doDeliverMessage
          handlers { receiver with heldBack := false } := by
        rw [deliverMessage, template]
      rw [loop]
      have follows := suited.follows template
      by_cases whole : message.length ≤ receiver.unread.length
      · obtain ⟨same, done, rest', consumed, asks⟩ := @Receiver.doDeliverMessage_consumed _
          handlers { receiver with heldBack := false } _ follows suited.positive plain rfl
          comes (short ⟨message, later, rfl, whole⟩)
        exact ⟨same, done, rest', consumed, fun _ => asks⟩
      · have result := (follows.1 receiver.app receiver.unread comes).2
        rw [if_neg whole] at result
        obtain ⟨dataMore, followed, asks⟩ := result
        rw [@doDeliverMessage_waits _ _ { receiver with heldBack := false } _ followed]
        exact ⟨plain, [], message :: later, ⟨.none comes, fun _ => Nat.lt_of_not_le whole,
          fun held => absurd held.symm Bool.true_eq_false.mp⟩, fun _ => asks⟩

theorem Suited.of_append (suited : Suited handlers (done ++ rest)) : Suited handlers rest where
  positive message mem := suited.positive message (mem_append_right _ mem)
  decodes messageLength template message mem :=
    suited.decodes messageLength template message (mem_append_right _ mem)
  follows template := (suited.follows template).of_append

theorem Kept.recvAndDeliverMessage (kept : Kept handlers messages endpoint)
    (suited : Suited handlers messages)
    (some : 0 < bytes.length) (comes : endpoint.received ++ bytes <+: stream id messages)
    (may : Endpoint.Allowed handlers messages endpoint (.recv bytes)) :
    let after := endpoint.receiver.recvAndDeliverMessage handlers bytes
    after.origAppData = false ∧
      ∃ done rest, Taken id messages (endpoint.received ++ bytes) done rest after.unread ∧
        (after.heldBack = false → Inside id after.unread.length rest) ∧
        (handlers.messageLength = none → Asks rest after.unread.length after.dataMore) := by
  obtain ⟨done, rest, taken, inside, asks⟩ := kept.taken
  have arrived := taken.arrive comes
  have nonempty : endpoint.receiver.unread ++ bytes ≠ [] := by
    intro none
    rw [(append_eq_nil_iff.mp none).2] at some
    exact Nat.lt_irrefl _ some
  have complete := @Endpoint.frontComplete_iff _ _ _ _ _ bytes.length suited.positive taken
  rw [← length_append] at complete
  by_cases soon : endpoint.receiver.dataMore ≤ bytes.length
  · rw [Receiver.recvAndDeliverMessage, if_pos soon]
    have remaining : Suited handlers rest := (taken.frames ▸ suited).of_append
    obtain ⟨same, done', rest', consumed, asked⟩ := @Receiver.deliverMessage_consumed _ handlers
      { endpoint.receiver with unread := endpoint.receiver.unread ++ bytes } rest remaining
      kept.plain arrived.continues nonempty fun whole => (may (complete.mpr whole)).2
    exact ⟨same, _, rest', arrived.take consumed.taken, consumed.inside, asked⟩
  · rw [Receiver.recvAndDeliverMessage, if_neg soon]
    have continues := arrived.continues
    cases rest with
    | nil => exact absurd (prefix_nil.mp continues) nonempty
    | cons message later =>
      have part : (endpoint.receiver.unread ++ bytes).length < message.length := by
        refine Nat.lt_of_not_le fun whole => soon ?_
        cases template : handlers.messageLength with
        | some messageLength =>
          have entered := (may (complete.mpr ⟨message, later, rfl, whole⟩)).1
          exact entered (by rw [template]; rfl)
        | none =>
          have bound : endpoint.receiver.dataMore ≤
              (message.length - endpoint.receiver.unread.length : Nat) := asks template
          rw [length_append] at whole
          omega
      refine ⟨kept.plain, done, message :: later, arrived, fun _ => part, fun template => ?_⟩
      have bound : endpoint.receiver.dataMore ≤
          (message.length - endpoint.receiver.unread.length : Nat) := asks template
      have lengths := @List.length_append _ endpoint.receiver.unread bytes
      show endpoint.receiver.dataMore - bytes.length ≤
        (message.length - (endpoint.receiver.unread ++ bytes).length : Nat)
      omega

theorem Kept.step {action : Action} (kept : Kept handlers messages endpoint)
    (suited : Suited handlers messages)
    (may : Endpoint.Allowed handlers messages endpoint action)
    (went : Endpoint.step handlers messages endpoint action = some next) :
    Kept handlers messages next := by
  cases action with simp only [Endpoint.step] at went
  | readable =>
    split at went <;> cases went
    exact ⟨kept.plain, kept.taken, fun away => by cases away⟩
  | recv bytes =>
    split at went <;> cases went
    next guard =>
      have delivered := kept.recvAndDeliverMessage suited guard.2.1 guard.2.2.2 may
      rw [Endpoint.recv]
      split <;> exact ⟨delivered.1, delivered.2, fun away => by cases away⟩
  | again blocks =>
    split at went
    next =>
      cases went
      split
      next blocked =>
        refine ⟨kept.plain, kept.taken, fun _ => ?_⟩
        obtain ⟨done, rest, taken, inside, _⟩ := kept.taken
        refine ⟨done, rest, taken.parsed ?_⟩
        by_cases held : endpoint.receiver.heldBack = true
        · -- the loop was left at the check of the cork, with a part of a message behind
          have part : ¬endpoint.frontComplete messages 0 = true :=
            fun complete => may blocked ⟨held, complete⟩
          rw [Endpoint.frontComplete_iff suited.positive taken] at part
          cases rest with
          | nil =>
            rw [prefix_nil.mp taken.continues]
            rfl
          | cons message later =>
            exact Nat.lt_of_not_le fun whole => part ⟨message, later, rfl, whole⟩
        · exact inside (Bool.eq_false_iff.mpr held)
      next => exact kept
    next => cases went
  | setRxUncork =>
    split at went <;> cases went
    · exact ⟨kept.plain, kept.taken, fun away => by cases away⟩
    · exact kept

/-- In a run whose steps are allowed, an endpoint that waits for readability has no complete
message in its buffer. -/
theorem uncorked_endpoint_drained (app : App) (suited : Suited handlers messages)
    {actions : List Action}
    (allowed : Guarded (Endpoint.step handlers messages) (Endpoint.Allowed handlers messages)
      { receiver := { app } } actions) {final : Endpoint App}
    (ran : execute (Endpoint.step handlers messages) { receiver := { app } } actions =
      some final) (waits : final.place = .epoll) : final.Drained messages := by
  have inside : Inside id 0 messages := by
    cases messages with
    | nil => rfl
    | cons message rest => exact suited.positive message mem_cons_self
  have none : Taken id messages [] [] messages [] := .none nil_prefix
  have kept : Kept handlers messages ({ receiver := { app } } : Endpoint App) := by
    refine ⟨rfl, ⟨[], messages, none, fun _ => inside, fun _ => ?_⟩,
      fun _ => ⟨[], messages, none.parsed inside⟩⟩
    cases messages with
    | nil => trivial
    | cons message rest => exact Int.natCast_nonneg _
  exact (invariant_of_guarded (fun kept allowed stepped => Kept.step kept suited allowed stepped)
    kept allowed ran).waits waits

/-- An application that corks the endpoint for the messages whose first byte is 1. -/
def corkingHandlers : Handlers Unit where
  onMessage _ message := ((), { result := .kSuccess, corks := message.head? = some 1 })
  messageLength := some secondByteLength

def corkedMessages : List (List UInt8) := [[1, 2], [0, 2], [0, 2]]

theorem suited_corkedMessages : Suited corkingHandlers corkedMessages where
  positive := by decide
  decodes messageLength template message mem := by
    cases template
    rcases mem_cons.mp mem with rfl | mem
    · exact framed_secondByteLength 1 2 [] rfl
    · rcases mem_cons.mp mem with rfl | mem
      · exact framed_secondByteLength 0 2 [] rfl
      · cases mem_singleton.mp mem
        exact framed_secondByteLength 0 2 [] rfl
  follows template := by cases template

theorem uncorked_endpoint_drained_reading : ∃ final : Endpoint Unit,
    (execute (Endpoint.step corkingHandlers corkedMessages) { receiver := { app := () } }
        [.readable, .recv [1, 2, 0, 2, 0], .setRxUncork, .recv [2], .again true] = some final ∧
      final.receiver.calls = corkedMessages) ∧ final.Drained corkedMessages := by
  have ran : ∃ final : Endpoint Unit,
      execute (Endpoint.step corkingHandlers corkedMessages) { receiver := { app := () } }
        [.readable, .recv [1, 2, 0, 2, 0], .setRxUncork, .recv [2], .again true] = some final ∧
      final.receiver.calls = corkedMessages ∧ final.place = .epoll :=
    execute_check (by decide +kernel)
  obtain ⟨final, finished, called, waits⟩ := ran
  exact ⟨final, ⟨finished, called⟩, uncorked_endpoint_drained () suited_corkedMessages
    (by decide +kernel) finished waits⟩

/-- All messages came in one read. The job after `SetRxUncork` reads nothing, and the endpoint
waits for readability with two complete messages. -/
theorem uncorked_endpoint_strands : ∃ final : Endpoint Unit,
    execute (Endpoint.step corkingHandlers corkedMessages) { receiver := { app := () } }
        [.readable, .recv [1, 2, 0, 2, 0, 2], .setRxUncork, .again true] = some final ∧
      final.place = .epoll ∧ final.receiver.calls = [[1, 2]] ∧
      final.receiver.unread = [0, 2, 0, 2] ∧ ¬final.Drained corkedMessages := by
  have ran : ∃ final : Endpoint Unit,
      execute (Endpoint.step corkingHandlers corkedMessages) { receiver := { app := () } }
        [.readable, .recv [1, 2, 0, 2, 0, 2], .setRxUncork, .again true] = some final ∧
      final.place = .epoll ∧ final.receiver.calls = [[1, 2]] ∧
      final.receiver.unread = [0, 2, 0, 2] ∧ final.received = corkedMessages.flatten :=
    execute_check (by decide +kernel)
  obtain ⟨final, finished, waits, called, unread, received⟩ := ran
  refine ⟨final, finished, waits, called, unread, ?_⟩
  rintro ⟨done, rest, parsed⟩
  have strands : Endpoint.frontComplete corkedMessages final 0 = true := by
    rw [Endpoint.frontComplete, unread, received]
    rfl
  rw [Endpoint.frontComplete_iff suited_corkedMessages.positive parsed.taken] at strands
  obtain ⟨message, later, rfl, whole⟩ := strands
  exact Nat.lt_irrefl _ (parsed.inside.trans_le whole)

end AdkAaf.Adk.IoEngine.Receiving
