import AdkAaf.Adk.IoEngine.SendMessage

/-! What an endpoint sends is the stream of the messages in its queue, however `writev` cuts
it. -/

set_option autoImplicit false

namespace AdkAaf.Adk.IoEngine

open Lib List

def concat (messages : List TxMessage) : List UInt8 := (messages.map TxMessage.data).flatten

def Inside (txConsumeFlag : Nat) : List TxMessage → Prop
  | [] => txConsumeFlag = 0
  | message :: _ => txConsumeFlag < message.data.length

section Messages

theorem concat_append (messages more : List TxMessage) :
    concat (messages ++ more) = concat messages ++ concat more := by
  rw [concat, map_append, flatten_append]
  rfl

theorem length_concat_cons (message : TxMessage) (rest : List TxMessage) :
    (concat (message :: rest)).length = message.data.length + (concat rest).length :=
  length_append

theorem data_pos (message : TxMessage) : 0 < message.data.length :=
  length_pos_of_ne_nil message.nonempty

theorem inside_zero (queue : List TxMessage) : Inside 0 queue := by
  cases queue with
  | nil => rfl
  | cons message rest => exact data_pos message

variable {queue : List TxMessage}

theorem Inside.append {txConsumeFlag : Nat} (inside : Inside txConsumeFlag queue)
    (more : List TxMessage) : Inside txConsumeFlag (queue ++ more) := by
  cases queue with
  | nil =>
    cases (inside : txConsumeFlag = 0)
    exact inside_zero more
  | cons message rest => exact inside

variable {before behind : List TxMessage} {flag other : Nat}

theorem middle_nil {middle : List TxMessage} (inside : Inside flag (middle ++ behind))
    (level : (concat before).length + flag = (concat (before ++ middle)).length + other) :
    middle = [] := by
  cases middle with
  | nil => rfl
  | cons message rest =>
    have short : flag < message.data.length := inside
    rw [concat_append, length_append, length_concat_cons] at level
    omega

theorem split_unique {released : List TxMessage} (same : released ++ queue = before ++ behind)
    (inside : Inside flag queue) (insideOther : Inside other behind)
    (level : (concat released).length + flag = (concat before).length + other) :
    released = before ∧ queue = behind := by
  rcases append_eq_append_iff.mp same with ⟨middle, first, second⟩ | ⟨middle, first, second⟩
  · subst first second
    cases middle_nil inside level
    exact ⟨(append_nil released).symm, rfl⟩
  · subst first second
    cases middle_nil insideOther level.symm
    exact ⟨append_nil before, rfl⟩

end Messages

section Batch

variable {config : TxQueueConfig}

theorem collect_eq {q : List TxMessage} {count messageIndex : Nat}
    (room : messageIndex + count ≤ config.queueSize) :
    collect config q count messageIndex = (q.drop messageIndex).take count := by
  induction count generalizing messageIndex with
  | zero => rfl
  | succ count ih =>
    have inRing : messageIndex % config.queueSize = messageIndex := Nat.mod_eq_of_lt (by omega)
    rw [collect, elementAt, inRing]
    cases found : q[messageIndex]? with
    | none =>
      have behind := List.getElem?_eq_none_iff.mp found
      rw [drop_eq_nil_of_le behind]
      rfl
    | some message =>
      obtain ⟨inside, same⟩ := List.getElem?_eq_some_iff.mp found
      rw [ih (by omega), List.drop_eq_getElem_cons inside, same, List.take_succ_cons]

theorem messages_eq (header : EndpointHeader) :
    header.messages config = header.txMessageQueue.take kTxBatchSize := by
  have room := config.room
  rw [EndpointHeader.messages, collect_eq (by omega), drop_zero]

theorem toInt32_add (val more : Int) : toInt32 (toInt32 val + more) = toInt32 (val + more) :=
  Int.bmod_add_bmod

theorem toInt32_sub (val less : Int) : toInt32 (toInt32 val - less) = toInt32 (val - less) :=
  Int.bmod_sub_bmod

theorem batchMsgLen_eq (messages : List TxMessage) :
    batchMsgLen messages = toInt32 (concat messages).length := by
  have loop : ∀ base : Nat,
      messages.foldl (fun batchMsgLen message => toInt32 (batchMsgLen + message.data.length))
        (toInt32 base) = toInt32 (base + (concat messages).length : Nat) := by
    induction messages with
    | nil =>
      intro base
      have empty : (concat []).length = 0 := rfl
      rw [foldl_nil, empty, Nat.add_zero]
    | cons message rest ih =>
      intro base
      rw [foldl_cons, toInt32_add, ← Int.natCast_add, ih, length_concat_cons, Nat.add_assoc]
  have run := loop 0
  rw [Nat.zero_add] at run
  exact run

variable {txConsumeFlag : Nat} {message : TxMessage}

theorem shorten_fst (inside : txConsumeFlag < message.data.length) (rest : List (List UInt8))
    (length : Int) : (shorten txConsumeFlag length (message.data :: rest)).1 =
      message.data.drop txConsumeFlag :: rest := by
  rw [shorten]
  split
  next => rfl
  next whole =>
    have none : txConsumeFlag = 0 := by omega
    rw [none, drop_zero]

theorem shorten_snd (inside : txConsumeFlag < message.data.length) (rest : List (List UInt8))
    (length : Int) : (shorten txConsumeFlag (toInt32 length) (message.data :: rest)).2 =
      toInt32 (length - txConsumeFlag) := by
  rw [shorten]
  split
  next => exact toInt32_sub _ _
  next whole =>
    have none : txConsumeFlag = 0 := by omega
    rw [none, Int.natCast_zero, Int.sub_zero]

theorem batch_eq {header : EndpointHeader} {rest : List TxMessage}
    (queue : header.messages config = message :: rest)
    (inside : header.txConsumeFlag < message.data.length) :
    header.batch config = (message.data.drop header.txConsumeFlag :: rest.map TxMessage.data,
        toInt32 ((concat (message :: rest)).length - header.txConsumeFlag : Nat)) := by
  have le : header.txConsumeFlag ≤ (concat (message :: rest)).length := by
    rw [length_concat_cons]
    omega
  rw [EndpointHeader.batch, queue, batchMsgLen_eq, Int.natCast_sub le]
  exact Prod.ext (shorten_fst inside _ _) (shorten_snd inside _ _)

end Batch

namespace EndpointHeader

def position (header : EndpointHeader) : Nat :=
  (concat header.released).length + header.txConsumeFlag

/-- The queue and the released messages are those that were pushed, and the next byte is
inside of the first one in the queue. -/
structure Placed (header : EndpointHeader) : Prop where
  queue : header.released ++ header.txMessageQueue = header.pushed
  inside : Inside header.txConsumeFlag header.txMessageQueue

structure Sound (header : EndpointHeader) : Prop extends header.Placed where
  socket : header.socket = (concat header.pushed).take header.position

def iovMsgs (config : TxQueueConfig) (header : EndpointHeader) : List UInt8 :=
  (header.batch config).1.flatten

end EndpointHeader

open EndpointHeader

section Call

variable {config : TxQueueConfig} {header : EndpointHeader}

theorem EndpointHeader.Placed.recycle (placed : header.Placed) (count : Nat) :
    ({ header with txConsumeFlag := 0 }.recycleTxMessage count).Placed where
  queue := by
    rw [← placed.queue]
    change (header.released ++ _) ++ _ = _
    rw [append_assoc, recycleTxMessage, take_append_drop]
  inside := inside_zero _

theorem EndpointHeader.Placed.position_le (placed : header.Placed) :
    header.position ≤ (concat header.pushed).length := by
  rw [← placed.queue, concat_append, length_append, position]
  have inside := placed.inside
  cases q : header.txMessageQueue with rw [q] at inside
  | nil =>
    rw [(inside : header.txConsumeFlag = 0)]
    exact Nat.le_add_right _ _
  | cons message rest =>
    have short : header.txConsumeFlag < message.data.length := inside
    rw [length_concat_cons]
    omega

structure MovedTo (header : EndpointHeader) (bytes : Nat) (after : EndpointHeader) : Prop
    extends after.Placed where
  pushed : after.pushed = header.pushed
  same : after.socket = header.socket
  position : after.position = (concat header.released).length + bytes

variable {index skipped sent : Nat} {message : TxMessage} {rest : List TxMessage}

section

variable (queue : header.txMessageQueue = message :: rest)
  (whole : header.released ++ header.txMessageQueue = header.pushed)
include queue whole

theorem movedTo_inside (first : skipped = if index = 0 then header.txConsumeFlag else 0)
    (short : skipped + sent < message.data.length) :
    MovedTo header (skipped + sent) { header with
      txConsumeFlag := if index = 0 then header.txConsumeFlag + sent else sent } := by
  have flag : (if index = 0 then header.txConsumeFlag + sent else sent) = skipped + sent := by
    rw [first]
    split
    next => rfl
    next => rw [Nat.zero_add]
  rw [flag]
  refine ⟨⟨whole, ?_⟩, rfl, rfl, rfl⟩
  rw [queue]
  exact short

theorem movedTo_recycled :
    MovedTo header message.data.length { header.recycleTxMessage 1 with txConsumeFlag := 0 } := by
  have start : { header with txConsumeFlag := 0 }.Placed := ⟨whole, inside_zero _⟩
  have recycled := start.recycle 1
  refine ⟨recycled, rfl, rfl, ?_⟩
  change (concat (header.released ++ header.txMessageQueue.take 1)).length + 0 = _
  rw [queue, concat_append, length_append]
  exact congrArg ((concat header.released).length + ·) (length_concat_cons message [])

theorem movedTo_stop (first : skipped = if index = 0 then header.txConsumeFlag else 0)
    (inside : skipped < message.data.length) (last : ¬ message.data.length - skipped < sent) :
    MovedTo header (skipped + sent) (if sent < message.data.length - skipped then { header with
          txConsumeFlag := if index = 0 then header.txConsumeFlag + sent else sent }
        else { header.recycleTxMessage 1 with txConsumeFlag := 0 }) := by
  split
  next short => exact movedTo_inside queue whole first (by omega)
  next =>
    have exact : skipped + sent = message.data.length := by omega
    rw [exact]
    exact movedTo_recycled queue whole

end

theorem movedTo_distribute {batch behind : List TxMessage}
    (queue : header.txMessageQueue = message :: batch ++ behind)
    (whole : header.released ++ header.txMessageQueue = header.pushed)
    (first : skipped = if index = 0 then header.txConsumeFlag else 0)
    (inside : skipped < message.data.length)
    (fits : skipped + sent ≤ (concat (message :: batch)).length) :
    MovedTo header (skipped + sent) (header.distribute index
      (message.data.drop skipped :: batch.map TxMessage.data) sent) := by
  induction batch generalizing header index skipped sent message with
  | nil =>
    rw [length_concat_cons] at fits
    have fits' : skipped + sent ≤ message.data.length := fits
    have notLonger : ¬ message.data.length - skipped < sent := by omega
    rw [distribute, length_drop, if_neg notLonger]
    exact movedTo_stop queue whole first inside notLonger
  | cons next batch ih =>
    rw [length_concat_cons] at fits
    rw [map_cons, distribute, length_drop]
    split
    next longer =>
      have moved := movedTo_recycled queue whole
      have behindQueue : (header.recycleTxMessage 1).txMessageQueue = next :: batch ++ behind := by
        rw [recycleTxMessage, queue]
        rfl
      have later := @ih (header.recycleTxMessage 1) (index + 1) 0
        (sent - (message.data.length - skipped)) next behindQueue moved.queue
        (if_neg (Nat.succ_ne_zero index)).symm (data_pos next) (by omega)
      refine { later with position := ?_ }
      have before : (concat (header.recycleTxMessage 1).released).length =
          (concat header.released).length + message.data.length := moved.position
      rw [drop_zero] at later
      rw [later.position, before]
      omega
    next notLonger => exact movedTo_stop queue whole first inside notLonger

theorem queue_split (config : TxQueueConfig) (header : EndpointHeader) :
    header.messages config ++ header.txMessageQueue.drop kTxBatchSize = header.txMessageQueue := by
  rw [messages_eq, take_append_drop]

section

variable (inside : Inside header.txConsumeFlag header.txMessageQueue)
  (batch : header.messages config = message :: rest)
include inside batch

theorem Inside.messages : header.txConsumeFlag < message.data.length := by
  rw [← queue_split config header, batch] at inside
  exact inside

theorem iovMsgs_eq :
    header.iovMsgs config = (concat (message :: rest)).drop header.txConsumeFlag := by
  have short := Inside.messages inside batch
  rw [iovMsgs, batch_eq batch short]
  exact (drop_append_of_le_length short.le).symm

end

theorem stream_continues (placed : header.Placed)
    (batch : header.messages config = message :: rest) :
    header.iovMsgs config <+: (concat header.pushed).drop header.position := by
  have short := Inside.messages placed.inside batch
  have split := queue_split config header
  rw [batch] at split
  rw [iovMsgs_eq placed.inside batch, ← placed.queue, ← split, concat_append, position,
    ← drop_drop, drop_left, concat_append, drop_append_of_le_length]
  · exact prefix_append _ _
  · rw [length_concat_cons]
    omega

theorem length_iovMsgs (inside : Inside header.txConsumeFlag header.txMessageQueue)
    (batch : header.messages config = message :: rest) :
    header.txConsumeFlag + (header.iovMsgs config).length = (concat (message :: rest)).length := by
  have short := Inside.messages inside batch
  rw [iovMsgs_eq inside batch, length_drop, length_concat_cons]
  omega

/-- `Send` does not accept fewer bytes than it is given and just as many as `batch_msg_len`
says. -/
def Told (config : TxQueueConfig) (header : EndpointHeader) : SendResult → Prop
  | .sent count =>
    (min count (header.iovMsgs config).length : Nat) = (header.batch config).2 →
      (header.iovMsgs config).length ≤ count
  | .again _ => True

theorem movedTo_whole (placed : header.Placed) (batch : header.messages config = message :: rest) :
    MovedTo header (header.txConsumeFlag + (header.iovMsgs config).length)
      ({ header with txConsumeFlag := 0 }.recycleTxMessage (header.messages config).length) := by
  have split := queue_split config header
  have dropped : header.txMessageQueue.take (header.messages config).length =
      header.messages config := by
    rw [← split, take_left]
  refine ⟨placed.recycle _, rfl, rfl, ?_⟩
  change (concat (header.released ++ header.txMessageQueue.take _)).length + 0 = _
  rw [dropped, length_iovMsgs placed.inside batch, batch, concat_append, length_append,
    Nat.add_zero]

theorem movedTo_batch (placed : header.Placed) (batch : header.messages config = message :: rest)
    {result : Nat} (fits : result ≤ (header.iovMsgs config).length) :
    MovedTo header (header.txConsumeFlag + result)
      (header.distribute 0 (header.batch config).1 result) := by
  have short := Inside.messages placed.inside batch
  have split := queue_split config header
  rw [batch] at split
  have whole : header.txConsumeFlag + result ≤ (concat (message :: rest)).length := by
    rw [← length_iovMsgs placed.inside batch]
    exact Nat.add_le_add_left fits _
  rw [batch_eq batch short]
  exact movedTo_distribute split.symm placed.queue (if_pos rfl).symm short whole

theorem sendMessage_sent (batch : header.messages config = message :: rest) (count : Nat) :
    let result := min count (header.iovMsgs config).length
    let accepted := { header with
      socket := header.socket ++ (header.iovMsgs config).take result }
    (header.sendMessage config (.sent count)).1 =
      if (result : Int) = (header.batch config).2 then
        { accepted with txConsumeFlag := 0 }.recycleTxMessage (header.messages config).length
      else
        accepted.distribute 0 (header.batch config).1 result := by
  have some : ¬ header.messages config = [] := by
    rw [batch]
    exact cons_ne_nil _ _
  rw [sendMessage]
  dsimp only
  rw [if_neg some]
  split
  next whole => exact (if_pos whole).symm
  next shorter => exact (if_neg shorter).symm

variable {count : Nat}

theorem movedTo_sendMessage (placed : header.Placed)
    (batch : header.messages config = message :: rest) (told : Told config header (.sent count)) :
    let result := min count (header.iovMsgs config).length
    MovedTo { header with socket := header.socket ++ (header.iovMsgs config).take result }
      (header.txConsumeFlag + result) (header.sendMessage config (.sent count)).1 := by
  intro result
  have placed' : { header with
      socket := header.socket ++ (header.iovMsgs config).take result }.Placed :=
    ⟨placed.queue, placed.inside⟩
  rw [sendMessage_sent batch]
  split
  next whole =>
    have all : result = (header.iovMsgs config).length := Nat.min_eq_right (told whole)
    have moved := movedTo_whole placed' batch
    refine { moved with position := moved.position.trans ?_ }
    rw [all]
    rfl
  next shorter => exact movedTo_batch placed' batch (Nat.min_le_right _ _)

theorem sendMessage_again (added : Bool) :
    (header.sendMessage config (.again added)).1 = header := by
  rw [sendMessage]
  dsimp only
  split <;> rfl

theorem sendMessage_nil (batch : header.messages config = []) (answer : SendResult) :
    (header.sendMessage config answer).1 = header := by
  rw [sendMessage]
  dsimp only
  rw [if_pos batch]

theorem EndpointHeader.Placed.sendMessage (placed : header.Placed) (answer : SendResult) :
    (header.sendMessage config answer).1.Placed := by
  cases answer with
  | again added =>
    rw [sendMessage_again]
    exact placed
  | sent count =>
    cases batch : header.messages config with
    | nil =>
      rw [sendMessage_nil batch]
      exact placed
    | cons message rest =>
      have placed' : { header with socket := header.socket ++
          (header.iovMsgs config).take (min count (header.iovMsgs config).length) }.Placed :=
        ⟨placed.queue, placed.inside⟩
      rw [sendMessage_sent batch]
      split
      next => exact placed'.recycle _
      next => exact (movedTo_batch placed' batch (Nat.min_le_right _ _)).toPlaced

theorem EndpointHeader.Placed.tryPush (placed : header.Placed) (message : TxMessage) :
    (header.tryPush config message).1.Placed := by
  rw [EndpointHeader.tryPush]
  split
  next =>
    refine ⟨?_, placed.inside.append [message]⟩
    rw [← append_assoc, placed.queue]
  next => exact placed

theorem EndpointHeader.Sound.sendMessage (sound : header.Sound) {answer : SendResult}
    (told : Told config header answer) : (header.sendMessage config answer).1.Sound := by
  cases answer with
  | again added =>
    rw [sendMessage_again]
    exact sound
  | sent count =>
    cases batch : header.messages config with
    | nil =>
      rw [sendMessage_nil batch]
      exact sound
    | cons message rest =>
      have moved := movedTo_sendMessage sound.toPlaced batch told
      refine ⟨moved.toPlaced, ?_⟩
      obtain ⟨later, continues⟩ := stream_continues sound.toPlaced batch
      rw [moved.same, moved.pushed, moved.position, ← Nat.add_assoc]
      change header.socket ++ _ = (concat header.pushed).take (header.position + _)
      rw [take_add, ← sound.socket, ← continues,
        take_append_of_le_length (Nat.min_le_right _ _)]

theorem EndpointHeader.Sound.tryPush (sound : header.Sound) (message : TxMessage) :
    (header.tryPush config message).1.Sound := by
  refine ⟨sound.toPlaced.tryPush message, ?_⟩
  rw [EndpointHeader.tryPush]
  split
  next =>
    change header.socket = (concat (header.pushed ++ [message])).take header.position
    rw [concat_append, take_append_of_le_length sound.position_le]
    exact sound.socket
  next => exact sound.socket

theorem complete_sendMessage (placed : header.Placed)
    (complete : (header.iovMsgs config).length ≤ count) :
    let after := (header.sendMessage config (.sent count)).1
    after.released = header.released ++ header.messages config ∧
      after.txMessageQueue = header.txMessageQueue.drop kTxBatchSize ∧
      after.pushed = header.pushed ∧ after.socket = header.socket ++ header.iovMsgs config := by
  have split := queue_split config header
  cases batch : header.messages config with
  | nil =>
    rw [batch, nil_append] at split
    have none : header.iovMsgs config = [] := by
      rw [iovMsgs, EndpointHeader.batch, batch]
      rfl
    rw [sendMessage_nil batch, split, none, append_nil, append_nil]
    exact ⟨rfl, rfl, rfl, rfl⟩
  | cons message rest =>
    have told : Told config header (.sent count) := fun _ => complete
    have moved := movedTo_sendMessage placed batch told
    dsimp only at moved
    rw [Nat.min_eq_right complete, take_length] at moved
    have same : (header.sendMessage config (.sent count)).1.released ++
        (header.sendMessage config (.sent count)).1.txMessageQueue =
          (header.released ++ header.messages config) ++
            header.txMessageQueue.drop kTxBatchSize := by
      rw [moved.queue, moved.pushed, append_assoc, split]
      exact placed.queue.symm
    have level : (header.sendMessage config (.sent count)).1.position =
        (concat (header.released ++ header.messages config)).length + 0 := by
      rw [moved.position, length_iovMsgs placed.inside batch, batch, concat_append,
        length_append]
      rfl
    obtain ⟨released, queue⟩ := split_unique same moved.inside (inside_zero _) level
    rw [batch] at released
    exact ⟨released, queue, moved.pushed, moved.same⟩

end Call

section Runs

variable {config : TxQueueConfig} {header final : EndpointHeader} {actions : List Action}

instance (config : TxQueueConfig) (header : EndpointHeader) :
    ∀ answer, Decidable (Told config header answer)
  | .sent _ => inferInstanceAs (Decidable (_ → _))
  | .again _ => inferInstanceAs (Decidable True)

def ActorTold (config : TxQueueConfig) (header : EndpointHeader) : Action → Prop
  | .sendMsg _ => True
  | .sendMessage answer => Told config header answer

instance (config : TxQueueConfig) (header : EndpointHeader) :
    ∀ action, Decidable (ActorTold config header action)
  | .sendMsg _ => inferInstanceAs (Decidable True)
  | .sendMessage answer => inferInstanceAs (Decidable (Told config header answer))

def Complete (config : TxQueueConfig) (header : EndpointHeader) : Action → Prop
  | .sendMessage (.sent count) => (header.iovMsgs config).length ≤ count
  | _ => False

/-- What the socket has accepted is a part of the stream, a message is given back once and
behind its last byte, and complete results send all that was pushed. -/
structure Transmitted (config : TxQueueConfig) (header : EndpointHeader) : Prop where
  stream : header.socket <+: concat header.pushed
  once : header.released ++ header.txMessageQueue = header.pushed
  accepted : concat header.released <+: header.socket
  drained : ∀ actions final, Guarded (step config) (Complete config) header actions →
    header.txMessageQueue.length ≤ kTxBatchSize * actions.length →
    execute (step config) header actions = some final →
    final.pushed = header.pushed ∧ final.txMessageQueue = [] ∧ final.socket = concat final.pushed

variable {action : Action}

theorem step_placed (placed : header.Placed) (went : step config header action = some final) :
    final.Placed := by
  cases action with cases went
  | sendMsg message => exact placed.tryPush message
  | sendMessage answer => exact placed.sendMessage answer

section

variable (sound : header.Sound)
include sound

theorem step_sound (told : ActorTold config header action)
    (went : step config header action = some final) : final.Sound := by
  cases action with cases went
  | sendMsg message => exact sound.tryPush message
  | sendMessage answer => exact sound.sendMessage told

theorem EndpointHeader.Sound.accepted : concat header.released <+: header.socket := by
  rw [sound.socket, ← sound.queue, concat_append, position, take_length_add_append]
  exact prefix_append _ _

theorem EndpointHeader.Sound.all (empty : header.txMessageQueue = []) :
    header.socket = concat header.pushed := by
  have inside := sound.inside
  rw [empty] at inside
  have none : header.txConsumeFlag = 0 := inside
  have released := sound.queue
  rw [empty, append_nil] at released
  rw [sound.socket, position, released, none, Nat.add_zero, take_length]

theorem drained_of_complete (complete : Guarded (step config) (Complete config) header actions)
    (enough : header.txMessageQueue.length ≤ kTxBatchSize * actions.length)
    (ran : execute (step config) header actions = some final) :
    final.Sound ∧ final.pushed = header.pushed ∧ final.txMessageQueue = [] := by
  induction actions generalizing header with
  | nil =>
    cases ran
    exact ⟨sound, rfl, length_eq_zero_iff.mp (Nat.le_zero.mp enough)⟩
  | cons action rest ih =>
    obtain ⟨next, went, finished⟩ := execute_cons.mp ran
    obtain ⟨whole, later⟩ := complete.cons went
    cases action with
    | sendMsg message => cases whole
    | sendMessage answer =>
      cases answer with
      | again added => cases whole
      | sent count =>
        cases went
        obtain ⟨_, queue, pushed, _⟩ := complete_sendMessage sound.toPlaced whole
        have told : Told config header (.sent count) := fun _ => whole
        have next := sound.sendMessage told
        rw [← pushed]
        refine ih next later ?_ finished
        rw [queue, length_drop]
        exact Nat.sub_le_of_le_add enough

theorem EndpointHeader.Sound.transmitted : Transmitted config header := by
  refine ⟨?_, sound.queue, sound.accepted, ?_⟩
  · rw [sound.socket]
    exact take_prefix _ _
  · intro actions last complete enough ran
    obtain ⟨sound', pushed, empty⟩ := drained_of_complete sound complete enough ran
    exact ⟨pushed, empty, sound'.all empty⟩

theorem sound_of_told (told : Guarded (step config) (ActorTold config) header actions)
    (ran : execute (step config) header actions = some final) : final.Sound :=
  invariant_of_guarded step_sound sound told ran

end

/-- As long as `batch_msg_len` is not mistaken for a partial result, the stream of the messages
is sent, whatever `writev` accepts. -/
theorem transmitted_of_told (told : Guarded (step config) (ActorTold config) {} actions)
    (ran : execute (step config) {} actions = some final) : Transmitted config final :=
  have start : ({} : EndpointHeader).Sound := ⟨⟨rfl, rfl⟩, rfl⟩
  (sound_of_told start told ran).transmitted

def eightThousand : TxQueueConfig where
  exponent := 13
  positive := by decide
  small := by decide
  room := by decide

def word (first second third : UInt8) : TxMessage where
  data := [first, second, third]
  nonempty := cons_ne_nil _ _
  fits := (by decide : 3 < 2 ^ 32)

theorem transmitted_of_three_messages :
    ∃ final, execute (step eightThousand) {} [.sendMsg (word 1 2 3), .sendMsg (word 4 5 6),
        .sendMessage (.sent 4), .sendMessage (.again true), .sendMsg (word 7 8 9),
        .sendMessage (.sent 3)] = some final ∧
      (final.socket = [1, 2, 3, 4, 5, 6, 7] ∧ final.released.length = 2) ∧
        Transmitted eightThousand final := by
  obtain ⟨final, ran, sent⟩ : ∃ final, execute (step eightThousand) {} [.sendMsg (word 1 2 3),
      .sendMsg (word 4 5 6), .sendMessage (.sent 4), .sendMessage (.again true),
      .sendMsg (word 7 8 9), .sendMessage (.sent 3)] = some final ∧
        (final.socket = [1, 2, 3, 4, 5, 6, 7] ∧ final.released.length = 2) :=
    execute_check (by decide +kernel)
  exact ⟨final, ran, sent, transmitted_of_told (by decide +kernel) ran⟩

def greatest : TxMessage where
  data := replicate (2 ^ 32 - 1) 0
  nonempty := by
    intro empty
    have length := congrArg length empty
    rw [length_replicate] at length
    cases length
  fits := by
    rw [length_replicate]
    exact Nat.sub_lt (Nat.two_pow_pos 32) Nat.one_pos

def two : TxMessage where
  data := [0, 0]
  nonempty := cons_ne_nil _ _
  fits := by decide

theorem not_transmitted_of_wrapped {first second : TxMessage}
    (total : (concat [first, second]).length = 2 ^ 32 + 1) :
    ∃ final, execute (step eightThousand) {} [.sendMsg first, .sendMsg second,
        .sendMessage (.sent 1)] = some final ∧ ¬ Transmitted eightThousand final := by
  let queued : EndpointHeader := { txMessageQueue := [first, second], pushed := [first, second] }
  have batch : queued.messages eightThousand = [first, second] := by
    rfl
  have none : queued.txConsumeFlag = 0 := rfl
  have given : (queued.iovMsgs eightThousand).length = 2 ^ 32 + 1 := by
    have inside : Inside queued.txConsumeFlag queued.txMessageQueue := data_pos first
    have length := length_iovMsgs inside batch
    rw [total, none, Nat.zero_add] at length
    exact length
  have one : min 1 (queued.iovMsgs eightThousand).length = 1 :=
    Nat.min_eq_left (by rw [given]; exact Nat.le_add_left 1 _)
  have wrapped : (min 1 (queued.iovMsgs eightThousand).length : Nat) =
      (queued.batch eightThousand).2 := by
    rw [one, batch_eq batch (data_pos first), total, none, Nat.sub_zero]
    dsimp only
    decide
  have last := (sendMessage_sent batch 1).trans (if_pos wrapped)
  have released : (queued.sendMessage eightThousand (.sent 1)).1.released = [first, second] := by
    rw [last, batch]
    rfl
  have accepted : (queued.sendMessage eightThousand (.sent 1)).1.socket.length ≤ 1 := by
    rw [last, one]
    exact length_take_le 1 _
  refine ⟨(queued.sendMessage eightThousand (.sent 1)).1, rfl, ?_⟩
  intro transmitted
  have whole := transmitted.accepted.length_le
  rw [released, total] at whole
  exact absurd (whole.trans accepted) (by decide)

/-- Both messages are dropped when one byte of them was sent. -/
theorem wrapped_length_loses_messages :
    ∃ final, execute (step eightThousand) {} [.sendMsg greatest, .sendMsg two,
        .sendMessage (.sent 1)] = some final ∧ ¬ Transmitted eightThousand final := by
  refine not_transmitted_of_wrapped ?_
  have length : greatest.data.length = 2 ^ 32 - 1 := length_replicate
  rw [length_concat_cons, length]
  exact (by decide : 2 ^ 32 - 1 + 2 = 2 ^ 32 + 1)

end Runs

end AdkAaf.Adk.IoEngine
