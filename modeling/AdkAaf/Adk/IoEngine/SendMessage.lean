import AdkAaf.Adk.QueueVariant.Basic

/-! The transmit side of an endpoint of the io engine: `SendMsg` of the application and
`SendMessage` of the send actor, without a `PreSendHandler`. `writev` accepts any number of
the bytes it is given. -/

set_option autoImplicit false

namespace AdkAaf.Adk.IoEngine

/-- `assert(message->data_len())` in `SendMessage`; the length is a `uint32_t`. -/
structure TxMessage where
  data : List UInt8
  nonempty : data ≠ []
  fits : data.length < 2 ^ 32

def kTxBatchSize : Nat := 128

/-- `TcpEndpoint::Init` asks for `kTxBatchSize * 2` entries at least. -/
structure TxQueueConfig extends QueueVariant.Config where
  room : kTxBatchSize * 2 ≤ toConfig.queueSize

/-- The send side of an `EndpointHeader`. `socket` is what was accepted of it,
`released` the messages that were given back and `pushed` those that were queued. -/
structure EndpointHeader where
  txMessageQueue : List TxMessage := []
  txConsumeFlag : Nat := 0
  socket : List UInt8 := []
  released : List TxMessage := []
  pushed : List TxMessage := []

inductive IoResult where
  | kDrop
  | kActive0
  | kActive1
  deriving DecidableEq

/-- What `ITcpEndpoint::Send` returns, and for `EAGAIN` whether `EPollAddW` succeeds. -/
inductive SendResult where
  | sent (count : Nat)
  | again (added : Bool)

/-- An `int32_t` variable that a sum is stored to. -/
def toInt32 (value : Int) : Int := value.bmod (2 ^ 32)

theorem toInt32_of_small {value : Int} (low : -2 ^ 31 ≤ value) (high : value < 2 ^ 31) :
    toInt32 value = value :=
  Int.bmod_eq_of_le (by omega) (by omega)

theorem toInt32_bounds (value : Int) : -2 ^ 31 ≤ toInt32 value ∧ toInt32 value < 2 ^ 31 := by
  have low : -((2 ^ 32 : Nat) / 2 : Int) ≤ toInt32 value := Int.le_bmod (by decide)
  have high : toInt32 value < ((2 ^ 32 : Nat) + 1 : Int) / 2 := Int.bmod_lt (by decide)
  omega

theorem toInt32_le {value : Nat} : toInt32 value ≤ value := by
  rw [toInt32, Int.bmod]
  split <;> omega

/-- `ElementAt`, which looks only at whether the slot is in use. -/
def elementAt (config : TxQueueConfig) (queue : List TxMessage) (index : Nat) :
    Option TxMessage :=
  queue[index % config.queueSize]?

/-- The loop that fills `messages`, with `count` left of `kTxBatchSize`. -/
def collect (config : TxQueueConfig) (queue : List TxMessage) : Nat → Nat → List TxMessage
  | 0, _ => []
  | count + 1, messageIndex =>
    match elementAt config queue messageIndex with
    | none => []
    | some message => message :: collect config queue count (messageIndex + 1)

/-- `batch_msg_len` after the loop. -/
def batchMsgLen (messages : List TxMessage) : Int :=
  messages.foldl (fun batchMsgLen message => toInt32 (batchMsgLen + message.data.length)) 0

/-- `iov_msgs` and `batch_msg_len`, of which the first message is shortened. -/
def shorten (txConsumeFlag : Nat) (batchMsgLen : Int) :
    List (List UInt8) → List (List UInt8) × Int
  | [] => ([], batchMsgLen)
  | iov :: rest =>
    if txConsumeFlag ≠ 0 ∧ txConsumeFlag < iov.length then
      (iov.drop txConsumeFlag :: rest, toInt32 (batchMsgLen - txConsumeFlag))
    else
      (iov :: rest, batchMsgLen)

namespace EndpointHeader

variable (config : TxQueueConfig) (header : EndpointHeader)

def recycleTxMessage (messageSize : Nat) : EndpointHeader :=
  { header with
    txMessageQueue := header.txMessageQueue.drop messageSize
    released := header.released ++ header.txMessageQueue.take messageSize }

def distribute (header : EndpointHeader) :
    Nat → List (List UInt8) → Nat → EndpointHeader
  | _, [], _ => header
  | index, iov :: rest, sendLength =>
    if iov.length < sendLength then
      distribute (header.recycleTxMessage 1) (index + 1) rest (sendLength - iov.length)
    else if sendLength < iov.length then
      { header with
        txConsumeFlag := if index = 0 then header.txConsumeFlag + sendLength else sendLength }
    else
      { header.recycleTxMessage 1 with txConsumeFlag := 0 }

def messages : List TxMessage :=
  collect config header.txMessageQueue kTxBatchSize 0

/-- What is passed to `Send`, and the length that its result is compared with. -/
def batch : List (List UInt8) × Int :=
  let messages := header.messages config
  shorten header.txConsumeFlag (batchMsgLen messages) (messages.map TxMessage.data)

def sendMessage (answer : SendResult) : EndpointHeader × IoResult :=
  let messages := header.messages config
  let (iovMsgs, batchMsgLen) := header.batch config
  if messages = [] then
    (header, .kActive1)
  else
    match answer with
    | .again added => (header, if added then .kDrop else .kActive0)
    | .sent count =>
      let result := min count iovMsgs.flatten.length
      let header := { header with socket := header.socket ++ iovMsgs.flatten.take result }
      if (result : Int) = batchMsgLen then
        ({ header with txConsumeFlag := 0 }.recycleTxMessage messages.length, .kActive0)
      else
        (header.distribute 0 iovMsgs result, .kActive0)

/-- `TryPush` of `SendMsg`; false is `kWouldblock`. -/
def tryPush (message : TxMessage) : EndpointHeader × Bool :=
  if header.txMessageQueue.length < config.queueSize then
    ({ header with
      txMessageQueue := header.txMessageQueue ++ [message]
      pushed := header.pushed ++ [message] }, true)
  else
    (header, false)

end EndpointHeader

inductive Action where
  | sendMsg (message : TxMessage)
  | sendMessage (answer : SendResult)

def step (config : TxQueueConfig) (header : EndpointHeader) : Action → Option EndpointHeader
  | .sendMsg message => some (header.tryPush config message).1
  | .sendMessage answer => some (header.sendMessage config answer).1

end AdkAaf.Adk.IoEngine
