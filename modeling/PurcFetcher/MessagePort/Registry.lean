import PurcFetcher.Core.HashMap
import PurcFetcher.Core.Machine

/-!
# Message port channels

A channel links two ports and queues the messages that are posted to each of them.  The registry
of the network process finds the channel of a port, and the connections of the web processes
turn the messages they receive into operations on it.

A channel is kept alive by the references it holds on itself, by those of its two sides and by
the callbacks of the batches that are being delivered.  When the last one is dropped, it is
destroyed and leaves the registry.  The assertions of the source do not hold in a release build
and have no part in the model.  No connection is opened or closed in the runs considered here,
so that the ports a connection would close when it is destroyed are left out.
-/

namespace PurcFetcher.MessagePort

abbrev ProcessIdentifier := ℕ

structure MessagePortIdentifier where
  processIdentifier : ProcessIdentifier
  portIdentifier : ℕ
  deriving DecidableEq, Repr

/-! ## `MessagePortChannel` -/

section Channel

variable {Message : Type}

/-- The elements of the arrays of a channel that belong to one port.  A member that can only
refer to the channel itself is a truth value. -/
structure Side (Message : Type) where
  port : MessagePortIdentifier
  isClosed : Bool
  process : Option ProcessIdentifier
  entangledToProcessProtector : Bool
  pendingMessages : List Message
  pendingMessagePortTransfers : Bool
  pendingMessageProtector : Bool
  deriving DecidableEq, Repr

structure Channel (Message : Type) where
  first : Side Message
  second : Side Message
  messageBatchesInFlight : ℕ
  deriving DecidableEq, Repr

def Side.create (port : MessagePortIdentifier) : Side Message where
  port
  isClosed := false
  process := some port.processIdentifier
  entangledToProcessProtector := true
  pendingMessages := []
  pendingMessagePortTransfers := false
  pendingMessageProtector := false

/-- References that the side holds on its channel. -/
def Side.isReferring (side : Side Message) : Bool :=
  side.entangledToProcessProtector || side.pendingMessagePortTransfers ||
    side.pendingMessageProtector

namespace Channel

def create (port1 port2 : MessagePortIdentifier) : Channel Message where
  first := .create port1
  second := .create port2
  messageBatchesInFlight := 0

/-- `i = port == m_ports[0] ? 0 : 1`. -/
def side (channel : Channel Message) (port : MessagePortIdentifier) : Side Message :=
  if port = channel.first.port then channel.first else channel.second

def modify (channel : Channel Message) (port : MessagePortIdentifier)
    (change : Side Message → Side Message) : Channel Message :=
  if port = channel.first.port then { channel with first := change channel.first }
  else { channel with second := change channel.second }

def processForPort (channel : Channel Message) (port : MessagePortIdentifier) :
    Option ProcessIdentifier :=
  (channel.side port).process

def hasAnyMessagesPendingOrInFlight (channel : Channel Message) : Bool :=
  channel.messageBatchesInFlight != 0 || !channel.first.pendingMessages.isEmpty ||
    !channel.second.pendingMessages.isEmpty

end Channel

namespace Side

/-- `MessagePortChannel::entanglePortWithProcess`. -/
def entangle (process : ProcessIdentifier) (side : Side Message) : Side Message :=
  { side with
    process := some process
    entangledToProcessProtector := true
    pendingMessagePortTransfers := false }

/-- `MessagePortChannel::disentanglePort`. -/
def disentangle (side : Side Message) : Side Message :=
  { side with
    process := none
    pendingMessagePortTransfers := true
    entangledToProcessProtector := false }

/-- `MessagePortChannel::closePort`. -/
def close (side : Side Message) : Side Message :=
  { side with
    process := none
    isClosed := true
    pendingMessages := []
    pendingMessagePortTransfers := false
    pendingMessageProtector := false
    entangledToProcessProtector := false }

/-- `MessagePortChannel::postMessageToRemote`. -/
def post (message : Message) (side : Side Message) : Side Message :=
  { side with
    pendingMessages := side.pendingMessages ++ [message]
    pendingMessageProtector :=
      side.pendingMessageProtector || (side.pendingMessages ++ [message]).length = 1 }

/-- What `postMessageToRemote` returns: the message is the only pending one. -/
def isOnlyMessage (side : Side Message) : Bool :=
  side.pendingMessages.length = 1

/-- What `MessagePortChannel::takeAllMessagesForPort` leaves when there are messages.  The
reference moves to the callback of the batch. -/
def take (side : Side Message) : Side Message :=
  { side with pendingMessages := [], pendingMessageProtector := false }

end Side

end Channel

/-! ## The network process -/

/-- What happens to ports, as far as the registry and the web processes can see it. -/
inductive Event (Message : Type)
  /-- The port is entered into the registry with a new channel. -/
  | opened (port : MessagePortIdentifier)
  | closed (port : MessagePortIdentifier)
  | entangled (port : MessagePortIdentifier) (process : ProcessIdentifier)
  /-- A message is posted to a port that has a channel. -/
  | posted (port : MessagePortIdentifier) (message : Message)
  /-- The batch is the reply to `TakeAllMessagesForPort`. -/
  | taken (port : MessagePortIdentifier) (batch : List Message)
  /-- `MessagesAvailableForPort` is sent to the process. -/
  | notified (port : MessagePortIdentifier) (process : ProcessIdentifier)
  deriving DecidableEq, Repr

/-- The registry, the channels it refers to, the delivery callbacks of all connections and the
events so far, the last one first.  Channels are kept under the order of their creation.  A
callback is empty or belongs to the channel whose batch is being delivered. -/
structure State (Message : Type) where
  openChannels : HashMap MessagePortIdentifier ℕ
  channels : HashMap ℕ (Channel Message)
  nextChannel : ℕ
  messageBatchDeliveryCompletionHandlers : HashMap (ProcessIdentifier × ℕ) (Option ℕ)
  currentMessageBatchIdentifier : ℕ
  events : List (Event Message)

variable {Message : Type}

namespace State

def initial : State Message where
  openChannels := ∅
  channels := ∅
  nextChannel := 0
  messageBatchDeliveryCompletionHandlers := ∅
  currentMessageBatchIdentifier := 0
  events := []

def record (state : State Message) (event : Event Message) : State Message :=
  { state with events := event :: state.events }

def existingChannelContainingPort (state : State Message) (port : MessagePortIdentifier) :
    Option (ℕ × Channel Message) :=
  (state.openChannels.lookup port).bind fun identity =>
    (state.channels.lookup identity).map fun channel => (identity, channel)

def setChannel (state : State Message) (identity : ℕ) (channel : Channel Message) :
    State Message :=
  { state with channels := state.channels.insert identity channel }

def isReferenced (state : State Message) (identity : ℕ) (channel : Channel Message) : Bool :=
  channel.first.isReferring || channel.second.isReferring ||
    state.messageBatchDeliveryCompletionHandlers.entries.any fun handler =>
      handler.2 == some identity

/-- A reference to the channel has been dropped.  The destructor of a channel takes both ports
out of the registry. -/
def release (state : State Message) (identity : ℕ) : State Message :=
  match state.channels.lookup identity with
  | none => state
  | some channel =>
    if state.isReferenced identity channel then state
    else
      { state with
        channels := state.channels.erase identity
        openChannels := (state.openChannels.erase channel.first.port).erase channel.second.port }

/-- `ensure` in `messagePortChannelCreated`. -/
def openPort (state : State Message) (port : MessagePortIdentifier) (identity : ℕ) :
    State Message :=
  if port ∈ state.openChannels then state
  else { state with openChannels := state.openChannels.insert port identity }.record (.opened port)

/-- `createNewMessagePortChannel` and `didCreateMessagePortChannel`. -/
def createNewMessagePortChannel (state : State Message) (port1 port2 : MessagePortIdentifier) :
    State Message :=
  let identity := state.nextChannel
  let created :=
    { state with
      channels := state.channels.insert identity (.create port1 port2)
      nextChannel := identity + 1 }
  (created.openPort port1 identity).openPort port2 identity

/-- `entangleLocalPortInThisProcessToRemote` and `didEntangleLocalToRemote`. -/
def entangleLocalPortInThisProcessToRemote (state : State Message)
    (process : ProcessIdentifier) (port : MessagePortIdentifier) : State Message :=
  match state.existingChannelContainingPort port with
  | none => state
  | some (identity, channel) =>
    let channel := channel.modify port (.entangle process)
    let entangled := (state.setChannel identity channel).record (.entangled port process)
    if channel.hasAnyMessagesPendingOrInFlight then entangled.record (.notified port process)
    else entangled

/-- `messagePortDisentangled` and `didDisentangleMessagePort`. -/
def messagePortDisentangled (state : State Message) (port : MessagePortIdentifier) :
    State Message :=
  match state.existingChannelContainingPort port with
  | none => state
  | some (identity, channel) =>
    (state.setChannel identity (channel.modify port .disentangle)).release identity

/-- `messagePortClosed` and `didCloseMessagePort`. -/
def messagePortClosed (state : State Message) (port : MessagePortIdentifier) : State Message :=
  match state.existingChannelContainingPort port with
  | none => state
  | some (identity, channel) =>
    ((state.setChannel identity (channel.modify port .close)).record (.closed port)).release
      identity

/-- `postMessageToRemote` and `didPostMessageToRemote`. -/
def postMessageToRemote (webProcessConnection : ProcessIdentifier → Bool)
    (state : State Message) (message : Message) (port : MessagePortIdentifier) :
    State Message :=
  match state.existingChannelContainingPort port with
  | none => state
  | some (identity, channel) =>
    let channel := channel.modify port (.post message)
    let posted := (state.setChannel identity channel).record (.posted port message)
    if (channel.side port).isOnlyMessage then
      match channel.processForPort port with
      | none => posted
      | some process =>
        if webProcessConnection process then posted.record (.notified port process)
        else posted
    else posted

/-- `nextMessageBatchIdentifier`. -/
def addHandler (state : State Message) (process : ProcessIdentifier) (handler : Option ℕ) :
    State Message :=
  let batch := state.currentMessageBatchIdentifier + 1
  { state with
    messageBatchDeliveryCompletionHandlers :=
      HashMap.add (process, batch) handler state.messageBatchDeliveryCompletionHandlers
    currentMessageBatchIdentifier := batch }

/-- `takeAllMessagesForPort`.  A port without a channel or without messages is answered with an
empty batch and an empty callback. -/
def takeAllMessagesForPort (state : State Message) (process : ProcessIdentifier)
    (port : MessagePortIdentifier) : State Message :=
  match state.existingChannelContainingPort port with
  | none => (state.addHandler process none).record (.taken port [])
  | some (identity, channel) =>
    let batch := (channel.side port).pendingMessages
    if batch.isEmpty then (state.addHandler process none).record (.taken port [])
    else
      let channel := channel.modify port .take
      let channel := { channel with messageBatchesInFlight := channel.messageBatchesInFlight + 1 }
      ((state.setChannel identity channel).addHandler process (some identity)).record
        (.taken port batch)

/-- `didDeliverMessagePortMessages`. -/
def didDeliverMessagePortMessages (state : State Message) (process : ProcessIdentifier)
    (batch : ℕ) : State Message :=
  match state.messageBatchDeliveryCompletionHandlers.lookup (process, batch) with
  | none => state
  | some handler =>
    let taken :=
      { state with
        messageBatchDeliveryCompletionHandlers :=
          state.messageBatchDeliveryCompletionHandlers.erase (process, batch) }
    match handler with
    | none => taken
    | some identity =>
      match taken.channels.lookup identity with
      | none => taken
      | some channel =>
        (taken.setChannel identity
          { channel with
            messageBatchesInFlight := channel.messageBatchesInFlight - 1 }).release identity

end State

/-- A message of a web process. -/
inductive Action (Message : Type)
  | create (process : ProcessIdentifier) (port1 port2 : MessagePortIdentifier)
  | entangle (process : ProcessIdentifier) (port remote : MessagePortIdentifier)
  | disentangle (process : ProcessIdentifier) (port : MessagePortIdentifier)
  | close (process : ProcessIdentifier) (port : MessagePortIdentifier)
  | post (process : ProcessIdentifier) (message : Message) (port : MessagePortIdentifier)
  | take (process : ProcessIdentifier) (port : MessagePortIdentifier)
  | delivered (process : ProcessIdentifier) (batch : ℕ)
  deriving DecidableEq, Repr

def Action.process : Action Message → ProcessIdentifier
  | create process _ _ | entangle process _ _ | disentangle process _ | close process _
  | post process _ _ | take process _ | delivered process _ => process

/-- A message comes in on the connection of its process. -/
def step (webProcessConnection : ProcessIdentifier → Bool) (state : State Message)
    (action : Action Message) : Option (State Message) :=
  if webProcessConnection action.process then
    match action with
    | .create _ port1 port2 => some (state.createNewMessagePortChannel port1 port2)
    | .entangle process port _ => some (state.entangleLocalPortInThisProcessToRemote process port)
    | .disentangle _ port => some (state.messagePortDisentangled port)
    | .close _ port => some (state.messagePortClosed port)
    | .post _ message port => some (state.postMessageToRemote webProcessConnection message port)
    | .take process port => some (state.takeAllMessagesForPort process port)
    | .delivered process batch => some (state.didDeliverMessagePortMessages process batch)
  else none

end PurcFetcher.MessagePort
