import PurcFetcher.Ipc.WaitForMessage

/-!
# Reports of invalid messages

A connection has one flag for an invalid message and three counters of the dispatches it is
in.  `dispatchMessage` saves the flag, clears it, calls the client and restores it, so that a
dispatch inside the client leaves the flag of the message around it alone.

What a client does while a message is dispatched is a tree: it may fail to decode the
message, mark it as invalid, change the connection, and dispatch further messages by waiting
for a reply.  A message that `waitForAndDispatchImmediately` takes is decoded and handled by
the client itself.  The second description of a dispatch has neither flag nor counters: each
message is judged by its own client, and reported if the connection is still valid then.
-/

namespace PurcFetcher.Ipc.InvalidMessages

open PurcFetcher.Ipc.Wait (ShouldDispatchWhenWaitingForSyncReply)

/-- What `dispatchMessage` finds for the number in a reply. -/
inductive Listener
  | undecodable
  /-- No key of the map, which has handlers of the connection. -/
  | invalidKey
  | unknown
  | known
  deriving DecidableEq

/-- Where a message goes. -/
inductive Receiver
  | workQueue
  | client
  | asyncReply (listener : Listener)
  /-- A synchronous message, with its request if that decodes. -/
  | sync (syncRequestID : Option UInt64) (isWrappedForTesting : Bool)
  deriving DecidableEq

structure Message (Name : Type) where
  messageName : Name
  /-- Its place in the order of arrival. -/
  number : ℕ
  /-- The decoder is valid before the dispatch. -/
  isValid : Bool
  shouldDispatch : ShouldDispatchWhenWaitingForSyncReply
  shouldUseFullySynchronousModeForTesting : Bool
  receiver : Receiver
  deriving DecidableEq

/-- What a client does, in order, while a message is dispatched to it. -/
inductive Client (Name : Type)
  | done
  /-- An argument does not decode. -/
  | decodeFails (rest : Client Name)
  /-- `markCurrentlyDispatchedMessageAsInvalid`. -/
  | markInvalid (rest : Client Name)
  | invalidate (rest : Client Name)
  | allowFullySynchronousMode (rest : Client Name)
  /-- A message is dispatched to a client inside this one. -/
  | dispatch (hasOngoingUnboundedSyncIPC : Bool) (message : Message Name) (inner rest : Client Name)

structure Connection (Name : Type) where
  isValid : Bool
  fullySynchronousModeIsAllowedForTesting : Bool
  inDispatchMessageCount : UInt32
  inDispatchMessageMarkedDispatchWhenWaitingForSyncReplyCount : UInt32
  inDispatchMessageMarkedToUseFullySynchronousModeForTesting : UInt32
  didReceiveInvalidMessage : Bool
  /-- The messages that `didReceiveInvalidMessage` was called for. -/
  reports : List (Message Name)
  deriving DecidableEq

variable {Name : Type}

/-! ## Dispatching a message -/

def Message.isDispatchingWhileWaiting (message : Message Name)
    (hasOngoingUnboundedSyncIPC : Bool) : Bool :=
  match message.shouldDispatch with
  | .no => false
  | .yes => true
  | .yesDuringUnboundedIPC => hasOngoingUnboundedSyncIPC

/-- `dispatchMessage(Decoder&)` and `dispatchSyncMessage`, with the validity of the decoder.
A message that was wrapped for tests is dispatched as a part of the client. -/
def dispatchDecoder (message : Message Name)
    (client : Connection Name × Bool → Connection Name × Bool) (connection : Connection Name) :
    Connection Name × Bool :=
  match message.receiver with
  | .workQueue => (connection, message.isValid)
  | .client => client (connection, message.isValid)
  | .asyncReply .undecodable => (connection, false)
  | .asyncReply .invalidKey =>
    ({ connection with didReceiveInvalidMessage := true }, message.isValid)
  | .asyncReply .unknown => (connection, message.isValid)
  | .asyncReply .known => client (connection, message.isValid)
  | .sync syncRequestID isWrappedForTesting =>
    if syncRequestID.getD 0 = 0 then (connection, false)
    else if isWrappedForTesting && !connection.fullySynchronousModeIsAllowedForTesting then
      (connection, false)
    else client (connection, message.isValid)

/-- The counters of a dispatch, before and after the client. -/
def Connection.enter (connection : Connection Name) (message : Message Name)
    (isDispatchingWhileWaiting : Bool) : Connection Name :=
  { connection with
    inDispatchMessageMarkedToUseFullySynchronousModeForTesting :=
      if message.shouldUseFullySynchronousModeForTesting then
        connection.inDispatchMessageMarkedToUseFullySynchronousModeForTesting + 1
      else connection.inDispatchMessageMarkedToUseFullySynchronousModeForTesting
    inDispatchMessageCount := connection.inDispatchMessageCount + 1
    inDispatchMessageMarkedDispatchWhenWaitingForSyncReplyCount :=
      if isDispatchingWhileWaiting then
        connection.inDispatchMessageMarkedDispatchWhenWaitingForSyncReplyCount + 1
      else connection.inDispatchMessageMarkedDispatchWhenWaitingForSyncReplyCount }

def Connection.leave (connection : Connection Name) (message : Message Name)
    (isDispatchingWhileWaiting : Bool) : Connection Name :=
  { connection with
    inDispatchMessageCount := connection.inDispatchMessageCount - 1
    inDispatchMessageMarkedDispatchWhenWaitingForSyncReplyCount :=
      if isDispatchingWhileWaiting then
        connection.inDispatchMessageMarkedDispatchWhenWaitingForSyncReplyCount - 1
      else connection.inDispatchMessageMarkedDispatchWhenWaitingForSyncReplyCount
    inDispatchMessageMarkedToUseFullySynchronousModeForTesting :=
      if message.shouldUseFullySynchronousModeForTesting then
        connection.inDispatchMessageMarkedToUseFullySynchronousModeForTesting - 1
      else connection.inDispatchMessageMarkedToUseFullySynchronousModeForTesting }

def Connection.report (connection : Connection Name) (message : Message Name) :
    Connection Name :=
  { connection with reports := connection.reports ++ [message] }

/-- `dispatchMessage(std::unique_ptr<Decoder>)` after its first checks. -/
def handleMessage (isDispatchingWhileWaiting : Bool) (message : Message Name)
    (client : Connection Name × Bool → Connection Name × Bool) (connection : Connection Name) :
    Connection Name :=
  let oldDidReceiveInvalidMessage := connection.didReceiveInvalidMessage
  let (handled, isValid) := dispatchDecoder message client
    { connection.enter message isDispatchingWhileWaiting with didReceiveInvalidMessage := false }
  let left :=
    { handled with
      didReceiveInvalidMessage := handled.didReceiveInvalidMessage || !isValid }.leave message
        isDispatchingWhileWaiting
  let reported :=
    if left.didReceiveInvalidMessage && left.isValid then left.report message else left
  { reported with didReceiveInvalidMessage := oldDidReceiveInvalidMessage }

/-- `dispatchMessage(std::unique_ptr<Decoder>)`. -/
def dispatchMessage (hasOngoingUnboundedSyncIPC : Bool) (message : Message Name)
    (client : Connection Name × Bool → Connection Name × Bool) (connection : Connection Name) :
    Connection Name :=
  if !connection.isValid then connection
  else if message.receiver = .workQueue then connection
  else if message.shouldUseFullySynchronousModeForTesting &&
      !connection.fullySynchronousModeIsAllowedForTesting then connection.report message
  else
    handleMessage (message.isDispatchingWhileWaiting hasOngoingUnboundedSyncIPC) message client
      connection

/-- What a client does to the connection and to the decoder of its message. -/
def Client.run : Client Name → Connection Name × Bool → Connection Name × Bool
  | .done, state => state
  | .decodeFails rest, (connection, _) => rest.run (connection, false)
  | .markInvalid rest, (connection, isValid) =>
    rest.run ({ connection with didReceiveInvalidMessage := true }, isValid)
  | .invalidate rest, (connection, isValid) =>
    rest.run ({ connection with isValid := false }, isValid)
  | .allowFullySynchronousMode rest, (connection, isValid) =>
    rest.run ({ connection with fullySynchronousModeIsAllowedForTesting := true }, isValid)
  | .dispatch hasOngoingUnboundedSyncIPC message inner rest, (connection, isValid) =>
    rest.run (dispatchMessage hasOngoingUnboundedSyncIPC message inner.run connection, isValid)

/-! ## Each message by itself -/

/-- What clients change of a connection. -/
structure Mode where
  isValid : Bool
  allowsFullySynchronousMode : Bool
  deriving DecidableEq

/-- The client fails to decode its own message. -/
def Client.failsToDecode : Client Name → Bool
  | .done => false
  | .decodeFails _ => true
  | .markInvalid rest => rest.failsToDecode
  | .invalidate rest => rest.failsToDecode
  | .allowFullySynchronousMode rest => rest.failsToDecode
  | .dispatch _ _ _ rest => rest.failsToDecode

/-- The client marks its own message as invalid. -/
def Client.marks : Client Name → Bool
  | .done => false
  | .decodeFails rest => rest.marks
  | .markInvalid _ => true
  | .invalidate rest => rest.marks
  | .allowFullySynchronousMode rest => rest.marks
  | .dispatch _ _ _ rest => rest.marks

/-- The message is dispatched as far as to its client. -/
def Message.reachesClient (message : Message Name) (mode : Mode) : Bool :=
  match message.receiver with
  | .workQueue => false
  | .client => true
  | .asyncReply listener => listener = .known
  | .sync syncRequestID isWrappedForTesting =>
    syncRequestID.getD 0 ≠ 0 && (!isWrappedForTesting || mode.allowsFullySynchronousMode)

/-- The message does not decode before it reaches a client, or its number is marked. -/
def Message.isRefused (message : Message Name) (mode : Mode) : Bool :=
  match message.receiver with
  | .asyncReply .undecodable => true
  | .asyncReply .invalidKey => true
  | .sync _ _ => !message.reachesClient mode
  | _ => false

/-- The message is undecodable, or marked as invalid by its own client. -/
def Message.isFaulty (message : Message Name) (client : Client Name) (mode : Mode) : Bool :=
  !message.isValid || message.isRefused mode ||
    message.reachesClient mode && (client.failsToDecode || client.marks)

/-- A message is reported after the dispatches inside it, if it is faulty and its client has
left the connection valid. -/
def reportsOfHandled (message : Message Name) (client : Client Name)
    (inside : Mode → Mode × List (Message Name)) (mode : Mode) : Mode × List (Message Name) :=
  let inner := if message.reachesClient mode then inside mode else (mode, [])
  (inner.1, inner.2 ++ if message.isFaulty client mode && inner.1.isValid then [message] else [])

/-- The reports of one dispatch, given what happens inside its client. -/
def reportsOf (message : Message Name) (client : Client Name)
    (inside : Mode → Mode × List (Message Name)) (mode : Mode) : Mode × List (Message Name) :=
  if !mode.isValid then (mode, [])
  else if message.receiver = .workQueue then (mode, [])
  else if message.shouldUseFullySynchronousModeForTesting && !mode.allowsFullySynchronousMode then
    (mode, [message])
  else reportsOfHandled message client inside mode

def Client.reports : Client Name → Mode → Mode × List (Message Name)
  | .done, mode => (mode, [])
  | .decodeFails rest, mode => rest.reports mode
  | .markInvalid rest, mode => rest.reports mode
  | .invalidate rest, mode => rest.reports { mode with isValid := false }
  | .allowFullySynchronousMode rest, mode =>
    rest.reports { mode with allowsFullySynchronousMode := true }
  | .dispatch _ message inner rest, mode =>
    let first := reportsOf message inner inner.reports mode
    let later := rest.reports first.1
    (later.1, first.2 ++ later.2)

/-! ## The flag and the counters -/

def Connection.mode (connection : Connection Name) : Mode :=
  { isValid := connection.isValid
    allowsFullySynchronousMode := connection.fullySynchronousModeIsAllowedForTesting }

/-- The connection with another mode and more reports; the flag and the counters stay. -/
def Connection.after (connection : Connection Name) (outcome : Mode × List (Message Name)) :
    Connection Name :=
  { connection with
    isValid := outcome.1.isValid
    fullySynchronousModeIsAllowedForTesting := outcome.1.allowsFullySynchronousMode
    reports := connection.reports ++ outcome.2 }

@[simp]
theorem after_mode_nil (connection : Connection Name) :
    connection.after (connection.mode, []) = connection := by
  simp [Connection.after, Connection.mode]

/-- A client leaves the counters alone, and sets the flag only for itself. -/
def RunsAs (client : Client Name) : Prop :=
  ∀ connection isValid, client.run (connection, isValid) =
    ({ connection.after (client.reports connection.mode) with
        didReceiveInvalidMessage := connection.didReceiveInvalidMessage || client.marks },
      isValid && !client.failsToDecode)

section Dispatch

variable (message : Message Name) (connection : Connection Name)

theorem dispatchDecoder_of_reachesClient (client : Connection Name × Bool → Connection Name × Bool)
    (hreaches : message.reachesClient connection.mode = true) :
    dispatchDecoder message client connection = client (connection, message.isValid) ∧
      message.isRefused connection.mode = false := by
  rw [Message.isRefused, dispatchDecoder]
  rw [Message.reachesClient] at hreaches
  cases hcase : message.receiver with
  | workQueue => simp [hcase] at hreaches
  | client => exact ⟨rfl, rfl⟩
  | asyncReply listener =>
    obtain rfl : listener = .known := by simpa [hcase] using hreaches
    exact ⟨rfl, rfl⟩
  | sync syncReqID isWrappedForTesting => grind [Connection.mode, Message.reachesClient]

theorem dispatchDecoder_of_not_reachesClient
    (client : Connection Name × Bool → Connection Name × Bool)
    (hflag : connection.didReceiveInvalidMessage = false)
    (hreaches : message.reachesClient connection.mode = false) :
    ∃ flag isValid, dispatchDecoder message client connection =
        ({ connection with didReceiveInvalidMessage := flag }, isValid) ∧
      (flag || !isValid) = (!message.isValid || message.isRefused connection.mode) := by
  have hsame : { connection with didReceiveInvalidMessage := false } = connection := by rw [← hflag]
  rw [Message.isRefused, hreaches, dispatchDecoder]
  rw [Message.reachesClient] at hreaches
  cases hcase : message.receiver with
  | workQueue => exact ⟨false, message.isValid, by rw [hsame], by simp⟩
  | client => simp [hcase] at hreaches
  | asyncReply listener =>
    cases listener with
    | undecodable => exact ⟨false, false, by rw [hsame], by simp⟩
    | invalidKey => exact ⟨true, message.isValid, rfl, by simp⟩
    | unknown => exact ⟨false, message.isValid, by rw [hsame], by simp⟩
    | known => simp [hcase] at hreaches
  | sync => grind [Connection.mode]

variable {client : Client Name}

/-- The flag and the decoder show after the call whether the message is faulty. -/
theorem dispatchDecoder_eq (hclient : RunsAs client)
    (hflag : connection.didReceiveInvalidMessage = false) :
    ∃ flag isValid, dispatchDecoder message client.run connection =
        ({ connection.after (if message.reachesClient connection.mode then
            client.reports connection.mode else (connection.mode, [])) with
          didReceiveInvalidMessage := flag }, isValid) ∧
      (flag || !isValid) = message.isFaulty client connection.mode := by
  rw [Message.isFaulty]
  cases hreaches : message.reachesClient connection.mode with
  | true =>
    obtain ⟨hdispatch, hrefused⟩ :=
      dispatchDecoder_of_reachesClient message connection client.run hreaches
    refine ⟨client.marks, message.isValid && !client.failsToDecode, ?_, ?_⟩
    · rw [hdispatch, hclient, hflag, Bool.false_or, if_pos rfl]
    · rw [hrefused]
      cases message.isValid <;> simp [Bool.or_comm]
  | false =>
    obtain ⟨flag, isValid, hdispatch, hfaulty⟩ :=
      dispatchDecoder_of_not_reachesClient message connection client.run hflag hreaches
    refine ⟨flag, isValid, ?_, ?_⟩
    · rw [hdispatch, if_neg Bool.false_ne_true, after_mode_nil]
    · rw [hfaulty, Bool.false_and, Bool.or_false]

theorem leave_enter (isDispatchingWhileWaiting flag : Bool)
    (out : Mode × List (Message Name)) :
    ({ ({ connection.enter message isDispatchingWhileWaiting with
          didReceiveInvalidMessage := false } : Connection Name).after out with
        didReceiveInvalidMessage := flag } : Connection Name).leave message
          isDispatchingWhileWaiting =
      { connection.after out with didReceiveInvalidMessage := flag } := by
  simp only [Connection.leave, Connection.after, Connection.enter, Connection.mk.injEq, true_and,
    and_true]
  split_ifs <;> simp

theorem handleMessage_eq (hclient : RunsAs client) (isDispatchingWhileWaiting : Bool) :
    handleMessage isDispatchingWhileWaiting message client.run connection =
      connection.after (reportsOfHandled message client client.reports connection.mode) := by
  obtain ⟨flag, isValid, hdispatch, hfaulty⟩ := dispatchDecoder_eq message
    { connection.enter message isDispatchingWhileWaiting with didReceiveInvalidMessage := false }
    hclient rfl
  have hmode : ({ connection.enter message isDispatchingWhileWaiting with
      didReceiveInvalidMessage := false } : Connection Name).mode = connection.mode := rfl
  simp only [handleMessage, hdispatch, hfaulty, leave_enter]
  rw [reportsOfHandled]
  split_ifs <;> simp_all [Connection.after, Connection.report]

theorem dispatchMessage_eq (hclient : RunsAs client) (unbounded : Bool) :
    dispatchMessage unbounded message client.run connection =
      connection.after (reportsOf message client client.reports connection.mode) := by
  have hvalid : connection.mode.isValid = connection.isValid := rfl
  have hallows : connection.mode.allowsFullySynchronousMode =
      connection.fullySynchronousModeIsAllowedForTesting := rfl
  rw [dispatchMessage, reportsOf, hvalid, hallows]
  split_ifs
  · exact (after_mode_nil connection).symm
  · exact (after_mode_nil connection).symm
  · rfl
  · exact handleMessage_eq message connection hclient _

end Dispatch

theorem runsAs (client : Client Name) : RunsAs client := by
  induction client with
  | done =>
    intro connection isValid
    simp [Client.run, Client.reports, Client.marks, Client.failsToDecode]
  | decodeFails rest ih =>
    intro connection isValid
    rw [Client.run, ih]
    simp [Client.reports, Client.marks, Client.failsToDecode]
  | markInvalid rest ih =>
    intro connection isValid
    rw [Client.run, ih, Bool.true_or, Client.marks, Bool.or_true]
    rfl
  | invalidate rest ih | allowFullySynchronousMode rest ih =>
    intro connection isValid
    rw [Client.run, ih]
    rfl
  | dispatch unbounded message inner rest ihInner ih =>
    intro connection isValid
    rw [Client.run, dispatchMessage_eq message connection ihInner, ih]
    simp only [Client.reports, Connection.after, List.append_assoc]
    rfl

/-- Every dispatch reports exactly the messages that fail by themselves while the connection
is valid, and leaves the flag and the counters as they were, whatever is dispatched inside. -/
theorem dispatchMessage_reports (hasOngoingUnboundedSyncIPC : Bool) (message : Message Name)
    (client : Client Name) (connection : Connection Name) :
    let final := dispatchMessage hasOngoingUnboundedSyncIPC message client.run connection
    final.reports =
        connection.reports ++ (reportsOf message client client.reports connection.mode).2 ∧
      final.didReceiveInvalidMessage = connection.didReceiveInvalidMessage ∧
      final.inDispatchMessageCount = connection.inDispatchMessageCount ∧
      final.inDispatchMessageMarkedDispatchWhenWaitingForSyncReplyCount =
        connection.inDispatchMessageMarkedDispatchWhenWaitingForSyncReplyCount ∧
      final.inDispatchMessageMarkedToUseFullySynchronousModeForTesting =
        connection.inDispatchMessageMarkedToUseFullySynchronousModeForTesting := by
  intro final
  have hfinal :
      final = connection.after (reportsOf message client client.reports connection.mode) :=
    dispatchMessage_eq message connection (runsAs client) hasOngoingUnboundedSyncIPC
  rw [hfinal]
  exact ⟨rfl, rfl, rfl, rfl, rfl⟩

def newConnection : Connection ℕ where
  isValid := true
  fullySynchronousModeIsAllowedForTesting := false
  inDispatchMessageCount := 0
  inDispatchMessageMarkedDispatchWhenWaitingForSyncReplyCount := 0
  inDispatchMessageMarkedToUseFullySynchronousModeForTesting := 0
  didReceiveInvalidMessage := false
  reports := []

def plainMessage (number : ℕ) : Message ℕ where
  messageName := 7
  number := number
  isValid := true
  shouldDispatch := .no
  shouldUseFullySynchronousModeForTesting := false
  receiver := .client

def testingMessage : Message ℕ :=
  { plainMessage 0 with shouldUseFullySynchronousModeForTesting := true }

/-- A faulty message is not reported when its client has invalidated the connection, and one
is reported that has no fault but asks for a mode that is not allowed. -/
theorem dispatchMessage_unreported :
    ((dispatchMessage false (plainMessage 0) (Client.run (.markInvalid (.invalidate .done)))
        newConnection).reports = [] ∧
      (plainMessage 0).isFaulty (.markInvalid (.invalidate .done)) newConnection.mode = true) ∧
    (dispatchMessage false testingMessage (Client.run .done) newConnection).reports =
        [testingMessage] ∧
      testingMessage.isFaulty .done newConnection.mode = false := by
  decide

end PurcFetcher.Ipc.InvalidMessages
