import PurcFetcher.Core.Machine
import Mathlib.Data.Nat.Basic
import Mathlib.Tactic.Common

/-!
# Waiting for a message

`waitForMessage` runs on the main thread and `processIncomingMessage` on the connection
queue.  The call first looks for its message in the queue of incoming messages, under the
lock of that queue, and then makes itself visible in `m_waitingForMessage`, under another
lock.  The connection queue looks for a waiting call first and appends the message
afterwards.  So a message may be appended that a call, which has looked for it already,
will not see, and the call blocks until its timeout.

One step is what a thread does under a lock, or between two of them.  Only one call waits
at a time.  The messages are those that are left for the main thread: a reply to a
synchronous message and a message for a work queue or another thread are taken before.  A
condition has no spurious wake-ups, and a timeout releases the lock before the call looks
at what happened.
-/

namespace PurcFetcher.Ipc.Wait

open Machine

/-! ## Messages and calls -/

inductive ShouldDispatchWhenWaitingForSyncReply
  | no
  | yes
  | yesDuringUnboundedIPC
  deriving DecidableEq

/-- A message with its place in the order of arrival. -/
structure Message (Name : Type) where
  number : ℕ
  messageName : Name
  destinationID : UInt64
  isSyncMessage : Bool
  shouldDispatch : ShouldDispatchWhenWaitingForSyncReply
  deriving DecidableEq

structure WaitForOptions where
  interruptWaitingIfSyncMessageArrives : Bool
  dispatchIncomingSyncMessagesWhileWaiting : Bool
  deriving DecidableEq

/-- The arguments of a call, and the number of messages that had arrived when it began. -/
structure Request (Name : Type) where
  messageName : Name
  destinationID : UInt64
  waitForOptions : WaitForOptions
  arrivedBefore : ℕ
  deriving DecidableEq

structure WaitForMessageState (Name : Type) where
  request : Request Name
  messageWaitingInterrupted : Bool
  decoder : Option (Message Name)
  deriving DecidableEq

/-- Where the loop of a waiting call is. -/
inductive Phase
  /-- At the head of the loop. -/
  | dispatching
  /-- After the messages of `SyncMessageState` were dispatched. -/
  | checking
  /-- In the wait. -/
  | parked
  /-- Notified in the wait, and without the lock yet. -/
  | notified
  /-- Timed out in the wait, and without the lock yet. -/
  | expired
  deriving DecidableEq

/-- Where the main thread is.  `m_waitingForMessage` is set in `waiting` and null before. -/
inductive MainThread (Name : Type)
  | idle
  | called (request : Request Name)
  /-- After the message was not found among the incoming ones. -/
  | scanned (request : Request Name)
  | waiting (waiter : WaitForMessageState Name) (phase : Phase)
  deriving DecidableEq

/-- What the connection queue has left to do. -/
inductive ConnectionQueue (Name : Type)
  | idle
  /-- About to look for a call that waits for the message. -/
  | examining (message : Message Name)
  /-- About to offer the message to `SyncMessageState`. -/
  | offering (message : Message Name)
  /-- About to append the message to the incoming ones. -/
  | enqueueing (message : Message Name)
  /-- About to notify the waiting call that the connection is closed. -/
  | notifying
  deriving DecidableEq

structure State (Name : Type) where
  incomingMessages : List (Message Name)
  /-- The messages of this connection that `SyncMessageState` holds. -/
  messagesToDispatch : List (Message Name)
  shouldWaitForMessages : Bool
  mainThread : MainThread Name
  connectionQueue : ConnectionQueue Name
  /-- The calls so far; the last of them is the current one. -/
  calls : ℕ
  arrived : List (Message Name)
  dispatched : List (Message Name)
  /-- The messages that were moved into `m_waitingForMessage`, each with the call. -/
  handed : List (ℕ × Message Name)
  /-- What the calls have returned. -/
  returned : List (ℕ × Option (Message Name))
  deriving DecidableEq

inductive Action (Name : Type)
  | waitForMessage (messageName : Name) (destinationID : UInt64) (waitForOptions : WaitForOptions)
  | scan
  | install
  | dispatchMessages
  | check
  | expire
  | wake
  | resume
  /-- `dispatchOneIncomingMessage`, from a run loop. -/
  | dispatchIncoming
  /-- The dispatch task of `SyncMessageState`, from a run loop. -/
  | dispatchTask
  | receive (messageName : Name) (destinationID : UInt64) (isSyncMessage : Bool)
      (shouldDispatch : ShouldDispatchWhenWaitingForSyncReply)
  | examine (hasOngoingUnboundedSyncIPC : Bool)
  | offer (hasOngoingUnboundedSyncIPC : Bool)
  | enqueue
  | connectionDidClose
  | notifyAll
  deriving DecidableEq

def State.start (Name : Type) : State Name where
  incomingMessages := []
  messagesToDispatch := []
  shouldWaitForMessages := true
  mainThread := .idle
  connectionQueue := .idle
  calls := 0
  arrived := []
  dispatched := []
  handed := []
  returned := []

/-! ## Steps -/

variable {Name : Type}

/-- A notification reaches a call that is in the wait. -/
def MainThread.notify : MainThread Name → MainThread Name
  | .waiting waiter .parked => .waiting waiter .notified
  | mainThread => mainThread

def MainThread.interrupt : MainThread Name → MainThread Name
  | .waiting waiter phase => .waiting { waiter with messageWaitingInterrupted := true } phase
  | mainThread => mainThread

/-- A run loop may run: that of the main thread, or one of a client that a call has
dispatched a message to. -/
def MainThread.runsLoop : MainThread Name → Bool
  | .idle => true
  | .waiting _ .checking => true
  | _ => false

def State.finish (state : State Name) (result : Option (Message Name)) : State Name :=
  { state with mainThread := .idle, returned := state.returned ++ [(state.calls, result)] }

/-- `SyncMessageState::processIncomingMessage` takes the message. -/
def Message.isTaken (message : Message Name) (hasOngoingUnboundedSyncIPC : Bool) : Bool :=
  match message.shouldDispatch with
  | .no => false
  | .yes => true
  | .yesDuringUnboundedIPC => hasOngoingUnboundedSyncIPC

def State.dispatchMessages (state : State Name) : State Name :=
  { state with
    messagesToDispatch := [], dispatched := state.dispatched ++ state.messagesToDispatch }

variable [DecidableEq Name]

def Request.awaits (request : Request Name) (message : Message Name) : Bool :=
  message.messageName == request.messageName && message.destinationID == request.destinationID

def scan (state : State Name) (request : Request Name) : State Name :=
  match state.incomingMessages.find? request.awaits with
  | some message =>
    { state with incomingMessages := state.incomingMessages.eraseP request.awaits }.finish
      (some message)
  | none =>
    if state.incomingMessages.any (·.isSyncMessage) &&
        request.waitForOptions.interruptWaitingIfSyncMessageArrives then state.finish none
    else { state with mainThread := .scanned request }

/-- The block of `processIncomingMessage` that holds `m_waitForMessageMutex`. -/
def examine (state : State Name) (message : Message Name) (hasOngoingUnboundedSyncIPC : Bool) :
    State Name :=
  match state.mainThread with
  | .waiting waiter phase =>
    if waiter.decoder.isSome then { state with connectionQueue := .offering message }
    else if waiter.request.awaits message then
      { state with
        connectionQueue := .idle
        mainThread := (MainThread.waiting { waiter with decoder := some message } phase).notify
        handed := state.handed ++ [(state.calls, message)] }
    else if waiter.request.waitForOptions.dispatchIncomingSyncMessagesWhileWaiting &&
        message.isSyncMessage && message.isTaken hasOngoingUnboundedSyncIPC then
      { state with
        connectionQueue := .idle
        mainThread := state.mainThread.notify
        messagesToDispatch := state.messagesToDispatch ++ [message] }
    else if waiter.request.waitForOptions.interruptWaitingIfSyncMessageArrives &&
        message.isSyncMessage then
      { state with
        connectionQueue := .idle
        mainThread := state.mainThread.interrupt.notify
        incomingMessages := state.incomingMessages ++ [message] }
    else { state with connectionQueue := .offering message }
  | _ => { state with connectionQueue := .offering message }

def step (state : State Name) : Action Name → Option (State Name)
  | .waitForMessage messageName destinationID waitForOptions =>
    if state.mainThread = .idle then
      some
        { state with
          calls := state.calls + 1
          mainThread := .called
            { messageName, destinationID, waitForOptions, arrivedBefore := state.arrived.length } }
    else none
  | .scan =>
    match state.mainThread with
    | .called request => some (scan state request)
    | _ => none
  | .install =>
    match state.mainThread with
    | .scanned request =>
      if state.shouldWaitForMessages then
        some
          { state with
            mainThread := .waiting
              { request, messageWaitingInterrupted := false, decoder := none } .dispatching }
      else some (state.finish none)
    | _ => none
  | .dispatchMessages =>
    match state.mainThread with
    | .waiting waiter .dispatching =>
      some { state.dispatchMessages with mainThread := .waiting waiter .checking }
    | _ => none
  | .check =>
    match state.mainThread with
    | .waiting waiter .checking =>
      match waiter.decoder with
      | some message => some (state.finish (some message))
      | none => some { state with mainThread := .waiting waiter .parked }
    | _ => none
  | .expire =>
    match state.mainThread with
    | .waiting waiter .parked => some { state with mainThread := .waiting waiter .expired }
    | _ => none
  | .wake =>
    match state.mainThread with
    | .waiting waiter .notified =>
      if waiter.messageWaitingInterrupted then some (state.finish none)
      else some { state with mainThread := .waiting waiter .dispatching }
    | _ => none
  | .resume =>
    match state.mainThread with
    | .waiting _ .expired => some (state.finish none)
    | _ => none
  | .dispatchIncoming =>
    match state.incomingMessages with
    | message :: rest =>
      if state.mainThread.runsLoop then
        some { state with incomingMessages := rest, dispatched := state.dispatched ++ [message] }
      else none
    | [] => none
  | .dispatchTask => if state.mainThread.runsLoop then some state.dispatchMessages else none
  | .receive messageName destinationID isSyncMessage shouldDispatch =>
    if state.connectionQueue = .idle then
      let message : Message Name :=
        { number := state.arrived.length
          messageName, destinationID, isSyncMessage, shouldDispatch }
      some
        { state with connectionQueue := .examining message, arrived := state.arrived ++ [message] }
    else none
  | .examine hasOngoingUnboundedSyncIPC =>
    match state.connectionQueue with
    | .examining message => some (examine state message hasOngoingUnboundedSyncIPC)
    | _ => none
  | .offer hasOngoingUnboundedSyncIPC =>
    match state.connectionQueue with
    | .offering message =>
      if message.isTaken hasOngoingUnboundedSyncIPC then
        some
          { state with
            connectionQueue := .idle
            messagesToDispatch := state.messagesToDispatch ++ [message] }
      else some { state with connectionQueue := .enqueueing message }
    | _ => none
  | .enqueue =>
    match state.connectionQueue with
    | .enqueueing message =>
      some
        { state with
          connectionQueue := .idle, incomingMessages := state.incomingMessages ++ [message] }
    | _ => none
  | .connectionDidClose =>
    if state.connectionQueue = .idle ∧ state.shouldWaitForMessages = true then
      some
        { state with
          connectionQueue := .notifying
          shouldWaitForMessages := false
          mainThread := state.mainThread.interrupt }
    else none
  | .notifyAll =>
    if state.connectionQueue = .notifying then
      some { state with connectionQueue := .idle, mainThread := state.mainThread.notify }
    else none

/-! ## What a step can do -/

/-- The steps with their guards, one constructor for each way a step can go. -/
inductive Transition (state : State Name) : Action Name → State Name → Prop
  | waitForMessage {messageName : Name} {destinationID : UInt64} {waitForOptions : WaitForOptions}
      (hmain : state.mainThread = .idle) :
      Transition state (.waitForMessage messageName destinationID waitForOptions)
        { state with
          calls := state.calls + 1
          mainThread := .called
            { messageName, destinationID, waitForOptions, arrivedBefore := state.arrived.length } }
  | scanFound {request : Request Name} {message : Message Name}
      (hmain : state.mainThread = .called request)
      (hfind : state.incomingMessages.find? request.awaits = some message) :
      Transition state .scan
        ({ state with incomingMessages := state.incomingMessages.eraseP request.awaits }.finish
          (some message))
  | scanInterrupted {request : Request Name} (hmain : state.mainThread = .called request) :
      Transition state .scan (state.finish none)
  | scanMissed {request : Request Name} (hmain : state.mainThread = .called request)
      (hfind : state.incomingMessages.find? request.awaits = none) :
      Transition state .scan { state with mainThread := .scanned request }
  | install {request : Request Name} (hmain : state.mainThread = .scanned request)
      (hopen : state.shouldWaitForMessages = true) :
      Transition state .install
        { state with
          mainThread := .waiting
            { request, messageWaitingInterrupted := false, decoder := none } .dispatching }
  | installRefused {request : Request Name} (hmain : state.mainThread = .scanned request) :
      Transition state .install (state.finish none)
  | dispatchMessages {waiter : WaitForMessageState Name}
      (hmain : state.mainThread = .waiting waiter .dispatching) :
      Transition state .dispatchMessages
        { state.dispatchMessages with mainThread := .waiting waiter .checking }
  | checkFound {waiter : WaitForMessageState Name} {message : Message Name}
      (hmain : state.mainThread = .waiting waiter .checking)
      (hdecoder : waiter.decoder = some message) :
      Transition state .check (state.finish (some message))
  | park {waiter : WaitForMessageState Name}
      (hmain : state.mainThread = .waiting waiter .checking) (hdecoder : waiter.decoder = none) :
      Transition state .check { state with mainThread := .waiting waiter .parked }
  | expire {waiter : WaitForMessageState Name}
      (hmain : state.mainThread = .waiting waiter .parked) :
      Transition state .expire { state with mainThread := .waiting waiter .expired }
  | wakeInterrupted {waiter : WaitForMessageState Name}
      (hmain : state.mainThread = .waiting waiter .notified)
      (hinterrupted : waiter.messageWaitingInterrupted = true) :
      Transition state .wake (state.finish none)
  | wake {waiter : WaitForMessageState Name} (hmain : state.mainThread = .waiting waiter .notified)
      (hinterrupted : waiter.messageWaitingInterrupted = false) :
      Transition state .wake { state with mainThread := .waiting waiter .dispatching }
  | resume {waiter : WaitForMessageState Name}
      (hmain : state.mainThread = .waiting waiter .expired) :
      Transition state .resume (state.finish none)
  | dispatchIncoming {message : Message Name} {rest : List (Message Name)}
      (hincoming : state.incomingMessages = message :: rest) :
      Transition state .dispatchIncoming
        { state with incomingMessages := rest, dispatched := state.dispatched ++ [message] }
  | dispatchTask : Transition state .dispatchTask state.dispatchMessages
  | receive {messageName : Name} {destinationID : UInt64} {isSyncMessage : Bool}
      {shouldDispatch : ShouldDispatchWhenWaitingForSyncReply} {message : Message Name}
      (hqueue : state.connectionQueue = .idle) (hnumber : message.number = state.arrived.length) :
      Transition state (.receive messageName destinationID isSyncMessage shouldDispatch)
        { state with connectionQueue := .examining message, arrived := state.arrived ++ [message] }
  | pass {message : Message Name} {unbounded : Bool}
      (hqueue : state.connectionQueue = .examining message) :
      Transition state (.examine unbounded) { state with connectionQueue := .offering message }
  | handOver {message : Message Name} {unbounded : Bool} {waiter : WaitForMessageState Name}
      {phase : Phase} (hqueue : state.connectionQueue = .examining message)
      (hmain : state.mainThread = .waiting waiter phase) (hdecoder : waiter.decoder = none)
      (hawaits : waiter.request.awaits message = true) :
      Transition state (.examine unbounded)
        { state with
          connectionQueue := .idle
          mainThread := (MainThread.waiting { waiter with decoder := some message } phase).notify
          handed := state.handed ++ [(state.calls, message)] }
  | takeSync {message : Message Name} {unbounded : Bool}
      (hqueue : state.connectionQueue = .examining message) :
      Transition state (.examine unbounded)
        { state with
          connectionQueue := .idle
          mainThread := state.mainThread.notify
          messagesToDispatch := state.messagesToDispatch ++ [message] }
  | interrupt {message : Message Name} {unbounded : Bool} {waiter : WaitForMessageState Name}
      {phase : Phase} (hqueue : state.connectionQueue = .examining message)
      (hmain : state.mainThread = .waiting waiter phase) (hdecoder : waiter.decoder = none)
      (hawaits : waiter.request.awaits message = false) :
      Transition state (.examine unbounded)
        { state with
          connectionQueue := .idle
          mainThread := state.mainThread.interrupt.notify
          incomingMessages := state.incomingMessages ++ [message] }
  | offerTaken {message : Message Name} {unbounded : Bool}
      (hqueue : state.connectionQueue = .offering message) :
      Transition state (.offer unbounded)
        { state with
          connectionQueue := .idle
          messagesToDispatch := state.messagesToDispatch ++ [message] }
  | offerLeft {message : Message Name} {unbounded : Bool}
      (hqueue : state.connectionQueue = .offering message) :
      Transition state (.offer unbounded) { state with connectionQueue := .enqueueing message }
  | enqueue {message : Message Name} (hqueue : state.connectionQueue = .enqueueing message) :
      Transition state .enqueue
        { state with
          connectionQueue := .idle, incomingMessages := state.incomingMessages ++ [message] }
  | connectionDidClose (hqueue : state.connectionQueue = .idle) :
      Transition state .connectionDidClose
        { state with
          connectionQueue := .notifying
          shouldWaitForMessages := false
          mainThread := state.mainThread.interrupt }
  | notifyAll (hqueue : state.connectionQueue = .notifying) : Transition state .notifyAll
        { state with connectionQueue := .idle, mainThread := state.mainThread.notify }

theorem transition_of_scan {s : State Name} {request : Request Name}
    (hmain : s.mainThread = .called request) : Transition s .scan (scan s request) := by
  rw [scan]
  split
  · next hfind => exact .scanFound hmain hfind
  · next hfind =>
    split_ifs
    · exact .scanInterrupted hmain
    · exact .scanMissed hmain hfind

theorem transition_of_examine {s : State Name} {message : Message Name} (unbounded : Bool)
    (hqueue : s.connectionQueue = .examining message) :
    Transition s (.examine unbounded) (examine s message unbounded) := by
  rw [examine]
  split
  · next waiter phase hmain =>
    split_ifs with hdecoder hawaits
    · exact .pass hqueue
    · exact .handOver hqueue hmain (by simpa using hdecoder) hawaits
    · exact .takeSync hqueue
    · exact .interrupt hqueue hmain (by simpa using hdecoder) (by simpa using hawaits)
    · exact .pass hqueue
  · exact .pass hqueue

/-- Every step is one of the transitions. -/
theorem transition_of_step {s next : State Name} {action : Action Name}
    (hstep : step s action = some next) : Transition s action next := by
  revert hstep
  fun_cases step s action <;> rintro ⟨⟩
  -- a branch is the transition of its guard; `scan` and `examine` branch once more
  all_goals first
    | exact transition_of_scan ‹_›
    | exact transition_of_examine _ ‹_›
    | constructor <;> first | assumption | rfl | simp_all

/-! ## Messages that a call overlooks -/

def MainThread.request? : MainThread Name → Option (Request Name)
  | .idle => none
  | .called request => some request
  | .scanned request => some request
  | .waiting waiter _ => some waiter.request

/-- The current call waits for the message, which has arrived since the call began. -/
def MainThread.AwaitsSince (mainThread : MainThread Name) (message : Message Name) : Prop :=
  ∃ request ∈ mainThread.request?,
    request.awaits message = true ∧ request.arrivedBefore ≤ message.number

/-- The call is in the wait, or about to report that it has timed out. -/
def MainThread.isBlocked : MainThread Name → Bool
  | .waiting _ .parked => true
  | .waiting _ .expired => true
  | _ => false

/-- No call is blocked while its message is among the incoming ones. -/
def NoneOverlooked (state : State Name) : Prop :=
  state.mainThread.isBlocked = true →
    ∀ message ∈ state.incomingMessages, ¬ state.mainThread.AwaitsSince message

/-- The call will look at the incoming messages, or return without another wait. -/
def MainThread.noticesAll (shouldWaitForMessages : Bool) : MainThread Name → Bool
  | .idle => true
  | .called _ => true
  | .scanned _ => !shouldWaitForMessages
  | .waiting waiter .dispatching => waiter.decoder.isSome
  | .waiting waiter .checking => waiter.decoder.isSome
  | .waiting waiter .notified => waiter.decoder.isSome || waiter.messageWaitingInterrupted
  | .waiting _ .parked => false
  | .waiting _ .expired => false

def State.noticesAll (state : State Name) : Bool :=
  state.mainThread.noticesAll state.shouldWaitForMessages

/-- The message of a call is not appended after the call has looked for it, unless the call
will not wait any more. -/
def EnqueuesInTime (state : State Name) : Action Name → Prop
  | .enqueue => ∀ message, state.connectionQueue = .enqueueing message →
      state.mainThread.AwaitsSince message → state.noticesAll = true
  | _ => True

def OverlookInv (state : State Name) : Prop :=
  ∀ message ∈ state.incomingMessages, state.mainThread.AwaitsSince message → state.noticesAll = true

section MainThread

omit [DecidableEq Name]

variable (mainThread : MainThread Name)

theorem request?_notify : mainThread.notify.request? = mainThread.request? := by
  cases mainThread with
  | waiting waiter phase => cases phase <;> rfl
  | _ => rfl

theorem request?_interrupt : mainThread.interrupt.request? = mainThread.request? := by
  cases mainThread <;> rfl

variable {mainThread} {shouldWaitForMessages : Bool}

theorem noticesAll_of_isBlocked
    (hblocked : mainThread.isBlocked = true) (shouldWaitForMsgs : Bool) :
    mainThread.noticesAll shouldWaitForMsgs = false := by
  cases mainThread with
  | waiting waiter phase => cases phase <;> first | rfl | contradiction
  | _ => contradiction

section

variable (hnotices : mainThread.noticesAll shouldWaitForMessages = true)
include hnotices

theorem noticesAll_notify :
    mainThread.notify.noticesAll shouldWaitForMessages = true := by
  cases mainThread with
  | waiting waiter phase => cases phase <;> first | exact hnotices | contradiction
  | _ => exact hnotices

theorem noticesAll_interrupt :
    mainThread.interrupt.noticesAll shouldWaitForMessages = true := by
  cases mainThread with
  | waiting waiter phase =>
    cases phase with
    | notified => exact Bool.or_true _
    | _ => exact hnotices
  | _ => exact hnotices

theorem noticesAll_close :
    mainThread.noticesAll false = true := by
  cases mainThread with
  | scanned => rfl
  | waiting waiter phase => cases phase <;> exact hnotices
  | _ => rfl

end

end MainThread

section Steps

variable {s next : State Name}

theorem OverlookInv.of_subset (hinv : OverlookInv s)
    (hincoming : ∀ msg ∈ next.incomingMessages, next.mainThread.AwaitsSince msg →
      msg ∈ s.incomingMessages)
    (hreq : next.mainThread.request? = s.mainThread.request?)
    (hnotices : s.noticesAll = true → next.noticesAll = true) : OverlookInv next := by
  intro msg hmsg hawaits
  have hbefore : s.mainThread.AwaitsSince msg := by
    rw [MainThread.AwaitsSince, ← hreq]
    exact hawaits
  exact hnotices (hinv msg (hincoming msg hmsg hawaits) hbefore)

theorem OverlookInv.step (hinv : OverlookInv s) {action : Action Name}
    (hcond : EnqueuesInTime s action) (hstep : step s action = some next) :
    OverlookInv next := by
  cases transition_of_step hstep with
  | scanMissed hmain hfind =>
    rintro msg hmsg ⟨request, hreq, hawaits, -⟩
    obtain rfl := Option.some.inj hreq
    exact absurd hawaits (List.find?_eq_none.1 hfind msg hmsg)
  | install hmain hopen =>
    refine hinv.of_subset (fun _ hmsg _ => hmsg) (by rw [hmain]; rfl) ?_
    simp [State.noticesAll, MainThread.noticesAll, hmain, hopen]
  | dispatchMessages hmain | expire hmain =>
    refine hinv.of_subset (fun _ hmsg _ => hmsg) (by rw [hmain]; rfl) ?_
    simp [State.noticesAll, MainThread.noticesAll, hmain]
  | park hmain hdec =>
    refine hinv.of_subset (fun _ hmsg _ => hmsg) (by rw [hmain]; rfl) ?_
    simp [State.noticesAll, MainThread.noticesAll, hmain, hdec]
  | wake hmain hinterrupted =>
    refine hinv.of_subset (fun _ hmsg _ => hmsg) (by rw [hmain]; rfl) ?_
    simp [State.noticesAll, MainThread.noticesAll, hmain, hinterrupted]
  | dispatchIncoming hincoming =>
    refine hinv.of_subset (fun _ hmsg _ => ?_) rfl id
    rw [hincoming]
    exact List.mem_cons_of_mem _ hmsg
  | dispatchTask | receive | pass | offerTaken | offerLeft => exact hinv
  | @handOver _ _ _ phase hqueue hmain =>
    refine hinv.of_subset (fun _ hmsg _ => hmsg) ?_ fun hnotices => ?_
    · rw [request?_notify, hmain]
      rfl
    · rw [State.noticesAll, hmain] at hnotices
      cases phase <;> first | rfl | contradiction
  | takeSync | notifyAll =>
    exact hinv.of_subset (fun _ hmsg _ => hmsg) (request?_notify _) noticesAll_notify
  | interrupt hqueue hmain hdec hawaits =>
    have hreq := (request?_notify _).trans (request?_interrupt s.mainThread)
    refine hinv.of_subset (fun msg hmsg hsince => ?_) hreq
      fun hnotices => noticesAll_notify (noticesAll_interrupt hnotices)
    rcases List.mem_append.1 hmsg with hold | hnew
    · exact hold
    · obtain ⟨request, hcur, hsame, -⟩ := hsince
      rw [hreq, hmain] at hcur
      obtain rfl := Option.some.inj hcur
      rw [List.mem_singleton.1 hnew, hawaits] at hsame
      contradiction
  | enqueue hqueue =>
    intro msg hmsg hawaits
    rcases List.mem_append.1 hmsg with hold | hnew
    · exact hinv msg hold hawaits
    · obtain rfl := List.mem_singleton.1 hnew
      exact hcond msg hqueue hawaits
  | connectionDidClose =>
    exact hinv.of_subset (fun _ hmsg _ => hmsg) (request?_interrupt _)
      fun hnotices => noticesAll_interrupt (noticesAll_close hnotices)
  | _ => exact fun _ _ _ => rfl

theorem not_noneOverlooked {msg : Message Name}
    (hblocked : s.mainThread.isBlocked = true) (hmsg : msg ∈ s.incomingMessages)
    (hawaits : s.mainThread.AwaitsSince msg) : ¬ NoneOverlooked s :=
  fun hnone => hnone hblocked msg hmsg hawaits

/-- After a message that was appended too late, the call may go on to block. -/
theorem exists_overlooked (hlate : ¬ EnqueuesInTime s .enqueue)
    (hstep : Wait.step s .enqueue = some next) :
    ∃ actions final, run Wait.step next actions = some final ∧ ¬ NoneOverlooked final := by
  rw [EnqueuesInTime] at hlate
  push Not at hlate
  obtain ⟨msg, hqueue, hawaits, hnotices⟩ := hlate
  obtain ⟨incoming, toDispatch, shouldWait, mainThread, queue, calls, arrived, dispatched, handed,
    returned⟩ := s
  obtain rfl : queue = .enqueueing msg := hqueue
  obtain rfl := Option.some.inj hstep
  have hmsg : msg ∈ incoming ++ [msg] := List.mem_append_right _ (List.mem_singleton_self _)
  have hfalse : mainThread.noticesAll shouldWait = false := (Bool.not_eq_true _).mp hnotices
  cases mainThread with
  | idle => contradiction
  | called => contradiction
  | scanned =>
    obtain rfl : shouldWait = true := by simpa [MainThread.noticesAll] using hfalse
    exact ⟨[.install, .dispatchMessages, .check], _, rfl, not_noneOverlooked rfl hmsg hawaits⟩
  | waiting waiter phase =>
    obtain ⟨request, interrupted, dec⟩ := waiter
    cases phase with
    | dispatching =>
      obtain rfl : dec = none := by simpa [MainThread.noticesAll] using hfalse
      exact ⟨[.dispatchMessages, .check], _, rfl, not_noneOverlooked rfl hmsg hawaits⟩
    | checking =>
      obtain rfl : dec = none := by simpa [MainThread.noticesAll] using hfalse
      exact ⟨[.check], _, rfl, not_noneOverlooked rfl hmsg hawaits⟩
    | parked | expired => exact ⟨[], _, rfl, not_noneOverlooked rfl hmsg hawaits⟩
    | notified =>
      obtain ⟨rfl, rfl⟩ : dec = none ∧ interrupted = false := by
        simpa [MainThread.noticesAll] using hfalse
      exact ⟨[.wake, .dispatchMessages, .check], _, rfl, not_noneOverlooked rfl hmsg hawaits⟩

end Steps

/-- No call blocks or times out while its message is among the incoming ones, in every run in
which each such message is appended before the call looks for it; and after one that is not,
the call may block. -/
theorem noneOverlooked_of_enqueuesInTime :
    (∀ actions : List (Action Name), Meets step EnqueuesInTime (State.start Name) actions →
      Always step NoneOverlooked (State.start Name) actions) ∧
    ∀ (state next : State Name) (action : Action Name), ¬ EnqueuesInTime state action →
      step state action = some next →
        ∃ actions final, run step next actions = some final ∧ ¬ NoneOverlooked final := by
  constructor
  · intro actions hmeets
    have halways := always_of_step
      (fun hinv hcondition hstep => OverlookInv.step hinv hcondition hstep)
      (show OverlookInv (State.start Name) from nofun) hmeets
    refine halways.mono fun s hinv hblocked msg hmsg hawaits => ?_
    have hnotices := hinv msg hmsg hawaits
    rw [State.noticesAll, noticesAll_of_isBlocked hblocked] at hnotices
    contradiction
  · intro state next action hlate hstep
    cases action with
    | enqueue => exact exists_overlooked hlate hstep
    | _ => exact absurd trivial hlate

def noOptions : WaitForOptions :=
  { interruptWaitingIfSyncMessageArrives := false
    dispatchIncomingSyncMessagesWhileWaiting := false }

/-- A call whose message is handed over while it is in the wait. -/
def servedCall : List (Action ℕ) :=
  [.waitForMessage 7 1 noOptions, .scan, .install, .dispatchMessages, .check,
    .receive 7 1 false .no, .examine false, .wake, .dispatchMessages, .check]

theorem noneOverlooked_servedCall :
    Meets step EnqueuesInTime (State.start ℕ) servedCall ∧
      Always step NoneOverlooked (State.start ℕ) servedCall := by
  have hmeets : Meets step EnqueuesInTime (State.start ℕ) servedCall := by
    have hothers : ∀ action ∈ servedCall, action ≠ .enqueue := by decide
    refine (meets_of_forall hothers _).mono fun _ action hother => ?_
    cases action with
    | enqueue => exact absurd rfl hother
    | _ => trivial
  exact ⟨hmeets, noneOverlooked_of_enqueuesInTime.1 servedCall hmeets⟩

/-- The message comes after the call has looked for it and before it is visible. -/
def overlookingCall : List (Action ℕ) :=
  [.waitForMessage 7 1 noOptions, .scan, .receive 7 1 false .no, .examine false, .offer false,
    .enqueue, .install, .dispatchMessages, .check]

theorem noneOverlooked_fails :
    ∃ final, run step (State.start ℕ) overlookingCall = some final ∧ ¬ NoneOverlooked final := by
  refine ⟨_, run_eq_after (by decide +kernel), ?_⟩
  have hmessage : (⟨0, 7, 1, false, .no⟩ : Message ℕ) ∈
      (after step (State.start ℕ) overlookingCall).incomingMessages := by
    decide +kernel
  exact not_noneOverlooked (by decide +kernel) hmessage ⟨⟨7, 1, noOptions, 0⟩, rfl, by decide⟩

end PurcFetcher.Ipc.Wait
