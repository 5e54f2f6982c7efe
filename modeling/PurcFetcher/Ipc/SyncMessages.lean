import PurcFetcher.Core.Machine
import Mathlib.Data.Finset.Erase
import Mathlib.Data.Finset.Insert

/-!
# Synchronous messages

The main thread and the queues of any number of connections share one
`SyncMessageState`: a semaphore, the messages to dispatch while a synchronous reply is
awaited, and the set of connections whose dispatch is scheduled on the main run loop.

The main thread is a stack of the calls it is in.  A message handler may send a
synchronous message, run the run loop or, in `waitForMessage`, dispatch the messages
that wait, so these calls nest without bound.  A connection queue releases the lock
between a message that it queues and the signal that follows, so the steps it has left
are part of the state.  The mode for tests that makes every message synchronous is not
modelled.
-/

namespace PurcFetcher.Ipc.Sync

open Function

/-- A message that is dispatched while a synchronous reply is awaited, with its place in
the order of arrival. -/
structure Message (C : Type) where
  connection : C
  number : ℕ
  deriving DecidableEq

/-- The decoder of a `SyncMessageReply`, with its place in the order of arrival. -/
structure Reply (C : Type) where
  connection : C
  destinationID : ℕ
  number : ℕ
  deriving DecidableEq

structure PendingSyncReply (C : Type) where
  syncRequestID : ℕ
  replyDecoder : Option (Reply C)
  didReceiveReply : Bool
  deriving DecidableEq

/-- Where `waitForSyncReply` is. -/
inductive Phase (C : Type)
  /-- At the head of its loop. -/
  | dispatching
  /-- After the messages were dispatched. -/
  | checking
  /-- Blocked in `SyncMessageState::wait`. -/
  | waiting
  | returning (reply : Option (Reply C))
  deriving DecidableEq

/-- A call that the main thread is in. -/
inductive Frame (C : Type)
  | runLoop
  /-- The code of a client, which a message or a task has called. -/
  | handler
  | dispatchMessages (rest : List (Message C))
  /-- `dispatchMessagesAndResetDidScheduleDispatchMessagesForConnection`. -/
  | dispatchForConnection (connection : C) (rest messagesToPutBack : List (Message C))
  | sendSyncMessage (connection : C) (syncRequestID : ℕ) (phase : Phase C)
  deriving DecidableEq

/-- A task of the main run loop. -/
inductive Task (C : Type)
  | dispatchForConnection (connection : C)
  | didClose (connection : C)
  deriving DecidableEq

/-- A step that a connection queue has left of the message or the close it handles. -/
inductive QueueStep
  | scheduleDispatch
  | wakeUpClientRunLoop
  | postDidClose
  deriving DecidableEq

structure State (C : Type) where
  /-- The calls of the main thread, the innermost first. -/
  stack : List (Frame C)
  runLoopTasks : List (Task C)
  waitForSyncReplySemaphore : Bool
  didScheduleDispatchMessagesWorkSet : Finset C
  messagesToDispatch : List (Message C)
  connectionQueue : C → List QueueStep
  /-- The pending replies of a connection, the last one first. -/
  pendingSyncReplies : C → List (PendingSyncReply C)
  shouldWaitForSyncReplies : C → Bool
  isValid : C → Bool
  syncRequestID : C → ℕ
  /-- The number of replies that have arrived. -/
  replies : ℕ
  /-- The messages that have arrived, in order. -/
  arrived : List (Message C)
  /-- The messages that were dispatched, in order. -/
  dispatched : List (Message C)
  /-- The calls of `sendSyncMessage` that have returned, with what they returned. -/
  returned : List ((C × ℕ) × Option (Reply C))

/-- The main thread is in its run loop and nothing was sent. -/
def State.start (C : Type) : State C where
  stack := [.runLoop]
  runLoopTasks := []
  waitForSyncReplySemaphore := false
  didScheduleDispatchMessagesWorkSet := ∅
  messagesToDispatch := []
  connectionQueue := fun _ => []
  pendingSyncReplies := fun _ => []
  shouldWaitForSyncReplies := fun _ => true
  isValid := fun _ => true
  syncRequestID := fun _ => 0
  replies := 0
  arrived := []
  dispatched := []
  returned := []

inductive Action (C : Type)
  /-- The next step of the main thread where it has no choice. -/
  | advance
  | timeOut
  /-- What a run loop does. -/
  | runTask
  | runClientTask
  | leaveRunLoop
  /-- What a client does. -/
  | sendSyncMessage (connection : C)
  | enterRunLoop
  | dispatchMessages
  | invalidate (connection : C)
  | returnToCaller
  /-- What a connection queue does. -/
  | processIncomingMessage (connection : C)
  | processIncomingSyncReply (connection : C) (destinationID : ℕ)
  | connectionDidClose (connection : C)
  | proceed (connection : C)

variable {C : Type} [DecidableEq C]

/-! ## The main thread -/

/-- `ConnectionAndIncomingMessage::dispatch`, called from `stack`.  A message of an
invalid connection is dropped. -/
def dispatch (state : State C) (message : Message C) (stack : List (Frame C)) : State C :=
  { state with
    stack := if state.isValid message.connection then .handler :: stack else stack
    dispatched := state.dispatched ++ [message] }

/-- The messages are swapped into a vector of `SyncMessageState::dispatchMessages`. -/
def dispatchMessages (state : State C) (stack : List (Frame C)) : State C :=
  { state with
    stack := .dispatchMessages state.messagesToDispatch :: stack
    messagesToDispatch := [] }

/-- The checks of `waitForSyncReply`, called from `stack`. -/
def checkReply (state : State C) (connection : C) (identifier : ℕ) (stack : List (Frame C)) :
    Option (State C) :=
  match state.pendingSyncReplies connection with
  | [] => none
  | entry :: entries =>
    if entry.didReceiveReply || !state.shouldWaitForSyncReplies connection then
      some { state with
        stack := .sendSyncMessage connection identifier (.returning entry.replyDecoder) :: stack
        pendingSyncReplies := update state.pendingSyncReplies connection
          ({ entry with replyDecoder := none } :: entries) }
    else if state.isValid connection then
      some { state with stack := .sendSyncMessage connection identifier .waiting :: stack }
    else
      some { state with
        stack := .sendSyncMessage connection identifier (.returning none) :: stack }

def advance (state : State C) : Option (State C) :=
  match state.stack with
  | .dispatchMessages [] :: stack => some { state with stack := stack }
  | .dispatchMessages (message :: rest) :: stack =>
    some (dispatch state message (.dispatchMessages rest :: stack))
  | .dispatchForConnection _ [] messagesToPutBack :: stack =>
    some { state with
      stack := stack
      messagesToDispatch := messagesToPutBack ++ state.messagesToDispatch }
  | .dispatchForConnection connection (message :: rest) messagesToPutBack :: stack =>
    if message.connection = connection then
      some (dispatch state message
        (.dispatchForConnection connection rest messagesToPutBack :: stack))
    else
      some { state with
        stack := .dispatchForConnection connection rest (messagesToPutBack ++ [message]) :: stack }
  | .sendSyncMessage connection identifier .dispatching :: stack =>
    some (dispatchMessages state (.sendSyncMessage connection identifier .checking :: stack))
  | .sendSyncMessage connection identifier .checking :: stack =>
    checkReply state connection identifier stack
  | .sendSyncMessage connection identifier .waiting :: stack =>
    if state.waitForSyncReplySemaphore then
      some { state with
        stack := .sendSyncMessage connection identifier .dispatching :: stack
        waitForSyncReplySemaphore := false }
    else none
  | .sendSyncMessage connection identifier (.returning reply) :: stack =>
    some { state with
      stack := stack
      pendingSyncReplies := update state.pendingSyncReplies connection
        (state.pendingSyncReplies connection).tail
      returned := state.returned ++ [((connection, identifier), reply)] }
  | _ => none

/-- The wait ends at its time limit, with the semaphore not set. -/
def timeOut (state : State C) : Option (State C) :=
  match state.stack with
  | .sendSyncMessage connection identifier .waiting :: stack =>
    if state.waitForSyncReplySemaphore then none
    else
      some { state with
        stack := .sendSyncMessage connection identifier (.returning none) :: stack }
  | _ => none

def runTask (state : State C) : Option (State C) :=
  match state.stack, state.runLoopTasks with
  | .runLoop :: _, .dispatchForConnection connection :: tasks =>
    some { state with
      stack := .dispatchForConnection connection state.messagesToDispatch [] :: state.stack
      runLoopTasks := tasks
      didScheduleDispatchMessagesWorkSet :=
        state.didScheduleDispatchMessagesWorkSet.erase connection
      messagesToDispatch := [] }
  | .runLoop :: _, .didClose connection :: tasks =>
    if state.isValid connection then
      some { state with
        stack := .handler :: state.stack
        runLoopTasks := tasks
        isValid := update state.isValid connection false }
    else some { state with runLoopTasks := tasks }
  | _, _ => none

def runClientTask (state : State C) : Option (State C) :=
  match state.stack with
  | .runLoop :: _ => some { state with stack := .handler :: state.stack }
  | _ => none

def leaveRunLoop (state : State C) : Option (State C) :=
  match state.stack with
  | .runLoop :: frame :: stack => some { state with stack := frame :: stack }
  | _ => none

def handle (state : State C) (next : State C) : Option (State C) :=
  match state.stack with
  | .handler :: _ => some next
  | _ => none

/-- `createSyncMessageEncoder`, which numbers the request, and `sendSyncMessage` up to
`waitForSyncReply`. -/
def sendSyncMessage (state : State C) (connection : C) : State C :=
  let identifier := state.syncRequestID connection + 1
  let numbered := { state with syncRequestID := update state.syncRequestID connection identifier }
  if state.isValid connection && state.shouldWaitForSyncReplies connection then
    { numbered with
      stack := .sendSyncMessage connection identifier .dispatching :: state.stack
      pendingSyncReplies := update state.pendingSyncReplies connection
        (⟨identifier, none, false⟩ :: state.pendingSyncReplies connection) }
  else numbered

/-! ## The connection queues -/

/-- `SyncMessageState::processIncomingMessage` up to the end of its lock. -/
def processIncomingMessage (state : State C) (connection : C) : State C :=
  let message := ⟨connection, state.arrived.length⟩
  { state with
    didScheduleDispatchMessagesWorkSet := insert connection state.didScheduleDispatchMessagesWorkSet
    messagesToDispatch := state.messagesToDispatch ++ [message]
    connectionQueue := update state.connectionQueue connection
      (if connection ∈ state.didScheduleDispatchMessagesWorkSet then [.wakeUpClientRunLoop]
      else [.scheduleDispatch, .wakeUpClientRunLoop])
    arrived := state.arrived ++ [message] }

/-- The reply is stored in the last entry with its identifier, if there is one. -/
def storeReply (reply : Reply C) : List (PendingSyncReply C) → List (PendingSyncReply C)
  | [] => []
  | entry :: entries =>
    if entry.syncRequestID ≠ reply.destinationID then entry :: storeReply reply entries
    else { entry with replyDecoder := some reply, didReceiveReply := true } :: entries

def processIncomingSyncReply (state : State C) (connection : C) (destinationID : ℕ) :
    State C :=
  let entries := state.pendingSyncReplies connection
  { state with
    pendingSyncReplies := update state.pendingSyncReplies connection
      (storeReply ⟨connection, destinationID, state.replies⟩ entries)
    connectionQueue := update state.connectionQueue connection
      (if entries.head?.map (·.syncRequestID) = some destinationID then
        [.wakeUpClientRunLoop] else [])
    replies := state.replies + 1 }

def connectionDidClose (state : State C) (connection : C) : State C :=
  { state with
    shouldWaitForSyncReplies := update state.shouldWaitForSyncReplies connection false
    connectionQueue := update state.connectionQueue connection
      (if (state.pendingSyncReplies connection).isEmpty then [.postDidClose]
      else [.wakeUpClientRunLoop, .postDidClose]) }

/-- The connection queue starts on what comes next when it is done with what was before. -/
def receive (state : State C) (connection : C) (next : State C) : Option (State C) :=
  if state.connectionQueue connection = [] then some next else none

def proceed (state : State C) (connection : C) : Option (State C) :=
  match state.connectionQueue connection with
  | [] => none
  | .scheduleDispatch :: rest =>
    some { state with
      connectionQueue := update state.connectionQueue connection rest
      runLoopTasks := state.runLoopTasks ++ [.dispatchForConnection connection] }
  | .wakeUpClientRunLoop :: rest =>
    some { state with
      connectionQueue := update state.connectionQueue connection rest
      waitForSyncReplySemaphore := true }
  | .postDidClose :: rest =>
    some { state with
      connectionQueue := update state.connectionQueue connection rest
      runLoopTasks := state.runLoopTasks ++ [.didClose connection] }

def step (state : State C) : Action C → Option (State C)
  | .advance => advance state
  | .timeOut => timeOut state
  | .runTask => runTask state
  | .runClientTask => runClientTask state
  | .leaveRunLoop => leaveRunLoop state
  | .sendSyncMessage connection => handle state (sendSyncMessage state connection)
  | .enterRunLoop => handle state { state with stack := .runLoop :: state.stack }
  | .dispatchMessages => handle state (dispatchMessages state state.stack)
  | .invalidate connection =>
    handle state { state with isValid := update state.isValid connection false }
  | .returnToCaller => handle state { state with stack := state.stack.tail }
  | .processIncomingMessage connection =>
    receive state connection (processIncomingMessage state connection)
  | .processIncomingSyncReply connection destinationID =>
    receive state connection (processIncomingSyncReply state connection destinationID)
  | .connectionDidClose connection =>
    -- A connection closes once.
    if state.shouldWaitForSyncReplies connection then
      receive state connection (connectionDidClose state connection)
    else none
  | .proceed connection => proceed state connection

/-! ## What a step does -/

/-- The steps, one by one.  Every invariant below is a case analysis on this. -/
inductive Moves (state : State C) : Action C → State C → Prop
  | dispatchNext {message rest stack}
      (hstack : state.stack = .dispatchMessages (message :: rest) :: stack) :
      Moves state .advance (dispatch state message (.dispatchMessages rest :: stack))
  | dispatchEnd {stack} (hstack : state.stack = .dispatchMessages [] :: stack) :
      Moves state .advance { state with stack := stack }
  | dispatchOwn {message rest putBack stack}
      (hstack : state.stack =
        .dispatchForConnection message.connection (message :: rest) putBack :: stack) :
      Moves state .advance
        (dispatch state message (.dispatchForConnection message.connection rest putBack :: stack))
  | setAside {connection message rest putBack stack}
      (hstack : state.stack = .dispatchForConnection connection (message :: rest) putBack :: stack)
      (hother : message.connection ≠ connection) :
      Moves state .advance
        { state with
          stack := .dispatchForConnection connection rest (putBack ++ [message]) :: stack }
  | putBack {connection putBack stack}
      (hstack : state.stack = .dispatchForConnection connection [] putBack :: stack) :
      Moves state .advance
        { state with
          stack := stack
          messagesToDispatch := putBack ++ state.messagesToDispatch }
  | dispatchWaiting {connection identifier stack}
      (hstack : state.stack = .sendSyncMessage connection identifier .dispatching :: stack) :
      Moves state .advance
        (dispatchMessages state (.sendSyncMessage connection identifier .checking :: stack))
  | checkReturns {connection identifier stack entry entries}
      (hstack : state.stack = .sendSyncMessage connection identifier .checking :: stack)
      (hentries : state.pendingSyncReplies connection = entry :: entries) :
      Moves state .advance
        { state with
          stack := .sendSyncMessage connection identifier (.returning entry.replyDecoder) :: stack
          pendingSyncReplies := update state.pendingSyncReplies connection
            ({ entry with replyDecoder := none } :: entries) }
  | checkWaits {connection identifier stack entry entries}
      (hstack : state.stack = .sendSyncMessage connection identifier .checking :: stack)
      (hentries : state.pendingSyncReplies connection = entry :: entries)
      (hreply : entry.didReceiveReply = false)
      (hopen : state.shouldWaitForSyncReplies connection = true) :
      Moves state .advance
        { state with stack := .sendSyncMessage connection identifier .waiting :: stack }
  | checkInvalid {connection identifier stack}
      (hstack : state.stack = .sendSyncMessage connection identifier .checking :: stack) :
      Moves state .advance
        { state with stack := .sendSyncMessage connection identifier (.returning none) :: stack }
  | wake {connection identifier stack}
      (hstack : state.stack = .sendSyncMessage connection identifier .waiting :: stack)
      (hsignal : state.waitForSyncReplySemaphore = true) :
      Moves state .advance
        { state with
          stack := .sendSyncMessage connection identifier .dispatching :: stack
          waitForSyncReplySemaphore := false }
  | timeOut {connection identifier stack}
      (hstack : state.stack = .sendSyncMessage connection identifier .waiting :: stack) :
      Moves state .timeOut
        { state with stack := .sendSyncMessage connection identifier (.returning none) :: stack }
  | returnReply {connection identifier reply stack}
      (hstack : state.stack = .sendSyncMessage connection identifier (.returning reply) :: stack) :
      Moves state .advance
        { state with
          stack := stack
          pendingSyncReplies := update state.pendingSyncReplies connection
            (state.pendingSyncReplies connection).tail
          returned := state.returned ++ [((connection, identifier), reply)] }
  | runDispatch {stack connection tasks} (hstack : state.stack = .runLoop :: stack)
      (htasks : state.runLoopTasks = .dispatchForConnection connection :: tasks) :
      Moves state .runTask
        { state with
          stack := .dispatchForConnection connection state.messagesToDispatch [] :: state.stack
          runLoopTasks := tasks
          didScheduleDispatchMessagesWorkSet :=
            state.didScheduleDispatchMessagesWorkSet.erase connection
          messagesToDispatch := [] }
  | runDidClose {stack connection tasks} (hstack : state.stack = .runLoop :: stack)
      (htasks : state.runLoopTasks = .didClose connection :: tasks) :
      Moves state .runTask
        { state with
          stack := .handler :: state.stack
          runLoopTasks := tasks
          isValid := update state.isValid connection false }
  | skipDidClose {stack connection tasks} (hstack : state.stack = .runLoop :: stack)
      (htasks : state.runLoopTasks = .didClose connection :: tasks) :
      Moves state .runTask { state with runLoopTasks := tasks }
  | runClientTask {stack} (hstack : state.stack = .runLoop :: stack) :
      Moves state .runClientTask { state with stack := .handler :: state.stack }
  | leaveRunLoop {frame stack} (hstack : state.stack = .runLoop :: frame :: stack) :
      Moves state .leaveRunLoop { state with stack := frame :: stack }
  | sendSyncMessage {stack} (connection : C) (hstack : state.stack = .handler :: stack) :
      Moves state (.sendSyncMessage connection)
        { state with
          syncRequestID :=
            update state.syncRequestID connection (state.syncRequestID connection + 1)
          stack := .sendSyncMessage connection (state.syncRequestID connection + 1)
            .dispatching :: state.stack
          pendingSyncReplies := update state.pendingSyncReplies connection
            (⟨state.syncRequestID connection + 1, none, false⟩ ::
              state.pendingSyncReplies connection) }
  | refuseSyncMessage {stack} (connection : C) (hstack : state.stack = .handler :: stack) :
      Moves state (.sendSyncMessage connection)
        { state with
          syncRequestID :=
            update state.syncRequestID connection (state.syncRequestID connection + 1) }
  | enterRunLoop {stack} (hstack : state.stack = .handler :: stack) :
      Moves state .enterRunLoop { state with stack := .runLoop :: state.stack }
  | dispatchMessages {stack} (hstack : state.stack = .handler :: stack) :
      Moves state .dispatchMessages (dispatchMessages state state.stack)
  | invalidate {stack} (connection : C) (hstack : state.stack = .handler :: stack) :
      Moves state (.invalidate connection)
        { state with isValid := update state.isValid connection false }
  | returnToCaller {stack} (hstack : state.stack = .handler :: stack) :
      Moves state .returnToCaller { state with stack := stack }
  | processIncomingMessage (connection : C) (hdone : state.connectionQueue connection = []) :
      Moves state (.processIncomingMessage connection) (processIncomingMessage state connection)
  | processIncomingSyncReply (connection : C) (destinationID : ℕ)
      (hdone : state.connectionQueue connection = []) :
      Moves state (.processIncomingSyncReply connection destinationID)
        (processIncomingSyncReply state connection destinationID)
  | connectionDidClose (connection : C) (hdone : state.connectionQueue connection = []) :
      Moves state (.connectionDidClose connection) (connectionDidClose state connection)
  | scheduleDispatch {connection rest}
      (hqueue : state.connectionQueue connection = .scheduleDispatch :: rest) :
      Moves state (.proceed connection)
        { state with
          connectionQueue := update state.connectionQueue connection rest
          runLoopTasks := state.runLoopTasks ++ [.dispatchForConnection connection] }
  | wakeUpClientRunLoop {connection rest}
      (hqueue : state.connectionQueue connection = .wakeUpClientRunLoop :: rest) :
      Moves state (.proceed connection)
        { state with
          connectionQueue := update state.connectionQueue connection rest
          waitForSyncReplySemaphore := true }
  | postDidClose {connection rest}
      (hqueue : state.connectionQueue connection = .postDidClose :: rest) :
      Moves state (.proceed connection)
        { state with
          connectionQueue := update state.connectionQueue connection rest
          runLoopTasks := state.runLoopTasks ++ [.didClose connection] }

section Moves

variable {s next : State C}

theorem moves_of_checkReply {connection : C} {identifier : ℕ} {stack : List (Frame C)}
    (hstack : s.stack = .sendSyncMessage connection identifier .checking :: stack)
    (hnext : checkReply s connection identifier stack = some next) : Moves s .advance next := by
  revert hnext
  fun_cases checkReply s connection identifier stack <;> rintro ⟨⟩
  · exact .checkReturns hstack ‹_›
  · exact .checkWaits hstack ‹_› (by simp_all) (by simp_all)
  · exact .checkInvalid hstack

theorem moves_of_advance (hnext : advance s = some next) : Moves s .advance next := by
  revert hnext
  fun_cases advance s
  case case7 hstack => exact moves_of_checkReply hstack
  all_goals rintro ⟨⟩
  case case4 hstack => exact .dispatchOwn hstack
  case case5 hstack hother => exact .setAside hstack hother
  all_goals constructor <;> assumption

theorem moves_of_runTask (hnext : runTask s = some next) : Moves s .runTask next := by
  revert hnext
  fun_cases runTask s <;> rintro ⟨⟩ <;> constructor <;> assumption

variable {connection : C}

omit [DecidableEq C] in
theorem handle_eq_some {res : State C} (hnext : handle s res = some next) :
    (∃ stack, s.stack = .handler :: stack) ∧ res = next := by
  rw [handle] at hnext
  split at hnext
  · next stack hstack => exact ⟨⟨stack, hstack⟩, Option.some.inj hnext⟩
  · exact nomatch hnext

omit [DecidableEq C] in
theorem receive_eq_some {res : State C} (hnext : receive s connection res = some next) :
    s.connectionQueue connection = [] ∧ res = next := by
  rw [receive] at hnext
  split at hnext
  · next hdone => exact ⟨hdone, Option.some.inj hnext⟩
  · exact nomatch hnext

theorem moves_of_step {action : Action C} (hnext : step s action = some next) :
    Moves s action next := by
  cases action with
  | advance => exact moves_of_advance hnext
  | runTask => exact moves_of_runTask hnext
  | timeOut | runClientTask | leaveRunLoop | proceed =>
    simp only [step, timeOut, runClientTask, leaveRunLoop, proceed] at hnext
    repeat' split at hnext
    all_goals cases hnext <;> constructor <;> assumption
  | sendSyncMessage connection =>
    obtain ⟨⟨stack, hstack⟩, rfl⟩ := handle_eq_some hnext
    rw [sendSyncMessage]
    split
    · exact .sendSyncMessage connection hstack
    · exact .refuseSyncMessage connection hstack
  | returnToCaller =>
    obtain ⟨⟨stack, hstack⟩, rfl⟩ := handle_eq_some hnext
    rw [hstack, List.tail_cons]
    exact .returnToCaller hstack
  | enterRunLoop | dispatchMessages | invalidate =>
    obtain ⟨⟨stack, hstack⟩, rfl⟩ := handle_eq_some hnext
    constructor
    exact hstack
  | connectionDidClose connection =>
    rw [step] at hnext
    split at hnext
    · obtain ⟨hdone, rfl⟩ := receive_eq_some hnext
      exact .connectionDidClose connection hdone
    · exact nomatch hnext
  | processIncomingMessage | processIncomingSyncReply =>
    obtain ⟨hdone, rfl⟩ := receive_eq_some hnext
    constructor
    exact hdone

theorem mem_update_of_done {target : C} {left : QueueStep}
    (hleft : left ∈ s.connectionQueue connection) (hdone : s.connectionQueue target = [])
    (steps : List QueueStep) : left ∈ update s.connectionQueue target steps connection := by
  rw [update_of_ne]
  · exact hleft
  · rintro rfl
    rw [hdone] at hleft
    exact nomatch hleft

theorem mem_update_of_ne {target : C} {left first : QueueStep} {rest : List QueueStep}
    (hleft : left ∈ s.connectionQueue connection)
    (hsteps : s.connectionQueue target = first :: rest) (hother : left ≠ first) :
    left ∈ update s.connectionQueue target rest connection := by
  by_cases hsame : connection = target
  · grind
  · rw [update_of_ne hsame]
    exact hleft

/-- How a step changes the calls of the main thread: the innermost call ends, goes on or
makes a call, which a blocked one does not. -/
theorem Moves.stack_cases {action : Action C} (hmoves : Moves s action next) :
    next.stack = s.stack ∨ ∃ top stack, s.stack = top :: stack ∧
      (next.stack = stack ∨ (∃ changed, next.stack = changed :: stack) ∨
        ∃ called changed, next.stack = called :: changed :: stack ∧
          ∀ connection ident, changed ≠ .sendSyncMessage connection ident .waiting) := by
  cases hmoves with
  | dispatchNext hstack | dispatchOwn hstack => grind [dispatch]
  | dispatchEnd hstack | putBack hstack | returnReply hstack | leaveRunLoop hstack
  | returnToCaller hstack => exact Or.inr ⟨_, _, hstack, Or.inl rfl⟩
  | setAside hstack | checkReturns hstack | checkWaits hstack | checkInvalid hstack
  | wake hstack | timeOut hstack => exact Or.inr ⟨_, _, hstack, Or.inr (Or.inl ⟨_, rfl⟩)⟩
  | dispatchWaiting hstack => exact Or.inr ⟨_, _, hstack, Or.inr (Or.inr ⟨_, _, rfl, nofun⟩)⟩
  | runDispatch hstack | runDidClose hstack | runClientTask hstack | sendSyncMessage _ hstack
  | enterRunLoop hstack | dispatchMessages hstack =>
    exact Or.inr ⟨_, _, hstack, Or.inr (Or.inr ⟨_, _, congrArg _ hstack, nofun⟩)⟩
  | _ => exact Or.inl rfl

end Moves

end PurcFetcher.Ipc.Sync
