import PurcFetcher.Core.Machine
import Mathlib.Data.List.Count

/-!
# The outgoing messages of a connection

`Connection::sendMessage` appends a message to `m_outgoingMessages` on any thread and
then dispatches a task to the connection queue.  The task drains the messages into the
socket.  When the socket would block, one message is kept aside in
`m_pendingOutputMessage`, and a write-ready source starts the drain again.

The connection is open, its other end too, and nothing invalidates it, so `m_isConnected`
stays set.  A send that fails for another reason than a full socket loses its message.  The
lock of the outgoing messages is released between the steps below, so they interleave freely.
-/

namespace PurcFetcher.Ipc.Outgoing

open Machine List

/-- What `sendOutgoingMessage` reads of an encoded message. -/
structure Message where
  number : ℕ
  attachments : ℕ
  bodySize : ℕ
  deriving DecidableEq

def messageMaxSize : ℕ := 4096

def attachmentMaxAmount : ℕ := 254

/-- `sizeof(MessageInfo)`. -/
def messageInfoSize : ℕ := 24

/-- `sizeof(AttachmentInfo)`. -/
def attachmentInfoSize : ℕ := 16

def messageSizeWithBodyInline (message : Message) : ℕ :=
  messageInfoSize + message.attachments * attachmentInfoSize + message.bodySize

def isBodyOutOfLine (message : Message) : Bool :=
  messageSizeWithBodyInline message > messageMaxSize && message.bodySize != 0

/-- `sendOutgoingMessage` reaches `sendOutputMessage`.  The flag says whether shared
memory for a body out of line could be allocated and a handle to it created. -/
def reachesSocket (message : Message) (allocated : Bool) : Bool :=
  !(message.attachments > attachmentMaxAmount - 1) && (!isBodyOutOfLine message || allocated)

/-- The tasks of the connection queue. -/
inductive Task
  | sendOutgoingMessages
  | writeReady
  deriving DecidableEq

/-- Where the thread of the connection queue is. -/
inductive Running
  | idle
  /-- At the head of the loop of `sendOutgoingMessages`. -/
  | draining
  /-- In `sendOutgoingMessage`, before the socket. -/
  | preparing (message : Message)
  /-- In `sendOutputMessage` for the loop. -/
  | writing (message : Message)
  /-- In `sendOutputMessage` for the write-ready task. -/
  | rewriting (message : Message)
  deriving DecidableEq

/-- The message that the thread of the connection queue holds. -/
def Running.inHand : Running → List Message
  | .idle => []
  | .draining => []
  | .preparing message => [message]
  | .writing message => [message]
  | .rewriting message => [message]

structure Connection where
  isConnected : Bool
  outgoingMessages : List Message
  pendingOutputMessage : Option Message
  /-- The write-ready source is installed. -/
  writeSocketMonitor : Bool
  connectionQueue : List Task
  running : Running
  /-- The calls of `sendMessage` that have appended and not yet dispatched. -/
  dispatching : ℕ
  /-- All messages that were appended, in order. -/
  appended : List Message
  /-- All messages that the socket has taken, in order. -/
  socket : List Message
  deriving DecidableEq

/-- A connection that was opened and has sent nothing. -/
def Connection.opened : Connection where
  isConnected := true
  outgoingMessages := []
  pendingOutputMessage := none
  writeSocketMonitor := false
  connectionQueue := []
  running := .idle
  dispatching := 0
  appended := []
  socket := []

/-- What `sendmsg` answers. -/
inductive SendResult
  | sent
  | interrupted
  | wouldBlock
  /-- An error that is only logged, such as that of too many file descriptors. -/
  | failed
  deriving DecidableEq

inductive Action
  | append (message : Message)
  | dispatch
  | runTask
  | takeFirst
  | prepare (allocated : Bool)
  | sendmsg (result : SendResult)
  | socketWritable

def canSendOutgoingMessages (connection : Connection) : Bool :=
  connection.isConnected && connection.pendingOutputMessage.isNone

/-- The entry of `sendOutgoingMessages`, up to its loop. -/
def sendOutgoingMessages (connection : Connection) : Connection :=
  { connection with
    running := if canSendOutgoingMessages connection then .draining else .idle }

/-- The branch of `sendOutputMessage` for a socket that would block. -/
def keepOutputMessage (connection : Connection) (message : Message) : Connection :=
  { connection with pendingOutputMessage := some message, writeSocketMonitor := true }

def runTask (connection : Connection) : Option Connection :=
  match connection.running, connection.connectionQueue with
  | .idle, .sendOutgoingMessages :: tasks =>
    some (sendOutgoingMessages { connection with connectionQueue := tasks })
  | .idle, .writeReady :: tasks =>
    -- The source was installed with a pending message: there is one to move out.
    connection.pendingOutputMessage.map fun message =>
      { connection with
        connectionQueue := tasks
        writeSocketMonitor := false
        pendingOutputMessage := none
        running := if connection.isConnected then .rewriting message else .idle }
  | _, _ => none

def takeFirst (connection : Connection) : Option Connection :=
  match connection.running, connection.outgoingMessages with
  | .draining, [] => some { connection with running := .idle }
  | .draining, message :: messages =>
    some { connection with outgoingMessages := messages, running := .preparing message }
  | _, _ => none

/-- `sendOutgoingMessage` before the socket: a message that does not reach it is
dropped, and the loop of `sendOutgoingMessages` ends. -/
def prepare (connection : Connection) (allocated : Bool) : Option Connection :=
  match connection.running with
  | .preparing message =>
    some { connection with
      running := if reachesSocket message allocated then .writing message else .idle }
  | _ => none

def sendmsg (connection : Connection) (result : SendResult) : Option Connection :=
  match connection.running, result with
  | .writing _, .interrupted => some connection
  | .writing message, .sent =>
    some { connection with socket := connection.socket ++ [message], running := .draining }
  | .writing message, .wouldBlock =>
    some { keepOutputMessage connection message with running := .idle }
  | .writing _, .failed => some { connection with running := .idle }
  | .rewriting _, .interrupted => some connection
  | .rewriting message, .sent =>
    some (sendOutgoingMessages { connection with socket := connection.socket ++ [message] })
  | .rewriting message, .wouldBlock =>
    some (sendOutgoingMessages (keepOutputMessage connection message))
  | .rewriting _, .failed => some (sendOutgoingMessages connection)
  | _, _ => none

/-- The source runs on the run loop of the connection queue and is removed when it
has fired. -/
def socketWritable (connection : Connection) : Option Connection :=
  if connection.running = .idle ∧ connection.writeSocketMonitor then
    some { connection with
      writeSocketMonitor := false
      connectionQueue := connection.connectionQueue ++ [.writeReady] }
  else none

def step (connection : Connection) : Action → Option Connection
  | .append message =>
    some { connection with
      outgoingMessages := connection.outgoingMessages ++ [message]
      dispatching := connection.dispatching + 1
      appended := connection.appended ++ [message] }
  | .dispatch =>
    match connection.dispatching with
    | 0 => none
    | dispatching + 1 =>
      some { connection with
        dispatching := dispatching
        connectionQueue := connection.connectionQueue ++ [.sendOutgoingMessages] }
  | .runTask => runTask connection
  | .takeFirst => takeFirst connection
  | .prepare allocated => prepare connection allocated
  | .sendmsg result => sendmsg connection result
  | .socketWritable => socketWritable connection

/-! ## What a run keeps -/

/-- Nothing is lost, doubled or reordered, and what is still to be sent has a task or
a source that sends it. -/
structure Orderly (connection : Connection) : Prop where
  handedOver : connection.socket <+: connection.appended
  kept : connection.appended =
    connection.socket ++ (connection.pendingOutputMessage.toList ++
      connection.running.inHand ++ connection.outgoingMessages)
  /-- A message that was kept aside waits for the socket. -/
  waits : connection.pendingOutputMessage.isSome →
    connection.writeSocketMonitor = true ∨ .writeReady ∈ connection.connectionQueue
  /-- Otherwise the queue is drained, or a task to drain it is there or about to be. -/
  drained : connection.outgoingMessages ≠ [] → connection.pendingOutputMessage = none →
    connection.running ≠ .idle ∨ .sendOutgoingMessages ∈ connection.connectionQueue ∨
      0 < connection.dispatching

/-- The number of sources and tasks that resume after a blocked socket. -/
def wakers (connection : Connection) : ℕ :=
  connection.writeSocketMonitor.toNat + connection.connectionQueue.count .writeReady

structure Inv (connection : Connection) : Prop where
  connected : connection.isConnected = true
  kept : connection.appended =
    connection.socket ++ (connection.pendingOutputMessage.toList ++
      connection.running.inHand ++ connection.outgoingMessages)
  alone : connection.running ≠ .idle → connection.pendingOutputMessage = none
  woken : wakers connection = connection.pendingOutputMessage.toList.length
  drained : connection.outgoingMessages ≠ [] → connection.pendingOutputMessage = none →
    connection.running ≠ .idle ∨ .sendOutgoingMessages ∈ connection.connectionQueue ∨
      0 < connection.dispatching

/-- A message is sent if it has few enough attachments and, when its body does not fit,
shared memory for it, and if the socket takes it or would block. -/
def Accepts (connection : Connection) : Action → Prop
  | .prepare allocated =>
    ∀ message, connection.running = .preparing message → reachesSocket message allocated
  | .sendmsg .failed =>
    ∀ message, connection.running ≠ .writing message ∧ connection.running ≠ .rewriting message
  | _ => True

theorem Inv.orderly {connection : Connection} (hinv : Inv connection) : Orderly connection where
  handedOver := ⟨_, hinv.kept.symm⟩
  kept := hinv.kept
  waits := by
    intro hpend
    obtain ⟨msg, hmsg⟩ := Option.isSome_iff_exists.1 hpend
    have hone : wakers connection = 1 := by rw [hinv.woken, hmsg]; rfl
    cases hmonitor : connection.writeSocketMonitor with
    | true => exact Or.inl rfl
    | false => grind [wakers]
  drained := hinv.drained

/-- The loop is entered unless a message is kept aside. -/
theorem inv_sendOutgoingMessages {connection : Connection}
    (hconnected : connection.isConnected = true)
    (hkept : connection.appended =
      connection.socket ++ (connection.pendingOutputMessage.toList ++
        connection.outgoingMessages))
    (hwoken : wakers connection = connection.pendingOutputMessage.toList.length) :
    Inv (sendOutgoingMessages connection) := by
  cases hpend : connection.pendingOutputMessage with
  | none =>
    have hrunning : (sendOutgoingMessages connection).running = .draining := by
      simp [sendOutgoingMessages, canSendOutgoingMessages, hconnected, hpend]
    exact
      { connected := hconnected
        kept := by rw [hrunning]; simpa [sendOutgoingMessages, Running.inHand] using hkept
        alone := fun _ => hpend
        woken := hwoken
        drained := fun _ _ => Or.inl (by rw [hrunning]; exact nofun) }
  | some =>
    have hrunning : (sendOutgoingMessages connection).running = .idle := by
      simp [sendOutgoingMessages, canSendOutgoingMessages, hpend]
    exact
      { connected := hconnected
        kept := by rw [hrunning]; simpa [sendOutgoingMessages, Running.inHand] using hkept
        alone := fun hbusy => absurd hrunning hbusy
        woken := hwoken
        drained := fun _ hnone => absurd (hpend.symm.trans hnone) (Option.some_ne_none _) }

section Steps

variable {connection next : Connection}

section

variable (hinv : Inv connection)
include hinv

theorem Inv.append (msg : Message)
    (hnext : step connection (.append msg) = some next) : Inv next := by
  obtain rfl := Option.some.inj hnext
  exact
    { connected := hinv.connected
      kept := by rw [hinv.kept, append_assoc, append_assoc]
      alone := hinv.alone
      woken := hinv.woken
      drained := fun _ _ => Or.inr (Or.inr (Nat.succ_pos _)) }

theorem Inv.dispatch (hnext : step connection .dispatch = some next) : Inv next := by
  cases hcalls : connection.dispatching with
  | zero => simp [step, hcalls] at hnext
  | succ =>
    simp only [step, hcalls, Option.some.injEq] at hnext
    subst hnext
    exact
      { connected := hinv.connected
        kept := hinv.kept
        alone := hinv.alone
        woken := by
          rw [← hinv.woken, wakers, wakers, count_append]
          rfl
        drained := fun _ _ => Or.inr (Or.inl (mem_append_right _ (mem_singleton_self _))) }

theorem Inv.runTask (hnext : runTask connection = some next) :
    Inv next := by
  have hconnected := hinv.connected
  have hkept := hinv.kept
  have hwoken := hinv.woken
  rw [Outgoing.runTask] at hnext
  split at hnext
  · next tasks hrunning hqueue =>
    obtain rfl := Option.some.inj hnext
    apply inv_sendOutgoingMessages
    · exact hconnected
    · simpa [hrunning, Running.inHand] using hkept
    · simpa [wakers, hqueue] using hwoken
  · next tasks hrunning hqueue =>
    obtain ⟨msg, hpend, rfl⟩ := Option.map_eq_some_iff.1 hnext
    rw [if_pos hconnected]
    simp only [wakers, hqueue, count_cons_self, hpend, Option.toList_some,
      length_singleton] at hwoken
    exact
      { connected := hconnected
        kept := by simpa [hrunning, hpend, Running.inHand] using hkept
        alone := fun _ => rfl
        woken := by
          change Bool.toNat false + tasks.count .writeReady = 0
          rw [Bool.toNat_false]
          omega
        drained := fun _ _ => Or.inl nofun }
  · exact nomatch hnext

theorem Inv.takeFirst (hnext : takeFirst connection = some next) :
    Inv next := by
  have hkept := hinv.kept
  rw [Outgoing.takeFirst] at hnext
  split at hnext
  · next hrunning hmsgs =>
    obtain rfl := Option.some.inj hnext
    exact
      { connected := hinv.connected
        kept := by simpa [hrunning, Running.inHand] using hkept
        alone := fun hbusy => absurd rfl hbusy
        woken := hinv.woken
        drained := fun hsome => absurd hmsgs hsome }
  · next msg msgs hrunning hmsgs =>
    obtain rfl := Option.some.inj hnext
    exact
      { connected := hinv.connected
        kept := by simpa [hrunning, hmsgs, Running.inHand] using hkept
        alone := fun _ => hinv.alone (by rw [hrunning]; exact nofun)
        woken := hinv.woken
        drained := fun _ _ => Or.inl nofun }
  · exact nomatch hnext

theorem Inv.prepare {allocated : Bool}
    (haccepts : Accepts connection (.prepare allocated))
    (hnext : prepare connection allocated = some next) : Inv next := by
  have hkept := hinv.kept
  rw [Outgoing.prepare] at hnext
  split at hnext
  · next msg hrunning =>
    obtain rfl := Option.some.inj hnext
    rw [if_pos (haccepts msg hrunning)]
    exact
      { connected := hinv.connected
        kept := by simpa [hrunning, Running.inHand] using hkept
        alone := fun _ => hinv.alone (by rw [hrunning]; exact nofun)
        woken := hinv.woken
        drained := fun _ _ => Or.inl nofun }
  · exact nomatch hnext

theorem wakers_keepOutputMessage (hbusy : connection.running ≠ .idle)
    (msg : Message) : wakers (keepOutputMessage connection msg) = 1 := by
  have hwoken := hinv.woken
  rw [hinv.alone hbusy, wakers] at hwoken
  change 1 + connection.connectionQueue.count .writeReady = 1
  have hnone := Nat.eq_zero_of_add_eq_zero_left hwoken
  rw [hnone]

theorem Inv.sendmsg {result : SendResult} (haccepts : Accepts connection (.sendmsg result))
    (hnext : sendmsg connection result = some next) : Inv next := by
  have hkept := hinv.kept
  revert hnext
  fun_cases Outgoing.sendmsg connection result <;> rintro ⟨⟩
  · exact hinv
  · next msg hrunning =>
    have hpend := hinv.alone (by rw [hrunning]; exact nofun)
    exact
      { connected := hinv.connected
        kept := by simpa [hrunning, hpend, Running.inHand] using hkept
        alone := fun _ => hpend
        woken := hinv.woken
        drained := fun _ _ => Or.inl nofun }
  · next msg hrunning =>
    have hbusy : connection.running ≠ .idle := by rw [hrunning]; exact nofun
    have hpend := hinv.alone hbusy
    exact
      { connected := hinv.connected
        kept := by simpa [keepOutputMessage, hrunning, hpend, Running.inHand] using hkept
        alone := fun hidle => absurd rfl hidle
        woken := wakers_keepOutputMessage hinv hbusy msg
        drained := fun _ => nofun }
  · next hrunning => exact absurd hrunning (haccepts _).1
  · exact hinv
  · next msg hrunning =>
    have hpend := hinv.alone (by rw [hrunning]; exact nofun)
    refine inv_sendOutgoingMessages hinv.connected ?_ hinv.woken
    simpa [hrunning, hpend, Running.inHand] using hkept
  · next msg hrunning =>
    have hbusy : connection.running ≠ .idle := by rw [hrunning]; exact nofun
    have hpend := hinv.alone hbusy
    refine inv_sendOutgoingMessages hinv.connected ?_ (wakers_keepOutputMessage hinv hbusy msg)
    simpa [keepOutputMessage, hrunning, hpend, Running.inHand] using hkept
  · next hrunning => exact absurd hrunning (haccepts _).2

theorem Inv.socketWritable (hnext : socketWritable connection = some next) : Inv next := by
  rw [Outgoing.socketWritable] at hnext
  split at hnext
  · next hready =>
    obtain ⟨hidle, hmonitor⟩ := hready
    obtain rfl := Option.some.inj hnext
    exact
      { connected := hinv.connected
        kept := hinv.kept
        alone := fun hbusy => absurd hidle hbusy
        woken := by
          rw [← hinv.woken, wakers, wakers, hmonitor, count_append,
            count_singleton_self, Bool.toNat_false, Bool.toNat_true]
          omega
        drained := fun hsome hnone => by
          obtain hbusy | htask | hcalls := hinv.drained hsome hnone
          · exact Or.inl hbusy
          · exact Or.inr (Or.inl (mem_append_left _ htask))
          · exact Or.inr (Or.inr hcalls) }
  · exact nomatch hnext

theorem Inv.step {action : Action} (haccepts : Accepts connection action)
    (hnext : step connection action = some next) : Inv next := by
  cases action with
  | append msg => exact hinv.append msg hnext
  | dispatch => exact hinv.dispatch hnext
  | runTask => exact hinv.runTask hnext
  | takeFirst => exact hinv.takeFirst hnext
  | prepare => exact hinv.prepare haccepts hnext
  | sendmsg => exact hinv.sendmsg haccepts hnext
  | socketWritable => exact hinv.socketWritable hnext

end

end Steps

/-- A message that is in hand and is dropped is missing. -/
theorem Orderly.not_dropped {connection : Connection} (horderly : Orderly connection)
    {message : Message} (hhand : connection.running.inHand = [message]) {running : Running}
    (hdropped : running.inHand = []) : ¬Orderly { connection with running } := by
  intro hnext
  have hlen := congrArg List.length (horderly.kept.symm.trans hnext.kept)
  simp [hhand, hdropped] at hlen

/-- A run loses, doubles, reorders and strands no message exactly when each message it
takes from the queue reaches the socket. -/
theorem always_orderly_iff (actions : List Action) :
    Always step Orderly .opened actions ↔ Meets step Accepts .opened actions := by
  constructor
  · refine meets_of_always (@fun connection action horderly _ hrefused => ?_) (meets_true _ _)
    match action with
    | .prepare _ =>
      simp only [Accepts, not_forall] at hrefused
      obtain ⟨message, hrunning, hrefused⟩ := hrefused
      refine ⟨{ connection with running := .idle }, ?_, ?_⟩
      · simp [step, prepare, hrunning, hrefused]
      · exact horderly.not_dropped (by rw [hrunning]; rfl) rfl
    | .sendmsg .failed =>
      simp only [Accepts, not_forall, not_and_or, not_not] at hrefused
      obtain ⟨message, hrunning | hrunning⟩ := hrefused
      · refine ⟨{ connection with running := .idle }, ?_, ?_⟩
        · simp [step, sendmsg, hrunning]
        · exact horderly.not_dropped (by rw [hrunning]; rfl) rfl
      · refine ⟨sendOutgoingMessages connection, ?_, ?_⟩
        · simp [step, sendmsg, hrunning]
        · exact horderly.not_dropped (by rw [hrunning]; rfl) (by split <;> rfl)
    | .append _ | .dispatch | .runTask | .takeFirst | .socketWritable | .sendmsg .sent
    | .sendmsg .interrupted | .sendmsg .wouldBlock => exact absurd trivial hrefused
  · intro hmeets
    have hinv : Always step Inv .opened actions :=
      always_of_step (fun hinv => hinv.step)
        ⟨rfl, rfl, fun _ => rfl, rfl, fun hmsgs => absurd rfl hmsgs⟩ hmeets
    exact hinv.mono fun _ => Inv.orderly

/-- While the first message waits for the socket, the tasks of the next two come to
nothing.  No memory can be allocated for the second, which is lost, and the third stays
in the queue without a task or a source. -/
theorem message_stranded : ∃ connection, run step .opened
          [.append ⟨1, 0, 10⟩, .dispatch, .append ⟨2, 0, 5000⟩, .dispatch,
            .append ⟨3, 0, 10⟩, .dispatch, .runTask, .takeFirst, .prepare true,
            .sendmsg .wouldBlock, .runTask, .runTask, .socketWritable, .runTask,
            .sendmsg .sent, .takeFirst, .prepare false] = some connection ∧
        connection.socket = [⟨1, 0, 10⟩] ∧ connection.outgoingMessages = [⟨3, 0, 10⟩] ∧
        connection.pendingOutputMessage = none ∧ connection.writeSocketMonitor = false ∧
        connection.connectionQueue = [] ∧ connection.running = .idle ∧
        connection.dispatching = 0 ∧ ¬ Orderly connection := by
  refine ⟨_, rfl, rfl, rfl, rfl, rfl, rfl, rfl, rfl, fun horderly => ?_⟩
  have hdrained := horderly.drained (by decide) rfl
  revert hdrained
  decide

end PurcFetcher.Ipc.Outgoing
