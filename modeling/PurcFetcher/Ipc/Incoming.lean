import PurcFetcher.Core.Machine
import Mathlib.Data.List.Perm.Basic

/-!
# The incoming messages of a connection

`enqueueIncomingMessage` appends a message on the connection queue and then, after its
lock, dispatches a task to the main run loop.  Without a throttler every message has its
task.  With one a task is dispatched for the first message only, and a task that leaves
messages behind schedules the next before it dispatches any of its own.

A client that is called with a message may run the run loop, so the loops of
`dispatchIncomingMessages` nest, and `waitForMessage` takes a message out of the middle
of the queue.
-/

namespace PurcFetcher.Ipc.Incoming

open Machine List

structure Message where
  messageName : ℕ
  destinationID : ℕ
  number : ℕ
  deriving DecidableEq

structure Connection where
  /-- The throttling level of the throttler, if there is one. -/
  throttlingLevel : Option ℕ
  /-- The one-shot timer of the throttler is active. -/
  dispatchMessagesTimer : Bool
  incomingMessages : List Message
  /-- The dispatch tasks on the main run loop. -/
  tasks : ℕ
  /-- The calls of `enqueueIncomingMessage` that are about to dispatch their task. -/
  enqueueing : ℕ
  /-- The open loops of `dispatchIncomingMessages`, innermost first, with the number of
  rounds each has left. -/
  loops : List ℕ
  /-- The messages that were appended, in order. -/
  arrived : List Message
  /-- The messages that left the queue, in order, and whether a task dispatched them. -/
  left : List (Message × Bool)
  deriving DecidableEq

/-- A connection, with a throttler or without, that has received nothing. -/
def Connection.start (throttled : Bool) : Connection where
  throttlingLevel := if throttled then some 0 else none
  dispatchMessagesTimer := false
  incomingMessages := []
  tasks := 0
  enqueueing := 0
  loops := []
  arrived := []
  left := []

inductive Action
  | enqueueIncomingMessage (message : Message)
  | dispatchTask
  | runTask
  | fireTimer
  | nextRound
  | waitForMessage (messageName destinationID : ℕ)
  | enableIncomingMessagesThrottling

def maxIncomingMessagesDispatchingBatchSize : ℕ := 600

def maxThrottlingLevel : ℕ := 9

/-- The number of messages to process, and the throttling level after it. -/
def numberOfMessagesToProcess (level totalMessages : ℕ) : ℕ × ℕ :=
  (min totalMessages (maxIncomingMessagesDispatchingBatchSize / (level + 1)),
    if totalMessages > maxIncomingMessagesDispatchingBatchSize then
      min (level + 1) maxThrottlingLevel
    else level - 1)

/-- A throttled connection uses its timer, one that is not throttled now a task. -/
def scheduleMessagesDispatch (connection : Connection) (level : ℕ) : Connection :=
  if level ≠ 0 then { connection with dispatchMessagesTimer := true }
  else { connection with tasks := connection.tasks + 1 }

/-- The first message leaves the queue and is dispatched. -/
def dispatchFirst (connection : Connection) (message : Message) (messages : List Message) :
    Connection :=
  { connection with
    incomingMessages := messages
    left := connection.left ++ [(message, true)] }

def dispatchOneIncomingMessage (connection : Connection) : Connection :=
  match connection.incomingMessages with
  | [] => connection
  | message :: messages => dispatchFirst connection message messages

/-- `dispatchIncomingMessages` up to its loop. -/
def dispatchIncomingMessages (connection : Connection) (level : ℕ) : Connection :=
  match connection.incomingMessages with
  | [] => connection
  | message :: messages =>
    let (messagesToProcess, nextLevel) := numberOfMessagesToProcess level messages.length
    let dispatched :=
      { dispatchFirst connection message messages with
        throttlingLevel := some nextLevel
        loops := (messagesToProcess - 1) :: connection.loops }
    if messages.isEmpty then dispatched else scheduleMessagesDispatch dispatched nextLevel

/-- A round of the loop of `dispatchIncomingMessages`. -/
def nextRound (connection : Connection) : Option Connection :=
  match connection.loops, connection.incomingMessages with
  | [], _ => none
  | 0 :: loops, _ => some { connection with loops := loops }
  | (_ + 1) :: loops, [] => some { connection with loops := loops }
  | (rounds + 1) :: loops, message :: messages =>
    some { dispatchFirst connection message messages with loops := rounds :: loops }

def isAwaited (messageName destinationID : ℕ) (message : Message) : Bool :=
  message.messageName == messageName && message.destinationID == destinationID

/-- The search of `waitForMessage` in the queue. -/
def waitForMessage (connection : Connection) (messageName destinationID : ℕ) : Connection :=
  match connection.incomingMessages.find? (isAwaited messageName destinationID) with
  | none => connection
  | some message =>
    { connection with
      incomingMessages := connection.incomingMessages.eraseP (isAwaited messageName destinationID)
      left := connection.left ++ [(message, false)] }

def step (connection : Connection) : Action → Option Connection
  | .enqueueIncomingMessage message =>
    let messages := connection.incomingMessages ++ [message]
    some { connection with
      incomingMessages := messages
      enqueueing :=
        if connection.throttlingLevel.isSome ∧ messages.length ≠ 1 then connection.enqueueing
        else connection.enqueueing + 1
      arrived := connection.arrived ++ [message] }
  | .dispatchTask =>
    match connection.enqueueing with
    | 0 => none
    | enqueueing + 1 =>
      some { connection with enqueueing := enqueueing, tasks := connection.tasks + 1 }
  | .runTask =>
    match connection.tasks with
    | 0 => none
    | tasks + 1 =>
      let running := { connection with tasks := tasks }
      match connection.throttlingLevel with
      | none => some (dispatchOneIncomingMessage running)
      | some level => some (dispatchIncomingMessages running level)
  | .fireTimer =>
    match connection.dispatchMessagesTimer, connection.throttlingLevel with
    | true, some level =>
      some (dispatchIncomingMessages { connection with dispatchMessagesTimer := false } level)
    | _, _ => none
  | .nextRound => nextRound connection
  | .waitForMessage messageName destinationID =>
    some (waitForMessage connection messageName destinationID)
  | .enableIncomingMessagesThrottling =>
    some { connection with throttlingLevel := some (connection.throttlingLevel.getD 0) }

/-! ## What a run keeps -/

/-- The messages that tasks have dispatched, in order. -/
def dispatched (connection : Connection) : List Message :=
  (connection.left.filter Prod.snd).map Prod.fst

/-- A dispatch task is on the main run loop, as a task or by the timer, or a call of
`enqueueIncomingMessage` is about to put one there. -/
def DispatchPending (connection : Connection) : Prop :=
  0 < connection.tasks ∨ connection.dispatchMessagesTimer = true ∨ 0 < connection.enqueueing

/-- Messages are dispatched in the order they came, each message leaves once, and a queue
with messages has a task. -/
structure Delivers (connection : Connection) : Prop where
  ordered : (dispatched connection ++ connection.incomingMessages).Sublist connection.arrived
  once : connection.arrived.Perm (connection.left.map Prod.fst ++ connection.incomingMessages)
  pending : connection.incomingMessages ≠ [] → DispatchPending connection

structure Inv (connection : Connection) : Prop where
  ordered : (dispatched connection ++ connection.incomingMessages).Sublist connection.arrived
  once : connection.arrived.Perm (connection.left.map Prod.fst ++ connection.incomingMessages)
  pending : connection.incomingMessages ≠ [] → DispatchPending connection
  /-- Without a throttler there is a task for every message. -/
  matched : connection.throttlingLevel = none →
    connection.incomingMessages.length ≤ connection.tasks + connection.enqueueing

theorem inv_start (throttled : Bool) : Inv (.start throttled) where
  ordered := List.Sublist.refl _
  once := List.Perm.refl _
  pending := fun hmsgs => absurd rfl hmsgs
  matched := fun _ => Nat.le_refl _

section Steps

variable {connection next : Connection}

section

variable (hinv : Inv connection)
include hinv

theorem Inv.of_same (hmsgs : next.incomingMessages = connection.incomingMessages)
    (hleft : next.left = connection.left) (harrived : next.arrived = connection.arrived)
    (hpend : next.incomingMessages ≠ [] → DispatchPending next)
    (hmatched : next.throttlingLevel = none →
      next.incomingMessages.length ≤ next.tasks + next.enqueueing) : Inv next where
  ordered := by rw [dispatched, hleft, hmsgs, harrived]; exact hinv.ordered
  once := by rw [hleft, hmsgs, harrived]; exact hinv.once
  pending := hpend
  matched := hmatched

theorem Inv.of_first {msg : Message} {msgs : List Message}
    (hfirst : connection.incomingMessages = msg :: msgs)
    (hmsgs : next.incomingMessages = msgs)
    (hleft : next.left = connection.left ++ [(msg, true)])
    (harrived : next.arrived = connection.arrived)
    (hpend : msgs ≠ [] → DispatchPending next)
    (hmatched : next.throttlingLevel = none →
      msgs.length ≤ next.tasks + next.enqueueing) : Inv next where
  ordered := by
    have hordered := hinv.ordered
    rw [hfirst] at hordered
    simpa [dispatched, hleft, hmsgs, harrived] using hordered
  once := by
    have honce := hinv.once
    rw [hfirst] at honce
    simpa [hleft, hmsgs, harrived] using honce
  pending := by rw [hmsgs]; exact hpend
  matched := by rw [hmsgs]; exact hmatched

theorem Inv.enqueueIncomingMessage (msg : Message)
    (hnext : step connection (.enqueueIncomingMessage msg) = some next) : Inv next := by
  obtain rfl := Option.some.inj hnext
  exact
    { ordered := by
        simpa [dispatched] using hinv.ordered.append (List.Sublist.refl [msg])
      once := by simpa using hinv.once.append_right [msg]
      pending := by
        intro _
        by_cases hearlier : connection.incomingMessages = []
        · right; right
          simp [hearlier]
        · obtain htasks | htimer | hcalls := hinv.pending hearlier
          · exact Or.inl htasks
          · exact Or.inr (Or.inl htimer)
          · right; right
            split
            · exact hcalls
            · exact Nat.succ_pos _
      matched := by
        intro hnone
        have hmatched := hinv.matched hnone
        dsimp only at hnone
        simp only [hnone, Option.isSome_none, Bool.false_eq_true, false_and, if_false,
          length_append, length_singleton]
        omega }

theorem Inv.dispatchTask (hnext : step connection .dispatchTask = some next) : Inv next := by
  cases hcalls : connection.enqueueing with
  | zero => simp [step, hcalls] at hnext
  | succ calls =>
    simp only [step, hcalls, Option.some.injEq] at hnext
    subst hnext
    refine hinv.of_same rfl rfl rfl (fun _ => Or.inl (Nat.succ_pos _)) fun hnone => ?_
    have hmatched := hinv.matched hnone
    dsimp only
    omega

theorem Inv.dispatchOneIncomingMessage {tasks : ℕ}
    (htasks : connection.tasks = tasks + 1) (hnone : connection.throttlingLevel = none) :
    Inv (dispatchOneIncomingMessage { connection with tasks := tasks }) := by
  have hmatched := hinv.matched hnone
  rw [Incoming.dispatchOneIncomingMessage]
  split
  · next hmsgs =>
    refine hinv.of_same rfl rfl rfl (fun hsome => absurd hmsgs hsome) fun _ => ?_
    rw [hmsgs]
    exact Nat.zero_le _
  · next msg msgs hmsgs =>
    rw [show connection.incomingMessages = msg :: msgs from hmsgs, length_cons] at hmatched
    have hleft : msgs.length ≤ tasks + connection.enqueueing := by omega
    refine hinv.of_first hmsgs rfl rfl rfl (fun hsome => ?_) fun _ => hleft
    have hlen := length_pos_iff.2 hsome
    obtain htask | hcall : 0 < tasks ∨ 0 < connection.enqueueing := by omega
    · exact Or.inl htask
    · exact Or.inr (Or.inr hcall)

/-- The first message is dispatched after the next task was scheduled for the others. -/
theorem Inv.dispatchIncomingMessages {running : Connection} {level : ℕ}
    (hmsgs : running.incomingMessages = connection.incomingMessages)
    (hleft : running.left = connection.left) (harrived : running.arrived = connection.arrived)
    (hlevel : running.throttlingLevel = some level) :
    Inv (dispatchIncomingMessages running level) := by
  rw [Incoming.dispatchIncomingMessages]
  split
  · next hnone =>
    refine hinv.of_same hmsgs hleft harrived (fun hsome => absurd hnone hsome) ?_
    rw [hlevel]
    exact nofun
  · next msg msgs hfirst =>
    rw [hmsgs] at hfirst
    dsimp only
    split
    · next hlast =>
      refine hinv.of_first hfirst rfl (congrArg (· ++ _) hleft) harrived ?_ nofun
      exact fun hsome => absurd (List.isEmpty_iff.1 hlast) hsome
    · rw [scheduleMessagesDispatch]
      split
      · exact hinv.of_first hfirst rfl (congrArg (· ++ _) hleft) harrived
          (fun _ => Or.inr (Or.inl rfl)) nofun
      · exact hinv.of_first hfirst rfl (congrArg (· ++ _) hleft) harrived
          (fun _ => Or.inl (Nat.succ_pos _)) nofun

theorem Inv.runTask (hnext : step connection .runTask = some next) :
    Inv next := by
  cases htasks : connection.tasks with
  | zero => simp [step, htasks] at hnext
  | succ =>
    simp only [step, htasks] at hnext
    cases hlevel : connection.throttlingLevel with
    | none =>
      rw [hlevel] at hnext
      exact Option.some.inj hnext ▸ hlevel ▸ hinv.dispatchOneIncomingMessage htasks hlevel
    | some =>
      rw [hlevel] at hnext
      exact Option.some.inj hnext ▸ hinv.dispatchIncomingMessages rfl rfl rfl rfl

theorem Inv.fireTimer (hnext : step connection .fireTimer = some next) :
    Inv next := by
  simp only [step] at hnext
  split at hnext
  · next hlevel => exact Option.some.inj hnext ▸ hinv.dispatchIncomingMessages rfl rfl rfl hlevel
  · exact nomatch hnext

theorem Inv.nextRound (hnext : nextRound connection = some next) :
    Inv next := by
  rw [Incoming.nextRound] at hnext
  split at hnext
  · exact nomatch hnext
  · exact Option.some.inj hnext ▸ hinv.of_same rfl rfl rfl hinv.pending hinv.matched
  · exact Option.some.inj hnext ▸ hinv.of_same rfl rfl rfl hinv.pending hinv.matched
  · next msg msgs _ hfirst =>
    obtain rfl := Option.some.inj hnext
    refine hinv.of_first hfirst rfl rfl rfl (fun _ => ?_) fun hnone => ?_
    · exact hinv.pending (by rw [hfirst]; exact cons_ne_nil _ _)
    · have hmatched := hinv.matched hnone
      rw [hfirst, length_cons] at hmatched
      exact Nat.le_of_succ_le hmatched

end

theorem perm_cons_eraseP {awaited : Message → Bool} {msgs : List Message}
    {msg : Message} (hfound : msgs.find? awaited = some msg) :
    msgs.Perm (msg :: msgs.eraseP awaited) := by
  obtain ⟨hawaited, before, after, rfl, hbefore⟩ := find?_eq_some_iff_append.1 hfound
  rw [eraseP_append_right _ (by simpa using hbefore), eraseP_cons_of_pos hawaited]
  exact perm_middle

theorem Inv.waitForMessage (hinv : Inv connection) (msgName destID : ℕ) :
    Inv (waitForMessage connection msgName destID) := by
  rw [Incoming.waitForMessage]
  split
  · exact hinv
  · next msg hfound =>
    have hfewer : (connection.incomingMessages.eraseP (isAwaited msgName destID)
        ).Sublist connection.incomingMessages := eraseP_sublist
    exact
      { ordered := by
          refine List.Sublist.trans ?_ hinv.ordered
          simpa [dispatched] using hfewer
        once := by
          refine hinv.once.trans ?_
          simpa using (perm_cons_eraseP hfound).append_left _
        pending := fun hsome => hinv.pending fun hnone => hsome (sublist_nil.1 (hnone ▸ hfewer))
        matched := fun hnone => Nat.le_trans hfewer.length_le (hinv.matched hnone) }

theorem Inv.step (hinv : Inv connection) {action : Action}
    (hnext : step connection action = some next) : Inv next := by
  cases action with
  | enqueueIncomingMessage msg => exact hinv.enqueueIncomingMessage msg hnext
  | dispatchTask => exact hinv.dispatchTask hnext
  | runTask => exact hinv.runTask hnext
  | fireTimer => exact hinv.fireTimer hnext
  | nextRound => exact hinv.nextRound hnext
  | waitForMessage msgName destID =>
    exact Option.some.inj hnext ▸ hinv.waitForMessage msgName destID
  | enableIncomingMessagesThrottling =>
    exact Option.some.inj hnext ▸ hinv.of_same rfl rfl rfl hinv.pending nofun

end Steps

/-- In every run, throttled or not, messages are dispatched in the order they came, each
leaves the queue once, and the queue has a task while it has messages. -/
theorem always_delivers (throttled : Bool) (actions : List Action) :
    Always step Delivers (.start throttled) actions := by
  have hinv : Always step Inv (.start throttled) actions :=
    always_of_step (fun hinv _ => hinv.step) (inv_start throttled) (meets_true _ actions)
  exact hinv.mono fun _ hinv => ⟨hinv.ordered, hinv.once, hinv.pending⟩

/-- A message that is awaited leaves before the one that came first, and a message that
has just been appended has no task yet. -/
theorem message_leaves_early :
    (∃ connection,
      run step (.start false)
          [.enqueueIncomingMessage ⟨1, 0, 0⟩, .dispatchTask, .enqueueIncomingMessage ⟨2, 0, 1⟩,
            .dispatchTask, .waitForMessage 2 0] = some connection ∧
        connection.arrived = [⟨1, 0, 0⟩, ⟨2, 0, 1⟩] ∧
        connection.left = [(⟨2, 0, 1⟩, false)] ∧
        connection.incomingMessages = [⟨1, 0, 0⟩]) ∧
    ∃ connection,
      run step (.start false) [.enqueueIncomingMessage ⟨1, 0, 0⟩] = some connection ∧
        connection.incomingMessages = [⟨1, 0, 0⟩] ∧ connection.tasks = 0 ∧
        connection.dispatchMessagesTimer = false ∧ connection.loops = [] :=
  ⟨⟨_, rfl, rfl, rfl, rfl⟩, ⟨_, rfl, rfl, rfl, rfl, rfl⟩⟩

end PurcFetcher.Ipc.Incoming
