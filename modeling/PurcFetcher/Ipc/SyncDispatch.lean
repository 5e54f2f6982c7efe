import PurcFetcher.Ipc.SyncMessages

/-!
# Dispatching the messages of `SyncMessageState`

A message stays in the queue only while the dispatch task of its connection is scheduled,
and the messages of a connection are dispatched in the order they came, as long as no
client waits or runs the run loop inside a dispatch that holds messages in its own
vector.  A dispatch that is entered again sees later messages first, and the task of a
connection may run, and find nothing, while another task holds its messages.
-/

namespace PurcFetcher.Ipc.Sync

open Function Machine List

variable {C : Type} [DecidableEq C]

/-- The messages that a call of the main thread holds, in the order they came. -/
def Frame.held : Frame C → List (Message C)
  | .dispatchMessages rest => rest
  | .dispatchForConnection _ rest messagesToPutBack => messagesToPutBack ++ rest
  | _ => []

/-- The main thread is in run loops and clients only. -/
def Frame.isDispatch : Frame C → Bool
  | .dispatchMessages _ => true
  | .dispatchForConnection _ _ _ => true
  | _ => false

def ofConnection (connection : C) (messages : List (Message C)) : List (Message C) :=
  messages.filter (·.connection = connection)

/-- The dispatch task of the connection is on the main run loop, or its connection queue
is about to put it there. -/
def DispatchScheduled (state : State C) (connection : C) : Prop :=
  .dispatchForConnection connection ∈ state.runLoopTasks ∨
    .scheduleDispatch ∈ state.connectionQueue connection

/-- No message is stranded, and the messages of a connection are dispatched in order and
at most once. -/
structure DispatchesInOrder (state : State C) : Prop where
  scheduled : ∀ stack, state.stack = .runLoop :: stack →
    (∀ frame ∈ stack, frame.isDispatch = false) →
    ∀ message ∈ state.messagesToDispatch,
      message.connection ∈ state.didScheduleDispatchMessagesWorkSet ∧
        DispatchScheduled state message.connection
  ordered : ∀ connection,
    (ofConnection connection state.dispatched).Sublist (ofConnection connection state.arrived)
  numbered : state.arrived.Nodup

/-- A client neither waits nor runs the run loop inside a dispatch that holds messages. -/
def HoldsNothing (state : State C) : Action C → Prop
  | .sendSyncMessage _ => ∀ frame ∈ state.stack, frame.held = []
  | .enterRunLoop => ∀ frame ∈ state.stack, frame.held = []
  | .dispatchMessages => ∀ frame ∈ state.stack, frame.held = []
  | _ => True

/-! ## The invariant -/

/-- The messages that a call will put back into the queue. -/
def Frame.kept : Frame C → List (Message C)
  | .dispatchForConnection connection rest messagesToPutBack =>
    (messagesToPutBack ++ rest).filter (·.connection ≠ connection)
  | _ => []

/-- A task puts back messages of other connections only. -/
def Frame.SetsAside : Frame C → Prop
  | .dispatchForConnection connection _ messagesToPutBack =>
    ∀ message ∈ messagesToPutBack, message.connection ≠ connection
  | _ => True

def Clean (stack : List (Frame C)) : Prop :=
  ∀ frame ∈ stack, frame.held = []

/-- Only the innermost call that is not a client holds messages. -/
def Arranged : List (Frame C) → Prop
  | [] => True
  | .handler :: stack => Arranged stack
  | _ :: stack => Clean stack

structure DispatchInv (state : State C) : Prop where
  arranged : Arranged state.stack
  /-- The messages of a connection that have arrived are, in order, those that were
  dispatched, those that are held, and those that are queued. -/
  accounted : ∀ connection, ofConnection connection state.arrived = ofConnection connection
      (state.dispatched ++ (state.stack.flatMap Frame.held ++ state.messagesToDispatch))
  aside : ∀ frame ∈ state.stack, frame.SetsAside
  marked : ∀ message ∈ state.stack.flatMap Frame.kept ++ state.messagesToDispatch,
    message.connection ∈ state.didScheduleDispatchMessagesWorkSet
  scheduled : ∀ connection ∈ state.didScheduleDispatchMessagesWorkSet,
    DispatchScheduled state connection
  numbered : state.arrived.map (·.number) = List.range state.arrived.length

theorem dispatchInv_start : DispatchInv (State.start C) where
  arranged := nofun
  accounted := fun _ => rfl
  aside := forall_mem_singleton.2 trivial
  marked := nofun
  scheduled := nofun
  numbered := rfl

section Stacks

omit [DecidableEq C]

variable {stack : List (Frame C)}

variable (hclean : Clean stack)
include hclean

theorem Clean.arranged : Arranged stack := by
  induction stack with
  | nil => trivial
  | cons frame stack ih =>
    have hstack : Clean stack := fun other hother => hclean other (mem_cons_of_mem _ hother)
    cases frame with
    | handler => exact ih hstack
    | _ => exact hstack

theorem Clean.flatMap_held : stack.flatMap Frame.held = [] := flatMap_eq_nil_iff.2 hclean

theorem Clean.cons {frame : Frame C} (hframe : frame.held = []) :
    Clean (frame :: stack) :=
  forall_mem_cons.2 ⟨hframe, hclean⟩

end Stacks

theorem Clean.flatMap_kept {stack : List (Frame C)} (hclean : Clean stack) :
    stack.flatMap Frame.kept = [] := by
  refine flatMap_eq_nil_iff.2 fun frame hframe => ?_
  cases frame with
  | dispatchForConnection connection rest msgsToPutBack =>
    have hheld : msgsToPutBack ++ rest = [] := hclean _ hframe
    rw [Frame.kept, hheld]
    rfl
  | _ => rfl

section Steps

variable {state next : State C}

variable {action : Action C} {connection : C}

theorem DispatchInv.arranged_step (hinv : DispatchInv state) (hholds : HoldsNothing state action)
    (hmoves : Moves state action next) : Arranged next.stack := by
  have harranged := hinv.arranged
  cases hmoves with
  | dispatchNext hstack | dispatchOwn hstack =>
    rw [hstack] at harranged
    rw [dispatch]
    split <;> exact harranged
  | dispatchEnd hstack | putBack hstack | returnReply hstack | leaveRunLoop hstack =>
    rw [hstack] at harranged; exact harranged.arranged
  | returnToCaller hstack | setAside hstack | checkReturns hstack | checkWaits hstack
  | checkInvalid hstack | wake hstack | timeOut hstack => rw [hstack] at harranged; exact harranged
  | dispatchWaiting hstack => rw [hstack] at harranged; exact harranged.cons rfl
  | runDispatch hstack => rw [hstack] at harranged ⊢; exact harranged.cons rfl
  | sendSyncMessage | enterRunLoop | dispatchMessages => exact hholds
  | _ => exact harranged

omit [DecidableEq C] in
theorem flatMap_dispatch {frames : Frame C → List (Message C)} (hclient : frames .handler = [])
    (msg : Message C) (stack : List (Frame C)) :
    (dispatch state msg stack).stack.flatMap frames = stack.flatMap frames := by
  rw [dispatch]
  split
  · rw [flatMap_cons, hclient, nil_append]
  · rfl

theorem ofConnection_move {msg : Message C} {before : List (Message C)}
    (hbefore : ∀ other ∈ before, other.connection ≠ msg.connection)
    (after : List (Message C)) (connection : C) :
    ofConnection connection (before ++ msg :: after) =
      ofConnection connection (msg :: (before ++ after)) := by
  by_cases hown : msg.connection = connection
  · have hnone : before.filter (·.connection = connection) = [] :=
      filter_eq_nil_iff.2 fun other hother => by simpa [← hown] using hbefore other hother
    simp [ofConnection, hown, hnone]
  · simp [ofConnection, hown]

theorem ofConnection_append (connection : C) (left right : List (Message C)) :
    ofConnection connection (left ++ right) =
      ofConnection connection left ++ ofConnection connection right :=
  filter_append _ _

theorem DispatchInv.accounted_step (hinv : DispatchInv state) (hholds : HoldsNothing state action)
    (hmoves : Moves state action next) (connection : C) :
    ofConnection connection next.arrived = ofConnection connection
        (next.dispatched ++ (next.stack.flatMap Frame.held ++ next.messagesToDispatch)) := by
  have haccounted := hinv.accounted connection
  have harranged := hinv.arranged
  cases hmoves with
  | dispatchNext hstack =>
    rw [hstack] at haccounted
    rw [flatMap_dispatch rfl]
    simpa [dispatch, Frame.held] using haccounted
  | dispatchOwn hstack =>
    rw [hstack] at haccounted
    rw [flatMap_dispatch rfl]
    have haside := hinv.aside _ (hstack ▸ mem_cons_self)
    refine haccounted.trans ?_
    simp only [dispatch, Frame.held, flatMap_cons, append_assoc, cons_append]
    rw [ofConnection_append, ofConnection_move haside, ofConnection_append]
    rfl
  | putBack hstack =>
    rw [hstack] at haccounted harranged
    simpa [Frame.held, Clean.flatMap_held harranged] using haccounted
  | dispatchWaiting hstack =>
    rw [hstack] at haccounted harranged
    simpa [Sync.dispatchMessages, Frame.held, Clean.flatMap_held harranged] using haccounted
  | runDispatch hstack =>
    rw [hstack] at haccounted harranged ⊢
    simpa [Frame.held, Clean.flatMap_held harranged] using haccounted
  | dispatchMessages =>
    rw [Clean.flatMap_held hholds] at haccounted
    simpa [Sync.dispatchMessages, Frame.held, Clean.flatMap_held hholds] using haccounted
  | processIncomingMessage => grind [Sync.processIncomingMessage, ofConnection_append]
  | dispatchEnd hstack | checkReturns hstack | checkWaits hstack | checkInvalid hstack
  | wake hstack | timeOut hstack | returnReply hstack | leaveRunLoop hstack
  | returnToCaller hstack => rw [hstack] at haccounted; exact haccounted
  | setAside hstack =>
    rw [hstack] at haccounted
    simpa [Frame.held] using haccounted
  | _ => exact haccounted

theorem DispatchInv.marked_step (hinv : DispatchInv state) (hmoves : Moves state action next) :
    ∀ msg ∈ next.stack.flatMap Frame.kept ++ next.messagesToDispatch,
      msg.connection ∈ next.didScheduleDispatchMessagesWorkSet := by
  have hmarked := hinv.marked
  have harranged := hinv.arranged
  cases hmoves with
  | dispatchNext hstack =>
    rw [hstack] at hmarked
    rw [flatMap_dispatch rfl]
    exact hmarked
  | dispatchOwn hstack =>
    rw [hstack] at hmarked
    rw [flatMap_dispatch rfl]
    simpa [dispatch, Frame.kept] using hmarked
  | setAside hstack =>
    rw [hstack] at hmarked
    simpa [Frame.kept] using hmarked
  | putBack hstack =>
    have haside := hinv.aside _ (hstack ▸ mem_cons_self)
    rw [hstack] at hmarked
    intro msg hmsg
    simp only [mem_append] at hmsg
    apply hmarked msg
    simp only [flatMap_cons, Frame.kept, append_nil, mem_append, mem_filter, decide_eq_true_eq]
    obtain hbelow | hback | hqueued := hmsg
    · exact Or.inl (Or.inr hbelow)
    · exact Or.inl (Or.inl ⟨hback, haside msg hback⟩)
    · exact Or.inr hqueued
  | dispatchWaiting hstack =>
    rw [hstack] at hmarked
    intro msg hmsg
    rw [Sync.dispatchMessages, append_nil] at hmsg
    exact hmarked msg (mem_append_left _ hmsg)
  | dispatchMessages =>
    intro msg hmsg
    rw [Sync.dispatchMessages, append_nil] at hmsg
    exact hmarked msg (mem_append_left _ hmsg)
  | runDispatch hstack =>
    rw [hstack] at hmarked harranged ⊢
    intro msg hmsg
    simp only [flatMap_cons, Frame.kept, Clean.flatMap_kept harranged, append_nil,
      nil_append, mem_filter, decide_eq_true_eq] at hmsg
    exact Finset.mem_erase.2 ⟨hmsg.2, hmarked msg (mem_append_right _ hmsg.1)⟩
  | processIncomingMessage => grind [Sync.processIncomingMessage]
  | dispatchEnd hstack | checkReturns hstack | checkWaits hstack | checkInvalid hstack
  | wake hstack | timeOut hstack | returnReply hstack | leaveRunLoop hstack
  | returnToCaller hstack => rw [hstack] at hmarked; exact hmarked
  | _ => exact hmarked

theorem DispatchInv.aside_step (hinv : DispatchInv state) (hmoves : Moves state action next) :
    ∀ frame ∈ next.stack, frame.SetsAside := by
  have haside := hinv.aside
  cases hmoves with
  | dispatchNext hstack | dispatchOwn hstack =>
    rw [hstack, forall_mem_cons] at haside
    rw [dispatch]
    split
    · exact forall_mem_cons.2 ⟨trivial, forall_mem_cons.2 haside⟩
    · exact forall_mem_cons.2 haside
  | setAside hstack hother =>
    rw [hstack, forall_mem_cons] at haside
    refine forall_mem_cons.2 ⟨?_, haside.2⟩
    exact forall_mem_append.2 ⟨haside.1, forall_mem_singleton.2 hother⟩
  | runDispatch => exact forall_mem_cons.2 ⟨forall_mem_nil _, haside⟩
  | runDidClose | runClientTask | sendSyncMessage | enterRunLoop | dispatchMessages =>
    exact forall_mem_cons.2 ⟨trivial, haside⟩
  | dispatchWaiting hstack =>
    rw [hstack, forall_mem_cons] at haside
    exact forall_mem_cons.2 ⟨trivial, forall_mem_cons.2 haside⟩
  | dispatchEnd hstack | putBack hstack | returnReply hstack | leaveRunLoop hstack
  | returnToCaller hstack => rw [hstack] at haside; exact (forall_mem_cons.1 haside).2
  | checkReturns hstack | checkWaits hstack | checkInvalid hstack | wake hstack | timeOut hstack =>
    rw [hstack, forall_mem_cons] at haside
    exact forall_mem_cons.2 haside
  | _ => exact haside

omit [DecidableEq C] in
theorem DispatchScheduled.tail (hscheduled : DispatchScheduled state connection) {task : Task C}
    {tasks : List (Task C)} (htasks : state.runLoopTasks = task :: tasks)
    (hother : .dispatchForConnection connection ≠ task) (hnext : next.runLoopTasks = tasks)
    (hqueue : next.connectionQueue = state.connectionQueue) :
    DispatchScheduled next connection := by
  refine hscheduled.imp (fun htask => ?_) (fun hleft => hqueue ▸ hleft)
  rw [htasks] at htask
  rw [hnext]
  exact (mem_cons.1 htask).resolve_left hother

theorem DispatchScheduled.update {target : C} (hscheduled : DispatchScheduled state connection)
    (hdone : state.connectionQueue target = []) {steps : List QueueStep}
    (htasks : next.runLoopTasks = state.runLoopTasks)
    (hqueue : next.connectionQueue = Function.update state.connectionQueue target steps) :
    DispatchScheduled next connection :=
  hscheduled.imp (fun htask => htasks ▸ htask)
    (fun hleft => hqueue ▸ mem_update_of_done hleft hdone steps)

theorem DispatchScheduled.proceed {target : C} (hscheduled : DispatchScheduled state connection)
    {first : QueueStep} {rest : List QueueStep}
    (hsteps : state.connectionQueue target = first :: rest) (hother : .scheduleDispatch ≠ first)
    (htasks : state.runLoopTasks <+: next.runLoopTasks)
    (hqueue : next.connectionQueue = Function.update state.connectionQueue target rest) :
    DispatchScheduled next connection :=
  hscheduled.imp (fun htask => htasks.subset htask)
    (fun hleft => hqueue ▸ mem_update_of_ne hleft hsteps hother)

variable (hinv : DispatchInv state)
include hinv

theorem DispatchInv.scheduled_step (hmoves : Moves state action next) :
    ∀ connection ∈ next.didScheduleDispatchMessagesWorkSet,
      DispatchScheduled next connection := by
  intro connection hmem
  have hscheduled := hinv.scheduled connection
  cases hmoves with
  | runDispatch _ htasks =>
    obtain ⟨hother, hmem⟩ := Finset.mem_erase.1 hmem
    exact (hscheduled hmem).tail htasks (by simpa using hother) rfl rfl
  | runDidClose _ htasks | skipDidClose _ htasks =>
    exact (hscheduled hmem).tail htasks nofun rfl rfl
  | processIncomingMessage target hdone =>
    simp only [Sync.processIncomingMessage] at hmem
    obtain rfl | hold := Finset.mem_insert.1 hmem
    · by_cases hmarked : connection ∈ state.didScheduleDispatchMessagesWorkSet
      · exact (hscheduled hmarked).update hdone rfl rfl
      · right
        simp only [Sync.processIncomingMessage, update_self, if_neg hmarked]
        exact mem_cons_self
    · exact (hscheduled hold).update hdone rfl rfl
  | processIncomingSyncReply _ _ hdone | connectionDidClose _ hdone =>
    exact (hscheduled hmem).update hdone rfl rfl
  | wakeUpClientRunLoop hqueue => exact (hscheduled hmem).proceed hqueue nofun prefix_rfl rfl
  | postDidClose hqueue => exact (hscheduled hmem).proceed hqueue nofun (prefix_append _ _) rfl
  | @scheduleDispatch target rest hqueue =>
    by_cases hsame : connection = target
    · exact Or.inl (mem_append_right _ (hsame ▸ mem_singleton_self _))
    · refine (hscheduled hmem).imp (fun htask => mem_append_left _ htask) fun hleft => ?_
      simp only [update_of_ne hsame]
      exact hleft
  | _ => exact hscheduled hmem

theorem DispatchInv.step (hholds : HoldsNothing state action)
    (hnext : step state action = some next) :
    DispatchInv next where
  arranged := hinv.arranged_step hholds (moves_of_step hnext)
  accounted := hinv.accounted_step hholds (moves_of_step hnext)
  aside := hinv.aside_step (moves_of_step hnext)
  marked := hinv.marked_step (moves_of_step hnext)
  scheduled := hinv.scheduled_step (moves_of_step hnext)
  numbered := by
    have hnumbered := hinv.numbered
    cases moves_of_step hnext with
    | processIncomingMessage =>
      simp only [Sync.processIncomingMessage, map_append, hnumbered, length_append,
        length_singleton, range_succ, map_singleton]
    | _ => exact hnumbered

end Steps

theorem DispatchInv.dispatchesInOrder {s : State C} (hinv : DispatchInv s) :
    DispatchesInOrder s where
  scheduled := fun _ _ _ msg hmsg =>
    have hmarked := hinv.marked msg (mem_append_right _ hmsg)
    ⟨hmarked, hinv.scheduled _ hmarked⟩
  ordered := by
    intro connection
    rw [hinv.accounted connection, ofConnection_append]
    exact sublist_append_left _ _
  numbered := by
    apply List.Nodup.of_map (·.number)
    rw [hinv.numbered]
    exact nodup_range

/-- No message is stranded or dispatched out of order in a run in which no client waits or
runs the run loop inside a dispatch that holds messages. -/
theorem always_dispatchesInOrder (actions : List (Action C))
    (hholds : Meets step HoldsNothing (.start C) actions) :
    Always step DispatchesInOrder (.start C) actions := by
  have hinv := always_of_step (fun hinv => hinv.step) dispatchInv_start hholds
  exact hinv.mono fun _ => DispatchInv.dispatchesInOrder

/-- The task of the first connection puts the message of the second one back, whose own task
dispatches it. -/
def twoConnectionsRun : List (Action ℕ) :=
  [.processIncomingMessage 0, .proceed 0, .proceed 0, .processIncomingMessage 1, .proceed 1,
    .proceed 1, .runTask, .advance, .returnToCaller, .advance, .advance, .runTask, .advance,
    .returnToCaller, .advance]

theorem always_dispatchesInOrder_two :
    (∃ state, run step (.start ℕ) twoConnectionsRun = some state ∧
      state.dispatched = [⟨0, 0⟩, ⟨1, 1⟩]) ∧
      Always step DispatchesInOrder (.start ℕ) twoConnectionsRun :=
  ⟨⟨_, rfl, rfl⟩, always_dispatchesInOrder _ (by simp [twoConnectionsRun, Meets, HoldsNothing])⟩

/-- The task of the first connection holds the message of the second while a client runs
the run loop, where the task of the second finds nothing. -/
def strandingRun : List (Action ℕ) :=
  [.processIncomingMessage 0, .proceed 0, .proceed 0, .processIncomingMessage 1, .proceed 1,
    .proceed 1, .runTask, .advance, .enterRunLoop, .runTask, .advance, .leaveRunLoop,
    .returnToCaller, .advance, .advance]

/-- The task of a connection holds its second message while a client, called with the
first, sends a synchronous message and dispatches the third. -/
def reorderingRun : List (Action ℕ) :=
  [.processIncomingMessage 0, .proceed 0, .proceed 0, .processIncomingMessage 0, .proceed 0,
    .runTask, .advance, .sendSyncMessage 0, .processIncomingMessage 0, .proceed 0, .proceed 0,
    .advance, .advance, .returnToCaller, .advance, .advance, .processIncomingSyncReply 0 1,
    .advance, .proceed 0, .advance, .advance, .advance, .advance, .returnToCaller, .advance]

/-- The first run leaves the main thread in its run loop with a message that no task will
dispatch, and the second dispatches the messages of one connection out of order. -/
theorem messages_stranded_or_reordered :
    (∃ state, run step (.start ℕ) strandingRun = some state ∧ state.stack = [.runLoop] ∧
      state.messagesToDispatch = [⟨1, 1⟩] ∧ state.didScheduleDispatchMessagesWorkSet = ∅ ∧
      state.runLoopTasks = [] ∧ ¬ DispatchesInOrder state) ∧
    ∃ state, run step (.start ℕ) reorderingRun = some state ∧
      state.arrived = [⟨0, 0⟩, ⟨0, 1⟩, ⟨0, 2⟩] ∧
      state.dispatched = [⟨0, 0⟩, ⟨0, 2⟩, ⟨0, 1⟩] ∧ ¬ DispatchesInOrder state := by
  constructor
  · refine ⟨_, rfl, rfl, rfl, rfl, rfl, fun horder => ?_⟩
    have hscheduled := horder.scheduled [] rfl nofun ⟨1, 1⟩ (mem_singleton_self _)
    exact nomatch hscheduled.1
  · refine ⟨_, rfl, rfl, rfl, fun horder => ?_⟩
    exact absurd (horder.ordered 0) (by decide)

end PurcFetcher.Ipc.Sync
