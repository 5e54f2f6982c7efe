import PurcFetcher.Ipc.SyncReplies

/-!
# Waking the main thread up

The semaphore of `SyncMessageState` keeps one signal for all calls of `waitForSyncReply`
and all connections.  A call that takes the signal dispatches all messages and checks its
own reply again before it blocks, so an inner call does not lose what an outer one needs.

The one way to lose a message is the task of a connection that runs in a run loop inside
a synchronous call: it puts the messages of the other connections back without a signal,
and the signal that they came with may be spent.
-/

namespace PurcFetcher.Ipc.Sync

open Function Machine List

variable {C : Type} [DecidableEq C]

/-- The semaphore is set, or a connection queue is about to set it. -/
def SignalPending (state : State C) : Prop :=
  state.waitForSyncReplySemaphore = true ∨
    ∃ connection, .wakeUpClientRunLoop ∈ state.connectionQueue connection

/-- A main thread that is blocked with no signal pending has nothing to do: no reply for
its call, no message, and its connection is open. -/
def NothingMissed (state : State C) : Prop :=
  ∀ connection identifier stack,
    state.stack = .sendSyncMessage connection identifier .waiting :: stack →
    ¬ SignalPending state →
      (∃ entry entries, state.pendingSyncReplies connection = entry :: entries ∧
        entry.syncRequestID = identifier ∧ entry.didReceiveReply = false) ∧
      state.messagesToDispatch = [] ∧ state.shouldWaitForSyncReplies connection = true

/-- The phase of the innermost call of `sendSyncMessage`. -/
def innermost : List (Frame C) → Option (Phase C)
  | [] => none
  | .sendSyncMessage _ _ phase :: _ => some phase
  | _ :: stack => innermost stack

/-- A dispatch task that runs inside a call of `sendSyncMessage` has no message of another
connection to put back. -/
def PutsNothingBack (state : State C) : Action C → Prop
  | .runTask => innermost state.stack ≠ none → ∀ connection tasks,
      state.runLoopTasks = .dispatchForConnection connection :: tasks →
        ∀ message ∈ state.messagesToDispatch, message.connection = connection
  | _ => True

/-! ## The invariant -/

/-- The dispatch tasks inside a call of `sendSyncMessage` put nothing back. -/
def OwnOnly : List (Frame C) → Prop
  | [] => True
  | .dispatchForConnection connection rest messagesToPutBack :: stack =>
    (innermost stack ≠ none →
      messagesToPutBack = [] ∧ ∀ message ∈ rest, message.connection = connection) ∧
    OwnOnly stack
  | _ :: stack => OwnOnly stack

structure WakeUpInv (state : State C) : Prop where
  replies : RepliesInv state
  /-- What was queued since the innermost call dispatched comes with a signal. -/
  queued : ∀ phase, innermost state.stack = some phase → phase ≠ .dispatching →
    state.messagesToDispatch ≠ [] → SignalPending state
  /-- A reply or a close that a blocked call has not seen comes with a signal. -/
  blocked : ∀ connection identifier stack entry entries,
    state.stack = .sendSyncMessage connection identifier .waiting :: stack →
    state.pendingSyncReplies connection = entry :: entries →
    (entry.didReceiveReply = true ∨ state.shouldWaitForSyncReplies connection = false) →
      SignalPending state
  own : OwnOnly state.stack
  /-- A blocked call calls nothing. -/
  alone : ∀ connection identifier,
    .sendSyncMessage connection identifier .waiting ∉ state.stack.tail

theorem wakeUpInv_start : WakeUpInv (State.start C) where
  replies := repliesInv_start
  queued := fun _ _ _ hmsgs => absurd rfl hmsgs
  blocked := by simp [State.start]
  own := trivial
  alone := fun _ _ => not_mem_nil

section Steps

variable {state next : State C}

omit [DecidableEq C] in
theorem innermost_dispatch (msg : Message C) (stack : List (Frame C)) :
    innermost (dispatch state msg stack).stack = innermost stack := by
  rw [dispatch]
  split <;> rfl

omit [DecidableEq C] in
theorem ownOnly_dispatch (msg : Message C) (stack : List (Frame C)) :
    OwnOnly (dispatch state msg stack).stack = OwnOnly stack := by
  rw [dispatch]
  split <;> rfl

variable {action : Action C} {target connection : C} {identifier : ℕ} {stack : List (Frame C)}
  {entry : PendingSyncReply C} {entries : List (PendingSyncReply C)}

theorem SignalPending.update (hsignal : SignalPending state)
    (hdone : state.connectionQueue target = []) {steps : List QueueStep}
    (hsemaphore : next.waitForSyncReplySemaphore = state.waitForSyncReplySemaphore)
    (hqueue : next.connectionQueue = update state.connectionQueue target steps) :
    SignalPending next := by
  refine hsignal.imp (fun hset => hsemaphore.trans hset) ?_
  rintro ⟨connection, hleft⟩
  exact ⟨connection, hqueue ▸ mem_update_of_done hleft hdone steps⟩

theorem signalPending_processIncomingMessage (connection : C) :
    SignalPending (processIncomingMessage state connection) := by
  refine Or.inr ⟨connection, ?_⟩
  simp only [processIncomingMessage, update_self]
  split
  · exact mem_singleton_self _
  · exact mem_cons_of_mem _ (mem_singleton_self _)

theorem SignalPending.step (hsignal : SignalPending state) (hmoves : Moves state action next)
    (hasleep : ∀ connection identifier stack, action = .advance →
      state.stack ≠ .sendSyncMessage connection identifier .waiting :: stack) :
    SignalPending next := by
  cases hmoves with
  | wake hstack => exact absurd hstack (hasleep _ _ _ rfl)
  | processIncomingMessage connection => exact signalPending_processIncomingMessage connection
  | processIncomingSyncReply _ _ hdone | connectionDidClose _ hdone =>
      exact hsignal.update hdone rfl rfl
  | scheduleDispatch hqueue | postDidClose hqueue =>
    refine hsignal.imp id ?_
    rintro ⟨connection, hleft⟩
    exact ⟨connection, mem_update_of_ne hleft hqueue nofun⟩
  | wakeUpClientRunLoop => exact Or.inl rfl
  | _ => exact hsignal

/-! ## Messages -/

theorem OwnOnly.step (hown : OwnOnly state.stack) (hputs : PutsNothingBack state action)
    (hmoves : Moves state action next) : OwnOnly next.stack := by
  cases hmoves with
  | dispatchNext hstack =>
    rw [hstack] at hown
    rw [ownOnly_dispatch]
    exact hown
  | dispatchOwn hstack =>
    rw [hstack] at hown
    rw [ownOnly_dispatch]
    refine ⟨fun hinside => ?_, hown.2⟩
    obtain ⟨hnone, hrest⟩ := hown.1 hinside
    exact ⟨hnone, fun msg hmsg => hrest msg (mem_cons_of_mem _ hmsg)⟩
  | setAside hstack hother =>
    rw [hstack] at hown
    refine ⟨fun hinside => ?_, hown.2⟩
    exact absurd ((hown.1 hinside).2 _ mem_cons_self) hother
  | runDispatch hstack htasks => exact ⟨fun hinside => ⟨rfl, hputs hinside _ _ htasks⟩, hown⟩
  | putBack hstack => rw [hstack] at hown; exact hown.2
  | dispatchEnd hstack | dispatchWaiting hstack | checkReturns hstack | checkWaits hstack
  | checkInvalid hstack | wake hstack | timeOut hstack | returnReply hstack
  | leaveRunLoop hstack | returnToCaller hstack => rw [hstack] at hown; exact hown
  | _ => exact hown

theorem WakeUpInv.queued_step (hinv : WakeUpInv state) (hmoves : Moves state action next)
    {phase : Phase C} (hphase : innermost next.stack = some phase) (hpast : phase ≠ .dispatching)
    (hmsgs : next.messagesToDispatch ≠ []) : SignalPending next := by
  have hqueued := hinv.queued
  have hkept := fun hsignal : SignalPending state => hsignal.step hmoves
  cases hmoves with
  | dispatchNext hstack | dispatchOwn hstack =>
    rw [innermost_dispatch] at hphase
    rw [hstack] at hqueued
    exact hqueued phase hphase hpast hmsgs
  | putBack hstack =>
    have hown := hinv.own
    rw [hstack] at hqueued hown
    have hnone := (hown.1 (by rw [hphase]; exact nofun)).1
    rw [hnone, nil_append] at hmsgs
    exact hqueued phase hphase hpast hmsgs
  -- The messages were just swapped out.
  | dispatchWaiting => exact absurd rfl hmsgs
  | runDispatch => exact absurd rfl hmsgs
  | dispatchMessages => exact absurd rfl hmsgs
  -- A call starts, or starts over, by dispatching.
  | wake => exact absurd (Option.some.inj hphase).symm hpast
  | sendSyncMessage => exact absurd (Option.some.inj hphase).symm hpast
  | checkReturns hstack => rw [hstack] at hqueued; exact hqueued _ rfl nofun hmsgs
  | checkWaits hstack => rw [hstack] at hqueued; exact hqueued _ rfl nofun hmsgs
  | checkInvalid hstack => rw [hstack] at hqueued; exact hqueued _ rfl nofun hmsgs
  | timeOut hstack => rw [hstack] at hqueued; exact hqueued _ rfl nofun hmsgs
  | returnReply hstack => rw [hstack] at hqueued; exact hqueued _ rfl nofun hmsgs
  | dispatchEnd hstack => rw [hstack] at hqueued; exact hqueued phase hphase hpast hmsgs
  | setAside hstack => rw [hstack] at hqueued; exact hqueued phase hphase hpast hmsgs
  | leaveRunLoop hstack => rw [hstack] at hqueued; exact hqueued phase hphase hpast hmsgs
  | returnToCaller hstack =>
    rw [hstack] at hqueued
    exact hqueued phase hphase hpast hmsgs
  | processIncomingMessage connection => exact signalPending_processIncomingMessage connection
  | processIncomingSyncReply => exact hkept (hqueued phase hphase hpast hmsgs) nofun
  | connectionDidClose => exact hkept (hqueued phase hphase hpast hmsgs) nofun
  | scheduleDispatch => exact hkept (hqueued phase hphase hpast hmsgs) nofun
  | postDidClose => exact hkept (hqueued phase hphase hpast hmsgs) nofun
  | wakeUpClientRunLoop => exact hkept (hqueued phase hphase hpast hmsgs) nofun
  | _ => exact hqueued phase hphase hpast hmsgs

/-! ## Replies and closed connections -/

variable (hinv : WakeUpInv state)
include hinv

/-- The reply for a blocked call is stored with a signal. -/
theorem WakeUpInv.blocked_reply {destID : ℕ}
    (hdone : state.connectionQueue target = [])
    (hstack : state.stack = .sendSyncMessage connection identifier .waiting :: stack)
    (hentries : (processIncomingSyncReply state target destID).pendingSyncReplies
      connection = entry :: entries)
    (hready : entry.didReceiveReply = true ∨
      state.shouldWaitForSyncReplies connection = false) :
    SignalPending (processIncomingSyncReply state target destID) := by
  by_cases htarget : connection = target
  · subst htarget
    simp only [processIncomingSyncReply, update_self] at hentries
    cases hpend : state.pendingSyncReplies connection with
    | nil =>
      rw [hpend] at hentries
      exact nomatch hentries
    | cons =>
      rw [hpend, storeReply] at hentries
      split at hentries
      · obtain ⟨rfl, -⟩ := List.cons.inj hentries
        exact (hinv.blocked _ _ _ _ _ hstack hpend hready).update hdone rfl rfl
      · next hsame =>
        refine Or.inr ⟨connection, ?_⟩
        simp only [processIncomingSyncReply, update_self]
        rw [if_pos (by rw [hpend]; exact congrArg some (not_not.1 hsame))]
        exact mem_singleton_self _
  · simp only [processIncomingSyncReply, update_of_ne htarget] at hentries
    exact (hinv.blocked _ _ _ _ _ hstack hentries hready).update hdone rfl rfl

theorem WakeUpInv.alone_step (hmoves : Moves state action next)
    (connection : C) (ident : ℕ) :
    .sendSyncMessage connection ident .waiting ∉ next.stack.tail := by
  have halone := hinv.alone connection ident
  obtain hsame | ⟨top, stack, hstack, hnext⟩ := hmoves.stack_cases
  · rw [hsame]
    exact halone
  · rw [hstack, tail_cons] at halone
    obtain hend | ⟨changed, hgoes⟩ | ⟨called, changed, hcalls, hawake⟩ := hnext
    · rw [hend]
      exact fun hmem => halone (mem_of_mem_tail hmem)
    · rw [hgoes]
      exact halone
    · grind

theorem WakeUpInv.blocked_step (hmoves : Moves state action next)
    (hstack : next.stack = .sendSyncMessage connection identifier .waiting :: stack)
    (hentries : next.pendingSyncReplies connection = entry :: entries)
    (hready : entry.didReceiveReply = true ∨
      next.shouldWaitForSyncReplies connection = false) : SignalPending next := by
  have hblocked := hinv.blocked
  have hkept (hsignal : SignalPending state) (hawake : action ≠ .advance) : SignalPending next :=
    hsignal.step hmoves fun _ _ _ hadvance => absurd hadvance hawake
  -- No call below the innermost one is blocked.
  have hbelow : ∀ {top : Frame C} {rest : List (Frame C)}, state.stack = top :: rest →
      rest ≠ .sendSyncMessage connection identifier .waiting :: stack := by
    intro top rest htop hrest
    have halone := hinv.alone connection identifier
    rw [htop, tail_cons, hrest] at halone
    exact halone mem_cons_self
  cases hmoves with
  -- The check has just found neither a reply nor a close.
  | checkWaits => grind
  | processIncomingMessage => exact signalPending_processIncomingMessage _
  | processIncomingSyncReply _ _ hdone => exact hinv.blocked_reply hdone hstack hentries hready
  | connectionDidClose target hdone =>
    by_cases htarget : connection = target
    · subst htarget
      refine Or.inr ⟨connection, ?_⟩
      have hentries : state.pendingSyncReplies connection = entry :: entries := hentries
      simp only [connectionDidClose, update_self, hentries, isEmpty_cons]
      exact mem_cons_self
    · simp only [connectionDidClose, update_of_ne htarget] at hready
      exact (hinv.blocked _ _ _ _ _ hstack hentries hready).update hdone rfl rfl
  | scheduleDispatch | postDidClose | wakeUpClientRunLoop =>
    exact hkept (hblocked _ _ _ _ _ hstack hentries hready) (by simp)
  | dispatchEnd htop | putBack htop | returnReply htop | leaveRunLoop htop | returnToCaller htop =>
    exact absurd hstack (hbelow htop)
  | dispatchNext | dispatchOwn =>
    rw [dispatch] at hstack
    split at hstack <;> cases hstack
  | skipDidClose | refuseSyncMessage | invalidate => exact hblocked _ _ _ _ _ hstack hentries hready
  | _ => cases hstack

theorem WakeUpInv.step (hputs : PutsNothingBack state action)
    (hnext : step state action = some next) :
    WakeUpInv next where
  replies := hinv.replies.step (moves_of_step hnext)
  queued := fun _ hphase hpast hmsgs => hinv.queued_step (moves_of_step hnext) hphase hpast hmsgs
  blocked := fun _ _ _ _ _ hstack hentries hready =>
    hinv.blocked_step (moves_of_step hnext) hstack hentries hready
  own := hinv.own.step hputs (moves_of_step hnext)
  alone := hinv.alone_step (moves_of_step hnext)

end Steps

theorem WakeUpInv.nothingMissed {s : State C} (hinv : WakeUpInv s) :
    NothingMissed s := by
  intro connection identifier stack hstack hsilent
  have hhead := hinv.replies.head (by rw [hstack]; rfl)
  cases hentries : s.pendingSyncReplies connection with
  | nil =>
    rw [pendingIDs, hentries] at hhead
    exact absurd hhead (cons_ne_nil _ _).symm
  | cons entry entries =>
    rw [pendingIDs, hentries] at hhead
    have hquiet := fun hready =>
      hsilent (hinv.blocked connection identifier stack entry entries hstack hentries hready)
    refine ⟨⟨entry, entries, rfl, (List.cons.inj hhead).1, ?_⟩, ?_, ?_⟩
    · exact Bool.eq_false_iff.2 fun hreceived => hquiet (Or.inl hreceived)
    · by_contra hmessages
      exact hsilent (hinv.queued .waiting (by rw [hstack]; rfl) (by simp) hmessages)
    · exact Bool.not_eq_false _ ▸ fun hclosed => hquiet (Or.inr hclosed)

/-- No wake-up is lost in a run in which the dispatch tasks inside synchronous calls put
no messages back. -/
theorem always_nothingMissed (actions : List (Action C))
    (hputs : Meets step PutsNothingBack (.start C) actions) :
    Always step NothingMissed (.start C) actions := by
  have hinv : Always step WakeUpInv (.start C) actions :=
    always_of_step (fun hinv => hinv.step) wakeUpInv_start hputs
  exact hinv.mono fun _ => WakeUpInv.nothingMissed

/-- A call is started, blocks, and is woken up by its reply. -/
theorem always_nothingMissed_reply : Meets step PutsNothingBack (.start ℕ)
        [.runClientTask, .sendSyncMessage 0, .advance, .advance, .advance,
          .processIncomingSyncReply 0 1, .proceed 0, .advance] ∧
      Always step NothingMissed (.start ℕ)
        [.runClientTask, .sendSyncMessage 0, .advance, .advance, .advance,
          .processIncomingSyncReply 0 1, .proceed 0, .advance] := by
  have hputs : Meets step PutsNothingBack (.start ℕ)
      [.runClientTask, .sendSyncMessage 0, .advance, .advance, .advance,
        .processIncomingSyncReply 0 1, .proceed 0, .advance] := by
    simp [Meets, PutsNothingBack]
  exact ⟨hputs, always_nothingMissed _ hputs⟩

/-- Inside a call on the first connection, a handler runs the run loop.  The task of the
first connection holds a message of the second while its own message sends a synchronous
message, which takes the signal.  The message is put back and the run loop is left. -/
def putBackRun : List (Action ℕ) :=
  [.runClientTask, .sendSyncMessage 0, .advance, .advance, .advance,
    .processIncomingMessage 0, .proceed 0, .proceed 0, .advance, .advance, .advance,
    .enterRunLoop, .processIncomingMessage 0, .proceed 0, .processIncomingMessage 1,
    .proceed 1, .proceed 1, .runTask, .advance, .sendSyncMessage 0, .advance, .advance,
    .advance, .advance, .advance, .advance, .advance, .processIncomingSyncReply 0 2,
    .proceed 0, .advance, .advance, .advance, .advance, .advance, .returnToCaller,
    .advance, .advance, .leaveRunLoop, .returnToCaller, .advance, .advance]

/-- At the end of that run the outer call is blocked with the message queued and no signal
pending. -/
theorem message_missed :
    ∃ state, run step (.start ℕ) putBackRun = some state ∧
      state.stack = [.sendSyncMessage 0 1 .waiting, .handler, .runLoop] ∧
      ¬ SignalPending state ∧ state.messagesToDispatch = [⟨1, 2⟩] ∧
      ¬ NothingMissed state := by
  have hblocked : ∃ state, run step (.start ℕ) putBackRun = some state ∧
      state.stack = [.sendSyncMessage 0 1 .waiting, .handler, .runLoop] ∧
      ¬ SignalPending state ∧ state.messagesToDispatch = [⟨1, 2⟩] := by
    refine ⟨_, rfl, rfl, ?_, rfl⟩
    rintro (hset | ⟨connection, hmem⟩)
    · exact nomatch hset
    · rcases connection with _ | _ | connection <;> exact nomatch hmem
  obtain ⟨state, hrun, hstack, hsilent, hmessages⟩ := hblocked
  refine ⟨state, hrun, hstack, hsilent, hmessages, fun hnothing => ?_⟩
  have hnone := (hnothing 0 1 _ hstack hsilent).2.1
  exact nomatch hmessages.symm.trans hnone

end PurcFetcher.Ipc.Sync
