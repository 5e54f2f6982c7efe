import Mathlib.Data.List.Basic
import PurcFetcher.Core.Machine

/-!
# Suspending the queue of the storage managers

`StorageManagerSet::suspend` dispatches a task to the queue that blocks its thread until the main
thread resumes it.  Both threads hold the lock of the state for as long as they look at it, so
that a call of the main thread, a task up to its end or its wait, and the end of a wait are the
steps of the system.
-/

namespace PurcFetcher.WebStorage

open Machine List

namespace StorageManagerSet

inductive State
  | running
  | willSuspend
  | suspended
  deriving DecidableEq, Repr

inductive Task
  | suspend (completionHandler : ℕ)
  | other (name : ℕ)
  deriving DecidableEq, Repr

/-- The thread of the queue is between two tasks or waits on `m_stateChangeCondition`. -/
inductive Thread
  | idle
  | waiting (notified : Bool)
  deriving DecidableEq, Repr

end StorageManagerSet

open StorageManagerSet

/-- `mainRunLoop` has the completion handlers that were dispatched to the main thread, and
`called` those that it has called. -/
structure StorageManagerSet where
  state : State
  queue : List Task
  thread : Thread
  mainRunLoop : List ℕ
  called : List ℕ
  assertionsHold : Bool

namespace StorageManagerSet

def initial : StorageManagerSet where
  state := .running
  queue := []
  thread := .idle
  mainRunLoop := []
  called := []
  assertionsHold := true

/-- The handler is called at the end of the scope unless the task has it. -/
def suspend (set : StorageManagerSet) (completionHandler : ℕ) : StorageManagerSet :=
  if set.state ≠ .running then { set with called := set.called ++ [completionHandler] }
  else
    { set with
      state := .willSuspend
      queue := set.queue ++ [.suspend completionHandler] }

/-- The task of `suspend`, up to its end or its first wait. -/
def suspendTask (set : StorageManagerSet) (completionHandler : ℕ) : StorageManagerSet :=
  let set :=
    { set with
      assertionsHold := set.assertionsHold && set.state ≠ .suspended
      mainRunLoop := set.mainRunLoop ++ [completionHandler] }
  if set.state ≠ .willSuspend then set
  else { set with state := .suspended, thread := .waiting false }

def resume (set : StorageManagerSet) : StorageManagerSet :=
  { set with
    state := .running
    thread :=
      if set.state = .suspended then
        -- `notifyOne` has no effect when no thread waits
        match set.thread with
        | .idle => .idle
        | .waiting _ => .waiting true
      else set.thread }

/-- The `while` loop after a wait. -/
def wake (set : StorageManagerSet) : StorageManagerSet :=
  if set.state = .suspended then { set with thread := .waiting false }
  else
    { set with
      thread := .idle
      assertionsHold := set.assertionsHold && set.state = .running }

inductive Action
  | suspend (completionHandler : ℕ)
  | resume
  | dispatch (name : ℕ)
  | runTask
  | wake
  | runMain
  deriving DecidableEq, Repr

def step (set : StorageManagerSet) : Action → Option StorageManagerSet
  | .suspend completionHandler => some (set.suspend completionHandler)
  | .resume => some set.resume
  | .dispatch name => some { set with queue := set.queue ++ [.other name] }
  | .runTask =>
    match set.thread, set.queue with
    | .idle, .suspend completionHandler :: rest =>
      some ({ set with queue := rest }.suspendTask completionHandler)
    | .idle, .other _ :: rest => some { set with queue := rest }
    | _, _ => none
  | .wake => if set.thread = .waiting true then some set.wake else none
  | .runMain =>
    match set.mainRunLoop with
    | [] => none
    | completionHandler :: rest =>
      some { set with mainRunLoop := rest, called := set.called ++ [completionHandler] }

def Action.completionHandler : Action → Option ℕ
  | .suspend completionHandler => some completionHandler
  | _ => none

def Task.completionHandler : Task → Option ℕ
  | .suspend completionHandler => some completionHandler
  | .other _ => none

/-- The completion handlers that were called or will be. -/
def completionHandlers (set : StorageManagerSet) : List ℕ :=
  set.called ++ set.mainRunLoop ++ set.queue.filterMap Task.completionHandler

/-- `suspend` is not called between a notification and the end of the wait. -/
def awaitsWake (set : StorageManagerSet) : Action → Bool
  | .suspend _ => set.thread ≠ .waiting true
  | _ => true

theorem count_completionHandlers (set : StorageManagerSet) (handler : ℕ) :
    set.completionHandlers.count handler = set.called.count handler +
      set.mainRunLoop.count handler +
      (set.queue.filterMap Task.completionHandler).count handler := by
  rw [completionHandlers, count_append, count_append]

theorem completionHandlers_step {set next : StorageManagerSet} {action : Action}
    (hstep : set.step action = some next) :
    next.completionHandlers ~ set.completionHandlers ++ action.completionHandler.toList := by
  rw [perm_iff_count]
  intro handler
  rw [count_append, count_completionHandlers, count_completionHandlers]
  revert hstep
  fun_cases step set action <;> rintro ⟨⟩
  all_goals grind [suspend, suspendTask, resume, wake, Action.completionHandler,
    Task.completionHandler]

/-- The thread waits without a notification just while the state is suspended.  When the thread
is awaited, a notification is followed by the end of the wait before the state changes again. -/
structure Inv (awaited : Prop) (set : StorageManagerSet) : Prop where
  waiting : set.thread = .waiting false ↔ set.state = .suspended
  holds : awaited → set.assertionsHold = true
  notified : awaited → set.thread = .waiting true → set.state = .running

theorem Inv.step {awaited : Prop} {set next : StorageManagerSet} {action : Action}
    (hinv : Inv awaited set) (hawaits : awaited → set.awaitsWake action = true)
    (hstep : set.step action = some next) : Inv awaited next := by
  obtain ⟨hwaiting, hholds, hnotified⟩ := hinv
  revert hstep
  fun_cases StorageManagerSet.step set action <;> rintro ⟨⟩
  all_goals constructor
  all_goals grind [suspend, suspendTask, resume, wake, awaitsWake]

/-- In every run, each completion handler given to `suspend` has been called or is on its way
once, while the state is suspended no task can run and only `resume` changes the state, and the
thread waits without a notification only while the state is suspended.  If `suspend` is not
called between a notification and the end of the wait, all assertions have held. -/
theorem suspend_and_resume {actions : List Action} {set : StorageManagerSet}
    (hrun : run step .initial actions = some set) :
    set.completionHandlers ~ actions.filterMap Action.completionHandler ∧
      (set.state = .suspended → set.step .runTask = none ∧
        ∀ action next, set.step action = some next → action = .resume ∨ next.state = .suspended) ∧
      (set.thread = .waiting false → set.state = .suspended) ∧
      (Meets step (fun set action => set.awaitsWake action = true) .initial actions →
        set.assertionsHold = true) := by
  have hstart : ∀ awaited, Inv awaited .initial := fun _ =>
    ⟨iff_of_false nofun nofun, fun _ => rfl, fun _ _ => rfl⟩
  have hinv : Inv False set :=
    run_of_step (fun hinv _ hstep => hinv.step False.elim hstep) (hstart _) (meets_true _ _) hrun
  refine ⟨?_, fun hsuspended => ?_, hinv.waiting.1, fun hmeets => ?_⟩
  · have hcalls : ∀ (actions : List Action) {start : StorageManagerSet},
        run step start actions = some set → set.completionHandlers ~
          start.completionHandlers ++ actions.filterMap Action.completionHandler := by
      intro actions
      induction actions with
      | nil =>
        intro start hrun
        rw [filterMap_nil, append_nil, Option.some.inj hrun]
      | cons action actions ih =>
        intro start hrun
        obtain ⟨next, hnext, hrest⟩ := run_cons_eq_some_iff.1 hrun
        refine (ih hrest).trans (((completionHandlers_step hnext).append_right _).trans ?_)
        rw [append_assoc]
        cases action <;> exact .refl _
    exact hcalls actions hrun
  · have hwaits := hinv.waiting.2 hsuspended
    have hblocked : set.step .runTask = none := by rw [step, hwaits]
    refine ⟨hblocked, fun action next => ?_⟩
    fun_cases step set action <;> rintro ⟨⟩
    all_goals grind [suspend]
  · have hasserted : Inv True set :=
      run_of_step (fun hinv hawaits hstep => hinv.step (fun _ => hawaits) hstep) (hstart _) hmeets
        hrun
    exact hasserted.holds trivial

theorem suspend_and_resume_twice :
    let actions : List Action :=
      [.suspend 0, .suspend 1, .runTask, .dispatch 5, .resume, .wake, .runTask, .runMain]
    let set := after step .initial actions
    set.called ~ [0, 1] ∧ set.assertionsHold = true := by
  intro actions set
  obtain ⟨hcalls, -, -, hasserted⟩ :=
    suspend_and_resume (run_eq_after (by decide : (run step .initial actions).isSome = true))
  exact ⟨hcalls, hasserted (by decide)⟩

/-- The thread that is notified finds the state that the next `suspend` has set. -/
theorem suspended_again_before_wake :
    let set := after step .initial [.suspend 0, .runTask, .resume, .suspend 1, .wake]
    (run step .initial [.suspend 0, .runTask, .resume, .suspend 1, .wake]).isSome = true ∧
      set.assertionsHold = false := by
  decide

end StorageManagerSet

end PurcFetcher.WebStorage
