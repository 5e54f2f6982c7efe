import PurcFetcher.Cache.Queues
import PurcFetcher.Cache.Writes

/-!
# Completion handlers

The handler of a `retrieve` is in one place at a time: with an operation that waits or is active
and was not canceled, or with a task that delivers a write operation.  So each is called once.  The
handlers of a `store` are lost with a call at capacity zero and with a pending write that is
removed, and a body that is not stored as a blob is never mapped.
-/

namespace PurcFetcher.Cache

open Machine List
open scoped List

/-! ## Reads -/

namespace Reads

/-- The operations whose handlers were not called yet. -/
def outstanding (reads : Reads) : List ReadOperation :=
  (reads.active ++ reads.waiting).filter fun operation => operation ∉ reads.canceled

/-- The calls of `retrieve` by their numbers: those that were answered and those that were not. -/
def calls (reads : Reads) (deliveries : List ReadOperation) : List ℕ :=
  reads.delivered.map (·.1.number) ++ (reads.outstanding ++ deliveries).map (·.number)

structure Accounts (reads : Reads) (deliveries : List ReadOperation) : Prop where
  calls : reads.calls deliveries ~ List.range reads.retrieved
  canceled : ∀ operation ∈ reads.canceled, operation.number < reads.retrieved

variable {mode : Mode} {mayBlob : Key → Bool} {reads next : Reads}
  {deliveries : List ReadOperation} {operation : ReadOperation}

theorem Accounts.dispatched (haccounts : Accounts reads deliveries)
    (hdispatched : Dispatched mode mayBlob reads next) : Accounts next deliveries := by
  cases hdispatched with
  | nothing => exact haccounts
  | oldest prio operation hlast =>
    have hperm := (@perm_dispatchOldest mode mayBlob reads prio operation hlast).symm
    refine ⟨.trans ?_ haccounts.calls, haccounts.canceled⟩
    exact ((((hperm.filter _).append_right deliveries).map _).append_left _)

theorem calls_told (reads : Reads) (deliveries : List ReadOperation) (record : Option Record) :
    (reads.deliver operation record).calls deliveries ~
      operation.number :: reads.calls deliveries := by
  rw [calls, deliver, map_append, append_assoc]
  exact perm_middle

theorem calls_posted (reads : Reads) (deliveries : List ReadOperation) :
    reads.calls (deliveries ++ [operation]) ~ operation.number :: reads.calls deliveries := by
  rw [calls, ← append_assoc, map_append, ← append_assoc]
  exact perm_append_singleton _ _

theorem perm_succ {numbers : List ℕ} {num : ℕ} (hperm : numbers ~ List.range num) :
    num :: numbers ~ List.range (num + 1) := by
  rw [range_succ]
  exact (hperm.cons num).trans (perm_append_singleton _ _).symm

theorem calls_release (hactive : operation ∈ reads.active) (deliveries : List ReadOperation)
    (record : Option Record) :
    (release operation (if operation ∈ reads.canceled then reads
      else reads.deliver operation record)).calls deliveries ~ reads.calls deliveries := by
  have hperm : reads.active ++ reads.waiting ~
      operation :: (reads.active.erase operation ++ reads.waiting) :=
    (perm_cons_erase hactive).append_right _
  have hfilter := hperm.filter fun other => decide (other ∉ reads.canceled)
  by_cases hcanceled : operation ∈ reads.canceled
  · rw [filter_cons, if_neg (by simpa using hcanceled)] at hfilter
    rw [if_pos hcanceled]
    exact ((hfilter.symm.append_right deliveries).map _).append_left _
  · rw [filter_cons, if_pos (decide_eq_true hcanceled)] at hfilter
    rw [if_neg hcanceled]
    apply (calls_told (release operation reads) deliveries record).trans
    exact perm_middle.symm.trans (((hfilter.symm.append_right deliveries).map _).append_left _)

theorem Accounts.cancelAll (haccounts : Accounts reads deliveries) (hordered : Ordered reads) :
    Accounts reads.cancelAllReadOperations deliveries := by
  obtain ⟨told, heq, hnodup, hmem⟩ := cancelAllReadOperations_eq reads
  have htold : told ~ reads.outstanding := by
    apply (perm_ext_iff_of_nodup hnodup (hordered.nodup.filter _)).2
    intro operation
    rw [hmem, mem_filter, decide_eq_true_eq]
  rw [heq]
  refine ⟨?_, fun operation hcanceled => ?_⟩
  · have hnone : outstanding { reads with
        pending := fun _ => []
        timeoutTimer := false
        delivered := reads.delivered ++ told.map fun operation => (operation, none)
        canceled := told.reverse ++ reads.canceled } = [] := by
      apply filter_eq_nil_iff.2
      intro operation hactive
      have hknown : operation ∈ told ∨ operation ∈ reads.canceled := by
        by_cases hcanceled : operation ∈ reads.canceled
        · exact Or.inr hcanceled
        · rw [hmem]
          refine Or.inl ⟨?_, hcanceled⟩
          rcases mem_append.1 hactive with hold | hwaiting
          · exact mem_append_left _ hold
          · exact absurd hwaiting not_mem_nil
      simpa [or_iff_not_imp_left] using hknown
    rw [Reads.calls, hnone, nil_append, map_append, map_map, append_assoc]
    refine List.Perm.trans ?_ haccounts.calls
    rw [Reads.calls, map_append]
    exact ((htold.map _).append_right _).append_left _
  · rcases mem_append.1 hcanceled with hnew | hold
    · exact hordered.numbers operation ((hmem operation).1 (mem_reverse.1 hnew)).1
    · exact haccounts.canceled operation hold

theorem accounts_readStep {storage : Storage} {action : Action} {side : Reads × List MainTask}
    (hinv : ReadsInv storage)
    (haccounts : Accounts storage.reads (postedDeliveries (answering storage.mainQueue)))
    (hstep : storage.ReadStep action side) : Accounts side.1 (postedDeliveries side.2) := by
  obtain ⟨hcalls, hcanceled⟩ := haccounts
  have hlater :
      ∀ operation ∈ storage.reads.canceled, operation.number < storage.reads.retrieved + 1 :=
    fun operation hmem => Nat.lt_succ_of_lt (hcanceled operation hmem)
  cases hstep with
  | kept | progressed => exact ⟨hcalls, hcanceled⟩
  | answered =>
    exact ⟨(calls_told { storage.reads with retrieved := storage.reads.retrieved + 1 } _ _).trans
      (perm_succ hcalls), hlater⟩
  | found =>
    rw [postedDeliveries_append]
    exact ⟨(calls_posted { storage.reads with retrieved := storage.reads.retrieved + 1 } _).trans
      (perm_succ hcalls), hlater⟩
  | queued key prio =>
    have hnew : (⟨storage.reads.retrieved, key⟩ : ReadOperation) ∉ storage.reads.canceled :=
      fun hmem => Nat.lt_irrefl _ (hcanceled _ hmem)
    apply Accounts.dispatched _ (dispatched_dispatchPending (hinv.full.enqueue prio _))
    have hperm :=
      ((perm_waiting_enqueue prio ⟨storage.reads.retrieved, key⟩ storage.reads).append_left
      storage.reads.active).trans perm_middle
    have houtstanding := hperm.filter fun other => decide (other ∉ storage.reads.canceled)
    rw [filter_cons, if_pos (decide_eq_true hnew)] at houtstanding
    refine ⟨.trans ?_ (perm_succ hcalls), hlater⟩
    exact (((houtstanding.append_right _).map _).append_left _).trans perm_middle
  | canceled => exact Accounts.cancelAll ⟨hcalls, hcanceled⟩ hinv.ordered
  | posted =>
    rw [postedDeliveries_append, show postedDeliveries [MainTask.finishRead _ _ _] = [] from rfl,
      append_nil]
    exact ⟨hcalls, hcanceled⟩
  | finished accepts exceeds operation record blob rest mode mayBlob hhead =>
    have howned := hinv.owned
    rw [← postedReads_answering, hhead] at howned
    rw [hhead] at hcalls
    have hactive : operation ∈ storage.reads.active :=
      howned.mem_iff.2 (mem_append_right _ mem_cons_self)
    have hreleased := (calls_release hactive (postedDeliveries rest)
      (ReadOperation.finish record blob)).trans hcalls
    split
    · next hmem =>
      rw [if_pos hmem] at hreleased
      exact Accounts.dispatched ⟨hreleased, hcanceled⟩
        (dispatched_dispatchPending (hinv.full.release operation))
    · next hmem =>
      rw [if_neg hmem] at hreleased
      exact Accounts.dispatched ⟨hreleased, hcanceled⟩
        (dispatched_dispatchPending ((hinv.told _).full.release operation))
  | delivered accepts exceeds operation found rest hhead =>
    rw [hhead] at hcalls
    refine ⟨(calls_told storage.reads _ _).trans (List.Perm.trans ?_ hcalls), hcanceled⟩
    rw [calls, calls, map_append, map_append]
    exact ((perm_middle.append_left _).trans perm_middle).symm

end Reads

/-! ## Writes -/

def MainTask.blob? : MainTask → Option WriteOperation
  | .blobStored operation => some operation
  | _ => none

def Action.record? : Action → Option Record
  | .store record => some record
  | _ => none

def Action.blobOutcome? : Action → Option Storage.BlobOutcome
  | .storeBody _ outcome => some outcome
  | _ => none

/-- Where the handlers of `store` are. -/
structure Handlers where
  stored : List WriteOperation
  completed : List WriteOperation
  mapped : List WriteOperation
  pending : List WriteOperation
  active : List WriteOperation
  /-- The operations whose mapped bodies wait on the main run loop. -/
  blobs : List WriteOperation
  dispatched : List WriteOperation

def Storage.handlers (storage : Storage) : Handlers where
  stored := storage.stored
  completed := storage.completed.map Prod.fst
  mapped := storage.mapped
  pending := storage.pendingWriteOperations
  active := storage.activeWriteOperations
  blobs := storage.mainQueue.filterMap MainTask.blob?
  dispatched := (storage.writeTasks.filter (·.stage = .dispatched)).map WriteTask.operation

/-- Every handler of a `store` was called or is with its operation, in the order of the calls. -/
structure Handlers.Kept (records : List Record) (handlers : Handlers) : Prop where
  records : handlers.stored.map WriteOperation.record = records
  completed : handlers.completed ++ handlers.active ++ handlers.pending.reverse = handlers.stored
  mapped : handlers.mapped ++ handlers.blobs ++ handlers.dispatched ++
    handlers.pending.reverse = handlers.stored

namespace Storage

/-- The keys that a step gives to `remove`.  A read whose record is rejected removes its key. -/
def keysToRemove (storage : Storage) : Action → List Key
  | .remove key => [key]
  | .removeKeys keys => keys
  | .runMain accepts _ =>
    match storage.mainQueue with
    | .finishRead operation _ _ :: _ =>
      if accepts ∨ operation ∈ storage.reads.canceled then [] else [operation.key]
    | _ => []
  | _ => []

/-- A step that loses no handler: the capacity is not zero, no key of a pending write is removed
that the filter may contain, and each body is stored as a blob. -/
structure KeepsHandlers (storage : Storage) (action : Action) : Prop where
  capacity : ∀ record ∈ action.record?, storage.capacity ≠ 0
  pending : ∀ operation ∈ storage.pendingWriteOperations,
    operation.record.key ∉ (storage.keysToRemove action).filter storage.mayContain
  large : ∀ task ∈ storage.writeTasks, storage.shouldStoreBodyAsBlob task.operation.record.body
  blob : action.blobOutcome? ≠ some .notStored

instance (storage : Storage) (action : Action) : Decidable (storage.KeepsHandlers action) :=
  decidable_of_iff (_ ∧ _ ∧ _ ∧ _)
    ⟨fun ⟨hcapacity, hpending, hlarge, hblob⟩ => ⟨hcapacity, hpending, hlarge, hblob⟩,
      fun hkeeps => ⟨hkeeps.capacity, hkeeps.pending, hkeeps.large, hkeeps.blob⟩⟩

variable {storage next : Storage} {records : List Record} {operation : WriteOperation} {idx : ℕ}

variable {stage : WriteStage} {task : MainTask}

theorem handlers_post (hother : task.blob? = none) (storage : Storage) :
    ({ storage with mainQueue := storage.mainQueue ++ [task] } : Storage).handlers =
      storage.handlers := by
  rw [handlers, handlers, filterMap_append, filterMap_cons, hother, filterMap_nil, append_nil]

theorem handlers_take {rest : List MainTask} (hqueue : storage.mainQueue = task :: rest)
    (hother : task.blob? = none) :
    ({ storage with mainQueue := rest } : Storage).handlers = storage.handlers := by
  rw [handlers, handlers, hqueue, filterMap_cons, hother]

theorem handlers_shrinkIfNeeded (exceeds : Bool) :
    (storage.shrinkIfNeeded exceeds).handlers = storage.handlers := by
  rw [shrinkIfNeeded, shrink]
  split_ifs <;> rfl

theorem handlers_retrieve (key : Key) (prio : Priority) :
    (storage.retrieve key prio).handlers = storage.handlers := by
  rw [retrieve]
  split_ifs
  · rfl
  · split
    · exact handlers_post rfl { storage with reads := _ }
    · rfl
  · rfl

theorem handlers_updateReadTask (task : ReadTask) :
    (storage.updateReadTask idx task).handlers = storage.handlers := by
  rw [updateReadTask]
  split
  · exact handlers_post rfl { storage with reads := _ }
  · rfl

theorem kept_dispatchRounds (rounds : ℕ) (hkept : storage.handlers.Kept records) :
    (dispatchRounds rounds storage).handlers.Kept records := by
  induction rounds generalizing storage with
  | zero => exact hkept
  | succ rounds ih =>
    rw [dispatchRounds]
    split
    · exact hkept
    · next operation hlast =>
      split
      · exact hkept
      · next hroom =>
        apply ih
        have hactive : storage.activeWriteOperations = [] :=
          eq_nil_of_length_eq_zero (Nat.lt_one_iff.1 (Nat.not_le.1 hroom))
        have hpend : storage.pendingWriteOperations.reverse =
            operation :: storage.pendingWriteOperations.dropLast.reverse := by
          conv_lhs => rw [← dropLast_append_getLast? operation hlast]
          rw [reverse_append, reverse_singleton, singleton_append]
        obtain ⟨hrecs, hcompleted, hmapped⟩ := hkept
        simp only [handlers, hactive, hpend] at hcompleted hmapped
        refine ⟨hrecs, ?_, ?_⟩
        · simp only [handlers, dispatchWriteOperation, addToRecordFilter, hactive]
          rw [← hcompleted, append_nil, append_assoc]
          rfl
        · simp only [handlers, dispatchWriteOperation, addToRecordFilter, filter_append]
          rw [← hmapped]
          simp

theorem kept_finishWriteOperation (hkept : storage.handlers.Kept records)
    (hactive : storage.activeWriteOperations = [operation]) (error exceeds : Bool) :
    (storage.finishWriteOperation operation error exceeds).handlers.Kept records := by
  rw [finishWriteOperation]
  split
  · exact hkept
  · rw [handlers_shrinkIfNeeded]
    apply kept_dispatchRounds
    obtain ⟨hrecs, hcompleted, hmapped⟩ := hkept
    refine ⟨hrecs, ?_, hmapped⟩
    simp only [handlers, hactive] at hcompleted
    simp only [handlers, hactive, map_append, map_singleton, erase_cons_head, append_nil]
    exact hcompleted

theorem kept_remove (hkept : storage.handlers.Kept records) {keys : List Key}
    (hstay : ∀ operation ∈ storage.pendingWriteOperations,
      operation.record.key ∉ keys.filter storage.mayContain) :
    (storage.remove keys).handlers.Kept records := by
  have hsame : (storage.remove keys).pendingWriteOperations = storage.pendingWriteOperations :=
    filter_eq_self.2 fun operation hmem => decide_eq_true (hstay operation hmem)
  have hhandlers : (storage.remove keys).handlers = storage.handlers := by
    rw [handlers, hsame]
    rfl
  exact hhandlers ▸ hkept

theorem kept_removeKey (hkept : storage.handlers.Kept records) {key : Key}
    (hstay : ∀ operation ∈ storage.pendingWriteOperations,
      operation.record.key ∉ [key].filter storage.mayContain) :
    (storage.removeKey key).handlers.Kept records := by
  rw [removeKey]
  split_ifs
  · exact kept_remove hkept hstay
  · exact hkept

theorem kept_runMain (hwrites : WritesInv [] storage) (hkept : storage.handlers.Kept records)
    {rest : List MainTask} (hqueue : storage.mainQueue = task :: rest) {accepts exceeds : Bool}
    (hstay : ∀ operation ∈ storage.pendingWriteOperations, operation.record.key ∉
      (storage.keysToRemove (.runMain accepts exceeds)).filter storage.mayContain) :
    (runMainTask { storage with mainQueue := rest } accepts exceeds task).handlers.Kept
      records := by
  have htaken := hwrites.take hqueue
  cases task with
  | synchronized =>
    rw [← handlers_take hqueue rfl] at hkept
    rw [runMainTask, finishSynchronization]
    split
    · exact kept_dispatchRounds _ hkept
    · exact hkept
  | shrunk =>
    rw [← handlers_take hqueue rfl] at hkept
    rw [runMainTask, synchronize]
    split <;> exact hkept
  | blobStored =>
    have hmapped := hkept.mapped
    simp only [handlers, hqueue, filterMap_cons, MainTask.blob?] at hmapped
    apply kept_finishWriteOperation
    · exact ⟨hkept.records, hkept.completed, by simpa [handlers, addToBlobFilter] using hmapped⟩
    · exact htaken.phase.of_posted.1
  | written operation error =>
    rw [← handlers_take hqueue rfl] at hkept
    exact kept_finishWriteOperation hkept htaken.phase.of_posted.1 error exceeds
  | finishRead operation record blob =>
    rw [← handlers_take hqueue rfl] at hkept
    rw [runMainTask, finishReadOperation]
    split_ifs with hcanceled haccepts
    · exact hkept
    · exact hkept
    · simp only [keysToRemove, hqueue] at hstay
      rw [if_neg (not_or.2 ⟨haccepts, hcanceled⟩)] at hstay
      change Handlers.Kept records (removeKey _ operation.key).handlers
      apply kept_removeKey <;> assumption
  | deliver =>
    rw [← handlers_take hqueue rfl] at hkept
    exact hkept

section

variable (htasks : storage.writeTasks = [⟨operation, stage⟩])
include htasks

theorem handlers_openFile (inline created : Bool) :
    (storage.openFile 0 operation inline created).handlers =
      { storage.handlers with dispatched := [] } := by
  rw [openFile]
  split <;> simp [handlers, htasks, deleteFile, putFile]

theorem handlers_leaveWrite (error : Bool) :
    (storage.leaveWrite 0 operation error).handlers =
      { storage.handlers with dispatched := [] } := by
  simp [handlers, leaveWrite, htasks, MainTask.blob?]

end

theorem kept_of_running (hwrites : WritesInv [] storage) (hkept : storage.handlers.Kept records)
    (htask : storage.writeTasks[idx]? = some ⟨operation, stage⟩) (hstage : stage ≠ .dispatched)
    (hnext : idx = 0 → storage.writeTasks = [⟨operation, stage⟩] →
      next.handlers = { storage.handlers with dispatched := [] }) : next.handlers.Kept records := by
  obtain ⟨hidx, -, htasks, -⟩ := hwrites.phase.of_running htask hstage
  have hnone : storage.handlers.dispatched = [] := by simp [handlers, htasks, hstage]
  rw [hnext hidx htasks, ← hnone]
  exact hkept

section

theorem handlers_finishTraversal (kind : TraversalKind) :
    (storage.finishTraversal idx kind).handlers = storage.handlers := by
  cases kind with
  | synchronize | shrink => exact handlers_post rfl { storage with traversals := _ }
  | clear => rfl

variable (hwrites : WritesInv [] storage)
include hwrites

variable (hkept : storage.handlers.Kept records)
include hkept

theorem kept_moves {action : Action} (hkeeps : storage.KeepsHandlers action)
    (hnext : storage.step action = some next) (hother : action.record? = none) :
    next.handlers.Kept records := by
  have hstay := hkeeps.pending
  cases moves_of_step hnext with
  | store record => exact absurd hother (Option.some_ne_none record)
  | remove => exact kept_removeKey hkept hstay
  | removeKeys => exact kept_remove hkept hstay
  | setCapacity =>
    rw [setCapacity]
    split
    · exact hkept
    · rw [handlers_shrinkIfNeeded]
      exact hkept
  | retrieve =>
    rw [handlers_retrieve]
    exact hkept
  | fireWriteTimer => exact kept_dispatchRounds _ hkept
  | runMain accepts exceeds task rest hqueue => exact kept_runMain hwrites hkept hqueue hstay
  | storeBody idx out operation htask =>
    have hlarge := hkeeps.large _ (mem_of_getElem? htask)
    obtain ⟨rfl, -, htasks, -⟩ := hwrites.phase.of_dispatched htask
    have hposted : Handlers.Kept records { storage.handlers with
        blobs := storage.handlers.blobs ++ [operation], dispatched := [] } := by
      have hmapped := hkept.mapped
      simp only [handlers, htasks] at hmapped
      exact ⟨hkept.records, hkept.completed, by simpa [handlers] using hmapped⟩
    rw [storeBody, if_neg (not_not.2 hlarge)]
    cases out with
    | notStored => exact absurd rfl hkeeps.blob
    | notLinked | stored =>
      refine Eq.mp (congrArg (Handlers.Kept records) ?_) hposted
      simp [handlers, countActive, deleteFile, putBlob, htasks, MainTask.blob?]
  | openFile idx created inline operation htask =>
    exact kept_of_running hwrites hkept htask (by simp) fun hidx htasks =>
      hidx ▸ handlers_openFile htasks inline created
  | writeFile idx error inline operation htask =>
    refine kept_of_running hwrites hkept htask (by simp) fun hidx htasks => ?_
    subst hidx
    rw [writeFile]
    split
    · exact handlers_leaveWrite htasks true
    · rw [finishFile]
      split <;> exact handlers_leaveWrite htasks false
  | leaveWrite idx error operation htask =>
    exact kept_of_running hwrites hkept htask (by simp) fun hidx htasks =>
      hidx ▸ handlers_leaveWrite htasks true
  | readFile | readBlob =>
    rw [handlers_updateReadTask]
    exact hkept
  | visit =>
    rw [visit]
    split
    · exact hkept
    · split <;> exact hkept
    · split <;> exact hkept
  | finishTraversal =>
    rw [handlers_finishTraversal]
    exact hkept
  | _ => exact hkept

theorem kept_step {action : Action} (hkeeps : storage.KeepsHandlers action)
    (hnext : storage.step action = some next) :
    next.handlers.Kept (records ++ action.record?.toList) := by
  cases hrec : action.record? with
  | none =>
    rw [Option.toList_none, append_nil]
    exact kept_moves hwrites hkept hkeeps hnext hrec
  | some record =>
    cases action with
    | store =>
      cases hrec
      cases hnext
      obtain ⟨hrecs, hcompleted, hmapped⟩ := hkept
      have hadded : Handlers.Kept (records ++ [record])
          { storage.handlers with
            stored := storage.stored ++ [⟨storage.stored.length, record⟩]
            pending := ⟨storage.stored.length, record⟩ :: storage.pendingWriteOperations } := by
        refine ⟨?_, ?_, ?_⟩
        · rw [map_append, ← hrecs]
          rfl
        · rw [reverse_cons, ← append_assoc]
          exact congrArg (· ++ _) hcompleted
        · rw [reverse_cons, ← append_assoc]
          exact congrArg (· ++ _) hmapped
      rw [store, if_neg (hkeeps.capacity record rfl)]
      dsimp only
      split <;> exact hadded
    | _ => cases hrec

theorem kept_run {final : Storage} {actions : List Action}
    (hmeets : Meets step KeepsHandlers storage actions)
    (hrun : run step storage actions = some final) :
    final.handlers.Kept (records ++ actions.filterMap Action.record?) := by
  induction actions generalizing storage records with
  | nil =>
    cases hrun
    rw [filterMap_nil, append_nil]
    exact hkept
  | cons action actions ih =>
    obtain ⟨next, hnext, hrest⟩ := run_cons_eq_some_iff.1 hrun
    have hfinal := ih (hwrites.step hnext) (kept_step hwrites hkept hmeets.1 hnext)
      (hmeets.2 next hnext) hrest
    rw [append_assoc] at hfinal
    cases hrec : action.record? with
    | none =>
      rw [filterMap_cons_none hrec]
      rwa [hrec] at hfinal
    | some =>
      rw [filterMap_cons_some hrec]
      rwa [hrec] at hfinal

end

/-- No task, no timer and no block of the main run loop is left. -/
structure Quiet (storage : Storage) : Prop where
  reads : storage.reads.tasks = []
  writes : storage.writeTasks = []
  traversals : storage.traversals = []
  main : storage.mainQueue = []
  timer : storage.writeOperationDispatchTimer = false

theorem Quiet.noReads (hquiet : storage.Quiet) (hinv : ReadsInv storage) :
    storage.reads.outstanding ++ postedDeliveries storage.mainQueue = [] := by
  have hactive : storage.reads.active = [] := by
    have howned := hinv.owned
    rw [Reads.Owned, hquiet.reads, hquiet.main] at howned
    exact howned.eq_nil
  have hwaiting : storage.reads.waiting = [] := by
    by_contra hwaits
    have hfull := hinv.full hwaits
    rw [hactive] at hfull
    exact Nat.not_lt_zero _ hfull
  rw [Reads.outstanding, hactive, hwaiting, hquiet.main]
  rfl

theorem Quiet.noWrites (hquiet : storage.Quiet) (hwrites : WritesInv [] storage)
    (hwaits : storage.Waits) :
    storage.activeWriteOperations = [] ∧ storage.pendingWriteOperations = [] := by
  have hactive : storage.activeWriteOperations = [] := by
    have hphase := hwrites.phase
    rw [hquiet.writes, hquiet.main] at hphase
    generalize storage.activeWriteOperations = active at hphase ⊢
    cases hphase with
    | idle => rfl
    | leaving operation posted hposted hleft => exact absurd rfl hleft
  refine ⟨hactive, ?_⟩
  by_contra hpending
  rcases hwaits.writes hpending with htimer | hother | ⟨-, hprogress⟩
  · exact absurd (hquiet.timer.symm.trans htimer) Bool.false_ne_true
  · exact hother hactive
  · have hflag := hwaits.synchronizes hprogress
    rw [synchronizationFlags, hquiet.traversals, hquiet.main] at hflag
    exact absurd hflag not_mem_nil

/-- Once nothing is under way, the completion handler of every `retrieve` was called exactly
once.  Both handlers of every `store` were called exactly once, in the order of the calls, if
no step lost one. -/
theorem handlers_called_once {mode : Mode} {pageSize capacity : ℕ} {disk : Disk} {final : Storage}
    {actions : List Action}
    (hrun : run step (.opened mode pageSize capacity disk) actions = some final)
    (hquiet : final.Quiet) :
    final.reads.delivered.map (·.1.number) ~ List.range final.reads.retrieved ∧
      (Meets step KeepsHandlers (.opened mode pageSize capacity disk) actions →
        final.stored.map WriteOperation.record = actions.filterMap Action.record? ∧
          final.completed.map Prod.fst = final.stored ∧ final.mapped = final.stored) := by
  have hqueues := (always_queuesInv mode pageSize capacity disk actions).last hrun
  constructor
  · have hstep {s next : Storage} {action : Action}
        (haccounts : s.reads.Accounts (postedDeliveries (answering s.mainQueue)))
        (hqueues : s.QueuesInv) (hnext : s.step action = some next) :
        next.reads.Accounts (postedDeliveries (answering next.mainQueue)) :=
      Reads.accounts_readStep hqueues.reads haccounts (readStep_of_moves (moves_of_step hnext))
    have hopened : (opened mode pageSize capacity disk).reads.Accounts [] :=
      ⟨.refl _, fun _ hmem => absurd hmem not_mem_nil⟩
    have hcalls := (run_of_always hstep hopened (always_queuesInv _ _ _ _ _) hrun).calls
    rw [postedDeliveries_answering, Reads.calls, hquiet.noReads hqueues.reads, map_nil,
      append_nil] at hcalls
    exact hcalls
  · intro hmeets
    have hopened := WritesInv.opened mode pageSize capacity disk
    have hnone : Handlers.Kept [] (opened mode pageSize capacity disk).handlers := ⟨rfl, rfl, rfl⟩
    have hwrites : WritesInv [] final :=
      run_of_step (fun hinv _ hnext => hinv.step hnext) hopened (meets_true _ _) hrun
    obtain ⟨hrecords, hcompleted, hmapped⟩ := kept_run hopened hnone hmeets hrun
    obtain ⟨hactive, hpending⟩ := hquiet.noWrites hwrites hqueues.waits
    simp only [handlers, hactive, hpending, hquiet.writes, hquiet.main, filterMap_nil,
      filter_nil, map_nil, reverse_nil, append_nil] at hcompleted hmapped
    exact ⟨hrecords, hcompleted, hmapped⟩

def handledRecord : Record := .sample 1 7

def storingRun : List Action :=
  [.finishTraversal 0, .runMain true false, .store handledRecord, .fireWriteTimer,
    .storeBody 0 .stored, .openFile 0 true, .writeFile 0 false, .runMain true false,
    .runMain true false, .retrieve handledRecord.key 0, .readFile 0 true, .readBlob 0,
    .runMain true false]

def storedOnce : Storage := after step (.opened .normal 0 1000 ⟨∅, ∅⟩) storingRun

/-- A body above the page size is stored, and the record is then asked for. -/
theorem handlers_called_once_stored :
    storedOnce.reads.delivered.map (·.1.number) ~ [0] ∧ storedOnce.stored = [⟨0, handledRecord⟩] ∧
      storedOnce.completed.map Prod.fst = storedOnce.stored ∧
      storedOnce.mapped = storedOnce.stored := by
  have hrun : run step (.opened .normal 0 1000 ⟨∅, ∅⟩) storingRun = some storedOnce :=
    run_eq_after (by decide +kernel)
  have hquiet : storedOnce.Quiet := by constructor <;> decide +kernel
  have hmeets : Meets step KeepsHandlers (.opened .normal 0 1000 ⟨∅, ∅⟩) storingRun := by
    decide +kernel
  obtain ⟨hreads, hwrites⟩ := handlers_called_once hrun hquiet
  have hone : storedOnce.reads.retrieved = 1 := by decide +kernel
  exact ⟨hreads, by decide +kernel, (hwrites hmeets).2⟩

def removingRun : List Action :=
  [.finishTraversal 0, .runMain true false, .store handledRecord, .remove handledRecord.key,
    .runSerial, .runSerial, .fireWriteTimer]

def dropped : Storage := after step (.opened .normal 0 1000 ⟨∅, ∅⟩) removingRun

/-- A pending write is removed: nothing is left to do, and neither of its handlers was called. -/
theorem removed_store_calls_nothing :
    run step (.opened .normal 0 1000 ⟨∅, ∅⟩) removingRun = some dropped ∧ dropped.Quiet ∧
      dropped.serialQueue = [] ∧ dropped.stored = [⟨0, handledRecord⟩] ∧
      dropped.completed = [] ∧ dropped.mapped = [] := by
  refine ⟨run_eq_after (by decide +kernel), ?_, by decide +kernel⟩
  constructor <;> decide +kernel

end Storage

end PurcFetcher.Cache
