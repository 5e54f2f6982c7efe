import PurcFetcher.Cache.StorageSteps

/-!
# The write operations of a storage

A write operation is pending, then active, and its task goes through its stages and posts
one or two completions to the main run loop.  At most one operation is active, so the
active operations, the tasks, the completions that wait and the active count are in one
of four phases.  The operations stay in the order of the `store` calls all the way.
-/

namespace PurcFetcher.Cache

open Machine List

/-- The write operation that a completion is about. -/
def MainTask.writeOperation? : MainTask → Option WriteOperation
  | .blobStored operation => some operation
  | .written operation _ => some operation
  | _ => none

/-- The write operations whose completions wait, once for each completion. -/
def postedWrites (mainQueue : List MainTask) : List WriteOperation :=
  mainQueue.filterMap MainTask.writeOperation?

@[simp]
theorem postedWrites_append (left right : List MainTask) :
    postedWrites (left ++ right) = postedWrites left ++ postedWrites right :=
  filterMap_append

theorem postedWrites_cons (task : MainTask) (rest : List MainTask) :
    postedWrites (task :: rest) = task.writeOperation?.toList ++ postedWrites rest := by
  rw [postedWrites, filterMap_cons]
  cases task.writeOperation? <;> rfl

/-- The phases of the one write operation that can be active: its active count, the
active operations, the tasks and the completions that wait. -/
inductive WritePhase (activeCount : ℕ → ℕ) :
    List WriteOperation → List WriteTask → List WriteOperation → Prop
  | idle : WritePhase activeCount [] [] []
  | dispatched (operation : WriteOperation) (hcount : activeCount operation.number = 0) :
      WritePhase activeCount [operation] [⟨operation, .dispatched⟩] []
  | running (operation : WriteOperation) (stage : WriteStage) (posted : List WriteOperation)
      (hstage : stage ≠ .dispatched) (hposted : ∀ other ∈ posted, other = operation)
      (hcount : activeCount operation.number = posted.length + 1) :
      WritePhase activeCount [operation] [⟨operation, stage⟩] posted
  | leaving (operation : WriteOperation) (posted : List WriteOperation)
      (hposted : ∀ other ∈ posted, other = operation) (hwaits : posted ≠ [])
      (hcount : activeCount operation.number = posted.length) :
      WritePhase activeCount [operation] [] posted

namespace WritePhase

variable {activeCount : ℕ → ℕ} {active : List WriteOperation} {tasks : List WriteTask}
variable {posted : List WriteOperation} {operation : WriteOperation} {idx : ℕ}

section

variable (hphase : WritePhase activeCount active tasks posted)
include hphase

theorem active_cases :
    active = [] ∨ ∃ operation, active = [operation] := by
  cases hphase with
  | idle => exact .inl rfl
  | dispatched operation | running operation
  | leaving operation => exact .inr ⟨operation, rfl⟩

theorem length_active_le :
    active.length ≤ Storage.maximumActiveWriteOperationCount := by
  obtain rfl | ⟨operation, rfl⟩ := hphase.active_cases
  · exact Nat.zero_le _
  · exact le_rfl

theorem mem_active {task : WriteTask}
    (htask : task ∈ tasks) : task.operation ∈ active := by
  cases hphase with
  | idle | leaving => exact absurd htask not_mem_nil
  | dispatched | running => exact mem_singleton.2 (mem_singleton.1 htask ▸ rfl)

theorem active_of_posted (hmem : operation ∈ posted) :
    operation ∈ active ∧ activeCount operation.number ≠ 0 := by
  cases hphase with
  | idle | dispatched => cases hmem
  | running _ _ _ _ hposted hcount =>
    cases hposted operation hmem
    exact ⟨mem_singleton_self _, by omega⟩
  | leaving _ _ hposted hwaits hcount => grind

end

theorem of_active_nil (hphase : WritePhase activeCount [] tasks posted) :
    tasks = [] ∧ posted = [] := by
  cases hphase with
  | idle => exact ⟨rfl, rfl⟩

section

variable (hphase : WritePhase activeCount active tasks posted)
include hphase

theorem eq_singleton {task : WriteTask} (htask : tasks[idx]? = some task) :
    idx = 0 ∧ tasks = [task] := by
  cases hphase with
  | idle | leaving => exact nomatch htask
  | dispatched | running => grind

theorem of_dispatched (htask : tasks[idx]? = some ⟨operation, .dispatched⟩) :
    idx = 0 ∧ active = [operation] ∧ tasks = [⟨operation, .dispatched⟩] ∧ posted = [] ∧
      activeCount operation.number = 0 := by
  obtain ⟨hidx, rfl⟩ := hphase.eq_singleton htask
  cases hphase with
  | dispatched operation hcount => exact ⟨hidx, rfl, rfl, rfl, hcount⟩
  | running operation stage posted hstage => exact absurd rfl hstage

theorem of_running {stage : WriteStage}
    (htask : tasks[idx]? = some ⟨operation, stage⟩) (hstage : stage ≠ .dispatched) :
    idx = 0 ∧ active = [operation] ∧ tasks = [⟨operation, stage⟩] ∧
      (∀ other ∈ posted, other = operation) ∧
      activeCount operation.number = posted.length + 1 := by
  obtain ⟨hidx, rfl⟩ := hphase.eq_singleton htask
  cases hphase with
  | dispatched => exact absurd rfl hstage
  | running operation stage posted _ hposted hcount => exact ⟨hidx, rfl, rfl, hposted, hcount⟩

end

/-- A completion is about the active operation, and its active count says whether it is
the last one. -/
theorem of_posted (hphase : WritePhase activeCount active tasks (op :: posted)) :
    active = [op] ∧
      (activeCount op.number - 1 = 0 ∧ tasks = [] ∧ posted = [] ∨
        activeCount op.number - 1 ≠ 0 ∧
          WritePhase (Function.update activeCount op.number
            (activeCount op.number - 1)) [op] tasks posted) := by
  cases hphase with
  | running only stage _ hstage hposted hcount =>
    obtain rfl := hposted op mem_cons_self
    rw [length_cons] at hcount
    refine ⟨rfl, .inr ⟨by omega, .running op stage posted hstage ?_ ?_⟩⟩
    · exact fun other hother => hposted other (mem_cons_of_mem _ hother)
    · rw [Function.update_self]
      omega
  | leaving only _ hposted hwaits hcount =>
    obtain rfl := hposted op mem_cons_self
    rw [length_cons] at hcount
    refine ⟨rfl, ?_⟩
    cases posted with
    | nil => exact .inl ⟨by rw [hcount]; rfl, rfl, rfl⟩
    | cons =>
      rw [length_cons] at hcount
      refine .inr ⟨by omega, .leaving op _ ?_ (cons_ne_nil _ _) ?_⟩
      · exact fun other hother => hposted other (mem_cons_of_mem _ hother)
      · rw [Function.update_self, length_cons]
        omega

end WritePhase

/-- `taken` are the completions that were taken off the main run loop and not handled
yet. -/
structure WritesInv (taken : List WriteOperation) (storage : Storage) : Prop where
  phase : WritePhase storage.activeCount storage.activeWriteOperations storage.writeTasks
    (taken ++ postedWrites storage.mainQueue)
  counts : ∀ number, storage.activeCount number ≠ 0 →
    ∃ operation ∈ storage.activeWriteOperations, operation.number = number
  numbers : storage.stored.map (·.number) = List.range storage.stored.length
  current : (storage.activeWriteOperations ++
    storage.pendingWriteOperations.reverse).Sublist storage.stored
  order : (storage.written ++ storage.writeTasks.map (·.operation) ++
    storage.pendingWriteOperations.reverse).Sublist storage.stored

namespace WritesInv

variable {storage next : Storage} {operation : WriteOperation}
variable {taken : List WriteOperation} {idx : ℕ}

theorem opened (mode : Mode) (pageSize cap : ℕ) (disk : Disk) :
    WritesInv [] (Storage.opened mode pageSize cap disk) where
  phase := .idle
  counts := fun _ hcount => absurd rfl hcount
  numbers := rfl
  current := List.Sublist.refl _
  order := List.Sublist.refl _

/-! ### On the main thread -/

theorem counts_update (hinv : WritesInv taken storage) (count : ℕ)
    (hactive : operation ∈ storage.activeWriteOperations) (num : ℕ)
    (hcount : Function.update storage.activeCount operation.number count num ≠ 0) :
    ∃ other ∈ storage.activeWriteOperations, other.number = num := by
  by_cases hnum : num = operation.number
  · exact ⟨operation, hactive, hnum.symm⟩
  · rw [Function.update_of_ne hnum] at hcount
    exact hinv.counts num hcount

section

variable (hinv : WritesInv [] storage)
include hinv

theorem dispatchWriteOperation (hlast : storage.pendingWriteOperations.getLast? = some op)
    (hroom : storage.activeWriteOperations = []) :
    WritesInv [] (Storage.dispatchWriteOperation
      { storage with
        pendingWriteOperations := storage.pendingWriteOperations.dropLast } op) := by
  have hphase := hinv.phase
  rw [hroom] at hphase
  obtain ⟨htasks, hposted⟩ := hphase.of_active_nil
  have hidle : ∀ num, storage.activeCount num = 0 := by
    intro num
    by_contra hcount
    obtain ⟨other, hother, -⟩ := hinv.counts num hcount
    rw [hroom] at hother
    exact absurd hother not_mem_nil
  have hreverse : storage.pendingWriteOperations.reverse =
      op :: storage.pendingWriteOperations.dropLast.reverse := by
    conv_lhs => rw [← dropLast_append_getLast? op hlast]
    rw [reverse_append, reverse_singleton, singleton_append]
  have hcur := hinv.current
  have horder := hinv.order
  rw [hroom, hreverse, nil_append] at hcur
  rw [htasks, hreverse, map_nil, append_nil] at horder
  refine ⟨?_, ?_, hinv.numbers, ?_, ?_⟩
  · change WritePhase storage.activeCount (op :: storage.activeWriteOperations)
      (storage.writeTasks ++ [⟨op, .dispatched⟩]) ([] ++ postedWrites storage.mainQueue)
    rw [hroom, htasks, hposted]
    exact .dispatched op (hidle op.number)
  · exact fun num hcount => absurd (hidle num) hcount
  · change ((op :: storage.activeWriteOperations) ++
      storage.pendingWriteOperations.dropLast.reverse).Sublist storage.stored
    rwa [hroom]
  · change (storage.written ++
      (storage.writeTasks ++ [WriteTask.mk op .dispatched]).map WriteTask.operation ++
      storage.pendingWriteOperations.dropLast.reverse).Sublist storage.stored
    rwa [htasks, nil_append, map_singleton, append_assoc, singleton_append]

theorem dispatchRounds (rounds : ℕ) :
    WritesInv [] (Storage.dispatchRounds rounds storage) := by
  induction rounds generalizing storage with
  | zero => exact hinv
  | succ rounds ih =>
    rw [Storage.dispatchRounds]
    split
    · exact hinv
    · next operation hlast =>
      split
      · exact hinv
      · next hroom =>
        apply ih
        apply hinv.dispatchWriteOperation hlast
        exact length_eq_zero_iff.1 (Nat.lt_one_iff.1 (Nat.lt_of_not_le hroom))

theorem dispatchPendingWriteOperations :
    WritesInv [] storage.dispatchPendingWriteOperations :=
  hinv.dispatchRounds _

end

theorem synchronize (hinv : WritesInv taken storage) : WritesInv taken storage.synchronize := by
  rw [Storage.synchronize]
  split
  · exact hinv
  · exact { hinv with }

theorem shrinkIfNeeded (hinv : WritesInv taken storage) (exceeds : Bool) :
    WritesInv taken (storage.shrinkIfNeeded exceeds) := by
  have hshrink : WritesInv taken storage.shrink := by
    rw [Storage.shrink]
    split
    · exact hinv
    · exact { hinv with }
  rw [Storage.shrinkIfNeeded]
  split
  · exact hinv
  · split
    · exact hshrink
    · exact hinv

theorem finishWriteOperation (hinv : WritesInv [operation] storage) (error exceeds : Bool) :
    WritesInv [] (storage.finishWriteOperation operation error exceeds) := by
  obtain ⟨hactive, ⟨hlast, htasks, hposted⟩ | ⟨hmore, hphase⟩⟩ := hinv.phase.of_posted
  · rw [Storage.finishWriteOperation]
    simp only [hlast, ne_eq, not_true_eq_false, if_false]
    apply shrinkIfNeeded
    apply dispatchPendingWriteOperations
    refine ⟨?_, ?_, hinv.numbers, ?_, hinv.order⟩
    · change postedWrites storage.mainQueue = [] at hposted
      dsimp only
      rw [hactive, htasks, hposted, erase_cons_head]
      exact .idle
    · intro num hcount
      by_cases hnum : num = operation.number
      · rw [hnum] at hcount
        exact absurd (Function.update_self _ _ _) hcount
      · dsimp only at hcount
        rw [Function.update_of_ne hnum] at hcount
        obtain ⟨other, hother, hother'⟩ := hinv.counts num hcount
        rw [hactive, mem_singleton] at hother
        exact absurd (hother ▸ hother'.symm) hnum
    · exact ((erase_sublist.append_right _)).trans hinv.current
  · rw [Storage.finishWriteOperation, if_pos hmore]
    have hmem : operation ∈ storage.activeWriteOperations := hactive ▸ mem_singleton_self operation
    exact ⟨by rw [hactive]; exact hphase, hinv.counts_update _ hmem, hinv.numbers,
      hinv.current, hinv.order⟩

theorem store (hinv : WritesInv [] storage) (record : Record) :
    WritesInv [] (storage.store record) := by
  have hadded : WritesInv [] (Storage.addToRecordFilter { storage with
      stored := storage.stored ++ [⟨storage.stored.length, record⟩]
      pendingWriteOperations :=
        ⟨storage.stored.length, record⟩ :: storage.pendingWriteOperations } record.key) := by
    refine ⟨hinv.phase, hinv.counts, ?_, ?_, ?_⟩
    · change (storage.stored ++ [(⟨storage.stored.length, record⟩ : WriteOperation)]).map
        (·.number) = List.range (storage.stored ++ [_]).length
      rw [map_append, hinv.numbers, length_append, length_singleton, range_succ]
      rfl
    · change (storage.activeWriteOperations ++ (_ :: storage.pendingWriteOperations).reverse
        ).Sublist (storage.stored ++ [_])
      rw [reverse_cons, ← append_assoc]
      exact hinv.current.append_right _
    · change (storage.written ++ storage.writeTasks.map (·.operation) ++
        (_ :: storage.pendingWriteOperations).reverse).Sublist (storage.stored ++ [_])
      rw [reverse_cons, ← append_assoc]
      exact hinv.order.append_right _
  rw [Storage.store]
  split
  · exact hinv
  · dsimp only
    split
    · exact hadded
    · exact { hadded with }

section

variable (hinv : WritesInv taken storage)
include hinv

theorem remove (keys : List Key) :
    WritesInv taken (storage.remove keys) := by
  refine ⟨hinv.phase, hinv.counts, hinv.numbers, ?_, ?_⟩
  · exact ((filter_sublist.reverse).append_left _).trans hinv.current
  · exact ((filter_sublist.reverse).append_left _).trans hinv.order

theorem removeKey (key : Key) : WritesInv taken (storage.removeKey key) := by
  rw [Storage.removeKey]
  split
  · exact hinv.remove [key]
  · exact hinv

theorem withReads (reads : Reads) :
    WritesInv taken { storage with reads := reads } :=
  { hinv with }

theorem post (reads : Reads) (task : MainTask)
    (htask : task.writeOperation? = none) :
    WritesInv taken { storage with reads := reads, mainQueue := storage.mainQueue ++ [task] } := by
  refine ⟨?_, hinv.counts, hinv.numbers, hinv.current, hinv.order⟩
  dsimp only
  have hnone : postedWrites [task] = [] := filterMap_cons_none htask
  rw [postedWrites_append, hnone, append_nil]
  exact hinv.phase

end

theorem retrieve (hinv : WritesInv [] storage) (key : Key) (prio : Priority) :
    WritesInv [] (storage.retrieve key prio) := by
  rw [Storage.retrieve]
  split
  · exact hinv.withReads _
  · split
    · exact hinv.withReads _
    · split
      · next found hfound => exact hinv.post _ (.deliver _ found) rfl
      · exact hinv.withReads _

theorem take (hinv : WritesInv [] storage) {task : MainTask} {rest : List MainTask}
    (hqueue : storage.mainQueue = task :: rest) :
    WritesInv task.writeOperation?.toList { storage with mainQueue := rest } := by
  refine { hinv with phase := ?_ }
  have hphase := hinv.phase
  rwa [hqueue, postedWrites_cons, ← append_assoc, nil_append] at hphase

/-! ### On the other queues -/

section

variable (hinv : WritesInv [] storage)
include hinv

section

variable (htask : storage.writeTasks[idx]? = some ⟨operation, .dispatched⟩)
include htask

/-- The task of a dispatched operation counts itself and the completions it posts. -/
theorem encode (inline : Bool) {mainQueue : List MainTask} {count : ℕ}
    (hposted : postedWrites mainQueue =
      postedWrites storage.mainQueue ++ List.replicate count operation) :
    WritesInv [] { storage.countActive operation (count + 1) with
      mainQueue := mainQueue
      writeTasks := storage.writeTasks.set idx ⟨operation, .encoded inline⟩ } := by
  obtain ⟨rfl, hactive, htasks, hnone, hcount⟩ := hinv.phase.of_dispatched htask
  change postedWrites storage.mainQueue = [] at hnone
  have hmem : operation ∈ storage.activeWriteOperations := hactive ▸ mem_singleton_self operation
  refine ⟨?_, hinv.counts_update _ hmem, hinv.numbers, hinv.current, ?_⟩
  · change WritePhase (Function.update storage.activeCount operation.number
      (storage.activeCount operation.number + (count + 1))) storage.activeWriteOperations
      (storage.writeTasks.set 0 ⟨operation, .encoded inline⟩) (postedWrites mainQueue)
    rw [hposted, hnone, hactive, htasks, hcount, set_cons_zero, nil_append, Nat.zero_add]
    refine .running operation _ _ nofun (fun other hother => eq_of_mem_replicate hother) ?_
    rw [Function.update_self, length_replicate]
  · have horder := hinv.order
    rw [htasks] at horder
    dsimp only
    rwa [htasks]

theorem storeBody (out : Storage.BlobOutcome) :
    WritesInv [] (storage.storeBody idx operation out) := by
  have hinline : WritesInv [] { storage.countActive operation 1 with
      writeTasks := storage.writeTasks.set idx ⟨operation, .encoded true⟩ } :=
    hinv.encode htask true (append_nil _).symm
  have hblob : WritesInv [] { storage.countActive operation 2 with
      mainQueue := storage.mainQueue ++ [.blobStored operation]
      writeTasks := storage.writeTasks.set idx ⟨operation, .encoded false⟩ } :=
    hinv.encode htask false (postedWrites_append _ _)
  rw [Storage.storeBody]
  split
  · exact { hinline with }
  · cases out with
    | stored | notLinked => exact { hblob with }
    | notStored => exact { hinline with }

end

theorem advance {stage : WriteStage} (following : WriteStage)
    (htask : storage.writeTasks[idx]? = some ⟨operation, stage⟩)
    (hstage : stage ≠ .dispatched) (hfollowing : following ≠ .dispatched) :
    WritesInv [] { storage with
      writeTasks := storage.writeTasks.set idx ⟨operation, following⟩ } := by
  obtain ⟨rfl, hactive, htasks, hposted, hcount⟩ := hinv.phase.of_running htask hstage
  refine ⟨?_, hinv.counts, hinv.numbers, hinv.current, ?_⟩
  · dsimp only
    rw [hactive, htasks]
    exact .running operation following _ hfollowing hposted hcount
  · have horder := hinv.order
    rw [htasks] at horder
    dsimp only
    rwa [htasks]

theorem openFile {inline : Bool}
    (htask : storage.writeTasks[idx]? = some ⟨operation, .encoded inline⟩)
    (created : Bool) :
    WritesInv [] (storage.openFile idx operation inline created) := by
  rw [Storage.openFile]
  split
  · exact { hinv.advance (.opened inline) htask nofun nofun with }
  · exact { hinv.advance .notOpened htask nofun nofun with }

end

/-- A task that has counted ends and posts its completion; `written` is what has reached
the disk by then. -/
theorem leaveWrite (hinv : WritesInv [] storage) {stage : WriteStage}
    (htask : storage.writeTasks[idx]? = some ⟨operation, stage⟩)
    (hstage : stage ≠ .dispatched) (error : Bool) {written : List WriteOperation}
    (hwritten : written.Sublist (storage.written ++ [operation])) :
    WritesInv [] (Storage.leaveWrite { storage with written := written } idx operation error) := by
  obtain ⟨rfl, hactive, htasks, hposted, hcount⟩ := hinv.phase.of_running htask hstage
  refine ⟨?_, hinv.counts, hinv.numbers, hinv.current, ?_⟩
  · change WritePhase storage.activeCount storage.activeWriteOperations
      (storage.writeTasks.eraseIdx 0)
      (postedWrites (storage.mainQueue ++ [.written operation error]))
    rw [postedWrites_append, hactive, htasks]
    refine .leaving operation _ ?_ (append_ne_nil_of_right_ne_nil _ nofun) ?_
    · intro other hother
      cases mem_append.1 hother with
      | inl hold => exact hposted other hold
      | inr hnew => exact mem_singleton.1 hnew
    · rw [length_append]
      exact hcount
  · have horder := hinv.order
    rw [htasks] at horder
    change (written ++ (storage.writeTasks.eraseIdx 0).map WriteTask.operation ++
      storage.pendingWriteOperations.reverse).Sublist storage.stored
    rw [htasks]
    change (written ++ [] ++ storage.pendingWriteOperations.reverse).Sublist storage.stored
    rw [append_nil]
    exact (hwritten.append_right _).trans horder

theorem writeFile (hinv : WritesInv [] storage) {inline : Bool}
    (htask : storage.writeTasks[idx]? = some ⟨operation, .opened inline⟩)
    (error : Bool) :
    WritesInv [] (storage.writeFile idx operation inline error) := by
  rw [Storage.writeFile, Storage.finishFile]
  split
  · exact hinv.leaveWrite htask nofun true (sublist_append_left _ _)
  · have hleave := hinv.leaveWrite htask nofun false (List.Sublist.refl _)
    split
    · exact { hleave with }
    · exact { hleave with }

theorem visit (hinv : WritesInv [] storage) (trav : Traversal) (entry : Entry)
    (delete : Bool) : WritesInv [] (storage.visit idx trav entry delete) := by
  rw [Storage.visit]
  split
  · exact { hinv with }
  · split
    · exact { hinv with }
    · exact { hinv with }
  · split
    · exact { hinv with }
    · exact { hinv with }

theorem finishTraversal (hinv : WritesInv [] storage) (kind : TraversalKind) :
    WritesInv [] (storage.finishTraversal idx kind) := by
  have hleft : WritesInv [] { storage with traversals := storage.traversals.eraseIdx idx } :=
    { hinv with }
  cases kind with
  | synchronize recFilter blobFilter =>
    exact hleft.post storage.reads (.synchronized recFilter blobFilter) rfl
  | shrink => exact hleft.post storage.reads .shrunk rfl
  | clear => exact hleft

theorem step (hinv : WritesInv [] storage) {action : Action}
    (hnext : storage.step action = some next) : WritesInv [] next := by
  cases Storage.moves_of_step hnext with
  | store record => exact hinv.store record
  | remove key => exact hinv.removeKey key
  | removeKeys keys => exact hinv.remove keys
  | setCapacity =>
    rw [Storage.setCapacity]
    split
    · exact hinv
    · apply shrinkIfNeeded
      exact { hinv with }
  | retrieve key prio => exact hinv.retrieve key prio
  | fireWriteTimer =>
    apply dispatchPendingWriteOperations
    exact { hinv with }
  | fireReadTimeout => exact hinv.withReads _
  | runMain accepts exceeds task rest hqueue =>
    have htaken := hinv.take hqueue
    cases task with
    | synchronized =>
      rw [Storage.runMainTask, Storage.finishSynchronization]
      split
      · apply dispatchPendingWriteOperations
        exact { htaken with }
      · exact { htaken with }
    | shrunk =>
      apply synchronize
      exact { htaken with }
    | blobStored =>
      apply finishWriteOperation
      exact { htaken with }
    | written operation error => exact finishWriteOperation htaken error exceeds
    | finishRead operation record blob =>
      apply withReads
      split
      · exact htaken
      · split
        · exact { htaken with }
        · exact (htaken.withReads _).removeKey operation.key
    | deliver => exact htaken.withReads _
  | storeBody idx out operation htask => exact hinv.storeBody htask out
  | openFile idx created inline operation htask => exact hinv.openFile htask created
  | writeFile idx error inline operation htask => exact hinv.writeFile htask error
  | leaveWrite idx error operation htask =>
    exact hinv.leaveWrite htask nofun true (sublist_append_left _ _)
  | readFile | readBlob =>
    rw [Storage.updateReadTask]
    split
    · exact hinv.post _ (.finishRead _ _ _) rfl
    · exact hinv.withReads _
  | visit idx entry delete trav => exact hinv.visit trav entry delete
  | finishTraversal idx trav => exact hinv.finishTraversal trav.kind
  | _ => exact { hinv with }

end WritesInv

/-- A completion finds its operation active, as `finishWriteOperation` asserts. -/
theorem completed_writes_are_active (mode : Mode) (pageSize capacity : ℕ) (disk : Disk)
    (actions : List Action) :
    Always Storage.step (fun storage => ∀ operation ∈ postedWrites storage.mainQueue,
      operation ∈ storage.activeWriteOperations ∧ storage.activeCount operation.number ≠ 0)
      (.opened mode pageSize capacity disk) actions := by
  have hinv : Always Storage.step (WritesInv []) (.opened mode pageSize capacity disk) actions :=
    always_of_step (fun hinv _ => hinv.step) (.opened ..) (meets_true _ _)
  exact hinv.mono fun _ hinv _ => hinv.phase.active_of_posted

end PurcFetcher.Cache
