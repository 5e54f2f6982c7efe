import PurcFetcher.Cache.StorageSteps

/-!
# The read operations of a storage

What `retrieve` tells its completion handlers comes from the read operations and from the
main run loop.  The functions that write, remove, synchronize and shrink leave both alone.
-/

namespace PurcFetcher.Cache

namespace Reads

variable {mode : Mode} {mayBlob : Key → Bool} {reads : Reads}

theorem delivered_dispatchPending (order : List Priority) :
    (dispatchPending mode mayBlob order reads).delivered = reads.delivered := by
  induction order generalizing reads with
  | nil => rfl
  | cons prio rest ih =>
    rw [dispatchPending]
    split
    · rfl
    · split
      · exact ih
      · exact ih

theorem mem_tasks_dispatchPending {order : List Priority} {task : ReadTask}
    (htask : task ∈ (dispatchPending mode mayBlob order reads).tasks) :
    task ∈ reads.tasks ∨ task.record = none := by
  induction order generalizing reads with
  | nil => exact .inl htask
  | cons prio rest ih =>
    rw [dispatchPending] at htask
    split at htask
    · exact .inl htask
    · split at htask
      · exact ih htask
      · cases ih htask with
        | inl hmem =>
          cases List.mem_append.1 hmem with
          | inl hold => exact .inl hold
          | inr hnew => exact .inr (List.mem_singleton.1 hnew ▸ rfl)
        | inr hnone => exact .inr hnone

end Reads

namespace Storage

variable {storage : Storage}

/-- The parts of a storage that answer its readers. -/
def answers (storage : Storage) : Reads × List MainTask :=
  (storage.reads, storage.mainQueue)

theorem answers_synchronize : storage.synchronize.answers = storage.answers := by
  rw [synchronize]
  split <;> rfl

theorem answers_shrinkIfNeeded (exceeds : Bool) :
    (storage.shrinkIfNeeded exceeds).answers = storage.answers := by
  rw [shrinkIfNeeded, shrink]
  split
  · rfl
  · split
    · split <;> rfl
    · rfl

theorem answers_dispatchRounds (rounds : ℕ) :
    (dispatchRounds rounds storage).answers = storage.answers := by
  induction rounds generalizing storage with
  | zero => rfl
  | succ rounds ih =>
    rw [dispatchRounds]
    split
    · rfl
    · split
      · rfl
      · exact ih

theorem answers_finishWriteOperation (op : WriteOperation) (error exceeds : Bool) :
    (storage.finishWriteOperation op error exceeds).answers = storage.answers := by
  rw [finishWriteOperation]
  split
  · rfl
  · rw [answers_shrinkIfNeeded]
    exact answers_dispatchRounds _

theorem answers_store (record : Record) : (storage.store record).answers = storage.answers := by
  rw [store]
  split
  · rfl
  · dsimp only
    split <;> rfl

theorem answers_removeKey (key : Key) : (storage.removeKey key).answers = storage.answers := by
  rw [removeKey]
  split <;> rfl

theorem answers_finishSynchronization (recFilter blobFilter : ContentsFilter) :
    (storage.finishSynchronization recFilter blobFilter).answers = storage.answers := by
  rw [finishSynchronization]
  split
  · exact answers_dispatchRounds _
  · rfl

end Storage

end PurcFetcher.Cache
