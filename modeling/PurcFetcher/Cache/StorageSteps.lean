import PurcFetcher.Cache.Storage
import PurcFetcher.Core.Machine

/-!
# The steps of a storage

An action is a call of the storage from outside, a timer that fires, the next task of the
main run loop or of the serial queue, or one part of a task on a concurrent queue.  Every
interleaving of them is a run, and `Moves` says once what each of them does.
-/

namespace PurcFetcher.Cache

inductive Action
  | store (record : Record)
  | remove (key : Key)
  | removeKeys (keys : List Key)
  | clear (type : Text) (everything : Bool)
  | setCapacity (capacity : ℕ) (exceeds : Bool)
  | retrieve (key : Key) (priority : Priority)
  | fireWriteTimer
  | fireReadTimeout
  | runMain (accepts exceeds : Bool)
  | runSerial
  | storeBody (index : ℕ) (outcome : Storage.BlobOutcome)
  | openFile (index : ℕ) (created : Bool)
  | writeFile (index : ℕ) (error : Bool)
  | readFile (index : ℕ) (decodes : Bool)
  | readBlob (index : ℕ)
  | visit (index : ℕ) (entry : Entry) (delete : Bool)
  | finishTraversal (index : ℕ)

namespace Storage

def step (storage : Storage) : Action → Option Storage
  | .store record => some (storage.store record)
  | .remove key => some (storage.removeKey key)
  | .removeKeys keys => some (storage.remove keys)
  | .clear type everything => some (storage.clear type everything)
  | .setCapacity capacity exceeds => some (storage.setCapacity capacity exceeds)
  | .retrieve key priority => some (storage.retrieve key priority)
  | .fireWriteTimer =>
    if storage.writeOperationDispatchTimer then
      some (dispatchPendingWriteOperations { storage with writeOperationDispatchTimer := false })
    else none
  | .fireReadTimeout =>
    if storage.reads.timeoutTimer then
      some { storage with reads := storage.reads.cancelAllReadOperations }
    else none
  | .runMain accepts exceeds =>
    match storage.mainQueue with
    | [] => none
    | task :: rest => some (runMainTask { storage with mainQueue := rest } accepts exceeds task)
  | .runSerial =>
    match storage.serialQueue with
    | [] => none
    | .deleteFiles (key :: keys) :: rest =>
      some (deleteFiles { storage with serialQueue := .deleteFiles keys :: rest } key.recordPath)
    | _ :: rest => some { storage with serialQueue := rest }
  | .storeBody index outcome =>
    match storage.writeTasks[index]? with
    | some ⟨operation, .dispatched⟩ => some (storage.storeBody index operation outcome)
    | _ => none
  | .openFile index created =>
    match storage.writeTasks[index]? with
    | some ⟨operation, .encoded isBodyInline⟩ =>
      some (storage.openFile index operation isBodyInline created)
    | _ => none
  | .writeFile index error =>
    match storage.writeTasks[index]? with
    | some ⟨operation, .opened isBodyInline⟩ =>
      some (storage.writeFile index operation isBodyInline error)
    | some ⟨operation, .notOpened⟩ => some (storage.leaveWrite index operation true)
    | _ => none
  | .readFile index decodes =>
    match storage.reads.tasks[index]? with
    | some ⟨operation, none, blob⟩ =>
      let record := if decodes then storage.disk.readRecord operation.key else none
      some (storage.updateReadTask index ⟨operation, some record, blob⟩)
    | _ => none
  | .readBlob index =>
    match storage.reads.tasks[index]? with
    | some ⟨operation, record, none⟩ =>
      let blob := storage.disk.blobs.lookup operation.key.recordPath
      some (storage.updateReadTask index ⟨operation, record, some blob⟩)
    | _ => none
  | .visit index entry delete =>
    match storage.traversals[index]? with
    | some traversal =>
      if traversal.mayVisit storage.disk entry then
        some (storage.visit index traversal entry delete)
      else none
    | none => none
  | .finishTraversal index =>
    match storage.traversals[index]? with
    | some traversal =>
      if traversal.required = ∅ then some (storage.finishTraversal index traversal.kind)
      else none
    | none => none

/-- The constructor: the first synchronization has begun, over what is on the disk. -/
def opened (mode : Mode) (pageSize capacity : ℕ) (disk : Disk) : Storage :=
  synchronize
    { mode := mode
      pageSize := pageSize
      capacity := capacity
      recordFilter := none
      blobFilter := none
      synchronizationInProgress := false
      shrinkInProgress := false
      recordFilterHashesAddedDuringSynchronization := []
      blobFilterHashesAddedDuringSynchronization := []
      reads := ⟨fun _ => [], [], false, [], [], 0, []⟩
      pendingWriteOperations := []
      activeWriteOperations := []
      writeOperationDispatchTimer := false
      activeCount := fun _ => 0
      writeTasks := []
      traversals := []
      mainQueue := []
      serialQueue := []
      disk := disk
      stored := []
      written := []
      completed := []
      mapped := [] }

/-- No operation is pending or active, and no task is queued or runs. -/
structure Idle (storage : Storage) : Prop where
  pendingWrites : storage.pendingWriteOperations = []
  activeWrites : storage.activeWriteOperations = []
  pendingReads : ∀ priority, storage.reads.pending priority = []
  activeReads : storage.reads.active = []
  readTasks : storage.reads.tasks = []
  serialQueue : storage.serialQueue = []
  mainQueue : storage.mainQueue.length = 0

/-! ### What a step can do -/

inductive Moves (storage : Storage) : Action → Storage → Prop
  | store (record : Record) : Moves storage (.store record) (storage.store record)
  | remove (key : Key) : Moves storage (.remove key) (storage.removeKey key)
  | removeKeys (keys : List Key) : Moves storage (.removeKeys keys) (storage.remove keys)
  | clear (type : Text) (everything : Bool) :
      Moves storage (.clear type everything) (storage.clear type everything)
  | setCapacity (capacity : ℕ) (exceeds : Bool) :
      Moves storage (.setCapacity capacity exceeds) (storage.setCapacity capacity exceeds)
  | retrieve (key : Key) (priority : Priority) :
      Moves storage (.retrieve key priority) (storage.retrieve key priority)
  | fireWriteTimer : Moves storage .fireWriteTimer
        (dispatchPendingWriteOperations { storage with writeOperationDispatchTimer := false })
  | fireReadTimeout : Moves storage .fireReadTimeout
        { storage with reads := storage.reads.cancelAllReadOperations }
  | runMain (accepts exceeds : Bool) (task : MainTask) (rest : List MainTask)
      (hqueue : storage.mainQueue = task :: rest) :
      Moves storage (.runMain accepts exceeds)
        (runMainTask { storage with mainQueue := rest } accepts exceeds task)
  | deleteFiles (key : Key) (keys : List Key) (rest : List SerialTask)
      (hqueue : storage.serialQueue = .deleteFiles (key :: keys) :: rest) :
      Moves storage .runSerial
        (deleteFiles { storage with serialQueue := .deleteFiles keys :: rest } key.recordPath)
  | endSerial (task : SerialTask) (rest : List SerialTask)
      (hqueue : storage.serialQueue = task :: rest)
      (hends : ∀ key keys, task ≠ .deleteFiles (key :: keys)) :
      Moves storage .runSerial { storage with serialQueue := rest }
  | storeBody (index : ℕ) (outcome : BlobOutcome) (operation : WriteOperation)
      (htask : storage.writeTasks[index]? = some ⟨operation, .dispatched⟩) :
      Moves storage (.storeBody index outcome) (storage.storeBody index operation outcome)
  | openFile (index : ℕ) (created isBodyInline : Bool) (operation : WriteOperation)
      (htask : storage.writeTasks[index]? = some ⟨operation, .encoded isBodyInline⟩) :
      Moves storage (.openFile index created)
        (storage.openFile index operation isBodyInline created)
  | writeFile (index : ℕ) (error isBodyInline : Bool) (operation : WriteOperation)
      (htask : storage.writeTasks[index]? = some ⟨operation, .opened isBodyInline⟩) :
      Moves storage (.writeFile index error) (storage.writeFile index operation isBodyInline error)
  | leaveWrite (index : ℕ) (error : Bool) (operation : WriteOperation)
      (htask : storage.writeTasks[index]? = some ⟨operation, .notOpened⟩) :
      Moves storage (.writeFile index error) (storage.leaveWrite index operation true)
  | readFile (index : ℕ) (decodes : Bool) (operation : ReadOperation)
      (blob : Option (Option (List UInt8)))
      (htask : storage.reads.tasks[index]? = some ⟨operation, none, blob⟩) :
      Moves storage (.readFile index decodes)
        (storage.updateReadTask index
          ⟨operation,
            some (if decodes then storage.disk.readRecord operation.key else none), blob⟩)
  | readBlob (index : ℕ) (operation : ReadOperation) (record : Option (Option (Record × Bool)))
      (htask : storage.reads.tasks[index]? = some ⟨operation, record, none⟩) :
      Moves storage (.readBlob index)
        (storage.updateReadTask index
          ⟨operation, record, some (storage.disk.blobs.lookup operation.key.recordPath)⟩)
  | visit (index : ℕ) (entry : Entry) (delete : Bool) (traversal : Traversal)
      (htraversal : storage.traversals[index]? = some traversal)
      (hmay : traversal.mayVisit storage.disk entry) :
      Moves storage (.visit index entry delete) (storage.visit index traversal entry delete)
  | finishTraversal (index : ℕ) (traversal : Traversal)
      (htraversal : storage.traversals[index]? = some traversal)
      (hall : traversal.required = ∅) :
      Moves storage (.finishTraversal index) (storage.finishTraversal index traversal.kind)

theorem moves_of_step {storage next : Storage} {action : Action}
    (hnext : storage.step action = some next) : Moves storage action next := by
  revert hnext
  fun_cases step storage action <;> rintro ⟨⟩
  all_goals constructor <;> assumption

end Storage

end PurcFetcher.Cache
