import PurcFetcher.Cache.Base

/-!
# The storage of the network cache

`NetworkCache::Storage` keeps its queues on the main thread and does its file work on
others.  Writes and reads run on concurrent queues in several steps, deletions one after
the other on a serial queue, and each of them may reach the disk before or after any
other.  Their completions come back to the main run loop in the order they were posted.

A state holds the fields of the storage, the tasks on each queue, the disk, and the
history of what was stored, written and delivered.  Sizes and times are left to the
environment: whether the approximate size exceeds the capacity, which file a shrink
picks, which files were modified too early for a `clear`, and whether a finished record
file decodes are parts of the actions.
-/

namespace PurcFetcher.Cache

inductive Mode
  | normal
  | avoidRandomness
  deriving DecidableEq

/-! ## The disk -/

/-- A record file: still without all of its bytes, or with a whole record, whose body is
in the file or in the blob beside it. -/
inductive File
  | unfinished
  | finished (record : Record) (isBodyInline : Bool)
  deriving DecidableEq

/-- A name in a records directory: a record file, or the link to a blob. -/
structure Entry where
  path : Path
  isBlob : Bool
  deriving DecidableEq

structure Disk where
  files : Finmap fun _ : Path => File
  blobs : Finmap fun _ : Path => List UInt8

namespace Disk

def entries (disk : Disk) : Finset Entry :=
  disk.files.keys.image (⟨·, false⟩) ∪ disk.blobs.keys.image (⟨·, true⟩)

def erase (disk : Disk) (entry : Entry) : Disk :=
  if entry.isBlob then { disk with blobs := disk.blobs.erase entry.path }
  else { disk with files := disk.files.erase entry.path }

/-- What is in the record file of a key, if the file holds a record of that key. -/
def readRecord (disk : Disk) (key : Key) : Option (Record × Bool) :=
  match disk.files.lookup key.recordPath with
  | some (.finished record isBodyInline) =>
    if record.key = key then some (record, isBodyInline) else none
  | _ => none

end Disk

/-! ## Operations and tasks -/

/-- A call of `store`, with the number of such calls before it. -/
structure WriteOperation where
  number : ℕ
  record : Record
  deriving DecidableEq

/-- A call of `retrieve`, with the number of such calls before it. -/
structure ReadOperation where
  number : ℕ
  key : Key
  deriving DecidableEq

/-- `finish`: a body that is not in the record file is taken from the blob, and a record
whose blob is missing or has another hash is dropped. -/
def ReadOperation.finish (record : Option (Record × Bool)) (blob : Option (List UInt8)) :
    Option Record :=
  match record with
  | none => none
  | some (record, isBodyInline) =>
    if isBodyInline ∨ blob = some record.body.bytes then some record else none

/-- What a read of the key gives when nothing else touches the disk. -/
def Disk.record (disk : Disk) (key : Key) : Option Record :=
  ReadOperation.finish (disk.readRecord key) (disk.blobs.lookup key.recordPath)

/-- How far the background task of a write operation is. -/
inductive WriteStage
  | dispatched
  | encoded (isBodyInline : Bool)
  | opened (isBodyInline : Bool)
  | notOpened
  deriving DecidableEq

structure WriteTask where
  operation : WriteOperation
  stage : WriteStage
  deriving DecidableEq

/-- A read on its queue: what the reads of the record file and of the blob gave, once
they have finished. -/
structure ReadTask where
  operation : ReadOperation
  record : Option (Option (Record × Bool))
  blob : Option (Option (List UInt8))
  deriving DecidableEq

inductive TraversalKind
  | synchronize (recordFilter blobFilter : ContentsFilter)
  | shrink
  | clear (type : Text) (everything : Bool)

/-- `traverseRecordsFiles` lists one directory after the other, so a name that is there
from the beginning to the end is seen; a name that is deleted, made again or new may be
seen or not. -/
structure Traversal where
  kind : TraversalKind
  /-- The names that have been there since the traversal began and were not seen yet. -/
  required : Finset Entry
  /-- The names that were deleted since, perhaps after they were listed. -/
  deleted : Finset Entry

namespace Traversal

def expectsType (kind : TraversalKind) (path : Path) : Bool :=
  match kind with
  | .clear type _ => type.getD [] = [] || path.type = type
  | _ => true

def start (kind : TraversalKind) (disk : Disk) : Traversal :=
  ⟨kind, disk.entries.filter fun entry => expectsType kind entry.path, ∅⟩

def forget (entry : Entry) (traversal : Traversal) : Traversal :=
  { traversal with
    required := traversal.required.erase entry
    deleted := insert entry traversal.deleted }

/-- The names that the traversal can come to next. -/
def mayVisit (disk : Disk) (traversal : Traversal) (entry : Entry) : Bool :=
  entry ∈ traversal.required ||
    (expectsType traversal.kind entry.path && (entry ∈ disk.entries || entry ∈ traversal.deleted))

/-- A synchronization adds the hash of a name it sees to the filter it collects. -/
def see (entry : Entry) : TraversalKind → TraversalKind
  | .synchronize recordFilter blobFilter =>
    if entry.isBlob then .synchronize recordFilter (blobFilter.add entry.path.hash)
    else .synchronize (recordFilter.add entry.path.hash) blobFilter
  | kind => kind

def visited (entry : Entry) (traversal : Traversal) : Traversal :=
  { traversal with
    kind := see entry traversal.kind
    required := traversal.required.erase entry }

end Traversal

inductive MainTask
  | synchronized (recordFilter blobFilter : ContentsFilter)
  | shrunk
  | blobStored (operation : WriteOperation)
  | written (operation : WriteOperation) (error : Bool)
  | finishRead (operation : ReadOperation) (record : Option (Record × Bool))
      (blob : Option (List UInt8))
  | deliver (operation : ReadOperation) (found : WriteOperation)

inductive SerialTask
  | deleteFiles (keys : List Key)
  | updateFileModificationTime (path : Path)
  deriving DecidableEq

/-! ## The read operations -/

def maximumRetrievePriority : ℕ := 4

abbrev Priority := Fin (maximumRetrievePriority + 1)

/-- Named, so that the literals of a priority are the same term everywhere. -/
instance (priority := 2000) instNeZeroPriority : NeZero (maximumRetrievePriority + 1) :=
  ⟨Nat.succ_ne_zero _⟩

def priorities : List Priority := [4, 3, 2, 1, 0]

def maximumActiveReadOperationCount : ℕ := 5

structure Reads where
  /-- The newest operation of each queue is in front. -/
  pending : Priority → List ReadOperation
  active : List ReadOperation
  timeoutTimer : Bool
  tasks : List ReadTask
  canceled : List ReadOperation
  /-- The number of calls of `retrieve`. -/
  retrieved : ℕ
  /-- The calls of the completion handlers. -/
  delivered : List (ReadOperation × Option Record)

namespace Reads

def deliver (operation : ReadOperation) (record : Option Record) (reads : Reads) : Reads :=
  { reads with delivered := reads.delivered ++ [(operation, record)] }

variable (mode : Mode) (mayContainBlob : Key → Bool)

def dispatchReadOperation (operation : ReadOperation) (reads : Reads) : Reads :=
  { reads with
    active := operation :: reads.active
    timeoutTimer := reads.timeoutTimer || mode ≠ .avoidRandomness
    tasks := reads.tasks ++
      [⟨operation, none, if mayContainBlob operation.key then none else some none⟩] }

def dispatchPending : List Priority → Reads → Reads
  | [], reads => reads
  | priority :: rest, reads =>
    if reads.active.length > maximumActiveReadOperationCount then reads
    else
      match (reads.pending priority).getLast? with
      | none => dispatchPending rest reads
      | some operation =>
        dispatchPending rest (dispatchReadOperation mode mayContainBlob operation
          { reads with
            pending := Function.update reads.pending priority
              (reads.pending priority).dropLast })

def retrieve (priority : Priority) (operation : ReadOperation) (reads : Reads) : Reads :=
  dispatchPending mode mayContainBlob priorities
    { reads with
      pending := Function.update reads.pending priority
        (operation :: reads.pending priority) }

/-- The end of `finishReadOperation`. -/
def leave (operation : ReadOperation) (reads : Reads) : Reads :=
  dispatchPending mode mayContainBlob priorities
    { reads with
      active := reads.active.erase operation
      timeoutTimer := reads.timeoutTimer && reads.active.erase operation ≠ [] }

/-- `cancel`, which tells the handler once. -/
def cancel (reads : Reads) (operation : ReadOperation) : Reads :=
  if operation ∈ reads.canceled then reads
  else
    { deliver operation none reads with canceled := operation :: reads.canceled }

def cancelAllReadOperations (reads : Reads) : Reads :=
  { (reads.active ++ priorities.flatMap fun priority =>
      (reads.pending priority).reverse).foldl cancel reads with
    pending := fun _ => []
    timeoutTimer := false }

end Reads

/-! ## The storage -/

structure Storage where
  mode : Mode
  pageSize : ℕ
  capacity : ℕ
  recordFilter : Option ContentsFilter
  blobFilter : Option ContentsFilter
  synchronizationInProgress : Bool
  shrinkInProgress : Bool
  recordFilterHashesAddedDuringSynchronization : List Digest
  blobFilterHashesAddedDuringSynchronization : List Digest
  reads : Reads
  /-- The newest operation is in front. -/
  pendingWriteOperations : List WriteOperation
  activeWriteOperations : List WriteOperation
  writeOperationDispatchTimer : Bool
  /-- The active count of each write operation, by its number. -/
  activeCount : ℕ → ℕ
  writeTasks : List WriteTask
  traversals : List Traversal
  mainQueue : List MainTask
  serialQueue : List SerialTask
  disk : Disk
  /-- The operations made by `store`, in order. -/
  stored : List WriteOperation
  /-- The operations whose record was written, in order. -/
  written : List WriteOperation
  /-- The calls of the completion handlers of `store`. -/
  completed : List (WriteOperation × Bool)
  /-- The calls of the mapped-body handlers. -/
  mapped : List WriteOperation

namespace Storage

variable (storage : Storage)

/-! ### Filters -/

def addToRecordFilter (key : Key) : Storage :=
  { storage with
    recordFilter := storage.recordFilter.map (·.add key.hash)
    recordFilterHashesAddedDuringSynchronization :=
      if storage.synchronizationInProgress then
        storage.recordFilterHashesAddedDuringSynchronization ++ [key.hash]
      else storage.recordFilterHashesAddedDuringSynchronization }

def addToBlobFilter (key : Key) : Storage :=
  { storage with
    blobFilter := storage.blobFilter.map (·.add key.hash)
    blobFilterHashesAddedDuringSynchronization :=
      if storage.synchronizationInProgress then
        storage.blobFilterHashesAddedDuringSynchronization ++ [key.hash]
      else storage.blobFilterHashesAddedDuringSynchronization }

/-- A filter that is not there yet may contain everything. -/
def filterMayContain (filter : Option ContentsFilter) (key : Key) : Bool :=
  match filter with
  | none => true
  | some filter => filter.mayContain key.hash

def mayContain (key : Key) : Bool := filterMayContain storage.recordFilter key

def mayContainBlob (key : Key) : Bool := filterMayContain storage.blobFilter key

/-! ### Names on the disk -/

def deleteFile (entry : Entry) : Storage :=
  { storage with
    disk := storage.disk.erase entry
    traversals := storage.traversals.map (Traversal.forget entry) }

/-- `deleteFiles` of the key with this path. -/
def deleteFiles (path : Path) : Storage :=
  (storage.deleteFile ⟨path, false⟩).deleteFile ⟨path, true⟩

def putFile (path : Path) (file : File) : Storage :=
  { storage with disk.files := storage.disk.files.insert path file }

def putBlob (path : Path) (body : List UInt8) : Storage :=
  { storage with disk.blobs := storage.disk.blobs.insert path body }

/-! ### Synchronizing and shrinking -/

def synchronize : Storage :=
  if storage.synchronizationInProgress || storage.shrinkInProgress then storage
  else
    { storage with
      synchronizationInProgress := true
      traversals := storage.traversals ++
        [.start (.synchronize BloomFilter.empty BloomFilter.empty) storage.disk] }

def shrink : Storage :=
  if storage.shrinkInProgress || storage.synchronizationInProgress then storage
  else
    { storage with
      shrinkInProgress := true
      traversals := storage.traversals ++ [.start .shrink storage.disk] }

/-- `exceeds` tells whether the approximate size is above the capacity. -/
def shrinkIfNeeded (exceeds : Bool) : Storage :=
  if storage.mode = .avoidRandomness then storage
  else if exceeds then storage.shrink
  else storage

/-! ### Writing -/

def dispatchWriteOperation (operation : WriteOperation) : Storage :=
  { storage.addToRecordFilter operation.record.key with
    activeWriteOperations := operation :: storage.activeWriteOperations
    writeTasks := storage.writeTasks ++ [⟨operation, .dispatched⟩] }

def maximumActiveWriteOperationCount : ℕ := 1

/-- The loop of `dispatchPendingWriteOperations`, with a bound on its rounds. -/
def dispatchRounds : ℕ → Storage → Storage
  | 0, storage => storage
  | rounds + 1, storage =>
    match storage.pendingWriteOperations.getLast? with
    | none => storage
    | some operation =>
      if storage.activeWriteOperations.length ≥ maximumActiveWriteOperationCount then
        storage
      else
        dispatchRounds rounds
          (dispatchWriteOperation
            { storage with
              pendingWriteOperations := storage.pendingWriteOperations.dropLast }
            operation)

/-- Each round takes an operation out of the pending ones. -/
def dispatchPendingWriteOperations : Storage :=
  dispatchRounds storage.pendingWriteOperations.length storage

def finishWriteOperation (operation : WriteOperation) (error exceeds : Bool) : Storage :=
  let counted := { storage with
    activeCount := Function.update storage.activeCount operation.number
      (storage.activeCount operation.number - 1) }
  if storage.activeCount operation.number - 1 ≠ 0 then counted
  else
    (dispatchPendingWriteOperations
      { counted with
        completed := storage.completed ++ [(operation, error)]
        activeWriteOperations :=
          storage.activeWriteOperations.erase operation }).shrinkIfNeeded exceeds

def store (record : Record) : Storage :=
  if storage.capacity = 0 then storage
  else
    let operation : WriteOperation := ⟨storage.stored.length, record⟩
    let added := addToRecordFilter { storage with
      stored := storage.stored ++ [operation]
      pendingWriteOperations := operation :: storage.pendingWriteOperations } record.key
    let isInitialWrite := added.pendingWriteOperations.length = 1
    if ¬ isInitialWrite ∨ (storage.synchronizationInProgress ∧ storage.mode = .avoidRandomness)
    then added
    else { added with writeOperationDispatchTimer := true }

/-! ### Removing -/

/-- Both forms of `remove`: the keys that the filter denies are skipped. -/
def remove (keys : List Key) : Storage :=
  let keysToRemove := keys.filter storage.mayContain
  { storage with
    pendingWriteOperations := storage.pendingWriteOperations.filter
      fun operation => operation.record.key ∉ keysToRemove
    serialQueue := storage.serialQueue ++ [.deleteFiles keysToRemove] }

def removeKey (key : Key) : Storage :=
  if storage.mayContain key then storage.remove [key] else storage

def clear (type : Text) (everything : Bool) : Storage :=
  { storage with
    recordFilter := storage.recordFilter.map fun _ => BloomFilter.empty
    blobFilter := storage.blobFilter.map fun _ => BloomFilter.empty
    traversals := storage.traversals ++ [.start (.clear type everything) storage.disk] }

def setCapacity (capacity : ℕ) (exceeds : Bool) : Storage :=
  if storage.capacity = capacity then storage
  else shrinkIfNeeded { storage with capacity := capacity } exceeds

/-! ### Reading -/

/-- `retrieveFromMemory`, over the pending operations and then over the active ones. -/
def findWriteOperation (key : Key) : Option WriteOperation :=
  (storage.pendingWriteOperations ++ storage.activeWriteOperations).find?
    fun operation => operation.record.key = key

def retrieve (key : Key) (priority : Priority) : Storage :=
  let operation : ReadOperation := ⟨storage.reads.retrieved, key⟩
  let reads := { storage.reads with retrieved := storage.reads.retrieved + 1 }
  if storage.capacity = 0 then { storage with reads := reads.deliver operation none }
  else if ¬ storage.mayContain key then
    { storage with reads := reads.deliver operation none }
  else
    match storage.findWriteOperation key with
    | some found =>
      { storage with
        reads := reads
        mainQueue := storage.mainQueue ++ [.deliver operation found] }
    | none =>
      { storage with
        reads := reads.retrieve storage.mode storage.mayContainBlob priority operation }

/-- `accepts` is what the completion handler returns. -/
def finishReadOperation (operation : ReadOperation) (record : Option (Record × Bool))
    (blob : Option (List UInt8)) (accepts : Bool) : Storage :=
  let finished :=
    if operation ∈ storage.reads.canceled then storage
    else
      let told := { storage with
        reads := storage.reads.deliver operation (ReadOperation.finish record blob) }
      if accepts then
        { told with
          serialQueue := told.serialQueue ++
            [.updateFileModificationTime operation.key.recordPath] }
      else told.removeKey operation.key
  { finished with
    reads := finished.reads.leave finished.mode finished.mayContainBlob operation }

/-! ### The main run loop -/

/-- The new filter takes over what was added while it was collected. -/
def finishSynchronization (recordFilter blobFilter : ContentsFilter) : Storage :=
  let installed := { storage with
    recordFilter := some (recordFilter.addAll storage.recordFilterHashesAddedDuringSynchronization)
    blobFilter := some (blobFilter.addAll storage.blobFilterHashesAddedDuringSynchronization)
    recordFilterHashesAddedDuringSynchronization := []
    blobFilterHashesAddedDuringSynchronization := []
    synchronizationInProgress := false }
  if storage.mode = .avoidRandomness then installed.dispatchPendingWriteOperations
  else installed

def runMainTask (accepts exceeds : Bool) : MainTask → Storage
  | .synchronized recordFilter blobFilter => storage.finishSynchronization recordFilter blobFilter
  | .shrunk => synchronize { storage with shrinkInProgress := false }
  | .blobStored operation =>
    finishWriteOperation
      { storage.addToBlobFilter operation.record.key with
        mapped := storage.mapped ++ [operation] } operation false exceeds
  | .written operation error => storage.finishWriteOperation operation error exceeds
  | .finishRead operation record blob => storage.finishReadOperation operation record blob accepts
  | .deliver operation found =>
    { storage with reads := storage.reads.deliver operation (some found.record) }

/-! ### The background tasks -/

inductive BlobOutcome
  | stored
  | notLinked
  | notStored
  deriving DecidableEq

def shouldStoreBodyAsBlob (body : Data) : Bool := body.size > storage.pageSize

def countActive (operation : WriteOperation) (count : ℕ) : Storage :=
  { storage with
    activeCount := Function.update storage.activeCount operation.number
      (storage.activeCount operation.number + count) }

/-- The first part of the task of a write: a large body is stored as a blob.  The task
counts once for the record and once more for a blob. -/
def storeBody (index : ℕ) (operation : WriteOperation) (outcome : BlobOutcome) : Storage :=
  let path := operation.record.key.recordPath
  let encoded (isBodyInline : Bool) (storage : Storage) : Storage :=
    { storage with
      writeTasks := storage.writeTasks.set index ⟨operation, .encoded isBodyInline⟩ }
  if ¬ storage.shouldStoreBodyAsBlob operation.record.body then
    encoded true (storage.countActive operation 1)
  else
    let deleted := storage.deleteFile ⟨path, true⟩
    let posted (storage : Storage) : Storage :=
      { storage with mainQueue := storage.mainQueue ++ [.blobStored operation] }
    match outcome with
    | .notStored => encoded true (deleted.countActive operation 1)
    | .notLinked => encoded false (posted (deleted.countActive operation 2))
    | .stored =>
      encoded false (posted
        ((deleted.putBlob path operation.record.body.bytes).countActive operation 2))

/-- Opening a channel to create a file deletes the file that was there. -/
def openFile (index : ℕ) (operation : WriteOperation) (isBodyInline created : Bool) :
    Storage :=
  let path := operation.record.key.recordPath
  let deleted := storage.deleteFile ⟨path, false⟩
  if created then
    { deleted.putFile path .unfinished with
      writeTasks := storage.writeTasks.set index ⟨operation, .opened isBodyInline⟩ }
  else
    { deleted with writeTasks := storage.writeTasks.set index ⟨operation, .notOpened⟩ }

/-- The bytes of a file whose name was deleted in the meantime go nowhere. -/
def finishFile (operation : WriteOperation) (isBodyInline : Bool) : Storage :=
  let path := operation.record.key.recordPath
  if path ∈ storage.disk.files then
    storage.putFile path (.finished operation.record isBodyInline)
  else storage

/-- The write has ended, and its completion goes to the main run loop. -/
def leaveWrite (index : ℕ) (operation : WriteOperation) (error : Bool) : Storage :=
  { storage with
    writeTasks := storage.writeTasks.eraseIdx index
    mainQueue := storage.mainQueue ++ [.written operation error] }

def writeFile (index : ℕ) (operation : WriteOperation) (isBodyInline error : Bool) :
    Storage :=
  if error then storage.leaveWrite index operation true
  else
    leaveWrite
      { storage.finishFile operation isBodyInline with
        written := storage.written ++ [operation] } index operation false

/-- `finishReadOperation` on the queue of the read: both reads must finish. -/
def updateReadTask (index : ℕ) (task : ReadTask) : Storage :=
  match task.record, task.blob with
  | some record, some blob =>
    { storage with
      reads.tasks := storage.reads.tasks.eraseIdx index
      mainQueue := storage.mainQueue ++ [.finishRead task.operation record blob] }
  | _, _ => { storage with reads.tasks := storage.reads.tasks.set index task }

/-- What a traversal does with a name it sees. -/
def visit (index : ℕ) (traversal : Traversal) (entry : Entry) (delete : Bool) : Storage :=
  let seen := { storage with
    traversals := storage.traversals.set index (traversal.visited entry) }
  match traversal.kind with
  | .synchronize _ _ => seen
  | .shrink => if delete ∧ ¬ entry.isBlob then seen.deleteFiles entry.path else seen
  | .clear _ everything => if everything ∨ delete then seen.deleteFile entry else seen

/-- A traversal that has seen everything it must see ends. -/
def finishTraversal (index : ℕ) (kind : TraversalKind) : Storage :=
  let left := { storage with traversals := storage.traversals.eraseIdx index }
  match kind with
  | .synchronize recordFilter blobFilter =>
    { left with mainQueue := left.mainQueue ++ [.synchronized recordFilter blobFilter] }
  | .shrink => { left with mainQueue := left.mainQueue ++ [.shrunk] }
  | .clear _ _ => left

end Storage

end PurcFetcher.Cache
