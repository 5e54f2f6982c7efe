import PurcFetcher.DomCache.Records

/-!
# The caches of an origin

The caches of an origin share a storage of records and count its size.  A cache that is open
has an index of its records.  The index is read from the disk by a traversal when the cache is
opened, and is given up when the cache is disposed.  A removed cache keeps its index until it is
disposed, and then its records are removed from the storage.

Records are stored one after another, and are removed on another queue, so that a store that has
begun and a removal reach the disk in either order.  A store that has not begun is given up when
its record is removed.  A traversal sees the disk only.  A replaced record is read before it is
written, and the cache may have changed when the read completes.  Nothing fails for want of space
or on input and output.
-/

namespace PurcFetcher.DomCache

open Text

/-! ## A cache -/

inductive CacheState
  | uninitialized
  | opening
  | opened
deriving DecidableEq

structure Cache where
  identifier : ℕ
  name : Str
  uniqueName : ℕ
  state : CacheState
  /-- The index, without its division by URL. -/
  records : List RecordInformation
  nextRecordIdentifier : ℕ

namespace Cache

def isActive (cache : Cache) : Bool := cache.state ≠ .uninitialized

def keys (cache : Cache) : List Key := cache.records.map RecordInformation.key

def clearMemoryRepresentation (cache : Cache) : Cache :=
  { cache with records := [], nextRecordIdentifier := 0, state := .uninitialized }

/-- `finishOpening` with what the traversal has found.  The records get their identifiers in
the order of insertion. -/
def finishOpening (found : List RecordInformation) (cache : Cache) : Cache :=
  let sorted := found.insertionSort fun first second => first.insertionTime ≤ second.insertionTime
  { cache with
    records := found.map fun record =>
      { record with
        identifier := cache.nextRecordIdentifier + 1 +
          (sorted.map RecordInformation.key).idxOf record.key }
    nextRecordIdentifier := cache.nextRecordIdentifier + found.length
    state := .opened }

/-- Replace the information about the record with the key. -/
def changeRecord (key : Key) (change : RecordInformation → RecordInformation) (cache : Cache) :
    Cache :=
  { cache with
    records := cache.records.map fun record => if record.key = key then change record else record }

def appendRecord (information : RecordInformation) (cache : Cache) : Cache :=
  { cache with
    records := cache.records ++ [information]
    nextRecordIdentifier := cache.nextRecordIdentifier + 1 }

/-- The records that a removal by a request matches. -/
def shouldRemove (parse : Str → URL) (cache : Cache) (request : ResourceRequest)
    (options : CacheQueryOptions) (item : RecordInformation) : Bool :=
  let records := recordsFromURL request.url cache.records
  let recordIdentifiers := queryCache parse request options records
  computeKeyURL item.url == computeKeyURL request.url &&
    recordIdentifiers.contains item.identifier

def dropRecords (shouldRemove : RecordInformation → Bool) (cache : Cache) : Cache :=
  { cache with records := cache.records.filter fun record => !shouldRemove record }

end Cache

/-! ## The storage -/

/-- A replacement of a record whose request is being read from the storage. -/
structure Update where
  cacheIdentifier : ℕ
  recordIdentifier : ℕ
  request : ResourceRequest
  record : Record

structure Traversal where
  cacheIdentifier : ℕ
  found : List RecordInformation

structure Caches where
  shouldPersist : Bool
  isInitialized : Bool
  size : UInt64
  caches : List Cache
  removedCaches : List Cache
  disk : HashMap Key StoredRecord
  activeWriteOperation : Option (Key × StoredRecord)
  pendingWriteOperations : List (Key × StoredRecord)
  /-- The keys of each removal that waits on the serial queue. -/
  removals : List (List Key)
  volatileStorage : HashMap Key Record
  /-- The file with the names and unique names of the caches. -/
  cachesList : List (Str × ℕ)
  traversals : List Traversal
  updates : List Update
  nextCacheIdentifier : ℕ
  nextUUID : ℕ

/-- A directory in which caches were stored.  The UUIDs in it are below `nextUUID`. -/
structure Directory where
  disk : HashMap Key StoredRecord
  cachesList : List (Str × ℕ)
  nextUUID : ℕ
  keys_lt : ∀ key ∈ disk, key.type < nextUUID ∧ key.identifier < nextUUID
  names_lt : ∀ entry ∈ cachesList, entry.2 < nextUUID
  names_nodup : (cachesList.map Prod.snd).Nodup

def Directory.empty : Directory where
  disk := ∅
  cachesList := []
  nextUUID := 0
  keys_lt key hkey := absurd hkey (AList.notMem_empty key)
  names_lt _ hentry := absurd hentry List.not_mem_nil
  names_nodup := List.nodup_nil

namespace Caches

variable (caches : Caches)

def create (shouldPersist : Bool) (directory : Directory) : Caches where
  shouldPersist := shouldPersist
  isInitialized := false
  size := 0
  caches := []
  removedCaches := []
  disk := directory.disk
  activeWriteOperation := none
  pendingWriteOperations := []
  removals := []
  volatileStorage := ∅
  cachesList := directory.cachesList
  traversals := []
  updates := []
  nextCacheIdentifier := 0
  nextUUID := directory.nextUUID

def writeOperations : List (Key × StoredRecord) :=
  caches.activeWriteOperation.toList ++ caches.pendingWriteOperations

/-- The disk once the removals and the stores have reached it. -/
def stored : HashMap Key StoredRecord :=
  (caches.disk.eraseAll caches.removals.flatten).insertAll caches.writeOperations

/-- No store and no removal is pending. -/
def isSettled : Bool := caches.writeOperations.isEmpty && caches.removals.isEmpty

/-- A store of one of the keys has begun. -/
def isWriting (keys : List Key) : Bool :=
  caches.activeWriteOperation.any fun operation => operation.1 ∈ keys

/-- `Storage::remove`, for each list of keys in turn. -/
def removeFromStorage (removals : List (List Key)) : Caches :=
  { caches with
    pendingWriteOperations :=
      caches.pendingWriteOperations.filter fun operation => operation.1 ∉ removals.flatten
    removals := caches.removals ++ removals }

/-- The recorded sizes of the records that are kept. -/
def kept : HashMap Key UInt64 :=
  if caches.shouldPersist then caches.stored.mapValues StoredRecord.size
  else caches.volatileStorage.mapValues Record.responseBodySize

def all : List Cache := caches.caches ++ caches.removedCaches

def find (identifier : ℕ) : Option Cache :=
  caches.all.find? fun cache => cache.identifier = identifier

def modifyCache (identifier : ℕ) (change : Cache → Cache) : Caches :=
  let changed (cache : Cache) := if cache.identifier = identifier then change cache else cache
  { caches with
    caches := caches.caches.map changed
    removedCaches := caches.removedCaches.map changed }

def hasActiveCache : Bool := !caches.removedCaches.isEmpty || caches.caches.any Cache.isActive

def writeCachesToDisk : Caches :=
  if caches.shouldPersist then
    { caches with
      cachesList := caches.caches.map fun cache => (cache.name, cache.uniqueName) }
  else caches

/-! ## Initialization -/

def readCachesFromDisk : Caches :=
  { caches with
    caches := caches.cachesList.zipIdx.map fun numbered =>
      { identifier := caches.nextCacheIdentifier + numbered.2
        name := numbered.1.1
        uniqueName := numbered.1.2
        state := .uninitialized
        records := []
        nextRecordIdentifier := 0 }
    nextCacheIdentifier := caches.nextCacheIdentifier + caches.cachesList.length }

/-- The size wraps around as a sum of `uint64_t`. -/
def initializeSize : Caches :=
  { caches with
    size := (caches.disk.entries.map fun entry => entry.2.size).sum
    isInitialized := true }

def initializeCaches : Caches :=
  if caches.isInitialized then caches
  else if caches.shouldPersist then caches.readCachesFromDisk.initializeSize
  else { caches with isInitialized := true }

/-! ## Opening -/

/-- What a traversal of the records of a type finds. -/
def readRecordsList (uniqueName : ℕ) : List RecordInformation :=
  if caches.shouldPersist then
    (caches.disk.entries.filter fun entry => entry.1.type = uniqueName).map fun entry =>
      RecordInformation.ofRecord entry.1 entry.2.insertionTime 0 entry.2.record
  else []

/-- `Cache::open`. -/
def openCache (cache : Cache) : Caches :=
  match cache.state with
  | .opened | .opening => caches
  | .uninitialized =>
    { caches.modifyCache cache.identifier fun cache => { cache with state := .opening } with
      traversals := caches.traversals ++
        [⟨cache.identifier, caches.readRecordsList cache.uniqueName⟩] }

def finishOpening (index : ℕ) : Option Caches :=
  caches.traversals[index]?.map fun traversal =>
    { caches.modifyCache traversal.cacheIdentifier (Cache.finishOpening traversal.found) with
      traversals := caches.traversals.eraseIdx index }

/-- `Caches::open`. -/
def openNamed (name : Str) : Caches :=
  match caches.caches.find? fun cache => cache.name = name with
  | some cache => caches.openCache cache
  | none =>
    writeCachesToDisk
      { caches with
        caches := caches.caches ++
          [{ identifier := caches.nextCacheIdentifier
             name := name
             uniqueName := caches.nextUUID
             state := .opened
             records := []
             nextRecordIdentifier := 0 }]
        nextCacheIdentifier := caches.nextCacheIdentifier + 1
        nextUUID := caches.nextUUID + 1 }

/-! ## Writing -/

def writeRecord (information : RecordInformation) (record : Record)
    (hsize : information.size = record.responseBodySize) (previousRecordSize : UInt64) :
    Caches :=
  let counted := { caches with size := caches.size + information.size - previousRecordSize }
  if caches.shouldPersist then
    { counted with
      pendingWriteOperations := caches.pendingWriteOperations ++
        [(information.key, ⟨information.insertionTime, information.size, record, hsize⟩)] }
  else
    { counted with
      volatileStorage := caches.volatileStorage.insert information.key record }

def readRecord (key : Key) : Option Record :=
  if caches.shouldPersist then (caches.stored.lookup key).map StoredRecord.record
  else caches.volatileStorage.lookup key

/-- `toRecordInformation`. -/
def toRecordInformation (cache : Cache) (insertionTime : ℕ) (record : Record) :
    RecordInformation :=
  .ofRecord ⟨cache.uniqueName, caches.nextUUID⟩ insertionTime (cache.nextRecordIdentifier + 1)
    record

theorem size_toRecordInformation (cache : Cache) (time : ℕ) (record : Record) :
    (caches.toRecordInformation cache time record).size = record.responseBodySize :=
  congrArg Prod.snd (RecordInformation.recorded_ofRecord _ time _ record)

def addRecord (cache : Cache) (insertionTime : ℕ) (record : Record) : Caches :=
  let information := caches.toRecordInformation cache insertionTime record
  writeRecord
    { caches.modifyCache cache.identifier (Cache.appendRecord information) with
      nextUUID := caches.nextUUID + 1 }
    information record (caches.size_toRecordInformation cache insertionTime record) 0

/-- The information about a record that is replaced by another one with the same request. -/
def replaceInformation (record : Record) (information : RecordInformation) :
    RecordInformation :=
  { information with size := record.responseBodySize }.updateVaryInformation
    record.request record.response

theorem size_replaceInformation (record : Record) (info : RecordInformation) :
    (replaceInformation record info).size = record.responseBodySize :=
  congrArg Prod.snd
    (RecordInformation.recorded_updateVaryInformation _ record.request record.response)

/-- The rest of `updateRecordToDisk`, once the record has been read. -/
def finishUpdate (update : Update) : Caches :=
  match caches.find update.cacheIdentifier with
  | none => caches
  | some cache =>
    match (recordsFromURL update.request.url cache.records).find? fun item =>
      item.identifier = update.recordIdentifier with
    | none => caches
    | some recordInfo =>
      let record := { update.record with request := update.request }
      writeRecord
        (caches.modifyCache cache.identifier
          (Cache.changeRecord recordInfo.key fun _ => replaceInformation record recordInfo))
        (replaceInformation record recordInfo) record
        (size_replaceInformation record recordInfo) recordInfo.size

def updateRecordToDisk (cache : Cache) (existingRecord : RecordInformation) (record : Record) :
    Caches :=
  let counted := caches.modifyCache cache.identifier
    (Cache.changeRecord existingRecord.key fun item =>
      { item with updateResponseCounter := item.updateResponseCounter + 1 })
  match caches.readRecord existingRecord.key with
  | none => counted
  | some result =>
    let update : Update := ⟨cache.identifier, existingRecord.identifier, result.request, record⟩
    if caches.shouldPersist then { counted with updates := counted.updates ++ [update] }
    else counted.finishUpdate update

variable (parse : Str → URL)

def storeRecord (identifier insertionTime : ℕ) (record : Record) : Caches :=
  match caches.find identifier with
  | none => caches
  | some cache =>
    let sameURLRecords := recordsFromURL record.request.url cache.records
    let matchingRecords := queryCache parse record.request { } sameURLRecords
    match matchingRecords.head?.bind fun first =>
      sameURLRecords.find? fun item => item.identifier = first with
    | none => caches.addRecord cache insertionTime record
    | some existingRecord => caches.updateRecordToDisk cache existingRecord record

def storeRecords (identifier insertionTime : ℕ) (records : List Record) : Caches :=
  records.foldl (fun caches record => caches.storeRecord parse identifier insertionTime record)
    caches

/-! ## Removing -/

def removeRecords (records : List RecordInformation) : Caches :=
  let counted :=
    { caches with size := (records.map RecordInformation.size).foldl (· - ·) caches.size }
  if caches.shouldPersist then
    counted.removeFromStorage (records.map fun record => [record.key])
  else
    { counted with
      volatileStorage := caches.volatileStorage.eraseAll (records.map RecordInformation.key) }

/-- `Cache::remove`. -/
def removeMatching (cache : Cache) (request : ResourceRequest) (options : CacheQueryOptions) :
    Caches :=
  let shouldRemove := cache.shouldRemove parse request options
  removeRecords (caches.modifyCache cache.identifier (Cache.dropRecords shouldRemove))
    (cache.records.filter shouldRemove)

/-- `Caches::remove`. -/
def remove (identifier : ℕ) : Caches :=
  match caches.caches.find? fun cache => cache.identifier = identifier with
  | none => caches
  | some cache =>
    writeCachesToDisk
      { caches with
        removedCaches := caches.removedCaches ++ [cache]
        caches := caches.caches.eraseP fun cache => cache.identifier = identifier }

def clearMemoryRepresentation : Caches :=
  { caches with caches := [], isInitialized := false, volatileStorage := ∅ }

def disposeRemoved (cache : Cache) : Caches :=
  { caches.removeFromStorage (if caches.shouldPersist then [cache.keys] else []) with
    removedCaches := caches.removedCaches.eraseP fun other => other.identifier = cache.identifier }

def disposeLive (cache : Cache) : Caches :=
  if caches.shouldPersist then
    let cleared := caches.modifyCache cache.identifier Cache.clearMemoryRepresentation
    if cleared.hasActiveCache then cleared else cleared.clearMemoryRepresentation
  else caches

def dispose (cache : Cache) : Caches :=
  if caches.removedCaches.any fun other => other.identifier = cache.identifier then
    caches.disposeRemoved cache
  else caches.disposeLive cache

end Caches

/-! ## Runs -/

inductive Action
  | initializeCaches
  | openNamed (name : Str)
  /-- A cache is opened by its identifier, to be read or written. -/
  | readCache (identifier : ℕ)
  | finishOpening (index : ℕ)
  /-- The space that `put` asked for has been granted. -/
  | storeRecords (identifier insertionTime : ℕ) (records : List Record)
  | finishUpdate (index : ℕ)
  | delete (identifier : ℕ) (request : ResourceRequest) (options : CacheQueryOptions)
  | remove (identifier : ℕ)
  | dispose (identifier : ℕ)
  /-- The first pending store begins. -/
  | dispatchWriteOperation
  | completeWrite
  /-- The first removal on the serial queue is performed. -/
  | completeRemoval

open Caches in
def step (parse : Str → URL) (caches : Caches) : Action → Option Caches
  | .initializeCaches => some caches.initializeCaches
  | .openNamed name => if caches.isInitialized then some (caches.openNamed name) else none
  | .readCache identifier => (caches.find identifier).map caches.openCache
  | .finishOpening index => caches.finishOpening index
  | .storeRecords identifier insertionTime records =>
    some (caches.storeRecords parse identifier insertionTime records)
  | .finishUpdate index =>
    caches.updates[index]?.map fun update =>
      finishUpdate { caches with updates := caches.updates.eraseIdx index } update
  | .delete identifier request options =>
    (caches.find identifier).bind fun cache =>
      if cache.state = .opened then some (caches.removeMatching parse cache request options)
      else none
  | .remove identifier => if caches.isInitialized then some (caches.remove identifier) else none
  | .dispose identifier => (caches.find identifier).map caches.dispose
  | .dispatchWriteOperation =>
    match caches.activeWriteOperation, caches.pendingWriteOperations with
    | none, operation :: operations =>
      some { caches with
        activeWriteOperation := some operation
        pendingWriteOperations := operations }
    | _, _ => none
  | .completeWrite =>
    caches.activeWriteOperation.map fun operation =>
      { caches with
        disk := caches.disk.insert operation.1 operation.2
        activeWriteOperation := none }
  | .completeRemoval =>
    match caches.removals with
    | [] => none
    | keys :: removals =>
      some { caches with disk := caches.disk.eraseAll keys, removals := removals }

end PurcFetcher.DomCache
