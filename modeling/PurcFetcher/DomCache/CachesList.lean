import PurcFetcher.Wtf.Persistence
import PurcFetcher.DomCache.Caches

/-!
# The list of the caches on the disk

The names of the caches of an origin are kept in a file, which is written again when a cache is
opened under a new name or removed.  A request that arrives during a write waits until the write
has completed.

The requests are numbered in the order of their arrival, and the number of a request stands for
its callback.  File operations are performed in the order in which they were asked for.  A write
that was performed completes later on the main thread, as do the clearing of the storage and the
traversal of the records of a cache that is opened.  A request to open or to remove a cache needs
an object that is initialized.  After a clear the object is not initialized, and the engine reads
the list again before the next such request.
-/

namespace PurcFetcher.CachesList

open Text Persistence DomCache

/-! ## The file -/

/-- A `String`, which may be null. -/
abbrev Name := { string : Option Str // ∀ units, string = some units → units.length ≤ maxLength }

abbrev Names := Name × Name

def encodeName (width : StringWidth) (encoder : Encoder) (names : Names) : Encoder :=
  (encoder.encodeString width names.1.1).encodeString width names.2.1

def encodeCacheNames (width : StringWidth) (list : List Names) : List UInt8 :=
  (list.foldl (encodeName width) (Encoder.empty.encodeUInt64 (.ofNat list.length))).buffer

def decodeNames : ℕ → Decode (List (Option Str × Option Str))
  | 0 => pure []
  | count + 1 => do
    let name ← decodeString
    let uniqueName ← decodeString
    let names ← decodeNames count
    return (name, uniqueName) :: names

/-- How many pairs of strings a `Vector` can hold. -/
def maxNames : ℕ := (2 ^ 32 - 1) / 16

def decodeCachesNames (data : List UInt8) : Option (List (Option Str × Option Str)) :=
  let decode : Decode (List (Option Str × Option Str)) := do
    let count ← decodeUInt64
    guard (count.toNat ≤ maxNames)
    decodeNames count.toNat
  (decode ⟨data, 0, []⟩).map Prod.fst

/-- The list on the disk.  There is no file for the empty list. -/
def readNames : Option (List UInt8) → Option (List (Option Str × Option Str))
  | none => some []
  | some data => decodeCachesNames data

theorem decodes_names (width : StringWidth) (list : List Names) (enc : Encoder) :
    Decodes (decodeNames list.length) (list.map fun names => (names.1.1, names.2.1)) enc
      (list.foldl (encodeName width) enc) := by
  induction list generalizing enc with
  | nil => exact Decodes.pure [] enc
  | cons names list ih =>
    have hshort (name : Name) (units : Str) (hunits : name.1 = some units) :
        units.length < 2 ^ 32 - 1 :=
      (name.2 units hunits).trans_lt (by decide)
    refine (Decodes.string enc width (hshort names.1)).bind _ ?_
    refine (Decodes.string _ width (hshort names.2)).bind _ ?_
    exact (ih (encodeName width enc names)).map _

/-- The list is read back from its file. -/
theorem decodeCachesNames_encodeCacheNames (width : StringWidth) {list : List Names}
    (hlen : list.length ≤ maxNames) :
    decodeCachesNames (encodeCacheNames width list) =
      some (list.map fun names => (names.1.1, names.2.1)) := by
  have hcount : (UInt64.ofNat list.length).toNat = list.length :=
    Nat.mod_eq_of_lt (hlen.trans_lt (by decide))
  have hdecodes : Decodes (do
      let count ← decodeUInt64
      guard (count.toNat ≤ maxNames)
      decodeNames count.toNat) (list.map fun names => (names.1.1, names.2.1)) Encoder.empty
      (list.foldl (encodeName width) (Encoder.empty.encodeUInt64 (.ofNat list.length))) := by
    refine (Decodes.uint64 Encoder.empty (.ofNat list.length)).bind _ ?_
    rw [hcount, guard, if_pos hlen]
    exact (Decodes.pure () _).bind _ (decodes_names width list _)
  have hreads := hdecodes.reads _ List.prefix_rfl
  exact congrArg (Option.map Prod.fst) hreads

/-! ## The object -/

structure Cache where
  identifier : ℕ
  name : Name
  uniqueName : Name
  state : CacheState
  pendingOpeningCallbacks : List ℕ

namespace Cache

def names (cache : Cache) : Names := (cache.name, cache.uniqueName)

def appendOpeningCallback (callback : ℕ) (cache : Cache) : Cache :=
  { cache with pendingOpeningCallbacks := cache.pendingOpeningCallbacks ++ [callback] }

def startOpening (cache : Cache) : Cache := { cache with state := .opening }

def finishOpening (cache : Cache) : Cache :=
  { cache with state := .opened, pendingOpeningCallbacks := [] }

end Cache

inductive Request
  | openCache (name uniqueName : Name)
  | remove (identifier : ℕ)
  | cacheInfos (updateCounter : ℕ)
  | clear
deriving DecidableEq

def Request.changesList : Request → Bool
  | .openCache _ _ | .remove _ => true
  | .cacheInfos _ | .clear => false

/-- What a callback is called with. -/
inductive Reply
  | identifier (cacheIdentifier : ℕ) (hadStorageError : Bool)
  | infos (infos : List (ℕ × Name)) (updateCounter : ℕ)
  | cleared
  | error

/-- A request that waits for the end of a write. -/
structure Waiting where
  callback : ℕ
  request : Request

/-- A write of the list, with what its completion needs for the callback. -/
structure Write where
  callback : ℕ
  cacheIdentifier : ℕ

inductive FileOperation
  | removeFile
  | writeFile (data : List UInt8) (write : Write)

namespace FileOperation

def result : FileOperation → Option (List UInt8)
  | .removeFile => none
  | .writeFile data _ => some data

def write? : FileOperation → Option Write
  | .removeFile => none
  | .writeFile _ write => some write

end FileOperation

structure Traversal where
  callback : ℕ
  cacheIdentifier : ℕ

structure Caches where
  shouldPersist : Bool
  isInitialized : Bool
  /-- There is an `m_storage`. -/
  hasStorage : Bool
  updateCounter : ℕ
  nextCacheIdentifier : ℕ
  caches : List Cache
  removedCaches : List Cache
  isWritingCachesToDisk : Bool
  pendingWritingCallbacks : List Waiting
  file : Option (List UInt8)
  fileOperations : List FileOperation
  /-- The writes that were performed, and whether they failed. -/
  written : List (Write × Bool)
  /-- The callbacks of the clears for which the storage is being cleared. -/
  storageClears : List ℕ
  traversals : List Traversal
  /-- The number of requests that have arrived. -/
  arrived : ℕ
  /-- The requests that were taken up, in order. -/
  ran : List ℕ
  /-- The callbacks that were called, in order. -/
  called : List (ℕ × Reply)
  /-- A file operation has failed. -/
  fileFailed : Bool

/-- The caches of the list that was read from the disk. -/
def readCaches (list : List Names) : List Cache :=
  list.mapIdx fun index names => ⟨index + 1, names.1, names.2, .uninitialized, []⟩

namespace Caches

/-- An initialized object.  The list was read from the file that the directory has. -/
def start (shouldPersist : Bool) (width : StringWidth) (list : List Names) : Caches where
  shouldPersist := shouldPersist
  isInitialized := true
  hasStorage := shouldPersist
  updateCounter := 0
  nextCacheIdentifier := list.length + 1
  caches := if shouldPersist then readCaches list else []
  removedCaches := []
  isWritingCachesToDisk := false
  pendingWritingCallbacks := []
  file := if list.isEmpty then none else some (encodeCacheNames width list)
  fileOperations := []
  written := []
  storageClears := []
  traversals := []
  arrived := 0
  ran := []
  called := []
  fileFailed := false

def call (callback : ℕ) (reply : Reply) (state : Caches) : Caches :=
  { state with called := state.called ++ [(callback, reply)] }

def makeDirty (state : Caches) : Caches :=
  { state with updateCounter := state.updateCounter + 1 }

/-- `Engine::removeFile` for the file of the list. -/
def removeFile (state : Caches) : Caches :=
  { state with
    fileOperations := state.fileOperations ++ if state.shouldPersist then [.removeFile] else [] }

def clearMemoryRepresentation (state : Caches) : Caches :=
  { state.makeDirty with caches := [], isInitialized := false, hasStorage := false }

variable (width : StringWidth)

def writeCachesToDisk (write : Write) (state : Caches) : Caches :=
  if !state.shouldPersist then
    state.call write.callback (.identifier write.cacheIdentifier false)
  else if state.caches.isEmpty then
    state.removeFile.call write.callback (.identifier write.cacheIdentifier false)
  else
    { state with
      isWritingCachesToDisk := true
      fileOperations := state.fileOperations ++
        [.writeFile (encodeCacheNames width (state.caches.map Cache.names)) write] }

/-- Replace the first of the caches that fits. -/
def changeFirst (fits : Cache → Bool) (change : Cache → Cache) (caches : List Cache) :
    List Cache :=
  caches.lookmap fun cache => if fits cache then some (change cache) else none

/-- `Cache::open` for the cache of a name. -/
def openFound (callback : ℕ) (cache : Cache) (state : Caches) : Caches :=
  match cache.state with
  | .opened => state.call callback (.identifier cache.identifier false)
  | .opening =>
    { state with
      caches := changeFirst (·.name = cache.name) (.appendOpeningCallback callback)
        state.caches }
  | .uninitialized =>
    { state with
      caches := changeFirst (·.name = cache.name) .startOpening state.caches
      traversals := state.traversals ++ [⟨callback, cache.identifier⟩] }

def openCache (callback : ℕ) (name uniqueName : Name) (state : Caches) : Caches :=
  match state.caches.find? (·.name = name) with
  | some cache => state.openFound callback cache
  | none =>
    let identifier := state.nextCacheIdentifier
    let opened : Caches := { state.makeDirty with
      nextCacheIdentifier := identifier + 1
      caches := state.caches ++ [⟨identifier, name, uniqueName, .opened, []⟩] }
    opened.writeCachesToDisk width ⟨callback, identifier⟩

def remove (callback identifier : ℕ) (state : Caches) : Caches :=
  match state.caches.find? (·.identifier = identifier) with
  | none => state.call callback (.identifier 0 false)
  | some cache =>
    let removed : Caches := { state.makeDirty with
      removedCaches := state.removedCaches ++ [cache]
      caches := state.caches.eraseP (·.identifier = identifier) }
    removed.writeCachesToDisk width ⟨callback, identifier⟩

def isDirty (updateCounter : ℕ) (state : Caches) : Bool := state.updateCounter ≠ updateCounter

def cacheInfos (callback updateCounter : ℕ) (state : Caches) : Caches :=
  let infos := if state.isDirty updateCounter then
      state.caches.map fun cache => (cache.identifier, cache.name)
    else []
  state.call callback (.infos infos state.updateCounter)

/-- A waiting request is told that an error occurred.  A waiting `clear` takes no notice of the
error.  There is no storage and no other waiting request when it runs. -/
def reject (waiting : Waiting) (state : Caches) : Caches :=
  match waiting.request with
  | .clear => state.removeFile.clearMemoryRepresentation.call waiting.callback .cleared
  | _ => state.call waiting.callback .error

def clearPendingWritingCallbacks (state : Caches) : Caches :=
  state.pendingWritingCallbacks.foldl (fun state waiting => state.reject waiting)
    { state with
      pendingWritingCallbacks := []
      ran := state.ran ++ state.pendingWritingCallbacks.map Waiting.callback }

def clear (callback : ℕ) (state : Caches) : Caches :=
  if state.hasStorage then
    { state.removeFile with storageClears := state.storageClears ++ [callback] }
  else
    state.removeFile.clearMemoryRepresentation.clearPendingWritingCallbacks.call callback .cleared

def execute (waiting : Waiting) (state : Caches) : Caches :=
  let state := { state with ran := state.ran ++ [waiting.callback] }
  match waiting.request with
  | .openCache name uniqueName => state.openCache width waiting.callback name uniqueName
  | .remove identifier => state.remove width waiting.callback identifier
  | .cacheInfos updateCounter => state.cacheInfos waiting.callback updateCounter
  | .clear => state.clear waiting.callback

def arrive (request : Request) (state : Caches) : Caches :=
  let waiting : Waiting := ⟨state.arrived, request⟩
  let state := { state with arrived := state.arrived + 1 }
  if state.isWritingCachesToDisk then
    { state with pendingWritingCallbacks := state.pendingWritingCallbacks ++ [waiting] }
  else state.execute width waiting

/-- The loop at the end of a write, with a bound for the number of its rounds. -/
def runPending : ℕ → Caches → Caches
  | 0, state => state
  | rounds + 1, state =>
    match state.pendingWritingCallbacks with
    | [] => state
    | waiting :: rest =>
      if state.isWritingCachesToDisk then state
      else runPending rounds
        (Caches.execute width waiting { state with pendingWritingCallbacks := rest })

def completeWrite (write : Write) (failed : Bool) (state : Caches) : Caches :=
  let state := { state with isWritingCachesToDisk := false }
  runPending width state.pendingWritingCallbacks.length
    (state.call write.callback (.identifier write.cacheIdentifier failed))

/-- A file operation is performed.  If it fails, the file is as the failure leaves it. -/
def performFile (operation : FileOperation) (failure : Option (Option (List UInt8)))
    (state : Caches) : Caches :=
  { state with
    file := failure.getD (operation.result)
    fileFailed := state.fileFailed || failure.isSome
    written := state.written ++ (operation.write?.map fun write => (write, failure.isSome)).toList }

def callAll (callbacks : List ℕ) (reply : Reply) (state : Caches) : Caches :=
  { state with called := state.called ++ callbacks.map fun callback => (callback, reply) }

def finishOpening (traversal : Traversal) (state : Caches) : Caches :=
  let callbacks (cache : Cache) := traversal.callback :: cache.pendingOpeningCallbacks
  let fits (cache : Cache) : Bool := cache.identifier = traversal.cacheIdentifier
  match state.caches.find? fits with
  | some cache =>
    { state with caches := changeFirst fits .finishOpening state.caches }.callAll
      (callbacks cache) (.identifier cache.identifier false)
  | none =>
    match state.removedCaches.find? fits with
    | some cache =>
      { state with removedCaches := changeFirst fits .finishOpening state.removedCaches }.callAll
        (callbacks cache) (.identifier cache.identifier false)
    | none => state.call traversal.callback .error

end Caches

/-! ## Steps -/

inductive Action
  | request (request : Request)
  | performFile (failure : Option (Option (List UInt8)))
  | completeWrite
  | storageCleared (position : ℕ)
  | finishOpening (position : ℕ)

def step (width : StringWidth) (state : Caches) : Action → Option Caches
  | .request request =>
    if request.changesList → state.isInitialized then some (state.arrive width request) else none
  | .performFile failure =>
    match state.fileOperations with
    | [] => none
    | operation :: rest =>
      some (Caches.performFile operation failure { state with fileOperations := rest })
  | .completeWrite =>
    match state.written with
    | [] => none
    | (write, failed) :: rest =>
      some (Caches.completeWrite width write failed { state with written := rest })
  | .storageCleared position =>
    state.storageClears[position]?.map fun callback =>
      ({ state with
        storageClears := state.storageClears.eraseIdx position }.clearMemoryRepresentation).call
          callback .cleared
  | .finishOpening position =>
    state.traversals[position]?.map fun traversal =>
      Caches.finishOpening traversal { state with traversals := state.traversals.eraseIdx position }

end PurcFetcher.CachesList
