import PurcFetcher.Cache.Writes

/-!
# What a storage holds

Where the records are does not depend on the filters, the reads, the timers or the main
run loop: only on the write operations, their tasks, the disk and the deletions that are
queued.  These parts are a machine of their own with ten changes.  Each step of a storage
makes a few of them, and what is proved of every change is proved of every step.
-/

namespace PurcFetcher.Cache

open Machine

structure Holdings where
  pending : List WriteOperation
  active : List WriteOperation
  tasks : List WriteTask
  disk : Disk
  serialQueue : List SerialTask
  stored : List WriteOperation
  written : List WriteOperation

def Storage.holdings (storage : Storage) : Holdings where
  pending := storage.pendingWriteOperations
  active := storage.activeWriteOperations
  tasks := storage.writeTasks
  disk := storage.disk
  serialQueue := storage.serialQueue
  stored := storage.stored
  written := storage.written

inductive Change
  | store (operation : WriteOperation)
  | remove (keys : List Key)
  | updateFileModificationTime (path : Path)
  | dispatch
  | finish (operation : WriteOperation)
  | runSerial
  | storeBody (index : ℕ) (outcome : Storage.BlobOutcome)
  | openFile (index : ℕ) (created : Bool)
  | writeFile (index : ℕ) (error : Bool)
  | delete (entry : Entry)

namespace Holdings

variable (holdings : Holdings)

def storeBody (index : ℕ) (operation : WriteOperation) (large : Bool)
    (outcome : Storage.BlobOutcome) : Holdings :=
  let path := operation.record.key.recordPath
  let deleted := { holdings with disk := holdings.disk.erase ⟨path, true⟩ }
  let encoded (isBodyInline : Bool) (holdings : Holdings) : Holdings :=
    { holdings with tasks := holdings.tasks.set index ⟨operation, .encoded isBodyInline⟩ }
  if ¬ large then encoded true holdings
  else
    match outcome with
    | .notStored => encoded true deleted
    | .notLinked => encoded false deleted
    | .stored =>
      encoded false { deleted with
        disk.blobs := deleted.disk.blobs.insert path operation.record.body.bytes }

def openFile (index : ℕ) (operation : WriteOperation) (isBodyInline created : Bool) :
    Holdings :=
  let path := operation.record.key.recordPath
  let deleted := holdings.disk.erase ⟨path, false⟩
  if created then
    { holdings with
      disk := { deleted with files := deleted.files.insert path .unfinished }
      tasks := holdings.tasks.set index ⟨operation, .opened isBodyInline⟩ }
  else
    { holdings with
      disk := deleted, tasks := holdings.tasks.set index ⟨operation, .notOpened⟩ }

def writeFile (index : ℕ) (operation : WriteOperation) (isBodyInline : Bool) : Holdings :=
  let path := operation.record.key.recordPath
  { holdings with
    tasks := holdings.tasks.eraseIdx index
    written := holdings.written ++ [operation]
    disk :=
      if path ∈ holdings.disk.files then
        { holdings.disk with
          files := holdings.disk.files.insert path (.finished operation.record isBodyInline) }
      else holdings.disk }

/-- A body is stored without touching a record file or a blob of another path, and a body
that is left out of the record file is in the blob, unless the link could not be made. -/
theorem storeBody_spec (idx : ℕ) (op : WriteOperation) (large : Bool)
    (out : Storage.BlobOutcome) :
    ∃ blobs inline,
      holdings.storeBody idx op large out =
          { holdings with
            disk := { holdings.disk with blobs := blobs }
            tasks := holdings.tasks.set idx ⟨op, .encoded inline⟩ } ∧
        (∀ path ≠ op.record.key.recordPath,
          blobs.lookup path = holdings.disk.blobs.lookup path) ∧
        (out ≠ .notLinked → inline = false →
          blobs.lookup op.record.key.recordPath = some op.record.body.bytes) := by
  rw [storeBody.eq_def]
  split
  · exact ⟨_, true, rfl, fun _ _ => rfl, nofun⟩
  · cases out with
    | notStored => exact ⟨_, true, rfl, fun path hpath => Finmap.lookup_erase_ne hpath, nofun⟩
    | notLinked =>
      exact ⟨_, false, rfl, fun path hpath => Finmap.lookup_erase_ne hpath,
        fun hlinked => absurd rfl hlinked⟩
    | stored =>
      refine ⟨_, false, rfl, fun path hpath => ?_, fun _ _ => Finmap.lookup_insert _⟩
      exact (Finmap.lookup_insert_of_ne _ hpath).trans (Finmap.lookup_erase_ne hpath)

/-- A file that is opened has nothing in it, or could not be made. -/
theorem openFile_spec (idx : ℕ) (op : WriteOperation) (inline created : Bool) :
    ∃ files stage,
      holdings.openFile idx op inline created =
          { holdings with
            disk := { holdings.disk with files := files }
            tasks := holdings.tasks.set idx ⟨op, stage⟩ } ∧
        (∀ path ≠ op.record.key.recordPath,
          files.lookup path = holdings.disk.files.lookup path) ∧
        (∀ record inline, files.lookup op.record.key.recordPath ≠
          some (.finished record inline)) ∧
        (created → stage = .opened inline ∧ op.record.key.recordPath ∈ files) := by
  cases created with
  | true =>
    refine ⟨_, .opened inline, rfl, fun path hpath => ?_, fun record inlined => ?_,
      fun _ => ⟨rfl, Finmap.mem_insert.2 (.inl rfl)⟩⟩
    · exact (Finmap.lookup_insert_of_ne _ hpath).trans (Finmap.lookup_erase_ne hpath)
    · rw [Finmap.lookup_insert]
      exact nofun
  | false =>
    refine ⟨_, .notOpened, rfl, fun path hpath => Finmap.lookup_erase_ne hpath,
      fun record inlined => ?_, nofun⟩
    dsimp only
    rw [Finmap.lookup_erase]
    exact nofun

/-- The changes, with what each of them needs. -/
inductive Step (holdings : Holdings) : Change → Holdings → Prop
  | store (operation : WriteOperation) : Step holdings (.store operation)
        { holdings with
          pending := operation :: holdings.pending
          stored := holdings.stored ++ [operation] }
  | remove (keys : List Key) : Step holdings (.remove keys)
        { holdings with
          pending := holdings.pending.filter fun operation => operation.record.key ∉ keys
          serialQueue := holdings.serialQueue ++ [.deleteFiles keys] }
  | updateFileModificationTime (path : Path) : Step holdings (.updateFileModificationTime path)
        { holdings with
          serialQueue := holdings.serialQueue ++ [.updateFileModificationTime path] }
  | dispatch (operation : WriteOperation)
      (hlast : holdings.pending.getLast? = some operation) (hroom : holdings.active = []) :
      Step holdings .dispatch
        { holdings with
          pending := holdings.pending.dropLast
          active := operation :: holdings.active
          tasks := holdings.tasks ++ [⟨operation, .dispatched⟩] }
  | finish (operation : WriteOperation) (htasks : holdings.tasks = []) :
      Step holdings (.finish operation) { holdings with active := holdings.active.erase operation }
  | deleteFiles (key : Key) (keys : List Key) (rest : List SerialTask)
      (hqueue : holdings.serialQueue = .deleteFiles (key :: keys) :: rest) :
      Step holdings .runSerial
        { holdings with
          serialQueue := .deleteFiles keys :: rest
          disk := (holdings.disk.erase ⟨key.recordPath, false⟩).erase ⟨key.recordPath, true⟩ }
  | endSerial (task : SerialTask) (rest : List SerialTask)
      (hqueue : holdings.serialQueue = task :: rest)
      (hends : ∀ key keys, task ≠ .deleteFiles (key :: keys)) :
      Step holdings .runSerial { holdings with serialQueue := rest }
  | storeBody (index : ℕ) (large : Bool) (outcome : Storage.BlobOutcome)
      (operation : WriteOperation)
      (htask : holdings.tasks[index]? = some ⟨operation, .dispatched⟩) :
      Step holdings (.storeBody index outcome) (holdings.storeBody index operation large outcome)
  | openFile (index : ℕ) (created isBodyInline : Bool) (operation : WriteOperation)
      (htask : holdings.tasks[index]? = some ⟨operation, .encoded isBodyInline⟩) :
      Step holdings (.openFile index created)
        (holdings.openFile index operation isBodyInline created)
  | writeFile (index : ℕ) (isBodyInline : Bool) (operation : WriteOperation)
      (htask : holdings.tasks[index]? = some ⟨operation, .opened isBodyInline⟩) :
      Step holdings (.writeFile index false) (holdings.writeFile index operation isBodyInline)
  | failFile (index : ℕ) (error : Bool) (operation : WriteOperation) (stage : WriteStage)
      (htask : holdings.tasks[index]? = some ⟨operation, stage⟩)
      (hfails : error ∨ stage = .notOpened) :
      Step holdings (.writeFile index error)
        { holdings with tasks := holdings.tasks.eraseIdx index }
  | delete (entry : Entry) :
      Step holdings (.delete entry) { holdings with disk := holdings.disk.erase entry }

end Holdings

/-! ## The changes that a step makes -/

namespace Storage

/-- The calls that remove the files of a path. -/
def Removes (path : Path) : Action → Prop
  | .remove key => key.recordPath = path
  | .removeKeys keys => ∃ key ∈ keys, key.recordPath = path
  | _ => False

/-- The next task of the main run loop ends a read of the path that was not canceled, and
the completion handler does not accept what was read. -/
def RejectsRead (path : Path) (storage : Storage) : Action → Prop
  | .runMain accepts _ =>
    accepts = false ∧ ∃ operation record blob,
      storage.mainQueue.head? = some (.finishRead operation record blob) ∧
        operation ∉ storage.reads.canceled ∧ operation.key.recordPath = path
  | _ => False

/-- A shrink or the traversal of a `clear` deletes a name of the path. -/
def DeletesName (path : Path) (storage : Storage) : Action → Prop
  | .visit index entry delete =>
    entry.path = path ∧ ∃ traversal, storage.traversals[index]? = some traversal ∧
      match traversal.kind with
      | .synchronize _ _ => False
      | .shrink => delete
      | .clear _ everything => everything ∨ delete
  | _ => False

def Allows (storage : Storage) (action : Action) : Change → Prop
  | .store operation => action = .store operation.record
  | .remove keys => ∀ key ∈ keys,
      Removes key.recordPath action ∨ RejectsRead key.recordPath storage action
  | .storeBody index outcome => action = .storeBody index outcome
  | .openFile index created => action = .openFile index created
  | .writeFile index error => action = .writeFile index error
  | .delete entry => DeletesName entry.path storage action
  | _ => True

/-- Changes that the action can make lead from one state to the other. -/
def MakesChanges (storage : Storage) (action : Action) : Holdings → Holdings → Prop :=
  Relation.ReflTransGen fun before after =>
    ∃ change, Allows storage action change ∧ before.Step change after

variable {storage other next : Storage} {action : Action} {before after : Holdings}

theorem MakesChanges.one {change : Change} (hstep : before.Step change after)
    (hallows : Allows storage action change) : MakesChanges storage action before after :=
  .single ⟨change, hallows, hstep⟩

/-! ### Functions that change nothing here -/

theorem holdings_shrinkIfNeeded (exceeds : Bool) :
    (storage.shrinkIfNeeded exceeds).holdings = storage.holdings := by
  rw [shrinkIfNeeded, shrink]
  split
  · rfl
  · split
    · split <;> rfl
    · rfl

/-! ### Functions that make changes -/

theorem changes_dispatchRounds (rounds : ℕ) :
    MakesChanges other action storage.holdings (dispatchRounds rounds storage).holdings := by
  induction rounds generalizing storage with
  | zero => exact .refl
  | succ rounds ih =>
    rw [dispatchRounds]
    split
    · exact .refl
    · next operation hlast =>
      split
      · exact .refl
      · next hroom =>
        have hactive : storage.activeWriteOperations = [] :=
          List.length_eq_zero_iff.1 (Nat.lt_one_iff.1 (Nat.lt_of_not_le hroom))
        have hdispatch : storage.holdings.Step .dispatch
            (dispatchWriteOperation { storage with
              pendingWriteOperations := storage.pendingWriteOperations.dropLast }
              operation).holdings :=
          .dispatch operation hlast hactive
        exact .trans (MakesChanges.one hdispatch trivial) ih

theorem changes_dispatchPendingWriteOperations (hbefore : before = storage.holdings) :
    MakesChanges other action before storage.dispatchPendingWriteOperations.holdings := by
  rw [hbefore]
  exact changes_dispatchRounds _

variable {operation : WriteOperation} {index : ℕ}

theorem changes_finishWriteOperation (hbefore : before = storage.holdings)
    (hwrites : WritesInv [operation] storage) (error exceeds : Bool) :
    MakesChanges other action before
      (storage.finishWriteOperation operation error exceeds).holdings := by
  rw [hbefore]
  obtain ⟨-, ⟨hlast, htasks, -⟩ | ⟨hmore, -⟩⟩ := hwrites.phase.of_posted
  · rw [finishWriteOperation]
    simp only [hlast, ne_eq, not_true_eq_false, if_false]
    rw [holdings_shrinkIfNeeded]
    exact .trans (MakesChanges.one (.finish operation htasks) trivial)
      (changes_dispatchPendingWriteOperations rfl)
  · rw [finishWriteOperation, if_pos hmore]
    exact .refl

theorem changes_remove (keys : List Key)
    (hallows : ∀ key ∈ keys, Removes key.recordPath action ∨
      RejectsRead key.recordPath other action) :
    MakesChanges other action storage.holdings (storage.remove keys).holdings := by
  refine .one (.remove (keys.filter storage.mayContain)) ?_
  exact fun key hkey => hallows key (List.mem_of_mem_filter hkey)

theorem changes_removeKey (hbefore : before = storage.holdings) (key : Key)
    (hallows : Removes key.recordPath action ∨ RejectsRead key.recordPath other action) :
    MakesChanges other action before (storage.removeKey key).holdings := by
  rw [hbefore, removeKey]
  split
  · grind [changes_remove]
  · exact .refl

theorem changes_runMain {task : MainTask} {rest : List MainTask}
    (hqueue : storage.mainQueue = task :: rest)
    (hwrites : WritesInv task.writeOperation?.toList { storage with mainQueue := rest })
    (accepts exceeds : Bool) :
    MakesChanges storage (.runMain accepts exceeds) storage.holdings
      (runMainTask { storage with mainQueue := rest } accepts exceeds task).holdings := by
  cases task with
  | synchronized =>
    rw [runMainTask, finishSynchronization]
    split
    · exact changes_dispatchPendingWriteOperations rfl
    · exact .refl
  | shrunk =>
    rw [runMainTask, synchronize]
    split <;> exact .refl
  | blobStored =>
    refine changes_finishWriteOperation ?_ ?_ false exceeds
    · rfl
    · exact { hwrites with }
  | written operation error => exact changes_finishWriteOperation rfl hwrites error exceeds
  | finishRead operation record blob =>
    rw [runMainTask, finishReadOperation]
    split
    · exact .refl
    · next hcanceled =>
      split
      · exact .one (.updateFileModificationTime operation.key.recordPath) trivial
      · next haccepts =>
        refine changes_removeKey ?_ operation.key (.inr ⟨Bool.eq_false_of_not_eq_true haccepts,
          operation, record, blob, by rw [hqueue]; rfl, hcanceled, rfl⟩)
        rfl
  | deliver => exact .refl

theorem changes_storeBody (htask : storage.writeTasks[index]? = some ⟨operation, .dispatched⟩)
    (out : BlobOutcome) :
    MakesChanges storage (.storeBody index out) storage.holdings
      (storage.storeBody index operation out).holdings := by
  have hstep : storage.holdings.Step (.storeBody index out) _ :=
    .storeBody index (storage.shouldStoreBodyAsBlob operation.record.body) out operation htask
  have hsame : storage.holdings.storeBody index operation
      (storage.shouldStoreBodyAsBlob operation.record.body) out =
        (storage.storeBody index operation out).holdings := by
    simp only [Holdings.storeBody, storeBody]
    split
    · rfl
    · cases out <;> rfl
  rw [hsame] at hstep
  exact .one hstep rfl

theorem changes_writeFile {inline : Bool}
    (htask : storage.writeTasks[index]? = some ⟨operation, .opened inline⟩) (error : Bool) :
    MakesChanges storage (.writeFile index error) storage.holdings
      (storage.writeFile index operation inline error).holdings := by
  cases error with
  | true => exact .one (.failFile index true operation _ htask (.inl rfl)) rfl
  | false =>
    have hstep : storage.holdings.Step (.writeFile index false) _ :=
      .writeFile index inline operation htask
    have hsame : storage.holdings.writeFile index operation inline =
        (storage.writeFile index operation inline false).holdings := by
      by_cases hfile : operation.record.key.recordPath ∈ storage.disk.files
      · simp only [Holdings.writeFile, writeFile, finishFile, holdings, hfile, if_true]
        rfl
      · simp only [Holdings.writeFile, writeFile, finishFile, holdings, hfile, if_false]
        rfl
    rw [hsame] at hstep
    exact .one hstep rfl

theorem changes_visit {trav : Traversal}
    (htrav : storage.traversals[index]? = some trav) (entry : Entry) (delete : Bool) :
    MakesChanges storage (.visit index entry delete) storage.holdings
      (storage.visit index trav entry delete).holdings := by
  rw [visit]
  split
  · exact .refl
  · next hkind =>
    split
    · next hdelete =>
      have hdeletes : DeletesName entry.path storage (.visit index entry delete) :=
        ⟨rfl, trav, htrav, by rw [hkind]; exact hdelete.1⟩
      exact .trans (MakesChanges.one (.delete ⟨entry.path, false⟩) hdeletes)
        (MakesChanges.one (.delete ⟨entry.path, true⟩) hdeletes)
    · exact .refl
  · next type everything hkind =>
    split
    · next hdelete =>
      refine .one (.delete entry) ⟨rfl, trav, htrav, ?_⟩
      rw [hkind]
      exact hdelete
    · exact .refl

/-- Each step of a storage is made of changes that its action allows. -/
theorem changes_of_step (hwrites : WritesInv [] storage)
    (hnext : storage.step action = some next) :
    MakesChanges storage action storage.holdings next.holdings := by
  cases moves_of_step hnext with
  | store record =>
    rw [store]
    split
    · exact .refl
    · dsimp only
      split <;> exact .one (.store ⟨storage.stored.length, record⟩) rfl
  | remove key => exact changes_removeKey rfl key (.inl rfl)
  | removeKeys keys => exact changes_remove keys fun key hkey => .inl ⟨key, hkey, rfl⟩
  | clear => exact .refl
  | setCapacity =>
    rw [setCapacity]
    split
    · exact .refl
    · rw [holdings_shrinkIfNeeded]
      exact .refl
  | retrieve =>
    rw [retrieve]
    split
    · exact .refl
    · split
      · exact .refl
      · split <;> exact .refl
  | fireWriteTimer => exact changes_dispatchPendingWriteOperations rfl
  | fireReadTimeout => exact .refl
  | runMain accepts exceeds task rest hqueue =>
    apply changes_runMain hqueue
    exact hwrites.take hqueue
  | deleteFiles key keys rest hqueue => exact .one (.deleteFiles key keys rest hqueue) trivial
  | endSerial task rest hqueue hends => exact .one (.endSerial task rest hqueue hends) trivial
  | storeBody index out operation htask => exact changes_storeBody htask out
  | openFile index created inline operation htask =>
    have hstep : storage.holdings.Step (.openFile index created) _ :=
      .openFile index created inline operation htask
    have hsame : storage.holdings.openFile index operation inline created =
        (storage.openFile index operation inline created).holdings := by
      cases created <;> rfl
    rw [hsame] at hstep
    exact .one hstep rfl
  | writeFile index error inline operation htask => exact changes_writeFile htask error
  | leaveWrite index error operation htask =>
    exact .one (.failFile index error operation _ htask (.inr rfl)) rfl
  | readFile | readBlob =>
    rw [updateReadTask]
    split <;> exact .refl
  | visit index entry delete trav htrav => exact changes_visit htrav entry delete
  | finishTraversal idx trav => cases trav.kind <;> exact .refl

theorem always_holdings {inv : Holdings → Prop} {allowed : Change → Prop}
    {cond : Storage → Action → Prop}
    (hchange : ∀ {before change after}, inv before → allowed change →
      Holdings.Step before change after → inv after)
    (hallowed : ∀ {storage action}, cond storage action →
      ∀ change, Allows storage action change → allowed change)
    (hwrites : WritesInv [] storage) (hinvariant : inv storage.holdings)
    {actions : List Action} (hmeets : Meets step cond storage actions) :
    Always step (fun storage => WritesInv [] storage ∧ inv storage.holdings)
      storage actions := by
  refine always_of_step ?_ ⟨hwrites, hinvariant⟩ hmeets
  intro storage action next hinv hcond hnext
  refine ⟨hinv.1.step hnext, ?_⟩
  have hchanges := changes_of_step hinv.1 hnext
  generalize next.holdings = last at hchanges ⊢
  induction hchanges with
  | refl => exact hinv.2
  | tail _ hstep ih => grind

end Storage

end PurcFetcher.Cache
