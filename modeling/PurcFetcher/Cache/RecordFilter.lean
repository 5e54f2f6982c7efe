import PurcFetcher.Cache.Writes

/-!
# The record filter

`mayContain` decides whether `retrieve` and `remove` look at the disk at all, so the
filter must not deny a key that is on the disk or about to be.  A synchronization
collects a new filter in the background; the hashes that are added meanwhile are kept in
a list beside it and added at its end.

The promise is kept as long as the filter is cleared only when there is nothing it must
know, and a synchronization begins only when no write is pending or active: the hashes of
those writes were added before and are in no list.
-/

namespace PurcFetcher.Cache

open Machine List

/-- The filter denies no key that is on the disk, or pending or active. -/
def Storage.NoFalseNegatives (storage : Storage) : Prop :=
  ∀ key : Key, key.recordPath ∈ storage.disk.files ∨
    (∃ operation ∈ storage.pendingWriteOperations ++ storage.activeWriteOperations,
      operation.record.key = key) → storage.mayContain key

def Storage.WritesNothing (storage : Storage) : Prop :=
  storage.pendingWriteOperations = [] ∧ storage.activeWriteOperations = []

/-- A filter is cleared only while no record file is there and nothing is written, and the
end of a shrink, which synchronizes, finds nothing to be written. -/
def Storage.KeepsFilter (storage : Storage) : Action → Prop
  | .clear _ _ => storage.recordFilter = none ∨ storage.disk.files = ∅ ∧ storage.WritesNothing
  | .runMain _ _ => storage.mainQueue.head? = some .shrunk → storage.WritesNothing
  | _ => True

/-! ## Synchronizations under way -/

def Traversal.synchronization? (traversal : Traversal) :
    Option (Finset Entry × ContentsFilter) :=
  match traversal.kind with
  | .synchronize recordFilter _ => some (traversal.required, recordFilter)
  | _ => none

def MainTask.synchronization? : MainTask → Option (Finset Entry × ContentsFilter)
  | .synchronized recordFilter _ => some (∅, recordFilter)
  | _ => none

/-- The synchronizations that were begun and are not finished: the names that each still
has to see, and the filter it has collected. -/
def Storage.synchronizations (storage : Storage) : List (Finset Entry × ContentsFilter) :=
  storage.traversals.filterMap Traversal.synchronization? ++
    storage.mainQueue.filterMap MainTask.synchronization?

/-- A hash that the filter has and that a synchronization under way will have. -/
def Storage.Knows (storage : Storage) (hash : Digest) : Prop :=
  (∀ filter, storage.recordFilter = some filter → filter.mayContain hash) ∧
    (storage.synchronizationInProgress →
      hash ∈ storage.recordFilterHashesAddedDuringSynchronization)

structure FilterInv (storage : Storage) : Prop where
  progress : storage.synchronizations.length =
    if storage.synchronizationInProgress then 1 else 0
  writes : ∀ operation ∈ storage.pendingWriteOperations ++ storage.activeWriteOperations,
    storage.Knows operation.record.key.hash
  installed : ∀ path ∈ storage.disk.files, ∀ filter, storage.recordFilter = some filter →
    filter.mayContain path.hash
  collected : ∀ path ∈ storage.disk.files, ∀ collection ∈ storage.synchronizations,
    ⟨path, false⟩ ∈ collection.1 ∨ collection.2.mayContain path.hash ∨
      path.hash ∈ storage.recordFilterHashesAddedDuringSynchronization

namespace FilterInv

variable {storage next : Storage} {operation : WriteOperation} {idx : ℕ}

theorem noFalseNegatives (hinv : FilterInv storage) : storage.NoFalseNegatives := by
  intro key hkey
  cases hfilter : storage.recordFilter with
  | none => rw [Storage.mayContain, hfilter, Storage.filterMayContain]
  | some filter =>
    rw [Storage.mayContain, hfilter, Storage.filterMayContain]
    cases hkey with
    | inl hfile => exact hinv.installed key.recordPath hfile filter hfilter
    | inr hwrite =>
      obtain ⟨operation, hop, rfl⟩ := hwrite
      exact (hinv.writes operation hop).1 filter hfilter

theorem inProgress (hinv : FilterInv storage) {collection : Finset Entry × ContentsFilter}
    (hcollection : collection ∈ storage.synchronizations) :
    storage.synchronizationInProgress := by
  by_contra hidle
  have hprogress := hinv.progress
  rw [if_neg hidle, length_eq_zero_iff] at hprogress
  rw [hprogress] at hcollection
  exact absurd hcollection not_mem_nil

/-! ### Adding to the filter -/

theorem knows_addToRecordFilter_self (storage : Storage) (key : Key) :
    (storage.addToRecordFilter key).Knows key.hash := by
  constructor
  · intro filter hfilter
    obtain ⟨older, -, rfl⟩ := Option.map_eq_some_iff.1 hfilter
    exact BloomFilter.mayContain_add_self
  · grind [Storage.addToRecordFilter]

theorem subset_addToRecordFilter (storage : Storage) (key : Key) :
    storage.recordFilterHashesAddedDuringSynchronization ⊆
      (storage.addToRecordFilter key).recordFilterHashesAddedDuringSynchronization := by
  rw [Storage.addToRecordFilter]
  split
  · exact subset_append_left _ _
  · exact List.Subset.refl _

theorem knows_addToRecordFilter {hash : Digest} (hknows : storage.Knows hash) (key : Key) :
    (storage.addToRecordFilter key).Knows hash := by
  constructor
  · intro filter hfilter
    obtain ⟨older, holder, rfl⟩ := Option.map_eq_some_iff.1 hfilter
    exact BloomFilter.mayContain_add (hknows.1 older holder)
  · intro hprogress
    exact subset_addToRecordFilter storage key (hknows.2 hprogress)

theorem addToRecordFilter (hinv : FilterInv storage) (key : Key) :
    FilterInv (storage.addToRecordFilter key) where
  progress := hinv.progress
  writes := fun operation hop => knows_addToRecordFilter (hinv.writes operation hop) key
  installed := by
    intro path hpath filter hfilter
    obtain ⟨older, holder, rfl⟩ := Option.map_eq_some_iff.1 hfilter
    exact BloomFilter.mayContain_add (hinv.installed path hpath older holder)
  collected := by
    intro path hpath collection hcollection
    exact (hinv.collected path hpath collection hcollection).imp_right
      (Or.imp_right fun hadded => subset_addToRecordFilter storage key hadded)

/-! ### Changes that ask no more of the filter -/

section

variable (hinv : FilterInv storage)
include hinv

theorem dispatchRounds (rounds : ℕ) :
    FilterInv (Storage.dispatchRounds rounds storage) := by
  induction rounds generalizing storage with
  | zero => exact hinv
  | succ rounds ih =>
    rw [Storage.dispatchRounds]
    split
    · exact hinv
    · next operation hlast =>
      split
      · exact hinv
      · apply ih
        have hpend := mem_of_getLast? hlast
        have hadded := hinv.addToRecordFilter operation.record.key
        refine { hadded with writes := ?_ }
        intro other hother
        apply hadded.writes
        cases mem_append.1 hother with
        | inl hpend => exact mem_append_left _ (mem_of_mem_dropLast hpend)
        | inr hactive =>
          cases mem_cons.1 hactive with
          | inl hself =>
            rw [hself]
            exact mem_append_left _ hpend
          | inr hactive => exact mem_append_right _ hactive

theorem dispatchPendingWriteOperations :
    FilterInv storage.dispatchPendingWriteOperations :=
  hinv.dispatchRounds _

theorem withSynchronizations (travs : List Traversal)
    (mainQueue : List MainTask)
    (hperm : (travs.filterMap Traversal.synchronization? ++
      mainQueue.filterMap MainTask.synchronization?).Perm storage.synchronizations) :
    FilterInv { storage with traversals := travs, mainQueue := mainQueue } :=
  ⟨hperm.length_eq.trans hinv.progress, hinv.writes, hinv.installed,
    fun path hpath collection hcollection =>
      hinv.collected path hpath collection (hperm.mem_iff.1 hcollection)⟩

theorem startTraversal (trav : Traversal)
    (hother : trav.synchronization? = none) :
    FilterInv { storage with traversals := storage.traversals ++ [trav] } := by
  apply hinv.withSynchronizations _ storage.mainQueue
  rw [filterMap_append, filterMap_cons_none hother, filterMap_nil, append_nil]
  exact .rfl

theorem shrinkIfNeeded (exceeds : Bool) :
    FilterInv (storage.shrinkIfNeeded exceeds) := by
  have hshrink : FilterInv storage.shrink := by
    rw [Storage.shrink]
    split
    · exact hinv
    · exact { hinv.startTraversal (.start .shrink storage.disk) rfl with }
  rw [Storage.shrinkIfNeeded]
  split
  · exact hinv
  · split
    · exact hshrink
    · exact hinv

theorem finishWriteOperation (error exceeds : Bool) :
    FilterInv (storage.finishWriteOperation operation error exceeds) := by
  rw [Storage.finishWriteOperation]
  split
  · exact { hinv with }
  · apply shrinkIfNeeded
    apply dispatchPendingWriteOperations
    refine { hinv with writes := ?_ }
    intro other hother
    apply hinv.writes
    cases mem_append.1 hother with
    | inl hpend => exact mem_append_left _ hpend
    | inr hactive => exact mem_append_right _ (mem_of_mem_erase hactive)

theorem store (record : Record) : FilterInv (storage.store record) := by
  have hadded : FilterInv (Storage.addToRecordFilter { storage with
      stored := storage.stored ++ [⟨storage.stored.length, record⟩]
      pendingWriteOperations :=
        ⟨storage.stored.length, record⟩ :: storage.pendingWriteOperations } record.key) := by
    refine { hinv.addToRecordFilter record.key with writes := ?_ }
    intro operation hop
    cases mem_cons.1 hop with
    | inl hself =>
      rw [hself]
      exact knows_addToRecordFilter_self _ record.key
    | inr hother => exact knows_addToRecordFilter (hinv.writes operation hother) record.key
  rw [Storage.store]
  split
  · exact hinv
  · dsimp only
    split
    · exact hadded
    · exact { hadded with }

theorem remove (keys : List Key) : FilterInv (storage.remove keys) := by
  refine { hinv with writes := ?_ }
  intro operation hop
  apply hinv.writes
  cases mem_append.1 hop with
  | inl hpend => exact mem_append_left _ (mem_of_mem_filter hpend)
  | inr hactive => exact mem_append_right _ hactive

theorem removeKey (key : Key) : FilterInv (storage.removeKey key) := by
  rw [Storage.removeKey]
  split
  · exact hinv.remove [key]
  · exact hinv

theorem clear (type : Text) (everything : Bool)
    (hkeeps : storage.KeepsFilter (.clear type everything)) :
    FilterInv (storage.clear type everything) := by
  have hstarted := hinv.startTraversal (.start (.clear type everything) storage.disk) rfl
  cases hkeeps with
  | inl hnone =>
    have hcleared : storage.recordFilter.map (fun _ => BloomFilter.empty) =
        storage.recordFilter := by rw [hnone]; rfl
    refine ⟨hstarted.progress, ?_, ?_, hstarted.collected⟩
    · rw [Storage.clear, hcleared]
      exact hstarted.writes
    · rw [Storage.clear, hcleared]
      exact hstarted.installed
  | inr hnothing =>
    obtain ⟨hfiles, hpend, hactive⟩ := hnothing
    refine ⟨hstarted.progress, ?_, ?_, hstarted.collected⟩
    · intro operation hop
      change operation ∈ storage.pendingWriteOperations ++ storage.activeWriteOperations at hop
      rw [hpend, hactive] at hop
      exact absurd hop not_mem_nil
    · intro path hpath
      change path ∈ storage.disk.files at hpath
      rw [hfiles] at hpath
      exact absurd hpath Finmap.notMem_empty

theorem withReads (reads : Reads) :
    FilterInv { storage with reads := reads } :=
  { hinv with }

theorem post (task : MainTask)
    (hother : task.synchronization? = none) :
    FilterInv { storage with mainQueue := storage.mainQueue ++ [task] } := by
  apply hinv.withSynchronizations storage.traversals
  rw [filterMap_append, filterMap_cons_none hother, filterMap_nil, append_nil]
  exact .rfl

end

variable {rest : List MainTask} {trav : Traversal}

section

variable (hinv : FilterInv storage)
include hinv

theorem take {task : MainTask}
    (hqueue : storage.mainQueue = task :: rest) (hother : task.synchronization? = none) :
    FilterInv { storage with mainQueue := rest } := by
  apply hinv.withSynchronizations storage.traversals
  rw [Storage.synchronizations, hqueue, filterMap_cons_none hother]

theorem retrieve (key : Key) (prio : Priority) :
    FilterInv (storage.retrieve key prio) := by
  rw [Storage.retrieve]
  split
  · exact hinv.withReads _
  · split
    · exact hinv.withReads _
    · split
      · next found hfound => exact (hinv.post (.deliver _ found) rfl).withReads _
      · exact hinv.withReads _

theorem finishReadOperation (op : ReadOperation)
    (record : Option (Record × Bool)) (blob : Option (List UInt8)) (accepts : Bool) :
    FilterInv (storage.finishReadOperation op record blob accepts) := by
  apply withReads
  split
  · exact hinv
  · split
    · exact { hinv with }
    · exact (hinv.withReads _).removeKey op.key

end

/-! ### Synchronizing -/

/-- A synchronization that begins has to see every file, and nothing is being written. -/
theorem synchronize (hinv : FilterInv storage) (hnothing : storage.WritesNothing) :
    FilterInv storage.synchronize := by
  rw [Storage.synchronize]
  split
  · exact hinv
  · next hidle =>
    rw [Bool.or_eq_true, not_or] at hidle
    have hnone := hinv.progress
    rw [if_neg hidle.1, length_eq_zero_iff, Storage.synchronizations, append_eq_nil_iff] at hnone
    have honly : Storage.synchronizations { storage with
        synchronizationInProgress := true
        traversals := storage.traversals ++
          [.start (.synchronize BloomFilter.empty BloomFilter.empty) storage.disk] } =
        [((Traversal.start (.synchronize BloomFilter.empty BloomFilter.empty)
          storage.disk).required, BloomFilter.empty)] := by
      rw [Storage.synchronizations]
      rw [filterMap_append, hnone.1, hnone.2]
      rfl
    refine ⟨by rw [honly]; rfl, ?_, hinv.installed, ?_⟩
    · intro operation hop
      dsimp only at hop
      rw [hnothing.1, hnothing.2] at hop
      exact absurd hop not_mem_nil
    · intro path hpath collection hcollection
      rw [honly, mem_singleton] at hcollection
      rw [hcollection]
      refine .inl (Finset.mem_filter.2 ⟨Finset.mem_union_left _ ?_, rfl⟩)
      exact Finset.mem_image_of_mem _ (Finmap.mem_keys.2 hpath)

theorem opened (mode : Mode) (pageSize cap : ℕ) (disk : Disk) :
    FilterInv (Storage.opened mode pageSize cap disk) := by
  apply synchronize
  · exact ⟨rfl, nofun, nofun, nofun⟩
  · exact ⟨rfl, rfl⟩

/-- The collected filter has seen every file that was not added to it later. -/
theorem finishSynchronization (hinv : FilterInv storage) {recFilter blobFilter : ContentsFilter}
    (hqueue : storage.mainQueue = .synchronized recFilter blobFilter :: rest) :
    FilterInv (Storage.finishSynchronization { storage with mainQueue := rest }
      recFilter blobFilter) := by
  have hmem : (∅, recFilter) ∈ storage.synchronizations := by
    rw [Storage.synchronizations, hqueue]
    exact mem_append_right _ mem_cons_self
  have hprogress := hinv.inProgress hmem
  have hnone : Storage.synchronizations { storage with mainQueue := rest } = [] := by
    have hlen := hinv.progress
    have hfirst : (MainTask.synchronized recFilter blobFilter).synchronization? =
      some (∅, recFilter) := rfl
    rw [if_pos hprogress, Storage.synchronizations, hqueue,
      filterMap_cons_some hfirst, length_append, length_cons] at hlen
    apply length_eq_zero_iff.1
    rw [Storage.synchronizations, length_append]
    dsimp only
    omega
  have hinstalled : FilterInv { storage with
      mainQueue := rest
      recordFilter := some (recFilter.addAll storage.recordFilterHashesAddedDuringSynchronization)
      blobFilter := some (blobFilter.addAll storage.blobFilterHashesAddedDuringSynchronization)
      recordFilterHashesAddedDuringSynchronization := []
      blobFilterHashesAddedDuringSynchronization := []
      synchronizationInProgress := false } := by
    refine ⟨congrArg List.length hnone, ?_, ?_, ?_⟩
    · intro operation hop
      refine ⟨?_, nofun⟩
      rintro filter ⟨⟩
      exact BloomFilter.mayContain_addAll_of_mem ((hinv.writes operation hop).2 hprogress)
    · rintro path hpath filter ⟨⟩
      obtain hrequired | hseen | hadded := hinv.collected path hpath _ hmem
      · exact absurd hrequired (Finset.notMem_empty _)
      · exact BloomFilter.mayContain_addAll hseen
      · exact BloomFilter.mayContain_addAll_of_mem hadded
    · grind [Storage.synchronizations]
  rw [Storage.finishSynchronization]
  split
  · exact hinstalled.dispatchPendingWriteOperations
  · exact hinstalled

theorem runMain (hinv : FilterInv storage) {task : MainTask}
    (hqueue : storage.mainQueue = task :: rest) (accepts exceeds : Bool)
    (hkeeps : storage.KeepsFilter (.runMain accepts exceeds)) :
    FilterInv (Storage.runMainTask { storage with mainQueue := rest } accepts exceeds task) := by
  cases task with
  | synchronized => exact hinv.finishSynchronization hqueue
  | shrunk =>
    apply synchronize
    · exact { hinv.take hqueue rfl with }
    · exact hkeeps (by rw [hqueue, head?_cons])
  | blobStored =>
    apply finishWriteOperation
    exact { hinv.take hqueue rfl with }
  | written operation error => exact (hinv.take hqueue rfl).finishWriteOperation error exceeds
  | finishRead operation record blob =>
    exact (hinv.take hqueue rfl).finishReadOperation operation record blob accepts
  | deliver => exact (hinv.take hqueue rfl).withReads _

/-! ### The other queues -/

/-- Names leave the disk and traversals go on: each synchronization still has to see what
is left, or has seen it. -/
theorem withDisk (hinv : FilterInv storage) (disk : Disk) (travs : List Traversal)
    (hcount : (travs.filterMap Traversal.synchronization?).length =
      (storage.traversals.filterMap Traversal.synchronization?).length)
    (hfiles : ∀ path ∈ disk.files, path ∈ storage.disk.files)
    (hsees : ∀ collection ∈ travs.filterMap Traversal.synchronization?,
      ∃ older ∈ storage.traversals.filterMap Traversal.synchronization?,
        ∀ path ∈ disk.files, ⟨path, false⟩ ∈ older.1 ∨ older.2.mayContain path.hash →
          ⟨path, false⟩ ∈ collection.1 ∨ collection.2.mayContain path.hash) :
    FilterInv { storage with disk := disk, traversals := travs } := by
  refine ⟨?_, hinv.writes, fun path hpath => hinv.installed path (hfiles path hpath), ?_⟩
  · have hprogress := hinv.progress
    rw [Storage.synchronizations, length_append] at hprogress ⊢
    rwa [hcount]
  · intro path hpath collection hcollection
    cases mem_append.1 hcollection with
    | inl htrav =>
      obtain ⟨older, holder, hsees⟩ := hsees collection htrav
      have hcollected := hinv.collected path (hfiles path hpath) older (mem_append_left _ holder)
      rw [← or_assoc] at hcollected ⊢
      exact hcollected.imp_left (hsees path hpath)
    | inr hposted =>
      exact hinv.collected path (hfiles path hpath) collection (mem_append_right _ hposted)

theorem synchronization?_forget (entry : Entry) (trav : Traversal) :
    (trav.forget entry).synchronization? = trav.synchronization?.map fun collection =>
        (collection.1.erase entry, collection.2) := by
  rw [Traversal.synchronization?, Traversal.synchronization?, Traversal.forget]
  cases trav.kind <;> rfl

theorem mem_files_erase {disk : Disk} {entry : Entry} {path : Path}
    (hpath : path ∈ (disk.erase entry).files) :
    path ∈ disk.files ∧ (⟨path, false⟩ : Entry) ≠ entry := by
  rw [Disk.erase] at hpath
  split at hpath
  · next hblob =>
    refine ⟨hpath, ?_⟩
    rintro rfl
    exact nomatch hblob
  · rw [Finmap.mem_erase] at hpath
    refine ⟨hpath.2, ?_⟩
    rintro rfl
    exact hpath.1 rfl

section

variable (hinv : FilterInv storage)
include hinv

theorem deleteFile (entry : Entry) :
    FilterInv (storage.deleteFile entry) := by
  have hforget : (storage.traversals.map (Traversal.forget entry)).filterMap
      Traversal.synchronization? =
        (storage.traversals.filterMap Traversal.synchronization?).map fun collection =>
          (collection.1.erase entry, collection.2) := by
    rw [filterMap_map, map_filterMap]
    exact filterMap_congr fun trav _ => synchronization?_forget entry trav
  apply hinv.withDisk
  · rw [hforget, length_map]
  · exact fun path hpath => (mem_files_erase hpath).1
  · intro collection hcollection
    rw [hforget] at hcollection
    obtain ⟨older, holder, rfl⟩ := mem_map.1 hcollection
    refine ⟨older, holder, fun path hpath hsees => hsees.imp_left fun hrequired => ?_⟩
    exact Finset.mem_erase.2 ⟨(mem_files_erase hpath).2, hrequired⟩

theorem deleteFiles (path : Path) :
    FilterInv (storage.deleteFiles path) :=
  (hinv.deleteFile _).deleteFile _

theorem putFile (path : Path) (file : File)
    (hknows : storage.Knows path.hash) : FilterInv (storage.putFile path file) := by
  refine ⟨hinv.progress, hinv.writes, ?_, ?_⟩
  · intro other hother filter hfilter
    cases Finmap.mem_insert.1 hother with
    | inl hself =>
      rw [hself]
      exact hknows.1 filter hfilter
    | inr hold => exact hinv.installed other hold filter hfilter
  · intro other hother collection hcollection
    cases Finmap.mem_insert.1 hother with
    | inl hself =>
      rw [hself]
      exact .inr (.inr (hknows.2 (hinv.inProgress hcollection)))
    | inr hold => exact hinv.collected other hold collection hcollection

theorem knows_task (hwrites : WritesInv [] storage)
    {stage : WriteStage} (htask : storage.writeTasks[idx]? = some ⟨operation, stage⟩) :
    storage.Knows operation.record.key.hash := by
  apply hinv.writes
  apply mem_append_right
  exact hwrites.phase.mem_active (mem_of_getElem? htask)

theorem storeBody (op : WriteOperation)
    (out : Storage.BlobOutcome) :
    FilterInv (storage.storeBody idx op out) := by
  have hdeleted := hinv.deleteFile ⟨op.record.key.recordPath, true⟩
  have hposted := hdeleted.post (.blobStored op) rfl
  rw [Storage.storeBody]
  split
  · exact { hinv with }
  · cases out with
    | stored | notLinked => exact { hposted with }
    | notStored => exact { hdeleted with }

theorem openFile (inline created : Bool)
    (hknows : storage.Knows operation.record.key.hash) :
    FilterInv (storage.openFile idx operation inline created) := by
  have hdeleted := hinv.deleteFile ⟨operation.record.key.recordPath, false⟩
  rw [Storage.openFile]
  split
  · exact { hdeleted.putFile operation.record.key.recordPath .unfinished hknows with }
  · exact { hdeleted with }

theorem leaveWrite (op : WriteOperation) (error : Bool) :
    FilterInv (storage.leaveWrite idx op error) :=
  { hinv.post (.written op error) rfl with }

theorem writeFile (inline error : Bool)
    (hknows : storage.Knows operation.record.key.hash) :
    FilterInv (storage.writeFile idx operation inline error) := by
  rw [Storage.writeFile, Storage.finishFile]
  split
  · exact hinv.leaveWrite operation true
  · apply leaveWrite
    split
    · exact { hinv.putFile operation.record.key.recordPath _ hknows with }
    · exact { hinv with }

theorem updateReadTask (task : ReadTask) :
    FilterInv (storage.updateReadTask idx task) := by
  rw [Storage.updateReadTask]
  split
  · next record blob hrec hblob =>
    exact (hinv.post (.finishRead task.operation record blob) rfl).withReads _
  · exact hinv.withReads _

end

theorem synchronization?_visited (entry : Entry) (trav : Traversal) :
    (trav.visited entry).synchronization? = trav.synchronization?.map fun collection =>
        (collection.1.erase entry,
          if entry.isBlob then collection.2 else collection.2.add entry.path.hash) := by
  rw [Traversal.synchronization?, Traversal.synchronization?, Traversal.visited]
  cases trav.kind with
  | synchronize =>
    rw [Traversal.see]
    cases entry.isBlob <;> rfl
  | shrink => rfl
  | clear => rfl

variable (hinv : FilterInv storage)
include hinv

section

variable (htrav : storage.traversals[idx]? = some trav)
include htrav

/-- A name that a synchronization has seen is in its filter. -/
theorem see (entry : Entry) :
    FilterInv { storage with
      traversals := storage.traversals.set idx (trav.visited entry) } := by
  have hsee := synchronization?_visited entry trav
  obtain ⟨hidx, hget⟩ := List.getElem?_eq_some_iff.1 htrav
  apply hinv.withDisk storage.disk
  · have hold := (getElem_cons_eraseIdx_perm hidx).filterMap Traversal.synchronization?
    have hnew := (set_perm_cons_eraseIdx hidx (trav.visited entry)).filterMap
      Traversal.synchronization?
    rw [hget] at hold
    rw [hnew.length_eq, ← hold.length_eq, filterMap_cons, filterMap_cons, hsee]
    cases trav.synchronization? <;> rfl
  · exact fun path hpath => hpath
  · intro collection hcollection
    obtain ⟨other, hother, hsome⟩ := mem_filterMap.1 hcollection
    cases mem_or_eq_of_mem_set hother with
    | inl hold => exact ⟨collection, mem_filterMap.2 ⟨other, hold, hsome⟩, fun _ _ => id⟩
    | inr hnew =>
      rw [hnew, hsee] at hsome
      obtain ⟨older, holder, rfl⟩ := Option.map_eq_some_iff.1 hsome
      refine ⟨older, mem_filterMap.2
        ⟨trav, mem_of_getElem? htrav, holder⟩, fun path hpath hsees => ?_⟩
      by_cases hentry : (⟨path, false⟩ : Entry) = entry
      · subst hentry
        exact .inr BloomFilter.mayContain_add_self
      · refine hsees.imp (fun hrequired => Finset.mem_erase.2 ⟨hentry, hrequired⟩) ?_
        intro hfilter
        cases entry.isBlob with
        | false => exact BloomFilter.mayContain_add hfilter
        | true => exact hfilter

theorem visit (entry : Entry) (delete : Bool) : FilterInv
    (storage.visit idx trav entry delete) := by
  have hseen := hinv.see htrav entry
  rw [Storage.visit]
  split
  · exact hseen
  · split
    · exact hseen.deleteFiles entry.path
    · exact hseen
  · split
    · exact hseen.deleteFile entry
    · exact hseen

/-- A synchronization goes from the traversals to the main run loop. -/
theorem finishTraversal (hall : trav.required = ∅) :
    FilterInv (storage.finishTraversal idx trav.kind) := by
  obtain ⟨hidx, hget⟩ := List.getElem?_eq_some_iff.1 htrav
  have hperm := (getElem_cons_eraseIdx_perm hidx).filterMap Traversal.synchronization?
  rw [hget, filterMap_cons, Traversal.synchronization?, hall] at hperm
  cases hkind : trav.kind with
  | synchronize =>
    rw [hkind] at hperm
    apply hinv.withSynchronizations
    refine .trans ?_ (hperm.append_right _)
    rw [filterMap_append, ← append_assoc]
    exact perm_append_singleton _ _
  | shrink =>
    rw [hkind] at hperm
    have hleft := hinv.withSynchronizations (storage.traversals.eraseIdx idx)
      storage.mainQueue (hperm.append_right _)
    exact hleft.post .shrunk rfl
  | clear =>
    rw [hkind] at hperm
    exact hinv.withSynchronizations _ storage.mainQueue (hperm.append_right _)

end

theorem step (hwrites : WritesInv [] storage) {action : Action}
    (hkeeps : storage.KeepsFilter action) (hnext : storage.step action = some next) :
    FilterInv next := by
  cases Storage.moves_of_step hnext with
  | store record => exact hinv.store record
  | remove key => exact hinv.removeKey key
  | removeKeys keys => exact hinv.remove keys
  | clear type everything => exact hinv.clear type everything hkeeps
  | setCapacity =>
    rw [Storage.setCapacity]
    split
    · exact hinv
    · apply shrinkIfNeeded
      exact { hinv with }
  | retrieve key prio => exact hinv.retrieve key prio
  | fireWriteTimer =>
    apply dispatchPendingWriteOperations
    exact { hinv with }
  | fireReadTimeout => exact hinv.withReads _
  | runMain accepts exceeds task rest hqueue => exact hinv.runMain hqueue accepts exceeds hkeeps
  | deleteFiles =>
    apply deleteFiles
    exact { hinv with }
  | endSerial => exact { hinv with }
  | storeBody idx out operation => exact hinv.storeBody operation out
  | openFile idx created inline operation htask =>
    exact hinv.openFile inline created (hinv.knows_task hwrites htask)
  | writeFile idx error inline operation htask =>
    exact hinv.writeFile inline error (hinv.knows_task hwrites htask)
  | leaveWrite idx error operation => exact hinv.leaveWrite operation true
  | readFile | readBlob => exact hinv.updateReadTask _
  | visit idx entry delete trav htrav => exact hinv.visit htrav entry delete
  | finishTraversal idx trav htrav hall => exact hinv.finishTraversal htrav hall

end FilterInv

/-! ## Every run -/

namespace Storage

/-- The filter denies no key that is on the disk or being written, in every run that clears
it only when there is nothing to deny and synchronizes only when nothing is written. -/
theorem always_noFalseNegatives (mode : Mode) (pageSize capacity : ℕ) (disk : Disk)
    (actions : List Action)
    (hkeeps : Meets step KeepsFilter (.opened mode pageSize capacity disk) actions) :
    Always step NoFalseNegatives (.opened mode pageSize capacity disk) actions := by
  have hinv : Always step (fun storage => WritesInv [] storage ∧ FilterInv storage)
      (.opened mode pageSize capacity disk) actions :=
    always_of_step (fun hinv hkeeps hnext => ⟨hinv.1.step hnext, hinv.2.step hinv.1 hkeeps hnext⟩)
      ⟨.opened mode pageSize capacity disk, .opened mode pageSize capacity disk⟩ hkeeps
  exact hinv.mono fun _ hinv => hinv.2.noFalseNegatives

/-- The first synchronization ends on an empty disk, the storage is cleared, and a record
is stored and its write begins. -/
theorem always_noFalseNegatives_store : Meets step KeepsFilter (.opened .normal 4096 1000 ⟨∅, ∅⟩)
        [.finishTraversal 0, .runMain true false, .clear none true, .store (.sample 1 7),
          .fireWriteTimer, .storeBody 0 .notStored, .openFile 0 true] ∧
      Always step NoFalseNegatives (.opened .normal 4096 1000 ⟨∅, ∅⟩)
        [.finishTraversal 0, .runMain true false, .clear none true, .store (.sample 1 7),
          .fireWriteTimer, .storeBody 0 .notStored, .openFile 0 true] := by
  have hkeeps : Meets step KeepsFilter (.opened .normal 4096 1000 ⟨∅, ∅⟩)
      [.finishTraversal 0, .runMain true false, .clear none true, .store (.sample 1 7),
        .fireWriteTimer, .storeBody 0 .notStored, .openFile 0 true] := by
    refine .cons rfl trivial (.cons rfl nofun (.cons rfl ?_ ?_))
    · exact .inr ⟨rfl, rfl, rfl⟩
    · exact .cons rfl trivial (.cons rfl trivial (.cons rfl trivial (.cons rfl trivial trivial)))
  exact ⟨hkeeps, always_noFalseNegatives _ _ _ _ _ hkeeps⟩

/-- A record file of another type is on the disk when one type is cleared. -/
def clearingRun : List Action :=
  [.visit 0 ⟨(Record.sample 2 7).key.recordPath, false⟩ false, .finishTraversal 0,
    .runMain true false, .clear (some [1]) true, .finishTraversal 0]

/-- A record is stored during a shrink, whose synchronization ends before the write. -/
def shrinkingRun : List Action :=
  [.finishTraversal 0, .runMain true false, .setCapacity 1 true, .store (.sample 1 7),
    .finishTraversal 0, .runMain true false, .finishTraversal 0, .runMain true false]

/-- The first run leaves a file on the disk, and the second a pending write, that the
filter denies. -/
theorem filter_denies_record :
    (∃ storage, run step (.opened .normal 4096 1000
          ⟨.singleton (Record.sample 2 7).key.recordPath (.finished (.sample 2 7) true), ∅⟩)
          clearingRun = some storage ∧
        storage.traversals.length = 0 ∧
        (Record.sample 2 7).key.recordPath ∈ storage.disk.files ∧
        storage.mayContain (Record.sample 2 7).key = false) ∧
      ∃ storage, run step (.opened .normal 4096 1000 ⟨∅, ∅⟩) shrinkingRun = some storage ∧
        storage.synchronizationInProgress = false ∧
        storage.pendingWriteOperations = [⟨0, .sample 1 7⟩] ∧
        storage.mayContain (Record.sample 1 7).key = false := by
  refine ⟨⟨_, rfl, rfl, ?_, ?_⟩, ⟨_, rfl, rfl, rfl, ?_⟩⟩
  · decide
  · decide
  · decide

end Storage

end PurcFetcher.Cache
