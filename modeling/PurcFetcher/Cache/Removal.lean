import PurcFetcher.Cache.Holdings
import PurcFetcher.Cache.ReadQueues

/-!
# Removing a key

`remove` drops the pending writes of a key and queues the deletion of its files.  It does
not stop a write that is active, and the deletion and that write run on different queues;
and it does nothing for a key that the filter denies.  When no write of the key is active
and the filter is right about the key, what was stored before is gone once everything has
finished.
-/

namespace PurcFetcher.Cache

open Machine List

namespace Holdings

variable {key : Key} {before after : Holdings} {change : Change}

/-- No write operation of the key is pending, active or running. -/
structure Unwritten (key : Key) (holdings : Holdings) : Prop where
  pending : ∀ operation ∈ holdings.pending, operation.record.key ≠ key
  active : ∀ operation ∈ holdings.active, operation.record.key ≠ key
  tasks : ∀ task ∈ holdings.tasks, task.operation.record.key ≠ key

/-- The file of the key holds a record of the key. -/
def HasRecord (key : Key) (disk : Disk) : Prop :=
  ∃ record isBodyInline, disk.files.lookup key.recordPath =
    some (.finished record isBodyInline) ∧ record.key = key

def AwaitsDeletion (key : Key) (serialQueue : List SerialTask) : Prop :=
  ∃ keys, .deleteFiles keys ∈ serialQueue ∧ key ∈ keys

theorem lookup_files_erase {disk : Disk} {entry : Entry} {path : Path} {file : File}
    (hlookup : (disk.erase entry).files.lookup path = some file) :
    disk.files.lookup path = some file := by
  rw [Disk.erase] at hlookup
  split at hlookup
  · exact hlookup
  · by_cases hpath : path = entry.path
    · rw [hpath, Finmap.lookup_erase] at hlookup
      exact nomatch hlookup
    · rwa [Finmap.lookup_erase_ne hpath] at hlookup

theorem hasRecord_of_readRecord {disk : Disk} {found : Record × Bool}
    (hfound : disk.readRecord key = some found) : HasRecord key disk := by
  rw [Disk.readRecord] at hfound
  split at hfound
  · next record inline hlookup =>
    obtain ⟨hkey, -⟩ := Option.ite_none_right_eq_some.1 hfound
    exact ⟨record, inline, hlookup, hkey⟩
  · exact nomatch hfound

theorem HasRecord.of_erase {disk : Disk} {entry : Entry}
    (hrec : HasRecord key (disk.erase entry)) : HasRecord key disk := by
  obtain ⟨record, inline, hlookup, hkey⟩ := hrec
  exact ⟨record, inline, lookup_files_erase hlookup, hkey⟩

section

variable (hunwritten : Unwritten key before)
include hunwritten

theorem Unwritten.set {idx : ℕ}
    {op : WriteOperation} {stage : WriteStage}
    (htask : before.tasks[idx]? = some ⟨op, stage⟩) (next : WriteStage) :
    ∀ task ∈ before.tasks.set idx ⟨op, next⟩, task.operation.record.key ≠ key := by
  intro task hmem
  cases mem_or_eq_of_mem_set hmem with
  | inl hold => exact hunwritten.tasks task hold
  | inr hnew =>
    rw [hnew]
    exact hunwritten.tasks ⟨op, stage⟩ (mem_of_getElem? htask)

theorem Unwritten.erase (idx : ℕ) :
    ∀ task ∈ before.tasks.eraseIdx idx, task.operation.record.key ≠ key :=
  fun task hmem => hunwritten.tasks task (mem_of_mem_eraseIdx hmem)

/-- Only a store of the key brings a write of it. -/
theorem Unwritten.step (hstores : ∀ op, change = .store op → op.record.key ≠ key)
    (hstep : before.Step change after) : Unwritten key after := by
  cases hstep with
  | store op =>
    refine { hunwritten with pending := fun other hother => ?_ }
    cases mem_cons.1 hother with
    | inl hself => exact hself ▸ hstores op rfl
    | inr hold => exact hunwritten.pending other hold
  | remove =>
    refine { hunwritten with pending := fun other hother => ?_ }
    exact hunwritten.pending other (mem_of_mem_filter hother)
  | dispatch op hlast =>
    have hop : op.record.key ≠ key := hunwritten.pending op (mem_of_getLast? hlast)
    refine ⟨fun other hother => ?_, fun other hother => ?_, fun task htask => ?_⟩
    · exact hunwritten.pending other (mem_of_mem_dropLast hother)
    · grind
    · cases mem_append.1 htask with
      | inl hold => exact hunwritten.tasks task hold
      | inr hnew =>
        rw [mem_singleton.1 hnew]
        exact hop
  | finish =>
    refine { hunwritten with active := fun other hother => ?_ }
    exact hunwritten.active other (mem_of_mem_erase hother)
  | storeBody idx large out op htask =>
    obtain ⟨blobs, inline, hafter, -⟩ := storeBody_spec before idx op large out
    rw [hafter]
    exact { hunwritten with tasks := hunwritten.set htask _ }
  | openFile idx created inline op htask =>
    obtain ⟨files, stage, hafter, -⟩ := openFile_spec before idx op inline created
    rw [hafter]
    exact { hunwritten with tasks := hunwritten.set htask _ }
  | writeFile idx
  | failFile idx => exact { hunwritten with tasks := hunwritten.erase idx }
  | _ => exact { hunwritten with }

/-- While nothing of the key is written, no record of it comes to the disk. -/
theorem Unwritten.hasRecord (hstep : before.Step change after) (hrec : HasRecord key after.disk) :
    HasRecord key before.disk := by
  cases hstep with
  | deleteFiles => exact hrec.of_erase.of_erase
  | storeBody idx large out op =>
    obtain ⟨blobs, inline, hafter, -⟩ := storeBody_spec before idx op large out
    rw [hafter] at hrec
    exact hrec
  | openFile idx created inline op =>
    obtain ⟨files, stage, hafter, hothers, hempty, -⟩ := openFile_spec before idx op inline created
    rw [hafter] at hrec
    obtain ⟨record, inlined, hlookup, hkey⟩ := hrec
    by_cases hpath : key.recordPath = op.record.key.recordPath
    · exact absurd (hpath ▸ hlookup) (hempty record inlined)
    · exact ⟨record, inlined, (hothers _ hpath).symm.trans hlookup, hkey⟩
  | writeFile idx inline op htask =>
    obtain ⟨record, inlined, hlookup, hkey⟩ := hrec
    rw [Holdings.writeFile] at hlookup
    split at hlookup
    · by_cases hpath : key.recordPath = op.record.key.recordPath
      · rw [hpath, Finmap.lookup_insert] at hlookup
        cases hlookup
        exact absurd hkey (hunwritten.tasks _ (mem_of_getElem? htask))
      · rw [Finmap.lookup_insert_of_ne _ hpath] at hlookup
        exact ⟨record, inlined, hlookup, hkey⟩
    · exact ⟨record, inlined, hlookup, hkey⟩
  | delete => exact hrec.of_erase
  | _ => exact hrec

end

/-- A queued deletion stays queued until it is made. -/
theorem awaitsDeletion_step (hstep : before.Step change after)
    (hawaits : AwaitsDeletion key before.serialQueue) :
    AwaitsDeletion key after.serialQueue ∨ ¬ HasRecord key after.disk := by
  obtain ⟨keys, hkeys, hkey⟩ := hawaits
  cases hstep with
  | remove | updateFileModificationTime => exact .inl ⟨keys, mem_append_left _ hkeys, hkey⟩
  | deleteFiles first others rest hqueue =>
    rw [hqueue] at hkeys
    cases mem_cons.1 hkeys with
    | inl hhead =>
      cases hhead
      cases mem_cons.1 hkey with
      | inl hself =>
        subst hself
        refine .inr ?_
        rintro ⟨record, inline, hlookup, -⟩
        have herased := lookup_files_erase hlookup
        rw [Disk.erase, if_neg nofun, Finmap.lookup_erase] at herased
        exact nomatch herased
      | inr hothers => exact .inl ⟨others, mem_cons_self, hothers⟩
    | inr hrest => exact .inl ⟨keys, mem_cons_of_mem _ hrest, hkey⟩
  | endSerial task rest hqueue hends =>
    rw [hqueue] at hkeys
    cases mem_cons.1 hkeys with
    | inl hhead =>
      cases keys with
      | nil => exact absurd hkey not_mem_nil
      | cons first others => exact absurd hhead.symm (hends first others)
    | inr hrest => exact .inl ⟨keys, hrest, hkey⟩
  | storeBody idx large out op =>
    obtain ⟨blobs, inline, hafter, -⟩ := storeBody_spec before idx op large out
    rw [hafter]
    exact .inl ⟨keys, hkeys, hkey⟩
  | openFile idx created inline op =>
    obtain ⟨files, stage, hafter, -⟩ := openFile_spec before idx op inline created
    rw [hafter]
    exact .inl ⟨keys, hkeys, hkey⟩
  | _ => exact .inl ⟨keys, hkeys, hkey⟩

/-- What was stored of the key is gone, or is on the disk and will be deleted. -/
structure Going (key : Key) (holdings : Holdings) : Prop where
  unwritten : Unwritten key holdings
  awaits : HasRecord key holdings.disk → AwaitsDeletion key holdings.serialQueue

theorem Going.step (hgoing : Going key before)
    (hstores : ∀ op, change = .store op → op.record.key ≠ key)
    (hstep : before.Step change after) : Going key after where
  unwritten := hgoing.unwritten.step hstores hstep
  awaits := by
    intro hrec
    have hawaits := hgoing.awaits (hgoing.unwritten.hasRecord hstep hrec)
    exact (awaitsDeletion_step hstep hawaits).resolve_right fun hnone => hnone hrec

/-- Nothing of the key is left. -/
structure Gone (key : Key) (holdings : Holdings) : Prop where
  unwritten : Unwritten key holdings
  noRecord : ¬ HasRecord key holdings.disk

theorem Gone.step (hgone : Gone key before)
    (hstores : ∀ op, change = .store op → op.record.key ≠ key)
    (hstep : before.Step change after) : Gone key after where
  unwritten := hgone.unwritten.step hstores hstep
  noRecord := fun hrec => hgone.noRecord (hgone.unwritten.hasRecord hstep hrec)

end Holdings

/-! ## Answers about a key that is gone -/

/-- A task of the main run loop that tells no reader of a record of the key. -/
def MainTask.TellsNothing (key : Key) : MainTask → Prop
  | .finishRead operation record _ => operation.key = key → record = none
  | .deliver operation _ => operation.key ≠ key
  | _ => True

/-- Since `told`, no reader of the key was told of a record, and none will be by the tasks
that are under way. -/
structure TellsNothing (key : Key) (told : List (ReadOperation × Option Record))
    (answers : Reads × List MainTask) : Prop where
  tasks : ∀ task ∈ answers.1.tasks, task.operation.key = key →
    ∀ found, task.record ≠ some (some found)
  posted : ∀ task ∈ answers.2, task.TellsNothing key
  delivered : ∃ later, answers.1.delivered = told ++ later ∧
    ∀ delivery ∈ later, delivery.1.key = key → delivery.2 = none

namespace TellsNothing

variable {key : Key} {told : List (ReadOperation × Option Record)} {reads : Reads}
variable {mainQueue : List MainTask} {storage next : Storage}

section

variable (htells : TellsNothing key told (reads, mainQueue))
include htells

theorem post (task : MainTask)
    (htask : task.TellsNothing key) : TellsNothing key told (reads, mainQueue ++ [task]) := by
  refine { htells with posted := fun other hother => ?_ }
  cases mem_append.1 hother with
  | inl hold => exact htells.posted other hold
  | inr hnew => exact mem_singleton.1 hnew ▸ htask

theorem deliver (op : ReadOperation) {record : Option Record}
    (hnone : op.key = key → record = none) :
    TellsNothing key told (reads.deliver op record, mainQueue) := by
  obtain ⟨later, hlater, hnothing⟩ := htells.delivered
  refine ⟨htells.tasks, htells.posted, later ++ [(op, record)], ?_, ?_⟩
  · rw [← append_assoc, ← hlater]
    rfl
  · grind

theorem dispatchPending (mode : Mode)
    (mayBlob : Key → Bool) (order : List Priority) :
    TellsNothing key told (reads.dispatchPending mode mayBlob order, mainQueue) := by
  refine ⟨fun task htask hkey found => ?_, htells.posted, ?_⟩
  · cases Reads.mem_tasks_dispatchPending htask with
    | inl hold => exact htells.tasks task hold hkey found
    | inr hnew => exact hnew ▸ nofun
  · rw [Reads.delivered_dispatchPending]
    exact htells.delivered

theorem cancelAllReadOperations :
    TellsNothing key told (reads.cancelAllReadOperations, mainQueue) := by
  obtain ⟨canceled, heq, -⟩ := Reads.cancelAllReadOperations_eq reads
  obtain ⟨later, hlater, hnothing⟩ := htells.delivered
  rw [heq]
  refine ⟨htells.tasks, htells.posted, later ++ canceled.map fun op => (op, none), ?_, ?_⟩
  · rw [← append_assoc, ← hlater]
  · grind

theorem of_findsOnDisk {disk : Disk}
    (hnoRec : ¬ Holdings.HasRecord key disk) {idx : ℕ} {old : ReadTask}
    (htask : reads.tasks[idx]? = some old) {record : Option (Option (Record × Bool))}
    (hfinds : old.FindsOnDisk disk record) (hkey : old.operation.key = key)
    (found : Record × Bool) : record ≠ some (some found) := by
  intro hfound
  rcases hfinds found hfound with hbefore | hdisk
  · exact htells.tasks old (mem_of_getElem? htask) hkey found hbefore
  · exact hnoRec (Holdings.hasRecord_of_readRecord (hkey ▸ hdisk))

end

theorem readSide_iff :
    TellsNothing key told storage.readSide ↔ TellsNothing key told storage.answers := by
  constructor
  · intro htells
    refine ⟨htells.tasks, fun task htask => ?_, htells.delivered⟩
    cases task with
    | finishRead | deliver => exact htells.posted _ (mem_filter.2 ⟨htask, rfl⟩)
    | _ => trivial
  · intro htells
    exact ⟨htells.tasks, fun task htask => htells.posted task (mem_of_mem_filter htask),
      htells.delivered⟩

theorem readStep (htells : TellsNothing key told storage.readSide)
    (hgone : Holdings.Gone key storage.holdings) {action : Action}
    {side : Reads × List MainTask} (hstep : storage.ReadStep action side) :
    TellsNothing key told side := by
  have hcounted : TellsNothing key told
      ({ storage.reads with retrieved := storage.reads.retrieved + 1 },
        answering storage.mainQueue) := { htells with }
  cases hstep with
  | kept => exact htells
  | answered => exact hcounted.deliver _ fun _ => rfl
  | found wanted prio found hfound =>
    refine hcounted.post (.deliver ⟨storage.reads.retrieved, wanted⟩ found) fun hwanted => ?_
    have hfoundKey := find?_some hfound
    rw [decide_eq_true_eq] at hfoundKey
    rcases mem_append.1 (mem_of_find?_eq_some hfound) with hpend | hactive
    · exact hgone.unwritten.pending found hpend (hfoundKey.trans hwanted)
    · exact hgone.unwritten.active found hactive (hfoundKey.trans hwanted)
  | queued =>
    apply dispatchPending
    exact { hcounted with }
  | canceled => exact cancelAllReadOperations htells
  | progressed action idx old task htask hsame hfinds =>
    refine { htells with tasks := fun other hother => ?_ }
    rcases mem_or_eq_of_mem_set hother with hold | rfl
    · exact htells.tasks other hold
    · rw [hsame]
      exact of_findsOnDisk htells hgone.noRecord htask hfinds
  | posted action idx old record blob htask hfinds =>
    have herased : TellsNothing key told
        ({ storage.reads with tasks := storage.reads.tasks.eraseIdx idx },
          answering storage.mainQueue) :=
      { htells with
        tasks := fun other hother => htells.tasks other (mem_of_mem_eraseIdx hother) }
    refine herased.post _ fun hkey => ?_
    cases record with
    | none => rfl
    | some found => exact absurd rfl (of_findsOnDisk htells hgone.noRecord htask hfinds hkey found)
  | finished accepts exceeds op record blob rest mode mayBlob hhead =>
    rw [Storage.readSide, hhead] at htells
    have hrest : TellsNothing key told (storage.reads, rest) :=
      { htells with posted := (forall_mem_cons.1 htells.posted).2 }
    have hnone := (forall_mem_cons.1 htells.posted).1
    have htold : TellsNothing key told (if op ∈ storage.reads.canceled then storage.reads
        else storage.reads.deliver op (ReadOperation.finish record blob), rest) := by
      split
      · exact hrest
      · refine hrest.deliver op fun hkey => ?_
        rw [hnone hkey]
        rfl
    apply dispatchPending
    exact { htold with }
  | delivered accepts exceeds op found rest hhead =>
    rw [Storage.readSide, hhead] at htells
    have hrest : TellsNothing key told (storage.reads, rest) :=
      { htells with posted := (forall_mem_cons.1 htells.posted).2 }
    exact hrest.deliver op fun hkey => absurd hkey (forall_mem_cons.1 htells.posted).1

theorem step (htells : TellsNothing key told storage.answers)
    (hgone : Holdings.Gone key storage.holdings) {action : Action}
    (hnext : storage.step action = some next) : TellsNothing key told next.answers := by
  rw [← readSide_iff] at htells ⊢
  exact htells.readStep hgone (Storage.readStep_of_moves (Storage.moves_of_step hnext))

end TellsNothing

/-! ## Every run -/

namespace Storage

def RemovesKey (key : Key) : Action → Prop
  | .remove removed => removed = key
  | .removeKeys keys => key ∈ keys
  | _ => False

/-- No write of the key is active, and the filter denies the key only if nothing of it is
pending or on the disk. -/
def RemovesAll (storage : Storage) (key : Key) : Prop :=
  (∀ operation ∈ storage.activeWriteOperations, operation.record.key ≠ key) ∧
    (storage.mayContain key ∨ key.recordPath ∉ storage.disk.files ∧
      ∀ operation ∈ storage.pendingWriteOperations, operation.record.key ≠ key)

variable {storage next : Storage} {key : Key}

theorem lookup_ne_of_notMem (hfile : key.recordPath ∉ storage.disk.files) :
    ¬ Holdings.HasRecord key storage.disk := by
  rintro ⟨record, inline, hlookup, -⟩
  exact hfile (Finmap.mem_of_lookup_eq_some hlookup)

section

variable (hwrites : WritesInv [] storage)
include hwrites

variable (hall : storage.RemovesAll key)
include hall

theorem going_remove {keys : List Key} (hkey : key ∈ keys) :
    Holdings.Going key (storage.remove keys).holdings := by
  have hremoved : storage.mayContain key → key ∈ keys.filter storage.mayContain :=
    fun hmay => mem_filter.2 ⟨hkey, hmay⟩
  refine ⟨⟨?_, hall.1, fun task htask => hall.1 _ (hwrites.phase.mem_active htask)⟩, ?_⟩
  · intro op hop hself
    obtain ⟨hpend, hkept⟩ := mem_filter.1 hop
    rw [hself] at hkept
    cases hall.2 with
    | inl hmay => exact of_decide_eq_true hkept (hremoved hmay)
    | inr hnothing => exact hnothing.2 op hpend hself
  · intro hrec
    cases hall.2 with
    | inl hmay => exact ⟨_, mem_append_right _ (mem_singleton_self _), hremoved hmay⟩
    | inr hnothing => exact absurd hrec (lookup_ne_of_notMem hnothing.1)

theorem going_of_removal {removal : Action} (hremoval : RemovesKey key removal)
    (hnext : storage.step removal = some next) : Holdings.Going key next.holdings := by
  cases removal with
  | remove =>
    cases hnext
    rw [hremoval]
    rw [removeKey]
    split
    · exact going_remove hwrites hall (mem_singleton_self key)
    · next hdenied =>
      obtain ⟨hfile, hpend⟩ := hall.2.resolve_left hdenied
      refine ⟨⟨hpend, hall.1, fun task htask => hall.1 _ (hwrites.phase.mem_active htask)⟩, ?_⟩
      exact fun hrec => absurd hrec (lookup_ne_of_notMem hfile)
  | removeKeys =>
    cases hnext
    exact going_remove hwrites hall hremoval
  | _ => exact hremoval.elim

end

def StoresOther (key : Key) (action : Action) : Prop :=
  ∀ record, action = .store record → record.key ≠ key

theorem StoresOther.allowed {action : Action} (hother : StoresOther key action)
    (change : Change) (hallows : Allows storage action change) (op : WriteOperation)
    (hchange : change = .store op) : op.record.key ≠ key := by
  subst hchange
  exact hother op.record hallows

/-- A key is removed while none of its writes is active and the filter is right about it,
and is not stored again.  Once everything has finished, no `retrieve` of it yields a
record. -/
theorem removed_key_yields_nothing (mode : Mode) (pageSize capacity : ℕ) (disk : Disk)
    (key : Key) {before after later : List Action} {removal : Action}
    {removing idle final : Storage}
    (hbefore : run step (.opened mode pageSize capacity disk) before = some removing)
    (hall : removing.RemovesAll key) (hremoval : RemovesKey key removal)
    (hafter : run step removing (removal :: after) = some idle) (hidle : idle.Idle)
    (hlater : run step idle later = some final)
    (hstores : ∀ record, .store record ∈ after ++ later → record.key ≠ key) :
    ∃ told, final.reads.delivered = idle.reads.delivered ++ told ∧
      ∀ delivery ∈ told, delivery.1.key = key → delivery.2 = none := by
  have hmeets (actions : List Action) (hsubset : actions ⊆ after ++ later)
      (state : Storage) : Meets step (fun _ => StoresOther key) state actions := by
    apply meets_of_forall
    rintro action hmem record rfl
    exact hstores record (hsubset hmem)
  have hwrites : WritesInv [] removing :=
    run_of_step (fun hinv _ hnext => hinv.step hnext)
      (WritesInv.opened mode pageSize capacity disk) (meets_true _ before) hbefore
  obtain ⟨removed, hremoved, hafter⟩ := run_cons_eq_some_iff.1 hafter
  have hgoing := (always_holdings Holdings.Going.step StoresOther.allowed
    (hwrites.step hremoved) (going_of_removal hwrites hall hremoval hremoved)
    (hmeets after (subset_append_left _ _) removed)).last hafter
  have hgone : Holdings.Gone key idle.holdings := by
    refine ⟨hgoing.2.unwritten, fun hrecord => ?_⟩
    obtain ⟨keys, hkeys, -⟩ := hgoing.2.awaits hrecord
    change .deleteFiles keys ∈ idle.serialQueue at hkeys
    rw [hidle.serialQueue] at hkeys
    exact absurd hkeys not_mem_nil
  have htells : TellsNothing key idle.reads.delivered idle.answers := by
    refine ⟨?_, ?_, [], (append_nil _).symm, fun delivery hdelivery => absurd hdelivery not_mem_nil⟩
    · intro task htask
      change task ∈ idle.reads.tasks at htask
      rw [hidle.readTasks] at htask
      exact absurd htask not_mem_nil
    · intro task htask
      change task ∈ idle.mainQueue at htask
      rw [length_eq_zero_iff.1 hidle.mainQueue] at htask
      exact absurd htask not_mem_nil
  have hlast := always_holdings Holdings.Gone.step StoresOther.allowed hgoing.1 hgone
    (hmeets later (subset_append_right _ _) idle)
  have hstep {state next : Storage} {action : Action}
      (htells : TellsNothing key idle.reads.delivered state.answers)
      (hgone : WritesInv [] state ∧ Holdings.Gone key state.holdings)
      (hnext : state.step action = some next) :
      TellsNothing key idle.reads.delivered next.answers := htells.step hgone.2 hnext
  exact (run_of_always hstep htells hlast hlater).delivered

def keptRecord : Record := .sample 1 7

/-- The first synchronization ends on an empty disk, and the write of a record begins. -/
def beginWrite : List Action :=
  [.finishTraversal 0, .runMain true false, .store keptRecord, .fireWriteTimer]

def endWrite : List Action :=
  [.storeBody 0 .notStored, .openFile 0 true, .writeFile 0 false, .runMain true false]

/-- The record is on the disk and nothing is under way. -/
def recordWritten : Storage :=
  after step (.opened .normal 4096 1000 ⟨∅, ∅⟩) (beginWrite ++ endWrite)

def recordRemoved : Storage :=
  after step recordWritten [.remove keptRecord.key, .runSerial, .runSerial]

def removedAsked : Storage :=
  after step recordRemoved [.retrieve keptRecord.key 0, .readFile 0 true, .runMain false false]

/-- A record that was written is removed, and then asked for. -/
theorem removed_key_yields_nothing_written :
    recordRemoved.Idle ∧ removedAsked.reads.delivered = [(⟨0, keptRecord.key⟩, none)] ∧
      ∃ told, removedAsked.reads.delivered = recordRemoved.reads.delivered ++ told ∧
        ∀ delivery ∈ told, delivery.1.key = keptRecord.key → delivery.2 = none := by
  have hidle : recordRemoved.Idle := by constructor <;> decide +kernel
  have hall : recordWritten.RemovesAll keptRecord.key := by
    constructor
    · have hnone : recordWritten.activeWriteOperations = [] := by decide +kernel
      exact fun operation hoperation => absurd hoperation not_mem_nil
    · exact .inl (by decide +kernel)
  have hremoval : RemovesKey keptRecord.key (.remove keptRecord.key) := rfl
  have hbefore : run step (.opened .normal 4096 1000 ⟨∅, ∅⟩) (beginWrite ++ endWrite) =
      some recordWritten := run_eq_after (by decide +kernel)
  have hafter : run step recordWritten [.remove keptRecord.key, .runSerial, .runSerial] =
      some recordRemoved := run_eq_after (by decide +kernel)
  have hlater : run step recordRemoved
      [.retrieve keptRecord.key 0, .readFile 0 true, .runMain false false] =
        some removedAsked := run_eq_after (by decide +kernel)
  refine ⟨hidle, by decide +kernel, ?_⟩
  apply removed_key_yields_nothing _ _ _ _ _ hbefore hall hremoval hafter hidle hlater
  intro record hrecord
  simp at hrecord

/-- The record is removed while its write is active.  The deletion runs before the write
creates the file. -/
def recordReturned : Storage :=
  after step (.opened .normal 4096 1000 ⟨∅, ∅⟩)
    (beginWrite ++ [.remove keptRecord.key, .runSerial, .runSerial] ++ endWrite)

def returnedAsked : Storage :=
  after step recordReturned [.retrieve keptRecord.key 0, .readFile 0 true, .runMain true false]

/-- The record is there when everything has finished. -/
theorem removed_record_returns : run step (.opened .normal 4096 1000 ⟨∅, ∅⟩)
          (beginWrite ++ [.remove keptRecord.key, .runSerial, .runSerial] ++ endWrite) =
        some recordReturned ∧
      recordReturned.Idle ∧
      run step recordReturned
          [.retrieve keptRecord.key 0, .readFile 0 true, .runMain true false] =
        some returnedAsked ∧
      returnedAsked.reads.delivered = [(⟨0, keptRecord.key⟩, some keptRecord)] := by
  refine ⟨run_eq_after (by decide +kernel), ?_, run_eq_after (by decide +kernel), by decide +kernel⟩
  constructor <;> decide +kernel

end Storage

end PurcFetcher.Cache
