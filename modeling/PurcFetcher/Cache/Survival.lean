import PurcFetcher.Cache.Holdings

/-!
# Stores and the disk

The write operations of a key reach the disk in the order in which they were stored, one
at a time.  As long as nobody removes the key, nobody deletes its files and its writes
succeed, the disk holds the last record that was written, and with it the last one that
was stored once its write has finished.

A read that fails removes the key it has read: it drops the writes of the key that are
pending by then and deletes the file that may have been written by then.  So the above
needs that no read of the key fails.
-/

namespace PurcFetcher.Cache

open Machine List

def ofKey (key : Key) (operations : List WriteOperation) : List WriteOperation :=
  operations.filter fun operation => operation.record.key = key

@[simp]
theorem ofKey_append (key : Key) (left right : List WriteOperation) :
    ofKey key (left ++ right) = ofKey key left ++ ofKey key right :=
  filter_append left right

theorem ofKey_singleton {key : Key} {op : WriteOperation}
    (hkey : op.record.key = key) : ofKey key [op] = [op] :=
  filter_cons_of_pos (decide_eq_true hkey)

theorem ofKey_singleton_of_ne {key : Key} {op : WriteOperation}
    (hkey : op.record.key ≠ key) : ofKey key [op] = [] :=
  filter_cons_of_neg (by rwa [decide_eq_true_eq])

/-! ## The file of a path -/

namespace Disk

variable {disk other : Disk} {key : Key}

theorem record_congr (hfiles : other.files.lookup key.recordPath = disk.files.lookup key.recordPath)
    (hblobs : other.blobs.lookup key.recordPath = disk.blobs.lookup key.recordPath) :
    other.record key = disk.record key := by
  rw [record, record, readRecord, readRecord, hfiles, hblobs]

theorem lookup_erase (disk : Disk) (entry : Entry) {path : Path} (hpath : entry.path ≠ path) :
    (disk.erase entry).files.lookup path = disk.files.lookup path ∧
      (disk.erase entry).blobs.lookup path = disk.blobs.lookup path := by
  rw [erase]
  split
  · exact ⟨rfl, Finmap.lookup_erase_ne hpath.symm⟩
  · exact ⟨Finmap.lookup_erase_ne hpath.symm, rfl⟩

end Disk

namespace Holdings

variable {key : Key} {before after : Holdings} {change : Change}

/-- The changes that leave the records of a key alone: its files are not deleted, its
writes succeed, and no other key has its path. -/
def Spares (key : Key) : Change → Prop
  | .store operation =>
    operation.record.key.recordPath = key.recordPath → operation.record.key = key
  | .remove keys => ∀ removed ∈ keys, removed.recordPath ≠ key.recordPath
  | .storeBody _ outcome => outcome ≠ .notLinked
  | .openFile _ created => created
  | .writeFile _ error => error = false
  | .delete entry => entry.path ≠ key.recordPath
  | _ => True

/-- What a task has prepared on the disk for a key. -/
structure Prepared (key : Key) (disk : Disk) (task : WriteTask) : Prop where
  path : task.operation.record.key.recordPath = key.recordPath → task.operation.record.key = key
  opens : task.stage ≠ .notOpened
  blob : task.operation.record.key = key →
    task.stage = .encoded false ∨ task.stage = .opened false →
      disk.blobs.lookup key.recordPath = some task.operation.record.body.bytes
  file : task.operation.record.key = key → ∀ isBodyInline,
    task.stage = .opened isBodyInline → key.recordPath ∈ disk.files

structure Kept (key : Key) (holdings : Holdings) : Prop where
  order : ofKey key (holdings.written ++ holdings.tasks.map (·.operation) ++
    holdings.pending.reverse) = ofKey key holdings.stored
  single : holdings.tasks = [] ∨
    ∃ task, holdings.tasks = [task] ∧ holdings.active = [task.operation] ∧
      Prepared key holdings.disk task
  pending : ∀ operation ∈ holdings.pending,
    operation.record.key.recordPath = key.recordPath → operation.record.key = key
  deletions : ∀ keys, .deleteFiles keys ∈ holdings.serialQueue →
    ∀ removed ∈ keys, removed.recordPath ≠ key.recordPath
  disk : (∀ task ∈ holdings.tasks, task.operation.record.key ≠ key) →
    ∀ operation, (ofKey key holdings.written).getLast? = some operation →
      holdings.disk.record key = some operation.record

namespace Kept

variable {idx : ℕ} {operation : WriteOperation}

variable (hkept : Kept key before)
include hkept

theorem task {idx : ℕ} {task : WriteTask}
    (htask : before.tasks[idx]? = some task) :
    idx = 0 ∧ before.tasks = [task] ∧ before.active = [task.operation] ∧
      Prepared key before.disk task := by
  obtain hnone | ⟨only, htasks, hactive, hprepared⟩ := hkept.single
  · rw [hnone] at htask
    exact nomatch htask
  · grind

theorem withDisk (disk : Disk) (serialQueue : List SerialTask)
    (hfiles : disk.files.lookup key.recordPath = before.disk.files.lookup key.recordPath)
    (hblobs : disk.blobs.lookup key.recordPath = before.disk.blobs.lookup key.recordPath)
    (hdeletions : ∀ keys, .deleteFiles keys ∈ serialQueue →
      ∀ removed ∈ keys, removed.recordPath ≠ key.recordPath) :
    Kept key { before with disk := disk, serialQueue := serialQueue } := by
  refine ⟨hkept.order, hkept.single.imp_right ?_, hkept.pending, hdeletions, ?_⟩
  · rintro ⟨task, htasks, hactive, hprepared⟩
    refine ⟨task, htasks, hactive, hprepared.path, hprepared.opens, ?_, ?_⟩
    · exact fun hkey hstage => hblobs.trans (hprepared.blob hkey hstage)
    · intro hkey inline hstage
      have hfile := hprepared.file hkey inline hstage
      rw [← Finmap.lookup_isSome] at hfile ⊢
      rwa [hfiles]
  · intro hothers operation hlast
    rw [Disk.record_congr hfiles hblobs]
    exact hkept.disk hothers operation hlast

theorem store (op : WriteOperation)
    (hspares : Spares key (.store op)) :
    Kept key { before with
      pending := op :: before.pending, stored := before.stored ++ [op] } := by
  refine { hkept with order := ?_, pending := fun other hother => ?_ }
  · dsimp only
    rw [reverse_cons, ← append_assoc, ofKey_append, hkept.order, ofKey_append]
  · cases mem_cons.1 hother with
    | inl hself => exact hself ▸ hspares
    | inr hold => exact hkept.pending other hold

theorem remove {keys : List Key}
    (hspares : Spares key (.remove keys)) :
    Kept key { before with
      pending := before.pending.filter fun operation => operation.record.key ∉ keys
      serialQueue := before.serialQueue ++ [.deleteFiles keys] } := by
  have hother : key ∉ keys := fun hkey => hspares key hkey rfl
  have hpend : ofKey key (before.pending.filter fun operation =>
      operation.record.key ∉ keys).reverse = ofKey key before.pending.reverse := by
    rw [ofKey, ofKey, ← filter_reverse, filter_filter]
    apply filter_congr
    intro operation _
    by_cases hkey : operation.record.key = key
    · simp [hkey, hother]
    · simp [hkey]
  refine { hkept with order := ?_, pending := fun operation hop => ?_, deletions := ?_ }
  · have horder := hkept.order
    rw [ofKey_append] at horder ⊢
    rwa [hpend]
  · exact hkept.pending operation (mem_of_mem_filter hop)
  · intro others hothers
    cases mem_append.1 hothers with
    | inl hold => exact hkept.deletions others hold
    | inr hnew =>
      cases mem_singleton.1 hnew
      exact hspares

theorem dispatch (hlast : before.pending.getLast? = some operation)
    (hroom : before.active = []) :
    Kept key { before with
      pending := before.pending.dropLast
      active := operation :: before.active
      tasks := before.tasks ++ [⟨operation, .dispatched⟩] } := by
  have hnone : before.tasks = [] := by
    obtain hnone | ⟨task, -, hactive, -⟩ := hkept.single
    · exact hnone
    · rw [hroom] at hactive
      exact nomatch hactive
  have hreverse : before.pending.reverse = operation :: before.pending.dropLast.reverse := by
    conv_lhs => rw [← dropLast_append_getLast? operation hlast]
    rw [reverse_append, reverse_singleton, singleton_append]
  have hpath := hkept.pending operation (mem_of_getLast? hlast)
  refine ⟨?_, .inr ⟨⟨operation, .dispatched⟩, ?_, ?_, ⟨hpath, nofun, ?_, ?_⟩⟩, ?_,
    hkept.deletions, ?_⟩
  · have horder := hkept.order
    rw [hnone, hreverse, map_nil, append_nil] at horder
    rwa [hnone, nil_append, map_singleton, append_assoc, singleton_append]
  · rw [hnone]
    rfl
  · rw [hroom]
  · rintro - (hstage | hstage)
    · exact nomatch hstage
    · exact nomatch hstage
  · exact fun _ inline hstage => nomatch hstage
  · exact fun other hother => hkept.pending other (mem_of_mem_dropLast hother)
  · intro _
    apply hkept.disk
    rw [hnone]
    exact fun task htask => absurd htask not_mem_nil

/-- The only task goes to another stage. -/
theorem advance {stage : WriteStage}
    (htask : before.tasks[idx]? = some ⟨operation, stage⟩) (next : WriteStage) (disk : Disk)
    (hprepared : Prepared key disk ⟨operation, next⟩)
    (hrec : operation.record.key ≠ key → disk.record key = before.disk.record key) :
    Kept key { before with
      disk := disk, tasks := before.tasks.set idx ⟨operation, next⟩ } := by
  obtain ⟨rfl, htasks, hactive, -⟩ := hkept.task htask
  have hset : before.tasks.set 0 ⟨operation, next⟩ = [⟨operation, next⟩] := by
    rw [htasks]
    rfl
  refine ⟨?_, .inr ⟨⟨operation, next⟩, hset, hactive, hprepared⟩, hkept.pending,
    hkept.deletions, ?_⟩
  · have horder := hkept.order
    rw [htasks] at horder
    rwa [hset]
  · intro hothers other hlast
    have hother : operation.record.key ≠ key :=
      hothers ⟨operation, next⟩ (by rw [hset]; exact mem_singleton_self _)
    rw [hrec hother]
    apply hkept.disk _ other hlast
    rw [htasks]
    exact fun task hmem => mem_singleton.1 hmem ▸ hother

theorem storeBody (htask : before.tasks[idx]? = some ⟨operation, .dispatched⟩) (large : Bool)
    {out : Storage.BlobOutcome} (hlinked : out ≠ .notLinked) :
    Kept key (before.storeBody idx operation large out) := by
  obtain ⟨-, -, -, hprepared⟩ := hkept.task htask
  obtain ⟨blobs, inline, hafter, hothers, hstored⟩ := storeBody_spec before idx operation large out
  rw [hafter]
  refine hkept.advance htask _ _ ⟨hprepared.path, nofun, ?_, ?_⟩ ?_
  · grind
  · exact fun _ inline hstage => nomatch hstage
  · intro hother
    exact Disk.record_congr rfl (hothers _ fun hpath => hother (hprepared.path hpath.symm))

theorem openFile {inline : Bool}
    (htask : before.tasks[idx]? = some ⟨operation, .encoded inline⟩) :
    Kept key (before.openFile idx operation inline true) := by
  obtain ⟨-, -, -, hprepared⟩ := hkept.task htask
  obtain ⟨files, stage, hafter, hothers, -, hopened⟩ :=
    openFile_spec before idx operation inline true
  obtain ⟨rfl, hfile⟩ := hopened rfl
  rw [hafter]
  refine hkept.advance htask _ _ ⟨hprepared.path, nofun, ?_, ?_⟩ ?_
  · rintro hkey (hstage | hstage)
    · exact nomatch hstage
    · exact hprepared.blob hkey (.inl (congrArg _ (WriteStage.opened.inj hstage)))
  · rintro rfl _ _
    exact hfile
  · intro hother
    exact Disk.record_congr (hothers _ fun hpath => hother (hprepared.path hpath.symm)) rfl

theorem writeFile {inline : Bool}
    (htask : before.tasks[idx]? = some ⟨operation, .opened inline⟩) :
    Kept key (before.writeFile idx operation inline) := by
  obtain ⟨rfl, htasks, -, hprepared⟩ := hkept.task htask
  have herased : before.tasks.eraseIdx 0 = [] := by
    rw [htasks]
    rfl
  refine ⟨?_, .inl herased, hkept.pending, hkept.deletions, fun _ other hlast => ?_⟩
  · have horder := hkept.order
    rw [htasks] at horder
    rw [Holdings.writeFile]
    rwa [herased, map_nil, append_nil]
  · rw [Holdings.writeFile] at hlast ⊢
    rw [ofKey_append] at hlast
    by_cases hkey : operation.record.key = key
    · rw [ofKey_singleton hkey, getLast?_append_of_ne_nil _ (cons_ne_nil _ _)] at hlast
      cases hlast
      subst hkey
      rw [if_pos (hprepared.file rfl inline rfl)]
      rw [Disk.record, Disk.readRecord]
      simp only [Finmap.lookup_insert, if_true, ReadOperation.finish]
      cases inline with
      | true => exact if_pos (.inl rfl)
      | false => exact if_pos (.inr (hprepared.blob rfl (.inr rfl)))
    · rw [ofKey_singleton_of_ne hkey, append_nil] at hlast
      have hpath : key.recordPath ≠ operation.record.key.recordPath :=
        fun hpath => hkey (hprepared.path hpath.symm)
      have hold : before.disk.record key = some other.record := by
        apply hkept.disk _ other hlast
        rw [htasks]
        exact fun task hmem => mem_singleton.1 hmem ▸ hkey
      split
      · rw [← hold]
        exact Disk.record_congr (Finmap.lookup_insert_of_ne _ hpath) rfl
      · exact hold

theorem step (hspares : Spares key change)
    (hstep : before.Step change after) : Kept key after := by
  cases hstep with
  | store operation => exact hkept.store operation hspares
  | remove => exact hkept.remove hspares
  | updateFileModificationTime =>
    apply hkept.withDisk before.disk _ rfl rfl
    intro keys hkeys
    cases mem_append.1 hkeys with
    | inl hold => exact hkept.deletions keys hold
    | inr hnew => exact nomatch mem_singleton.1 hnew
  | dispatch operation hlast hroom => exact hkept.dispatch hlast hroom
  | finish operation htasks => exact { hkept with single := .inl htasks }
  | deleteFiles removed keys rest hqueue =>
    have hdeletions := hkept.deletions
    rw [hqueue] at hdeletions
    have hpath := hdeletions _ mem_cons_self removed mem_cons_self
    have hfirst := Disk.lookup_erase before.disk ⟨removed.recordPath, false⟩ hpath
    have hsecond := Disk.lookup_erase (before.disk.erase ⟨removed.recordPath, false⟩)
      ⟨removed.recordPath, true⟩ hpath
    apply hkept.withDisk _ _ (hsecond.1.trans hfirst.1) (hsecond.2.trans hfirst.2)
    intro others hothers other hother
    cases mem_cons.1 hothers with
    | inl hhead =>
      cases hhead
      exact hdeletions _ mem_cons_self other (mem_cons_of_mem _ hother)
    | inr hrest => exact hdeletions others (mem_cons_of_mem _ hrest) other hother
  | endSerial task rest hqueue =>
    apply hkept.withDisk before.disk _ rfl rfl
    intro keys hkeys
    exact hkept.deletions keys (hqueue ▸ mem_cons_of_mem _ hkeys)
  | storeBody idx large out operation htask => exact hkept.storeBody htask large hspares
  | openFile idx created inline operation htask =>
    cases created with
    | true => exact hkept.openFile htask
    | false => exact nomatch hspares
  | writeFile idx inline operation htask => exact hkept.writeFile htask
  | failFile idx error operation stage htask hfails =>
    obtain ⟨-, -, -, hprepared⟩ := hkept.task htask
    cases hfails with
    | inl herror => exact nomatch herror.symm.trans hspares
    | inr hnotOpened => exact absurd hnotOpened hprepared.opens
  | delete entry =>
    have hsame := Disk.lookup_erase before.disk entry hspares
    exact hkept.withDisk _ before.serialQueue hsame.1 hsame.2 hkept.deletions

end Kept

end Holdings

/-! ## Every run -/

namespace Storage

variable {storage : Storage} {action : Action} {key : Key}

/-- The operation of the last store of a key. -/
def lastStore (storage : Storage) (key : Key) : Option WriteOperation :=
  (ofKey key storage.stored).getLast?

/-- The operation of the last store is pending or active, or its record is on the disk. -/
def StoreSurvives (key : Key) (storage : Storage) : Prop :=
  ∀ operation, storage.lastStore key = some operation →
    operation ∈ storage.pendingWriteOperations ∨ operation ∈ storage.activeWriteOperations ∨
      storage.disk.record key = some operation.record

/-- The files that the action writes are written. -/
def Succeeds : Action → Prop
  | .storeBody _ outcome => outcome ≠ .notLinked
  | .openFile _ created => created
  | .writeFile _ error => error = false
  | _ => True

/-- The files of the path are not removed or deleted, what is written is written, and no
read of the path that was not canceled is rejected. -/
structure Undisturbed (path : Path) (storage : Storage) (action : Action) : Prop where
  keeps : ¬ Removes path action
  leaves : ¬ DeletesName path storage action
  succeeds : Succeeds action
  accepts : ¬ RejectsRead path storage action

/-- A record that is stored under the path of the key is a record of the key. -/
def OwnsPath (key : Key) (action : Action) : Prop :=
  ∀ record, action = .store record → record.key.recordPath = key.recordPath → record.key = key

theorem always_kept (mode : Mode) (pageSize cap : ℕ) (disk : Disk) (key : Key)
    {actions : List Action}
    (hundisturbed :
      Meets step (Undisturbed key.recordPath) (.opened mode pageSize cap disk) actions)
    (howns : ∀ action ∈ actions, OwnsPath key action) :
    Always step (fun storage => WritesInv [] storage ∧ Holdings.Kept key storage.holdings)
      (.opened mode pageSize cap disk) actions := by
  apply always_holdings Holdings.Kept.step _ (.opened mode pageSize cap disk)
    ⟨rfl, .inl rfl, fun _ hop => absurd hop not_mem_nil, fun _ hkeys => absurd hkeys not_mem_nil,
      fun _ _ hlast => nomatch hlast⟩ (hundisturbed.and (meets_of_forall howns _))
  rintro storage action ⟨hundisturbed, howns⟩ change hallows
  cases change with
  | store operation => exact howns operation.record hallows
  | remove =>
    intro removed hremoved hpath
    cases hpath ▸ hallows removed hremoved with
    | inl hremoves => exact hundisturbed.keeps hremoves
    | inr hrejects => exact hundisturbed.accepts hrejects
  | updateFileModificationTime | dispatch | finish | runSerial => trivial
  | delete =>
    intro hpath
    exact hundisturbed.leaves (hpath ▸ hallows)
  | _ =>
    subst hallows
    exact hundisturbed.succeeds

/-- The last operation of the stored ones is on its way, or it is the last one that was
written. -/
theorem storeSurvives_of_kept (hkept : Holdings.Kept key storage.holdings) :
    StoreSurvives key storage := by
  intro operation hlast
  rw [lastStore] at hlast
  rw [← show _ = ofKey key storage.stored from hkept.order, ofKey_append,
    getLast?_append, Option.or_eq_some_iff] at hlast
  obtain hpend | ⟨-, hearlier⟩ := hlast
  · have hmem := mem_of_mem_filter (mem_of_getLast? hpend)
    exact .inl (mem_reverse.1 hmem)
  · rw [ofKey_append, getLast?_append, Option.or_eq_some_iff] at hearlier
    obtain hrunning | ⟨hnone, hwritten⟩ := hearlier
    · have hmem := mem_of_mem_filter (mem_of_getLast? hrunning)
      obtain ⟨task, htask, rfl⟩ := mem_map.1 hmem
      obtain hempty | ⟨only, htasks, hactive, -⟩ := hkept.single
      · rw [hempty] at htask
        exact absurd htask not_mem_nil
      · rw [htasks, mem_singleton] at htask
        change storage.activeWriteOperations = [only.operation] at hactive
        exact .inr (.inl (by rw [htask, hactive]; exact mem_singleton_self _))
    · refine .inr (.inr (hkept.disk (fun task htask hkey => ?_) operation hwritten))
      rw [getLast?_eq_none_iff] at hnone
      have hmem : task.operation ∈ ofKey key (storage.holdings.tasks.map (·.operation)) :=
        mem_filter.2 ⟨mem_map_of_mem htask, decide_eq_true hkey⟩
      rw [hnone] at hmem
      exact absurd hmem not_mem_nil

/-- A key is not removed, its files are not deleted and its writes succeed, and every read
of it that is not canceled yields a record that is accepted.  Then its last store is on
its way to the disk or on the disk, in each state of the run. -/
theorem always_storeSurvives (mode : Mode) (pageSize capacity : ℕ) (disk : Disk) (key : Key)
    (actions : List Action)
    (hundisturbed : Meets step (Undisturbed key.recordPath)
      (.opened mode pageSize capacity disk) actions)
    (howns : ∀ action ∈ actions, OwnsPath key action) :
    Always step (StoreSurvives key) (.opened mode pageSize capacity disk) actions :=
  (always_kept mode pageSize capacity disk key hundisturbed howns).mono
    fun _ hkept => storeSurvives_of_kept hkept.2

/-- The actions that leave every path alone, in every state. -/
def disturbsNothing : Action → Bool
  | .remove _ => false
  | .removeKeys _ => false
  | .visit _ _ _ => false
  | .runMain accepts _ => accepts
  | .storeBody _ outcome => outcome ≠ .notLinked
  | .openFile _ created => created
  | .writeFile _ error => !error
  | _ => true

theorem undisturbed_of_disturbsNothing (hnothing : disturbsNothing action) (path : Path) :
    Undisturbed path storage action := by
  cases action with
  | remove | removeKeys | visit => exact nomatch hnothing
  | runMain =>
    refine ⟨id, id, trivial, fun hrejects => ?_⟩
    exact nomatch hrejects.1.symm.trans hnothing
  | storeBody =>
    rw [disturbsNothing, decide_eq_true_eq] at hnothing
    exact ⟨id, id, hnothing, id⟩
  | openFile => exact ⟨id, id, hnothing, id⟩
  | writeFile =>
    rw [disturbsNothing, Bool.not_eq_true'] at hnothing
    exact ⟨id, id, hnothing, id⟩
  | _ => exact ⟨id, id, trivial, id⟩

/-- An old record is read and accepted while the next one is stored and written. -/
def replacingRun : List Action :=
  [.retrieve (Record.sample 1 7).key 0, .store (.sample 1 7), .readFile 0 true, .readBlob 0,
    .fireWriteTimer, .storeBody 0 .notStored, .runMain true false, .openFile 0 true,
    .writeFile 0 false, .runMain true false]

theorem always_storeSurvives_replacing : Meets step (Undisturbed (Record.sample 1 7).key.recordPath)
        (.opened .normal 4096 1000
          ⟨.singleton (Record.sample 1 7).key.recordPath (.finished (.sample 1 7) true), ∅⟩)
        replacingRun ∧
      Always step (StoreSurvives (Record.sample 1 7).key)
        (.opened .normal 4096 1000
          ⟨.singleton (Record.sample 1 7).key.recordPath (.finished (.sample 1 7) true), ∅⟩)
        replacingRun := by
  have hundisturbed : Meets step (Undisturbed (Record.sample 1 7).key.recordPath)
      (.opened .normal 4096 1000
        ⟨.singleton (Record.sample 1 7).key.recordPath (.finished (.sample 1 7) true), ∅⟩)
      replacingRun := by
    have hnothing : ∀ action ∈ replacingRun, disturbsNothing action = true := by decide
    apply (meets_of_forall hnothing _).mono
    exact fun storage action hnothing => undisturbed_of_disturbsNothing hnothing _
  refine ⟨hundisturbed, always_storeSurvives _ _ _ _ _ _ hundisturbed ?_⟩
  rintro action haction record rfl -
  have hrecord : record = .sample 1 7 := by simpa [replacingRun] using haction
  rw [hrecord]

/-- Nothing is on the disk yet when a key is read.  The record is stored before the
completion handler is told that there is none, and the read removes the key. -/
def droppingRun : List Action :=
  [.retrieve (Record.sample 1 7).key 0, .readFile 0 true, .readBlob 0, .store (.sample 1 7),
    .runMain false false, .runSerial, .runSerial]

def recordDropped : Storage :=
  after step (.opened .normal 4096 1000 ⟨∅, ∅⟩) droppingRun

/-- The record was stored last, and nothing writes it. -/
theorem read_drops_store :
    run step (.opened .normal 4096 1000 ⟨∅, ∅⟩) droppingRun = some recordDropped ∧
      recordDropped.Idle ∧
      recordDropped.lastStore (Record.sample 1 7).key = some ⟨0, .sample 1 7⟩ ∧
      recordDropped.disk.record (Record.sample 1 7).key = none ∧
      ¬ StoreSurvives (Record.sample 1 7).key recordDropped := by
  have hidle : recordDropped.Idle := by constructor <;> decide +kernel
  have hlast : recordDropped.lastStore (Record.sample 1 7).key = some ⟨0, .sample 1 7⟩ := by
    decide +kernel
  have hnone : recordDropped.disk.record (Record.sample 1 7).key = none := by decide +kernel
  refine ⟨run_eq_after (by decide +kernel), hidle, hlast, hnone, fun hsurvives => ?_⟩
  obtain hpending | hactive | hwritten := hsurvives _ hlast
  · rw [hidle.pendingWrites] at hpending
    exact absurd hpending not_mem_nil
  · rw [hidle.activeWrites] at hactive
    exact absurd hactive not_mem_nil
  · exact nomatch hnone.symm.trans hwritten

end Storage

end PurcFetcher.Cache
