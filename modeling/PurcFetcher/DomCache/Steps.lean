import PurcFetcher.DomCache.Index

/-!
# Orderly runs

Every step of an orderly run keeps the index of each open cache complete.
-/

namespace PurcFetcher.DomCache

open Text List

/-- If the cache is to be traversed, no store or removal is pending and no other traversal of it
is going on. -/
def Traversable (caches : Caches) (cache : Cache) : Prop :=
  cache.state = .uninitialized →
    caches.isSettled = true ∧
      ∀ traversal ∈ caches.traversals, traversal.cacheIdentifier ≠ cache.identifier

instance (caches : Caches) (cache : Cache) : Decidable (Traversable caches cache) :=
  inferInstanceAs (Decidable (_ → _))

/-- The storage is traversed when no store or removal is pending, a cache is traversed once at a
time, records are stored in a cache that is open, and no record is removed, by itself or with its
cache, while a store of it has begun. -/
def Orderly (parse : Str → URL) (caches : Caches) : Action → Prop
  | .initializeCaches => caches.isInitialized = false → caches.isSettled = true
  | .openNamed name => ∀ cache ∈ caches.caches.find? fun cache => cache.name = name,
      Traversable caches cache
  | .readCache identifier => ∀ cache ∈ caches.find identifier, Traversable caches cache
  | .storeRecords identifier _ _ => ∀ cache ∈ caches.find identifier, cache.state = .opened
  | .delete identifier request options => ∀ cache ∈ caches.find identifier,
      caches.isWriting ((cache.records.filter (cache.shouldRemove parse request options)).map
        RecordInformation.key) = false
  | .dispose identifier => ∀ cache ∈ caches.find identifier,
      (caches.removedCaches.any fun other => other.identifier = cache.identifier) = true →
        caches.isWriting cache.keys = false
  | _ => True

instance (parse : Str → URL) (caches : Caches) :
    (action : Action) → Decidable (Orderly parse caches action)
  | .initializeCaches => inferInstanceAs (Decidable (_ → _))
  | .openNamed _ => inferInstanceAs (Decidable (∀ cache ∈ _, Traversable caches cache))
  | .readCache _ => inferInstanceAs (Decidable (∀ cache ∈ _, Traversable caches cache))
  | .storeRecords _ _ _ => inferInstanceAs (Decidable (∀ cache ∈ _, Cache.state cache = _))
  | .delete _ _ _ => inferInstanceAs (Decidable (∀ cache ∈ _, Caches.isWriting _ _ = false))
  | .dispose _ => inferInstanceAs (Decidable (∀ cache ∈ _, _ → Caches.isWriting _ _ = false))
  | .finishOpening _ | .finishUpdate _ | .remove _ | .dispatchWriteOperation | .completeWrite
  | .completeRemoval => isTrue trivial

/-! ## Caches that stay what they are -/

/-- The caches are the same, apart from what they have stored. -/
structure SameCaches (caches next : Caches) : Prop extends KeepsCaches caches next where
  traversals : next.traversals = caches.traversals

variable {cs : Caches}

theorem SameCaches.numbered {next : Caches} {number : ℕ} (hnumber : cs.nextUUID ≤ number)
    (hsame : SameCaches { cs with nextUUID := number } next) : SameCaches cs next :=
  { hsame with nextUUID := hnumber.trans hsame.nextUUID }

theorem sameCaches_writeRecord (cs : Caches) (info : RecordInformation)
    (record : Record) (hsize : info.size = record.responseBodySize)
    (prevRecSize : UInt64) :
    SameCaches cs (cs.writeRecord info record hsize prevRecSize) := by
  rw [Caches.writeRecord]
  split
  · exact ⟨⟨rfl, rfl, rfl, rfl, rfl, rfl, le_rfl⟩, rfl⟩
  · exact ⟨⟨rfl, rfl, rfl, rfl, rfl, rfl, le_rfl⟩, rfl⟩

theorem sameCaches_removeRecords (cs : Caches) (records : List RecordInformation) :
    SameCaches cs (cs.removeRecords records) := by
  rw [Caches.removeRecords]
  split
  · exact ⟨⟨rfl, rfl, rfl, rfl, rfl, rfl, le_rfl⟩, rfl⟩
  · exact ⟨⟨rfl, rfl, rfl, rfl, rfl, rfl, le_rfl⟩, rfl⟩

/-- A change of a cache that keeps it what it is and leaves its state alone. -/
def Keeps (change : Cache → Cache) : Prop :=
  ∀ cache, (change cache).identifier = cache.identifier ∧ (change cache).name = cache.name ∧
    (change cache).uniqueName = cache.uniqueName ∧ (change cache).state = cache.state

theorem keeps_changeRecord (key : Key) (change : RecordInformation → RecordInformation) :
    Keeps (Cache.changeRecord key change) := fun _ => ⟨rfl, rfl, rfl, rfl⟩

theorem keeps_appendRecord (info : RecordInformation) :
    Keeps (Cache.appendRecord info) := fun _ => ⟨rfl, rfl, rfl, rfl⟩

theorem find_spec {ident : ℕ} {cache : Cache} (hfind : cs.find ident = some cache) :
    cache ∈ cs.all ∧ cache.identifier = ident :=
  have hfound := @find?_some _ (fun cache : Cache => decide (cache.identifier = ident))
    _ _ hfind
  ⟨mem_of_find?_eq_some hfind, of_decide_eq_true hfound⟩

/-- The state of the cache with the identifier. -/
def Caches.stateOf (caches : Caches) (identifier : ℕ) : Option CacheState :=
  (caches.find identifier).map Cache.state

section StateOf

variable {cs next : Caches} (identifier : ℕ)

theorem SameCaches.stateOf (hsame : SameCaches cs next) :
    next.stateOf identifier = cs.stateOf identifier := by
  rw [Caches.stateOf, Caches.find, Caches.all, hsame.live, hsame.removed]
  rfl

theorem stateOf_modifyCache {change : Cache → Cache} (hkeeps : Keeps change) (changed : ℕ) :
    (cs.modifyCache changed change).stateOf identifier = cs.stateOf identifier := by
  rw [Caches.stateOf, Caches.find, Caches.all, Caches.modifyCache, ← map_append, find?_map,
    Option.map_map, Caches.stateOf, Caches.find]
  refine congrArg₂ Option.map (funext fun cache => ?_)
    (congrArg (find? · _) (funext fun cache => ?_))
  · rw [Function.comp_apply]
    split
    · exact (hkeeps cache).2.2.2
    · rfl
  · rw [Function.comp_apply]
    split
    · rw [(hkeeps cache).1]
    · rfl

theorem stateOf_writeRecord (info : RecordInformation) (record : Record)
    (hsize : info.size = record.responseBodySize) (prevRecSize : UInt64) :
    (cs.writeRecord info record hsize prevRecSize).stateOf identifier =
      cs.stateOf identifier :=
  (sameCaches_writeRecord cs info record hsize prevRecSize).stateOf identifier

theorem stateOf_finishUpdate (update : Update) :
    (cs.finishUpdate update).stateOf identifier = cs.stateOf identifier := by
  rw [Caches.finishUpdate]
  split
  · rfl
  · split
    · rfl
    · rw [stateOf_writeRecord, stateOf_modifyCache _ (keeps_changeRecord _ _)]

theorem stateOf_storeRecord (parse : Str → URL) (stored time : ℕ) (record : Record) :
    (cs.storeRecord parse stored time record).stateOf identifier =
      cs.stateOf identifier := by
  rw [Caches.storeRecord]
  split
  · rfl
  · dsimp only
    split
    · rw [Caches.addRecord, stateOf_writeRecord]
      exact stateOf_modifyCache _ (keeps_appendRecord _) _
    · rw [Caches.updateRecordToDisk]
      split
      · exact stateOf_modifyCache _ (keeps_changeRecord _ _) _
      · split
        · exact stateOf_modifyCache _ (keeps_changeRecord _ _) _
        · rw [stateOf_finishUpdate, stateOf_modifyCache _ (keeps_changeRecord _ _)]

end StateOf

/-! ## The queues of the storage -/

/-- A store begins, or a store or a removal reaches the disk. -/
structure Advances (caches next : Caches) : Prop extends SameCaches caches next where
  size : next.size = caches.size
  ordered : next.Ordered
  kept : next.kept = caches.kept

section Advances

variable {parse : Str → URL} {next : Caches} (hordered : cs.Ordered)
include hordered

theorem advances_of_dispatchWriteOperation
    (hstep : step parse cs .dispatchWriteOperation = some next) : Advances cs next := by
  rw [step] at hstep
  split at hstep
  · next operation operations hactive hpending =>
    cases hstep
    have hwrites : cs.writeOperations = operation :: operations := by
      rw [Caches.writeOperations, hactive, hpending]
      rfl
    refine ⟨⟨⟨rfl, rfl, rfl, rfl, rfl, rfl, le_rfl⟩, rfl⟩, rfl, ?_, ?_⟩
    · rw [Caches.Ordered, hwrites] at hordered
      exact hordered
    · rw [Caches.kept, Caches.kept, Caches.stored, Caches.stored, hwrites]
      rfl
  · exact absurd hstep (Option.some_ne_none next).symm

theorem advances_of_completeWrite (hstep : step parse cs .completeWrite = some next) :
    Advances cs next := by
  obtain ⟨operation, hactive, rfl⟩ := Option.map_eq_some_iff.1 hstep
  have hwrites : cs.writeOperations = operation :: cs.pendingWriteOperations := by
    rw [Caches.writeOperations, hactive]
    rfl
  rw [Caches.Ordered, hwrites] at hordered
  refine ⟨⟨⟨rfl, rfl, rfl, rfl, rfl, rfl, le_rfl⟩, rfl⟩, rfl, fun key hkey => ?_, ?_⟩
  · obtain ⟨hbound, hnot⟩ := hordered key hkey
    exact ⟨hbound, not_mem_of_not_mem_cons hnot⟩
  · have hnot : operation.1 ∉ cs.removals.flatten := fun hkey =>
      (hordered _ hkey).2 mem_cons_self
    rw [Caches.kept, Caches.kept, Caches.stored, Caches.stored, hwrites, HashMap.eraseAll_insert,
      if_neg hnot]
    rfl

theorem advances_of_completeRemoval (hstep : step parse cs .completeRemoval = some next) :
    Advances cs next := by
  rw [step] at hstep
  split at hstep
  · exact absurd hstep (Option.some_ne_none next).symm
  · next keys removals hremovals =>
    cases hstep
    refine ⟨⟨⟨rfl, rfl, rfl, rfl, rfl, rfl, le_rfl⟩, rfl⟩, rfl, fun key hkey => ?_, ?_⟩
    · refine hordered key ?_
      rw [hremovals]
      exact mem_append_right _ hkey
    · rw [Caches.kept, Caches.kept, Caches.stored, Caches.stored, hremovals, flatten_cons]
      rw [HashMap.eraseAll, HashMap.eraseAll, HashMap.eraseAll, foldl_append]
      rfl

end Advances

/-! ## Steps of an open cache -/

namespace IndexInv

variable {cs next : Caches} {cache : Cache} {change : Cache → Cache}

/-- Nothing that the invariant speaks of has changed. -/
theorem of_kept_eq (hinv : IndexInv cs) (hsame : SameCaches cs next) (hordered : next.Ordered)
    (hkept : next.kept = cs.kept) : IndexInv next := by
  have hall : next.all = cs.all := by rw [Caches.all, hsame.live, hsame.removed, Caches.all]
  exact {
    ordered := hordered
    identifiers := hall ▸ hinv.identifiers
    names := hall ▸ hinv.names
    fresh := fun cache hcache =>
      ⟨hsame.nextCacheIdentifier ▸ (hinv.fresh cache (hall ▸ hcache)).1,
        (hinv.fresh cache (hall ▸ hcache)).2.trans_le hsame.nextUUID⟩
    keys := fun key hkey =>
      ⟨(hinv.keys key (hkept ▸ hkey)).1.trans_le hsame.nextUUID,
        (hinv.keys key (hkept ▸ hkey)).2.trans_le hsame.nextUUID⟩
    list_nodup := hsame.cachesList ▸ hinv.list_nodup
    list_fresh := fun entry hentry =>
      (hinv.list_fresh entry (hsame.cachesList ▸ hentry)).trans_le hsame.nextUUID
    listed := by
      rw [hsame.isInitialized, hsame.shouldPersist, hsame.cachesList, hsame.live]
      exact hinv.listed
    idle := by
      rw [hsame.isInitialized, hall]
      exact hinv.idle
    indexed := fun cache hcache => by
      rw [Indexed, hkept, hsame.shouldPersist]
      exact hinv.indexed cache (hall ▸ hcache)
    traversals := by
      rw [hsame.traversals, hsame.nextCacheIdentifier]
      exact hinv.traversals
    found := by
      rw [hsame.traversals, hall, hkept]
      exact hinv.found
    single := hsame.traversals ▸ hinv.single }

theorem of_advances (hinv : IndexInv cs) (hadvances : Advances cs next) : IndexInv next :=
  hinv.of_kept_eq hadvances.toSameCaches hadvances.ordered hadvances.kept

/-- An opened cache lists its records. -/
theorem lists (hinv : IndexInv cs) (hcache : cache ∈ cs.all)
    (hopened : cache.state = .opened) : Lists cs.kept cache.uniqueName cache.entries := by
  have hindexed := hinv.indexed cache hcache
  rwa [Indexed, if_pos hopened] at hindexed

/-- A cache that is not open lists none. -/
theorem closed (hinv : IndexInv cs) (hcache : cache ∈ cs.all)
    (hclosed : cache.state ≠ .opened) : cache.records = [] ∧ cs.shouldPersist = true := by
  have hindexed := hinv.indexed cache hcache
  rwa [Indexed, if_neg hclosed] at hindexed

variable {info : RecordInformation}

section

variable (hinv : IndexInv cs)
include hinv

section

variable (hcache : cache ∈ cs.all)
include hcache

theorem opened_of_mem (hmem : info ∈ cache.records) : cache.state = .opened := by
  by_contra hclosed
  rw [(hinv.closed hcache hclosed).1] at hmem
  exact absurd hmem not_mem_nil

theorem lookup_of_mem (hmem : info ∈ cache.records) :
    info.key.type = cache.uniqueName ∧ cs.kept.lookup info.key = some info.size :=
  ((hinv.lists hcache (hinv.opened_of_mem hcache hmem)).mem_iff info.recorded).1
    (mem_map_of_mem hmem)

theorem mem_kept_of_mem (hmem : info ∈ cache.records) : info.key ∈ cs.kept := by
  rw [← AList.lookup_isSome, (hinv.lookup_of_mem hcache hmem).2]
  rfl

/-- Changing an open cache and its records. -/
theorem modifyOpened (hopened : cache.state = .opened) (hkeeps : Keeps change)
    (hsame : SameCaches (cs.modifyCache cache.identifier change) next) (hordered : next.Ordered)
    (hkept : ∀ key, key.type ≠ cache.uniqueName → next.kept.lookup key = cs.kept.lookup key)
    (hkeys : ∀ key ∈ next.kept, key.type = cache.uniqueName → key.identifier < next.nextUUID)
    (hlists : Lists next.kept cache.uniqueName (change cache).entries) : IndexInv next := by
  have hs : (change cache).state = .opened := (hkeeps cache).2.2.2.trans hopened
  have htravs : next.traversals = cs.traversals := hsame.traversals
  have hnone : ∀ trav ∈ cs.traversals,
      trav.cacheIdentifier ≠ cache.identifier := fun trav htrav hident =>
    (hinv.found trav htrav cache hcache hident.symm).1 hopened
  refine @Modifies.indexInv cs next cache change ?_ hinv hcache
  exact {
    hsame with
    ordered := hordered
    identity := fun other => ⟨(hkeeps other).1, (hkeeps other).2.1, (hkeeps other).2.2.1⟩
    kept := hkept
    keys := hkeys
    indexed := by
      rw [Indexed, if_pos hs, (hkeeps cache).2.2.1]
      exact hlists
    traversals := fun trav htrav => .inl (htravs ▸ htrav)
    found := fun trav htrav hident => absurd hident (hnone trav (htravs ▸ htrav))
    single := htravs ▸ hinv.single }

end

theorem next_notMem (uniqueName : ℕ) : ⟨uniqueName, cs.nextUUID⟩ ∉ cs.kept :=
  fun hkey => lt_irrefl _ (hinv.keys _ hkey).2

/-- The number of a new record is not in use. -/
theorem addRecord (hcache : cache ∈ cs.all)
    (hopened : cache.state = .opened) (time : ℕ) (record : Record) :
    IndexInv (cs.addRecord cache time record) := by
  have hwritten := sameCaches_writeRecord
    { cs.modifyCache cache.identifier
        (Cache.appendRecord (cs.toRecordInformation cache time record)) with
      nextUUID := cs.nextUUID + 1 }
    (cs.toRecordInformation cache time record) record
    (cs.size_toRecordInformation cache time record) 0
  have hsame := hwritten.numbered (Nat.le_succ _)
  refine hinv.modifyOpened hcache hopened (keeps_appendRecord _) hsame ?_ ?_ ?_ ?_
  · refine Caches.Ordered.writeRecord (fun key hkey => ?_) (fun _ hkey => ?_) _ _ _
    · exact ⟨(hinv.ordered key hkey).1.trans (Nat.lt_succ_self _), (hinv.ordered key hkey).2⟩
    · rw [Caches.key_toRecordInformation] at hkey
      exact lt_irrefl _ (hinv.ordered _ hkey).1
  · intro key htype
    rw [Caches.kept_addRecord, AList.lookup_insert_ne]
    exact fun hkey => htype (congrArg Key.type hkey)
  · intro key hkey _
    refine lt_of_lt_of_le ?_ hwritten.nextUUID
    rw [Caches.kept_addRecord, AList.mem_insert] at hkey
    rcases hkey with rfl | hkey
    · exact Nat.lt_succ_self _
    · exact (hinv.keys key hkey).2.trans (Nat.lt_succ_self _)
  · rw [Caches.kept_addRecord, Cache.entries, Cache.appendRecord,
      map_append, map_singleton, Caches.recorded_toRecordInformation]
    exact (hinv.lists hcache hopened).append rfl (hinv.next_notMem cache.uniqueName)

end

theorem entries_changeRecord_const (cache : Cache) {key : Key} (hkey : info.key = key) :
    (Cache.changeRecord key (fun _ => info) cache).entries = cache.entries.map fun entry =>
        if entry.1 = key then (key, info.size) else entry := by
  rw [Cache.entries, Cache.changeRecord, map_map, Cache.entries, map_map]
  refine map_congr_left fun other _ => ?_
  rw [Function.comp_apply, Function.comp_apply]
  by_cases hsame : other.key = key
  · rw [if_pos hsame, if_pos (show other.recorded.1 = key from hsame), ← hkey]
    rfl
  · rw [if_neg hsame, if_neg (show ¬ other.recorded.1 = key from hsame)]

variable (hinv : IndexInv cs)
include hinv

theorem countUpdate (hcache : cache ∈ cs.all)
    (hopened : cache.state = .opened) (key : Key) {change : RecordInformation → RecordInformation}
    (hchange : ∀ info, (change info).recorded = info.recorded) :
    IndexInv (cs.modifyCache cache.identifier (Cache.changeRecord key change)) := by
  refine hinv.modifyOpened hcache hopened (keeps_changeRecord _ _)
    ⟨⟨rfl, rfl, rfl, rfl, rfl, rfl, le_rfl⟩, rfl⟩ hinv.ordered (fun _ _ => rfl)
    (fun key hkey _ => (hinv.keys key hkey).2) ?_
  have hsame : (Cache.changeRecord key change cache).entries = cache.entries := by
    rw [Cache.entries, Cache.changeRecord, map_map]
    refine map_congr_left fun info _ => ?_
    rw [Function.comp_apply]
    split
    · exact hchange info
    · rfl
  rw [hsame]
  exact hinv.lists hcache hopened

/-- Replacing a record that is in the index. -/
theorem replaceRecord (hcache : cache ∈ cs.all)
    {recInfo : RecordInformation} (hmem : recInfo ∈ cache.records)
    (hkey : info.key = recInfo.key) (record : Record)
    (hsize : info.size = record.responseBodySize) :
    IndexInv
      ((cs.modifyCache cache.identifier
        (Cache.changeRecord recInfo.key fun _ => info)).writeRecord info record
          hsize recInfo.size) := by
  have hopened := hinv.opened_of_mem hcache hmem
  have hwritten := sameCaches_writeRecord
    (cs.modifyCache cache.identifier
      (Cache.changeRecord recInfo.key fun _ => info)) info record hsize
    recInfo.size
  have hkept := @Caches.kept_writeRecord
    (cs.modifyCache cache.identifier
      (Cache.changeRecord recInfo.key fun _ => info)) info record hsize
    recInfo.size
  rw [hkey] at hkept
  have hheld := hinv.mem_kept_of_mem hcache hmem
  refine hinv.modifyOpened hcache hopened (keeps_changeRecord _ _) hwritten ?_ ?_ ?_ ?_
  · refine @Caches.Ordered.writeRecord (cs.modifyCache _ _) hinv.ordered _ ?_ _ _ _
    intro hpersist
    rw [hkey]
    exact hinv.ordered.notMem_of_mem_kept hpersist hheld
  · intro key htype
    rw [hkept, AList.lookup_insert_ne]
    · rfl
    · exact fun hsame => htype (hsame ▸ (hinv.lookup_of_mem hcache hmem).1)
  · intro key hother _
    rw [hkept, AList.mem_insert] at hother
    refine lt_of_lt_of_le ?_ hwritten.nextUUID
    rcases hother with rfl | hother
    · exact (hinv.keys _ hheld).2
    · exact (hinv.keys key hother).2
  · rw [hkept, entries_changeRecord_const cache hkey]
    exact (hinv.lists hcache hopened).replace (mem_map_of_mem hmem)

theorem finishUpdate (update : Update) :
    IndexInv (cs.finishUpdate update) := by
  rw [Caches.finishUpdate]
  split
  · exact hinv
  · next cache hfind =>
    split
    · exact hinv
    · next recInfo hrec =>
      have hmem := mem_of_mem_filter (mem_of_find?_eq_some hrec)
      exact hinv.replaceRecord (find_spec hfind).1 hmem
        (Caches.key_replaceInformation _ recInfo) _ _

theorem storeRecord {parse : Str → URL} {ident : ℕ}
    (hready : ∀ s ∈ cs.stateOf ident, s = .opened) (time : ℕ)
    (record : Record) : IndexInv (cs.storeRecord parse ident time record) := by
  rw [Caches.storeRecord]
  split
  · exact hinv
  · next cache hfind =>
    have hcache := (find_spec hfind).1
    have hopened : cache.state = .opened :=
      hready cache.state (Option.mem_map_of_mem _ (Option.mem_def.2 hfind))
    dsimp only
    split
    · exact hinv.addRecord hcache hopened time record
    · next existingRec _ =>
      have hcounted := @countUpdate _ _ hinv hcache hopened existingRec.key
        (fun item => { item with updateResponseCounter := item.updateResponseCounter + 1 })
        fun _ => rfl
      rw [Caches.updateRecordToDisk]
      split
      · exact hcounted
      · split
        · refine hcounted.of_kept_eq ⟨⟨rfl, rfl, rfl, rfl, rfl, rfl, le_rfl⟩, rfl⟩ ?_ rfl
          exact hcounted.ordered
        · exact hcounted.finishUpdate _

theorem storeRecords {parse : Str → URL} {ident : ℕ}
    (hready : ∀ s ∈ cs.stateOf ident, s = .opened) (time : ℕ)
    (records : List Record) :
    IndexInv (cs.storeRecords parse ident time records) := by
  induction records generalizing cs with
  | nil => exact hinv
  | cons record records ih =>
    refine ih (hinv.storeRecord hready time record) ?_
    rwa [stateOf_storeRecord]

theorem bound_of_mem (hcache : cache ∈ cs.all) {records : List RecordInformation}
    (hrecs : records ⊆ cache.records) :
    ∀ key ∈ records.map RecordInformation.key, key.identifier < cs.nextUUID := by
  intro key hkey
  obtain ⟨info, hinfo, rfl⟩ := mem_map.1 hkey
  exact (hinv.keys _ (hinv.mem_kept_of_mem hcache (hrecs hinfo))).2

theorem removeMatching {parse : Str → URL} (hcache : cache ∈ cs.all)
    (hopened : cache.state = .opened) {request : ResourceRequest} {options : CacheQueryOptions}
    (hidle : cs.isWriting ((cache.records.filter (cache.shouldRemove parse request options)).map
      RecordInformation.key) = false) :
    IndexInv (cs.removeMatching parse cache request options) := by
  rw [Caches.removeMatching]
  generalize cache.shouldRemove parse request options = shouldRemove at hidle ⊢
  have hkept := @Caches.kept_removeRecords
    (cs.modifyCache cache.identifier (Cache.dropRecords shouldRemove))
    (cache.records.filter shouldRemove) hidle
  have hsame := sameCaches_removeRecords
    (cs.modifyCache cache.identifier (Cache.dropRecords shouldRemove))
    (cache.records.filter shouldRemove)
  refine hinv.modifyOpened hcache hopened
    (fun _ => ⟨rfl, rfl, rfl, rfl⟩ : Keeps (Cache.dropRecords _)) hsame ?_ ?_ ?_ ?_
  · exact @Caches.Ordered.removeRecords (cs.modifyCache _ _) hinv.ordered _ hidle
      (hinv.bound_of_mem hcache (filter_subset_self _))
  · intro key htype
    rw [hkept, HashMap.lookup_eraseAll, if_neg]
    · rfl
    · intro hkey
      obtain ⟨info, hmem, rfl⟩ := mem_map.1 hkey
      exact htype (hinv.lookup_of_mem hcache (mem_of_mem_filter hmem)).1
  · intro key hkey _
    refine lt_of_lt_of_le (hinv.keys key ?_).2 hsame.nextUUID
    rw [hkept] at hkey
    exact (HashMap.mem_eraseAll.1 hkey).2
  · rw [hkept]
    exact (hinv.lists hcache hopened).drop shouldRemove

end IndexInv

/-! ## Opening and closing -/

theorem modifyCache_of_forall_ne {ident : ℕ} (change : Cache → Cache)
    (hne : ∀ cache ∈ cs.all, cache.identifier ≠ ident) :
    cs.modifyCache ident change = cs := by
  have hsame : ∀ list : List Cache, (∀ cache ∈ list, cache ∈ cs.all) →
      list.map (fun cache => if cache.identifier = ident then change cache else cache) =
        list := fun list hlist =>
    (map_congr_left fun cache hcache => if_neg (hne cache (hlist cache hcache))).trans
      (map_id' list)
  rw [Caches.modifyCache, hsame cs.caches fun cache hcache => mem_append_left _ hcache,
    hsame cs.removedCaches fun cache hcache => mem_append_right _ hcache]

namespace IndexInv

variable {cs next : Caches} {cache : Cache}

variable (hinv : IndexInv cs)
include hinv

/-- A cache opens with what is found on disk. -/
theorem openCache (hcache : cache ∈ cs.all)
    (htraversable : Traversable cs cache) : IndexInv (cs.openCache cache) := by
  rw [Caches.openCache]
  split
  · exact hinv
  · exact hinv
  · next hs =>
    obtain ⟨hsettled, hnone⟩ := htraversable hs
    have hclosed : cache.state ≠ .opened := hs ▸ CacheState.noConfusion
    obtain ⟨hrecs, hpersist⟩ := hinv.closed hcache hclosed
    have hlists := Caches.lists_readRecordsList hpersist hsettled cache.uniqueName
    refine @Modifies.indexInv cs _ cache (fun cache => { cache with state := .opening })
      ?_ hinv hcache
    exact {
      toKeepsCaches := ⟨rfl, rfl, rfl, rfl, rfl, rfl, le_rfl⟩
      ordered := hinv.ordered
      identity := fun _ => ⟨rfl, rfl, rfl⟩
      kept := fun _ _ => rfl
      keys := fun key hkey _ => (hinv.keys key hkey).2
      indexed := ⟨hrecs, hpersist⟩
      traversals := fun trav htrav => by
        rcases mem_append.1 htrav with hold | hnew
        · exact .inl hold
        · exact .inr (mem_singleton.1 hnew ▸ rfl)
      found := fun trav htrav hident => by
        rcases mem_append.1 htrav with hold | hnew
        · exact absurd hident (hnone trav hold)
        · rw [mem_singleton.1 hnew]
          exact ⟨CacheState.noConfusion, hlists⟩
      single := by
        rw [map_append, map_singleton]
        refine hinv.single.append (nodup_singleton _) (disjoint_singleton.2 ?_)
        rintro hmem
        obtain ⟨trav, htrav, hident⟩ := mem_map.1 hmem
        exact hnone trav htrav hident }

theorem clearMemoryRepresentation (hpersist : cs.shouldPersist = true)
    (hactive : ¬ cs.hasActiveCache = true) :
    IndexInv cs.clearMemoryRepresentation := by
  have hremoved : cs.removedCaches = [] := by grind [Caches.hasActiveCache]
  have hall : cs.clearMemoryRepresentation.all = [] := hremoved
  have hkept : cs.clearMemoryRepresentation.kept = cs.kept := by
    rw [Caches.kept, Caches.kept, if_pos hpersist]
    exact if_pos hpersist
  have hnone : ∀ cache ∈ cs.clearMemoryRepresentation.all, False := fun cache hcache =>
    absurd (hall ▸ hcache) not_mem_nil
  exact {
    hinv with
    identifiers := hall ▸ nodup_nil
    names := hall ▸ nodup_nil
    fresh := fun cache hcache => (hnone cache hcache).elim
    keys := hkept ▸ hinv.keys
    listed := fun hinit => absurd hinit Bool.false_ne_true
    idle := fun _ => hall
    indexed := fun cache hcache => (hnone cache hcache).elim
    found := fun _ _ cache hcache => (hnone cache hcache).elim }

theorem eraseTraversal (idx : ℕ) :
    IndexInv { cs with traversals := cs.traversals.eraseIdx idx } :=
  { hinv with
    traversals := fun trav htrav => hinv.traversals trav (mem_of_mem_eraseIdx htrav)
    found := fun trav htrav => hinv.found trav (mem_of_mem_eraseIdx htrav)
    single := hinv.single.sublist ((eraseIdx_sublist _ _).map _) }

theorem finishOpening {idx : ℕ}
    (hnext : cs.finishOpening idx = some next) : IndexInv next := by
  obtain ⟨trav, hidx, rfl⟩ := Option.map_eq_some_iff.1 hnext
  by_cases hlive : ∃ cache ∈ cs.all, cache.identifier = trav.cacheIdentifier
  · obtain ⟨cache, hcache, hident⟩ := hlive
    obtain ⟨-, hlists⟩ := hinv.found trav (mem_of_getElem? hidx) cache hcache hident
    refine @Modifies.indexInv cs _ cache (Cache.finishOpening trav.found) ?_ hinv hcache
    exact {
      toKeepsCaches := ⟨rfl, rfl, hident ▸ rfl, hident ▸ rfl, rfl, rfl, le_rfl⟩
      ordered := hinv.ordered
      identity := fun _ => ⟨rfl, rfl, rfl⟩
      kept := fun _ _ => rfl
      keys := fun key hkey _ => (hinv.keys key hkey).2
      indexed := by
        change Lists cs.kept cache.uniqueName (Cache.finishOpening _ cache).entries
        rw [Cache.entries, Cache.finishOpening, map_map]
        exact hlists
      traversals := fun other hother => .inl (mem_of_mem_eraseIdx hother)
      found := fun other hother hsame => by
        obtain ⟨hbound, rfl⟩ := List.getElem?_eq_some_iff.1 hidx
        have hperm := (getElem_cons_eraseIdx_perm hbound).map Traversal.cacheIdentifier
        have hdistinct := hperm.nodup_iff.2 hinv.single
        rw [map_cons, nodup_cons] at hdistinct
        exact absurd (mem_map.2 ⟨other, hother, hsame.trans hident⟩) hdistinct.1
      single := (hinv.eraseTraversal idx).single }
  · rw [not_exists] at hlive
    rw [modifyCache_of_forall_ne _ fun cache hcache hsame => hlive cache ⟨hcache, hsame⟩]
    exact hinv.eraseTraversal idx

theorem disposeLive (hcache : cache ∈ cs.all) :
    IndexInv (cs.disposeLive cache) := by
  rw [Caches.disposeLive]
  split
  · next hpersist =>
    have hcleared : IndexInv (cs.modifyCache cache.identifier Cache.clearMemoryRepresentation) := by
      refine @Modifies.indexInv cs _ cache Cache.clearMemoryRepresentation ?_ hinv hcache
      exact {
        toKeepsCaches := ⟨rfl, rfl, rfl, rfl, rfl, rfl, le_rfl⟩
        ordered := hinv.ordered
        identity := fun _ => ⟨rfl, rfl, rfl⟩
        kept := fun _ _ => rfl
        keys := fun key hkey _ => (hinv.keys key hkey).2
        indexed := ⟨rfl, hpersist⟩
        traversals := fun trav htrav => .inl htrav
        found := fun trav htrav hident =>
          ⟨CacheState.noConfusion, (hinv.found trav htrav cache hcache hident.symm).2⟩
        single := hinv.single }
    dsimp only
    split
    · exact hcleared
    · next hactive => exact hcleared.clearMemoryRepresentation hpersist hactive
  · exact hinv

end IndexInv

/-! ## Creating and removing -/

namespace IndexCore

variable {cs : Caches}

variable (hcore : IndexCore cs)
include hcore

theorem writeCachesToDisk : IndexInv cs.writeCachesToDisk := by
  rw [Caches.writeCachesToDisk]
  split
  · next hpersist =>
    have hnames : (cs.caches.map fun cache => (cache.name, cache.uniqueName)).map
        Prod.snd = cs.caches.map Cache.uniqueName := map_map
    refine { hcore with list_nodup := ?_, list_fresh := ?_, listed := fun _ _ => rfl }
    · change ((cs.caches.map _).map _).Nodup
      rw [hnames]
      exact hcore.names.sublist ((sublist_append_left _ _).map _)
    · intro entry hentry
      obtain ⟨cache, hcache, rfl⟩ := mem_map.1 hentry
      exact (hcore.fresh cache (mem_append_left _ hcache)).2
  · next hpersist => exact { hcore with listed := fun _ hpersists => absurd hpersists hpersist }

theorem of_perm {live removed : List Cache}
    (hperm : (live ++ removed).Perm cs.all) :
    IndexCore { cs with caches := live, removedCaches := removed } :=
  { hcore with
    identifiers := (hperm.map _).nodup_iff.2 hcore.identifiers
    names := (hperm.map _).nodup_iff.2 hcore.names
    fresh := fun cache hcache => hcore.fresh cache (hperm.mem_iff.1 hcache)
    idle := fun hidle => perm_nil.1 (hcore.idle hidle ▸ hperm)
    indexed := fun cache hcache => hcore.indexed cache (hperm.mem_iff.1 hcache)
    found := fun trav htrav cache hcache => hcore.found trav htrav cache (hperm.mem_iff.1 hcache) }

/-- A new cache is open and has no records. -/
theorem append (hinit : cs.isInitialized = true) {cache : Cache}
    (hident : cache.identifier = cs.nextCacheIdentifier) (hname : cache.uniqueName = cs.nextUUID)
    (hopened : cache.state = .opened) (hrecords : cache.records = []) :
    IndexCore
      { cs with
        caches := cs.caches ++ [cache]
        nextCacheIdentifier := cs.nextCacheIdentifier + 1
        nextUUID := cs.nextUUID + 1 } := by
  have hperm : (cs.caches ++ [cache] ++ cs.removedCaches).Perm (cache :: cs.all) := by
    rw [append_assoc, singleton_append]
    exact perm_middle
  have hmem : ∀ other ∈ cs.caches ++ [cache] ++ cs.removedCaches,
      other = cache ∨ other ∈ cs.all := fun other hother =>
    mem_cons.1 (hperm.mem_iff.1 hother)
  exact {
    hcore with
    ordered := fun key hkey =>
      ⟨(hcore.ordered key hkey).1.trans (Nat.lt_succ_self _), (hcore.ordered key hkey).2⟩
    identifiers := by
      refine (hperm.map _).nodup_iff.2 (nodup_cons.2 ⟨?_, hcore.identifiers⟩)
      intro hold
      obtain ⟨other, hother, hsame⟩ := mem_map.1 hold
      exact (hcore.fresh other hother).1.ne (hsame.trans hident)
    names := by
      refine (hperm.map _).nodup_iff.2 (nodup_cons.2 ⟨?_, hcore.names⟩)
      intro hold
      obtain ⟨other, hother, hsame⟩ := mem_map.1 hold
      exact (hcore.fresh other hother).2.ne (hsame.trans hname)
    fresh := fun other hother => by
      rcases hmem other hother with rfl | hold
      · exact ⟨hident ▸ Nat.lt_succ_self _, hname ▸ Nat.lt_succ_self _⟩
      · exact ⟨(hcore.fresh other hold).1.trans (Nat.lt_succ_self _),
          (hcore.fresh other hold).2.trans (Nat.lt_succ_self _)⟩
    keys := fun key hkey =>
      ⟨(hcore.keys key hkey).1.trans (Nat.lt_succ_self _),
        (hcore.keys key hkey).2.trans (Nat.lt_succ_self _)⟩
    list_fresh := fun entry hentry => (hcore.list_fresh entry hentry).trans (Nat.lt_succ_self _)
    idle := fun hidle => absurd (hinit.symm.trans hidle) Bool.false_ne_true.symm
    indexed := fun other hother => by
      rcases hmem other hother with rfl | hold
      · rw [Indexed, if_pos hopened, Cache.entries, hrecords, hname]
        exact Lists.nil fun key hkey => (hcore.keys key hkey).1.ne
      · exact hcore.indexed other hold
    traversals := fun trav htrav => (hcore.traversals trav htrav).trans (Nat.lt_succ_self _)
    found := fun trav htrav other hother hsame => by
      rcases hmem other hother with rfl | hold
      · exact absurd (hident.symm.trans hsame) (hcore.traversals trav htrav).ne'
      · exact hcore.found trav htrav other hold hsame }

end IndexCore

namespace IndexInv

variable {cs : Caches} {cache : Cache}

theorem openNamed (hinv : IndexInv cs) (hinit : cs.isInitialized = true)
    {name : Str} (hname : ∀ cache ∈ cs.caches.find? fun cache => cache.name = name,
      Traversable cs cache) : IndexInv (cs.openNamed name) := by
  rw [Caches.openNamed]
  split
  · next cache hfind =>
    have hcache := mem_of_find?_eq_some hfind
    exact hinv.openCache (mem_append_left _ hcache) (hname cache hfind)
  · exact (hinv.append hinit rfl rfl rfl rfl).writeCachesToDisk

theorem remove (hinv : IndexInv cs) (ident : ℕ) : IndexInv (cs.remove ident) := by
  rw [Caches.remove]
  split
  · exact hinv
  · next cache hfind =>
    refine IndexCore.writeCachesToDisk (hinv.of_perm ?_)
    refine List.Perm.trans ?_ ((Entries.perm_cons_eraseP hfind).symm.append_right _)
    rw [← append_assoc]
    exact perm_append_comm.trans (List.Perm.refl _)

theorem perm_disposeRemoved (hinv : IndexInv cs) (hcache : cache ∈ cs.all)
    (hremoved : (cs.removedCaches.any fun other => other.identifier = cache.identifier) =
      true) : cs.all.Perm (cache :: (cs.disposeRemoved cache).all) := by
  obtain ⟨other, hother, hsame⟩ := any_eq_true.1 hremoved
  obtain ⟨found, hfind⟩ := Option.isSome_iff_exists.1
    ((@find?_isSome _ cs.removedCaches
      fun other => decide (other.identifier = cache.identifier)).2 ⟨other, hother, hsame⟩)
  have hfound : found = cache := by
    refine hinv.eq_of_identifier (mem_append_right _ (mem_of_find?_eq_some hfind)) hcache ?_
    exact of_decide_eq_true (@find?_some _
      (fun other : Cache => decide (other.identifier = cache.identifier)) _ _ hfind)
  rw [hfound] at hfind
  exact ((Entries.perm_cons_eraseP hfind).append_left _).trans perm_middle

theorem mem_of_mem_disposeRemoved {key : Key} (hidle : cs.isWriting cache.keys = false)
    (hkey : key ∈ (cs.disposeRemoved cache).kept) : key ∈ cs.kept := by
  rw [Caches.kept_disposeRemoved hidle] at hkey
  split at hkey
  · exact (HashMap.mem_eraseAll.1 hkey).2
  · exact hkey

variable (hinv : IndexInv cs)
include hinv

section

variable (hcache : cache ∈ cs.all) (hidle : cs.isWriting cache.keys = false)
include hcache hidle

theorem lookup_disposeRemoved_of_ne {key : Key} (htype : key.type ≠ cache.uniqueName) :
    (cs.disposeRemoved cache).kept.lookup key = cs.kept.lookup key := by
  rw [Caches.kept_disposeRemoved hidle]
  split
  · rw [HashMap.lookup_eraseAll, if_neg]
    intro hkey
    obtain ⟨info, hmem, rfl⟩ := mem_map.1 hkey
    exact htype (hinv.lookup_of_mem hcache hmem).1
  · rfl

/-- No other cache has records of a cache that is disposed. -/
theorem disposeRemoved
    (hremoved : (cs.removedCaches.any fun other => other.identifier = cache.identifier) =
      true) : IndexInv (cs.disposeRemoved cache) := by
  have hperm := hinv.perm_disposeRemoved hcache hremoved
  have hold : ∀ other ∈ (cs.disposeRemoved cache).all, other ∈ cs.all :=
    fun other hother => hperm.mem_iff.2 (mem_cons_of_mem _ hother)
  have hlists : ∀ other ∈ (cs.disposeRemoved cache).all, ∀ {entries},
      Lists cs.kept other.uniqueName entries →
        Lists (cs.disposeRemoved cache).kept other.uniqueName entries := by
    intro other hother entries hlists
    have hnames := (hperm.map Cache.uniqueName).nodup_iff.1 hinv.names
    rw [map_cons, nodup_cons] at hnames
    refine hlists.congr fun key htype => hinv.lookup_disposeRemoved_of_ne hcache hidle ?_
    rw [htype]
    exact fun hsame => hnames.1 (hsame ▸ mem_map_of_mem hother)
  exact {
    hinv with
    ordered := hinv.ordered.disposeRemoved hidle (hinv.bound_of_mem hcache (Subset.refl _))
    identifiers := ((hperm.map _).nodup_iff.1 hinv.identifiers).of_cons
    names := ((hperm.map _).nodup_iff.1 hinv.names).of_cons
    fresh := fun other hother => hinv.fresh other (hold other hother)
    keys := fun key hkey => hinv.keys key (mem_of_mem_disposeRemoved hidle hkey)
    idle := fun hidle => absurd (hinv.idle hidle ▸ hcache) not_mem_nil
    indexed := fun other hother => by
      have hindexed := hinv.indexed other (hold other hother)
      rw [Indexed] at hindexed ⊢
      split at hindexed
      · next hopened =>
        rw [if_pos hopened]
        exact hlists other hother hindexed
      · next hclosed =>
        rw [if_neg hclosed]
        exact hindexed
    found := fun trav htrav other hother hsame => by
      obtain ⟨hclosed, hfound⟩ := hinv.found trav htrav other (hold other hother) hsame
      exact ⟨hclosed, hlists other hother hfound⟩ }

end

theorem dispose (hcache : cache ∈ cs.all)
    (hidle : (cs.removedCaches.any fun other => other.identifier = cache.identifier) = true →
      cs.isWriting cache.keys = false) : IndexInv (cs.dispose cache) := by
  rw [Caches.dispose]
  split
  · next hremoved => exact hinv.disposeRemoved hcache (hidle hremoved) hremoved
  · exact hinv.disposeLive hcache

/-- The caches of the list get new identifiers. -/
theorem readCachesFromDisk (hidle : cs.isInitialized = false)
    (hpersist : cs.shouldPersist = true) (size : UInt64) :
    IndexInv { cs.readCachesFromDisk with size := size, isInitialized := true } := by
  have hremoved : cs.removedCaches = [] := (append_eq_nil_iff.1 (hinv.idle hidle)).2
  have hall : ({ cs.readCachesFromDisk with size := size, isInitialized := true } :
      Caches).all = cs.readCachesFromDisk.caches := by
    change _ ++ cs.removedCaches = _
    rw [hremoved, append_nil]
  have hmem : ∀ cache ∈ cs.readCachesFromDisk.caches,
      ∃ numbered ∈ cs.cachesList.zipIdx,
        cache.identifier = cs.nextCacheIdentifier + numbered.2 ∧
        cache.uniqueName = numbered.1.2 ∧ cache.state = .uninitialized ∧
        cache.records = [] := by
    intro cache hcache
    obtain ⟨numbered, hnumbered, rfl⟩ := mem_map.1 hcache
    exact ⟨numbered, hnumbered, rfl, rfl, rfl, rfl⟩
  exact {
    hinv with
    identifiers := by
      rw [hall, Caches.readCachesFromDisk, map_map]
      have hidents : cs.cachesList.zipIdx.map
          (fun numbered => cs.nextCacheIdentifier + numbered.2) =
            (cs.cachesList.zipIdx.map Prod.snd).map (cs.nextCacheIdentifier + ·) :=
        map_map.symm
      change (cs.cachesList.zipIdx.map fun numbered => cs.nextCacheIdentifier + numbered.2).Nodup
      rw [hidents, zipIdx_map_snd]
      exact (nodup_range' 1).map fun _ _ => Nat.add_left_cancel
    names := by
      rw [hall, Caches.readCachesFromDisk, map_map]
      change (cs.cachesList.zipIdx.map (Prod.snd ∘ Prod.fst)).Nodup
      rw [← map_map, zipIdx_map_fst]
      exact hinv.list_nodup
    fresh := fun cache hcache => by
      obtain ⟨numbered, hnumbered, hident, hname, -⟩ := hmem cache (hall ▸ hcache)
      obtain ⟨-, hbound, hentry⟩ := mem_zipIdx hnumbered
      rw [hident, hname]
      refine ⟨Nat.add_lt_add_left (by simpa using hbound) _, ?_⟩
      exact hinv.list_fresh _ (hentry ▸ getElem_mem _)
    listed := fun _ _ => by
      rw [Caches.readCachesFromDisk, map_map]
      exact (zipIdx_map_fst 0 cs.cachesList).symm
    idle := fun hfalse => absurd hfalse Bool.false_ne_true.symm
    indexed := fun cache hcache => by
      obtain ⟨-, -, -, -, hs, hrecs⟩ := hmem cache (hall ▸ hcache)
      rw [Indexed, hs]
      exact ⟨hrecs, hpersist⟩
    traversals := fun trav htrav => (hinv.traversals trav htrav).trans_le (Nat.le_add_right _ _)
    found := fun trav htrav cache hcache hsame => by
      obtain ⟨numbered, -, hident, -⟩ := hmem cache (hall ▸ hcache)
      have hbound := hinv.traversals trav htrav
      omega }

theorem initializeCaches : IndexInv cs.initializeCaches := by
  rw [Caches.initializeCaches]
  split
  · exact hinv
  · next hidle =>
    have hidle := Bool.not_eq_true _ ▸ hidle
    split
    · next hpersist => exact hinv.readCachesFromDisk hidle hpersist _
    · next hpersist =>
      exact { hinv with
        idle := fun _ => hinv.idle hidle
        listed := fun _ hpersists => absurd hpersists hpersist }

/-- Every orderly step keeps the invariant. -/
theorem step {parse : Str → URL} {action : Action} {next : Caches}
    (horderly : Orderly parse cs action) (hstep : step parse cs action = some next) :
    IndexInv next := by
  cases action with
  | initializeCaches => exact Option.some.inj hstep ▸ hinv.initializeCaches
  | openNamed =>
    obtain ⟨hinit, ⟨⟩⟩ := Option.ite_none_right_eq_some.1 hstep
    exact hinv.openNamed hinit horderly
  | readCache =>
    obtain ⟨cache, hfind, rfl⟩ := Option.map_eq_some_iff.1 hstep
    exact hinv.openCache (find_spec hfind).1 (horderly cache hfind)
  | finishOpening => exact hinv.finishOpening hstep
  | storeRecords identifier time records =>
    refine Option.some.inj hstep ▸ hinv.storeRecords ?_ time records
    intro s hs
    obtain ⟨cache, hfind, rfl⟩ := Option.mem_map.1 hs
    exact horderly cache hfind
  | finishUpdate idx =>
    obtain ⟨update, -, rfl⟩ := Option.map_eq_some_iff.1 hstep
    have hpopped : IndexInv { cs with updates := cs.updates.eraseIdx idx } :=
      hinv.of_kept_eq ⟨⟨rfl, rfl, rfl, rfl, rfl, rfl, le_rfl⟩, rfl⟩ hinv.ordered rfl
    exact hpopped.finishUpdate update
  | delete identifier request options =>
    obtain ⟨cache, hfind, hremove⟩ := Option.bind_eq_some_iff.1 hstep
    obtain ⟨hopened, ⟨⟩⟩ := Option.ite_none_right_eq_some.1 hremove
    exact hinv.removeMatching (find_spec hfind).1 hopened (horderly cache hfind)
  | remove identifier =>
    obtain ⟨-, ⟨⟩⟩ := Option.ite_none_right_eq_some.1 hstep
    exact hinv.remove identifier
  | dispose =>
    obtain ⟨cache, hfind, rfl⟩ := Option.map_eq_some_iff.1 hstep
    exact hinv.dispose (find_spec hfind).1 (horderly cache hfind)
  | dispatchWriteOperation =>
    exact hinv.of_advances (advances_of_dispatchWriteOperation hinv.ordered hstep)
  | completeWrite => exact hinv.of_advances (advances_of_completeWrite hinv.ordered hstep)
  | completeRemoval => exact hinv.of_advances (advances_of_completeRemoval hinv.ordered hstep)

end IndexInv

end PurcFetcher.DomCache
