import PurcFetcher.DomCache.Caches

/-!
# The index of an open cache

The index of an open cache lists the records that are kept under the unique name of the cache,
and their sizes.  This holds along every run in which no traversal misses a store or a removal
that is still pending, in which a cache is traversed once at a time, in which granted records are
stored while the cache is open, and in which no record is removed while it is being stored.
-/

namespace PurcFetcher.DomCache

open List

/-! ## Lists of kept records -/

/-- The entries are the kept records of the type, each of them once. -/
structure Lists (kept : HashMap Key UInt64) (uniqueName : ℕ) (entries : List (Key × UInt64)) :
    Prop where
  distinct : (entries.map Prod.fst).Nodup
  mem_iff : ∀ entry, entry ∈ entries ↔
    entry.1.type = uniqueName ∧ kept.lookup entry.1 = some entry.2

namespace Lists

variable {kept : HashMap Key UInt64} {uniqueName : ℕ} {entries : List (Key × UInt64)}

theorem congr {other : HashMap Key UInt64} (hlists : Lists kept uniqueName entries)
    (hsame : ∀ key, key.type = uniqueName → other.lookup key = kept.lookup key) :
    Lists other uniqueName entries where
  distinct := hlists.distinct
  mem_iff entry := by
    rw [hlists.mem_iff]
    exact and_congr_right fun htype => by rw [hsame entry.1 htype]

theorem nil (hnone : ∀ key ∈ kept, key.type ≠ uniqueName) : Lists kept uniqueName [] where
  distinct := nodup_nil
  mem_iff entry := by
    refine iff_of_false not_mem_nil ?_
    rintro ⟨htype, hheld⟩
    exact hnone entry.1 (AList.lookup_isSome.1 (hheld ▸ rfl)) htype

variable (hlists : Lists kept uniqueName entries)
include hlists

theorem mem_kept {key : Key}
    (hkey : key ∈ entries.map Prod.fst) : key ∈ kept := by
  obtain ⟨entry, hentry, rfl⟩ := mem_map.1 hkey
  exact AList.lookup_isSome.1 (((hlists.mem_iff entry).1 hentry).2 ▸ rfl)

/-- A new record is listed last. -/
theorem append {key : Key} {size : UInt64}
    (htype : key.type = uniqueName) (hnew : key ∉ kept) :
    Lists (kept.insert key size) uniqueName (entries ++ [(key, size)]) where
  distinct := by
    rw [map_append, map_singleton]
    exact hlists.distinct.append (nodup_singleton key)
      (disjoint_singleton.2 fun hkey => hnew (hlists.mem_kept hkey))
  mem_iff entry := by
    rw [mem_append, mem_singleton, hlists.mem_iff, HashMap.lookup_insert_eq_ite]
    obtain ⟨other, held⟩ := entry
    by_cases hkey : other = key
    · subst hkey
      rw [if_pos rfl, AList.lookup_eq_none.2 hnew]
      constructor
      · grind
      · grind
    · rw [if_neg hkey]
      exact or_iff_left fun hentry => hkey (congrArg Prod.fst hentry)

/-- A record is listed with its new size. -/
theorem replace {key : Key} {prev size : UInt64}
    (hmem : (key, prev) ∈ entries) :
    Lists (kept.insert key size) uniqueName
      (entries.map fun entry => if entry.1 = key then (key, size) else entry) where
  distinct := by
    have hkeys : (entries.map fun entry => if entry.1 = key then (key, size) else entry).map
        Prod.fst = entries.map Prod.fst := by
      rw [map_map]
      refine map_congr_left fun entry _ => ?_
      by_cases hkey : entry.1 = key
      · rw [Function.comp_apply, if_pos hkey, hkey]
      · rw [Function.comp_apply, if_neg hkey]
    exact hkeys ▸ hlists.distinct
  mem_iff entry := by
    obtain ⟨htype, -⟩ := (hlists.mem_iff _).1 hmem
    rw [mem_map, HashMap.lookup_insert_eq_ite]
    by_cases hkey : entry.1 = key
    · grind
    · rw [if_neg hkey, ← hlists.mem_iff]
      constructor
      · grind
      · exact fun hentry => ⟨entry, hentry, if_neg hkey⟩

end Lists

theorem map_recorded_fst (records : List RecordInformation) :
    (records.map RecordInformation.recorded).map Prod.fst = records.map RecordInformation.key :=
  map_map

/-- Erasing the records that are dropped from an index. -/
theorem Lists.drop {kept : HashMap Key UInt64} {uniqueName : ℕ} {records : List RecordInformation}
    (hlists : Lists kept uniqueName (records.map RecordInformation.recorded))
    (shouldRemove : RecordInformation → Bool) :
    Lists (kept.eraseAll ((records.filter shouldRemove).map RecordInformation.key)) uniqueName
      ((records.filter fun record => !shouldRemove record).map RecordInformation.recorded) where
  distinct := by
    rw [map_recorded_fst]
    have hdistinct := hlists.distinct
    rw [map_recorded_fst] at hdistinct
    exact hdistinct.sublist (filter_sublist.map _)
  mem_iff entry := by
    have hdistinct := hlists.distinct
    rw [map_recorded_fst] at hdistinct
    have hmem := hlists.mem_iff entry
    rw [mem_map] at hmem
    rw [mem_map, HashMap.lookup_eraseAll]
    constructor
    · rintro ⟨record, hrec, rfl⟩
      obtain ⟨hrec, hstays⟩ := mem_filter.1 hrec
      obtain ⟨htype, hheld⟩ := hmem.1 ⟨record, hrec, rfl⟩
      refine ⟨htype, ?_⟩
      rw [if_neg, hheld]
      intro hkey
      obtain ⟨other, hother, hsame⟩ := mem_map.1 hkey
      obtain ⟨hother, hremoved⟩ := mem_filter.1 hother
      have heq := inj_on_of_nodup_map hdistinct hother hrec hsame
      rw [← heq, hremoved] at hstays
      exact Bool.noConfusion hstays
    · rintro ⟨htype, hheld⟩
      have hstays := (Option.ite_none_left_eq_some.1 hheld).1
      obtain ⟨record, hrec, hsame⟩ := hmem.2 ⟨htype, (Option.ite_none_left_eq_some.1 hheld).2⟩
      refine ⟨record, mem_filter.2 ⟨hrec, ?_⟩, hsame⟩
      rw [Bool.not_eq_true']
      by_contra hremoved
      rw [Bool.not_eq_false] at hremoved
      exact hstays (mem_map.2 ⟨record, mem_filter.2 ⟨hrec, hremoved⟩, congrArg Prod.fst hsame⟩)

/-! ## What is kept -/

namespace Caches

variable {cs next : Caches}

theorem kept_writeRecord (info : RecordInformation) (record : Record)
    (hsize : info.size = record.responseBodySize) (prevRecSize : UInt64) :
    (cs.writeRecord info record hsize prevRecSize).kept = cs.kept.insert info.key info.size := by
  rw [writeRecord]
  by_cases hpersist : cs.shouldPersist = true
  · rw [if_pos hpersist, kept, if_pos hpersist, kept, if_pos hpersist]
    rw [stored, writeOperations, ← append_assoc, HashMap.insertAll, foldl_append]
    exact HashMap.mapValues_insert StoredRecord.size
  · grind [kept, HashMap.mapValues_insert]

theorem recorded_toRecordInformation (cache : Cache) (time : ℕ) (record : Record) :
    (cs.toRecordInformation cache time record).recorded =
      (⟨cache.uniqueName, cs.nextUUID⟩, record.responseBodySize) :=
  RecordInformation.recorded_ofRecord _ time _ record

theorem key_toRecordInformation (cache : Cache) (time : ℕ) (record : Record) :
    (cs.toRecordInformation cache time record).key = ⟨cache.uniqueName, cs.nextUUID⟩ :=
  congrArg Prod.fst (cs.recorded_toRecordInformation cache time record)

theorem kept_addRecord (cache : Cache) (time : ℕ) (record : Record) :
    (cs.addRecord cache time record).kept =
      cs.kept.insert ⟨cache.uniqueName, cs.nextUUID⟩ record.responseBodySize := by
  rw [addRecord, kept_writeRecord, key_toRecordInformation, size_toRecordInformation]
  rfl

theorem key_replaceInformation (record : Record) (info : RecordInformation) :
    (replaceInformation record info).key = info.key :=
  congrArg Prod.fst
    (RecordInformation.recorded_updateVaryInformation _ record.request record.response)

theorem notMem_of_isWriting {keys : List Key} (hidle : cs.isWriting keys = false)
    {operation : Key × StoredRecord} (hactive : operation ∈ cs.activeWriteOperation.toList) :
    operation.1 ∉ keys := by
  rw [isWriting, Option.mem_toList.1 hactive] at hidle
  exact of_decide_eq_false hidle

/-- Removing records that are not being stored erases them from what is kept. -/
theorem kept_removeFromStorage (hpersist : cs.shouldPersist = true) {removals : List (List Key)}
    (hidle : cs.isWriting removals.flatten = false) :
    (cs.removeFromStorage removals).kept = cs.kept.eraseAll removals.flatten := by
  have hactive : cs.activeWriteOperation.toList.filter
      (fun operation => operation.1 ∉ removals.flatten) = cs.activeWriteOperation.toList :=
    filter_eq_self.2 fun operation hoperation =>
      decide_eq_true (notMem_of_isWriting hidle hoperation)
  have hstored : (cs.removeFromStorage removals).stored =
      cs.stored.eraseAll removals.flatten := by
    rw [stored, stored, HashMap.eraseAll_insertAll, writeOperations, writeOperations,
      filter_append, hactive, removeFromStorage, flatten_append, HashMap.eraseAll, foldl_append]
    rfl
  rw [kept, kept, if_pos hpersist, ← HashMap.mapValues_eraseAll, hstored]
  exact if_pos hpersist

/-- Records that are not being written are gone at once. -/
theorem kept_removeRecords {records : List RecordInformation}
    (hidle : cs.isWriting (records.map RecordInformation.key) = false) :
    (cs.removeRecords records).kept = cs.kept.eraseAll (records.map RecordInformation.key) := by
  rw [removeRecords]
  split
  · next hpersist =>
    have hkeys : (records.map fun record => [record.key]).flatten =
        records.map RecordInformation.key := map_eq_flatMap.symm
    rw [← hkeys] at hidle ⊢
    exact @kept_removeFromStorage { cs with size := _ } hpersist _ hidle
  · grind [kept, HashMap.mapValues_eraseAll]

/-- A cache that was removed is disposed with its records. -/
theorem kept_disposeRemoved {cache : Cache} (hidle : cs.isWriting cache.keys = false) :
    (cs.disposeRemoved cache).kept =
      if cs.shouldPersist then cs.kept.eraseAll cache.keys else cs.kept := by
  change (cs.removeFromStorage _).kept = _
  split
  · grind [kept_removeFromStorage]
  · next hpersist =>
    rw [kept, kept, if_neg hpersist]
    exact if_neg hpersist

variable (hpersist : cs.shouldPersist = true)
include hpersist

/-- With nothing left to do, the records are those on disk. -/
theorem kept_of_settled (hsettled : cs.isSettled = true) :
    cs.kept = cs.disk.mapValues StoredRecord.size := by
  rw [isSettled, Bool.and_eq_true, List.isEmpty_iff, List.isEmpty_iff] at hsettled
  rw [kept, if_pos hpersist, stored, hsettled.1, hsettled.2]
  rfl

/-- A traversal that no store and no removal overlaps with finds what is kept. -/
theorem lists_readRecordsList (hsettled : cs.isSettled = true) (uniqueName : ℕ) :
    Lists cs.kept uniqueName ((cs.readRecordsList uniqueName).map RecordInformation.recorded) := by
  have hfound : (cs.readRecordsList uniqueName).map RecordInformation.recorded =
      (cs.disk.entries.filter fun entry => entry.1.type = uniqueName).map
        fun entry => (entry.1, entry.2.size) := by
    rw [readRecordsList, if_pos hpersist, map_map]
    refine map_congr_left fun entry _ => ?_
    rw [Function.comp_apply, RecordInformation.recorded_ofRecord, entry.2.size_eq]
  rw [hfound, kept_of_settled hpersist hsettled]
  constructor
  · rw [map_map]
    exact cs.disk.nodupKeys.sublist filter_sublist
  · intro entry
    rw [← Option.mem_def, AList.mem_lookup_iff, mem_map]
    change _ ↔ _ ∧ _ ∈ cs.disk.entries.map _
    rw [mem_map]
    constructor
    · grind
    · grind

end Caches

/-! ## The invariant -/

def Cache.entries (cache : Cache) : List (Key × UInt64) :=
  cache.records.map RecordInformation.recorded

/-- Only an open cache has an index, and it is complete.  In an ephemeral session every cache is
open. -/
def Indexed (caches : Caches) (cache : Cache) : Prop :=
  if cache.state = .opened then Lists caches.kept cache.uniqueName cache.entries
  else cache.records = [] ∧ caches.shouldPersist = true

/-- No store is pending for a key that is being removed, and none will be asked for. -/
def Caches.Ordered (caches : Caches) : Prop :=
  ∀ key ∈ caches.removals.flatten,
    key.identifier < caches.nextUUID ∧ key ∉ caches.writeOperations.map Prod.fst

namespace Caches.Ordered

variable {cs : Caches} (hordered : cs.Ordered)
include hordered

/-- No record that is kept waits for its removal. -/
theorem notMem_of_mem_kept (hpersist : cs.shouldPersist = true) {key : Key}
    (hkey : key ∈ cs.kept) : key ∉ cs.removals.flatten := by
  intro hremoved
  have hstored : key ∈ cs.stored := by
    rw [kept, if_pos hpersist] at hkey
    change key ∈ (cs.stored.entries.map _).map _ at hkey
    rwa [map_map] at hkey
  rcases HashMap.mem_insertAll.1 hstored with hwrite | hdisk
  · exact (hordered key hremoved).2 hwrite
  · exact (HashMap.mem_eraseAll.1 hdisk).1 hremoved

theorem writeRecord {info : RecordInformation}
    (hnew : cs.shouldPersist = true → info.key ∉ cs.removals.flatten) (record : Record)
    (hsize : info.size = record.responseBodySize) (prevRecSize : UInt64) :
    (cs.writeRecord info record hsize prevRecSize).Ordered := by
  rw [Caches.writeRecord]
  split
  · next hpersist =>
    intro key hkey
    refine ⟨(hordered key hkey).1, ?_⟩
    rw [writeOperations, ← append_assoc, map_append, mem_append, not_or]
    refine ⟨(hordered key hkey).2, fun hwrite => hnew hpersist ?_⟩
    rwa [← show key = info.key from mem_singleton.1 hwrite]
  · exact hordered

theorem removeFromStorage {removals : List (List Key)} {keys : List Key}
    (hkeys : removals.flatten ⊆ keys) (hidle : cs.isWriting keys = false)
    (hbound : ∀ key ∈ keys, key.identifier < cs.nextUUID) :
    (cs.removeFromStorage removals).Ordered := by
  intro key hkey
  have hwrites : ∀ operation ∈ (cs.removeFromStorage removals).writeOperations,
      operation ∈ cs.writeOperations ∧ operation.1 ∉ removals.flatten := by
    intro operation hoperation
    rcases mem_append.1 hoperation with hactive | hpending
    · exact ⟨mem_append_left _ hactive, fun hmem => notMem_of_isWriting hidle hactive (hkeys hmem)⟩
    · obtain ⟨hpending, hkept⟩ := mem_filter.1 hpending
      exact ⟨mem_append_right _ hpending, of_decide_eq_true hkept⟩
  rw [Caches.removeFromStorage, flatten_append, mem_append] at hkey
  constructor
  · exact hkey.elim (fun hold => (hordered key hold).1) fun hnew => hbound key (hkeys hnew)
  · intro hwrite
    obtain ⟨operation, hoperation, rfl⟩ := mem_map.1 hwrite
    obtain ⟨hbefore, hnot⟩ := hwrites operation hoperation
    exact hkey.elim (fun hold => (hordered _ hold).2 (mem_map_of_mem hbefore)) hnot

theorem removeRecords {records : List RecordInformation}
    (hidle : cs.isWriting (records.map RecordInformation.key) = false)
    (hbound : ∀ key ∈ records.map RecordInformation.key, key.identifier < cs.nextUUID) :
    (cs.removeRecords records).Ordered := by
  rw [Caches.removeRecords]
  split
  · refine @removeFromStorage { cs with size := _ } hordered _ _ ?_ hidle hbound
    exact (map_eq_flatMap.symm : _ = records.map RecordInformation.key) ▸ Subset.refl _
  · exact hordered

theorem disposeRemoved {cache : Cache} (hidle : cs.isWriting cache.keys = false)
    (hbound : ∀ key ∈ cache.keys, key.identifier < cs.nextUUID) :
    (cs.disposeRemoved cache).Ordered := by
  refine hordered.removeFromStorage (fun key hkey => ?_) hidle hbound
  split at hkey
  · rwa [flatten_singleton] at hkey
  · exact absurd hkey not_mem_nil

end Caches.Ordered

/-- Caches, records and traversals fit together. -/
structure IndexCore (caches : Caches) : Prop where
  ordered : caches.Ordered
  identifiers : (caches.all.map Cache.identifier).Nodup
  names : (caches.all.map Cache.uniqueName).Nodup
  fresh : ∀ cache ∈ caches.all,
    cache.identifier < caches.nextCacheIdentifier ∧ cache.uniqueName < caches.nextUUID
  keys : ∀ key ∈ caches.kept, key.type < caches.nextUUID ∧ key.identifier < caches.nextUUID
  list_nodup : (caches.cachesList.map Prod.snd).Nodup
  list_fresh : ∀ entry ∈ caches.cachesList, entry.2 < caches.nextUUID
  idle : caches.isInitialized = false → caches.all = []
  indexed : ∀ cache ∈ caches.all, Indexed caches cache
  traversals : ∀ traversal ∈ caches.traversals,
    traversal.cacheIdentifier < caches.nextCacheIdentifier
  found : ∀ traversal ∈ caches.traversals, ∀ cache ∈ caches.all,
    cache.identifier = traversal.cacheIdentifier → cache.state ≠ .opened ∧
      Lists caches.kept cache.uniqueName (traversal.found.map RecordInformation.recorded)
  single : (caches.traversals.map Traversal.cacheIdentifier).Nodup

structure IndexInv (caches : Caches) : Prop extends IndexCore caches where
  listed : caches.isInitialized = true → caches.shouldPersist = true →
    caches.cachesList = caches.caches.map fun cache => (cache.name, cache.uniqueName)

/-- Before anything is read, no cache lists a record. -/
theorem indexInv_create (shouldPersist : Bool) (directory : Directory) :
    IndexInv (Caches.create shouldPersist directory) where
  ordered _ hkey := absurd hkey not_mem_nil
  identifiers := nodup_nil
  names := nodup_nil
  fresh _ hcache := absurd hcache not_mem_nil
  keys key hkey := by
    rw [Caches.kept] at hkey
    split at hkey
    · refine directory.keys_lt key ?_
      change key ∈ (directory.disk.entries.map _).map _ at hkey
      rwa [map_map] at hkey
    · exact absurd hkey (AList.notMem_empty key)
  list_nodup := directory.names_nodup
  list_fresh := directory.names_lt
  listed hinitialized := absurd hinitialized Bool.false_ne_true
  idle _ := rfl
  indexed _ hcache := absurd hcache not_mem_nil
  traversals _ htraversal := absurd htraversal not_mem_nil
  found _ htraversal := absurd htraversal not_mem_nil
  single := nodup_nil

/-! ## Changing one cache -/

/-- The caches are the same, apart from what they have stored and from traversals. -/
structure KeepsCaches (caches next : Caches) : Prop where
  shouldPersist : next.shouldPersist = caches.shouldPersist
  isInitialized : next.isInitialized = caches.isInitialized
  live : next.caches = caches.caches
  removed : next.removedCaches = caches.removedCaches
  cachesList : next.cachesList = caches.cachesList
  nextCacheIdentifier : next.nextCacheIdentifier = caches.nextCacheIdentifier
  nextUUID : caches.nextUUID ≤ next.nextUUID

/-- A step that changes one cache, and records of that cache only. -/
structure Modifies (caches next : Caches) (cache : Cache) (change : Cache → Cache) : Prop
    extends KeepsCaches (caches.modifyCache cache.identifier change) next where
  ordered : next.Ordered
  identity : ∀ other, (change other).identifier = other.identifier ∧
    (change other).name = other.name ∧ (change other).uniqueName = other.uniqueName
  kept : ∀ key, key.type ≠ cache.uniqueName → next.kept.lookup key = caches.kept.lookup key
  keys : ∀ key ∈ next.kept, key.type = cache.uniqueName → key.identifier < next.nextUUID
  indexed : Indexed next (change cache)
  traversals : ∀ traversal ∈ next.traversals,
    traversal ∈ caches.traversals ∨ traversal.cacheIdentifier = cache.identifier
  found : ∀ traversal ∈ next.traversals, traversal.cacheIdentifier = cache.identifier →
    (change cache).state ≠ .opened ∧
      Lists next.kept cache.uniqueName (traversal.found.map RecordInformation.recorded)
  single : (next.traversals.map Traversal.cacheIdentifier).Nodup

namespace IndexInv

variable {cs next : Caches} {cache : Cache} {change : Cache → Cache}

theorem eq_of_identifier (hinv : IndexInv cs) {first second : Cache}
    (hfirst : first ∈ cs.all) (hsecond : second ∈ cs.all)
    (hsame : first.identifier = second.identifier) : first = second :=
  inj_on_of_nodup_map hinv.identifiers hfirst hsecond hsame

end IndexInv

namespace Modifies

variable {cs next : Caches} {cache : Cache} {change : Cache → Cache}

variable (hmod : Modifies cs next cache change)
include hmod

theorem all_eq : next.all = cs.all.map fun other =>
      if other.identifier = cache.identifier then change other else other := by
  rw [Caches.all, hmod.live, hmod.removed, Caches.all, map_append]
  rfl

theorem map_all {α : Type} (field : Cache → α)
    (hfield : ∀ other, field (change other) = field other) :
    next.all.map field = cs.all.map field := by
  rw [hmod.all_eq, map_map]
  refine map_congr_left fun other _ => ?_
  rw [Function.comp_apply]
  split
  · exact hfield other
  · rfl

variable (hinv : IndexInv cs)
include hinv

variable (hcache : cache ∈ cs.all)
include hcache

theorem of_mem {other : Cache} (hother : other ∈ next.all) :
    other = change cache ∨ (other ∈ cs.all ∧ other.identifier ≠ cache.identifier) := by
  rw [hmod.all_eq] at hother
  obtain ⟨before, hbefore, rfl⟩ := mem_map.1 hother
  by_cases hsame : before.identifier = cache.identifier
  · rw [if_pos hsame, hinv.eq_of_identifier hbefore hcache hsame]
    exact .inl rfl
  · rw [if_neg hsame]
    exact .inr ⟨hbefore, hsame⟩

theorem lists_of_ne {other : Cache} (hother : other ∈ cs.all)
    (hne : other.identifier ≠ cache.identifier) {entries : List (Key × UInt64)}
    (hlists : Lists cs.kept other.uniqueName entries) :
    Lists next.kept other.uniqueName entries := by
  refine hlists.congr fun key htype => hmod.kept key fun hsame => hne ?_
  rw [inj_on_of_nodup_map hinv.names hother hcache (htype.symm.trans hsame)]

/-- A change of one cache keeps the invariant of all. -/
theorem indexInv : IndexInv next where
  ordered := hmod.ordered
  identifiers := by
    rw [hmod.map_all Cache.identifier fun other => (hmod.identity other).1]
    exact hinv.identifiers
  names := by
    rw [hmod.map_all Cache.uniqueName fun other => (hmod.identity other).2.2]
    exact hinv.names
  fresh other hother := by
    have hbound : ∀ before ∈ cs.all, before.identifier < next.nextCacheIdentifier ∧
        before.uniqueName < next.nextUUID := fun before hbefore =>
      ⟨hmod.nextCacheIdentifier ▸ (hinv.fresh before hbefore).1,
        (hinv.fresh before hbefore).2.trans_le hmod.nextUUID⟩
    rcases hmod.of_mem hinv hcache hother with rfl | ⟨hbefore, -⟩
    · rw [(hmod.identity cache).1, (hmod.identity cache).2.2]
      exact hbound cache hcache
    · exact hbound other hbefore
  keys key hkey := by
    by_cases htype : key.type = cache.uniqueName
    · refine ⟨?_, hmod.keys key hkey htype⟩
      rw [htype]
      exact (hinv.fresh cache hcache).2.trans_le hmod.nextUUID
    · have hbefore : key ∈ cs.kept := by
        rw [← AList.lookup_isSome] at hkey ⊢
        rwa [hmod.kept key htype] at hkey
      obtain ⟨hlt, hident⟩ := hinv.keys key hbefore
      exact ⟨hlt.trans_le hmod.nextUUID, hident.trans_le hmod.nextUUID⟩
  list_nodup := hmod.cachesList ▸ hinv.list_nodup
  list_fresh entry hentry :=
    (hinv.list_fresh entry (hmod.cachesList ▸ hentry)).trans_le hmod.nextUUID
  listed hinitialized hpersist := by
    refine (hmod.cachesList.trans (hinv.listed (hmod.isInitialized ▸ hinitialized)
      (hmod.shouldPersist ▸ hpersist))).trans ?_
    rw [hmod.live, Caches.modifyCache, map_map]
    refine map_congr_left fun other _ => ?_
    rw [Function.comp_apply]
    split
    · rw [(hmod.identity other).2.1, (hmod.identity other).2.2]
    · rfl
  idle hidle := by rw [hmod.all_eq, hinv.idle (hmod.isInitialized ▸ hidle), map_nil]
  indexed other hother := by
    rcases hmod.of_mem hinv hcache hother with rfl | ⟨hbefore, hne⟩
    · exact hmod.indexed
    · have hindexed := hinv.indexed other hbefore
      rw [Indexed] at hindexed ⊢
      split at hindexed
      · next hopened =>
        rw [if_pos hopened]
        exact hmod.lists_of_ne hinv hcache hbefore hne hindexed
      · next hclosed =>
        rw [if_neg hclosed, hmod.shouldPersist]
        exact hindexed
  traversals traversal htraversal := by
    rw [hmod.nextCacheIdentifier]
    rcases hmod.traversals traversal htraversal with hbefore | hsame
    · exact hinv.traversals traversal hbefore
    · rw [hsame]
      exact (hinv.fresh cache hcache).1
  found traversal htraversal other hother hsame := by
    rcases hmod.of_mem hinv hcache hother with rfl | ⟨hbefore, hne⟩
    · rw [(hmod.identity cache).1] at hsame
      rw [(hmod.identity cache).2.2]
      exact hmod.found traversal htraversal hsame.symm
    · rcases hmod.traversals traversal htraversal with hold | hnew
      · obtain ⟨hclosed, hlists⟩ := hinv.found traversal hold other hbefore hsame
        exact ⟨hclosed, hmod.lists_of_ne hinv hcache hbefore hne hlists⟩
      · exact absurd (hsame.trans hnew) hne
  single := hmod.single

end Modifies

end PurcFetcher.DomCache
