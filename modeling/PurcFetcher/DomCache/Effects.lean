import PurcFetcher.DomCache.Steps

/-!
# What steps have an effect on

The steps of the caches, apart from reading the list of the caches and disposing a removed one,
change the size by what they change in the storage.  They store records only for caches that
there are, and a cache that is new has a unique name that is new.
-/

namespace PurcFetcher.DomCache

open Text List

/-- The sum of the recorded sizes, which wraps around as the size does. -/
def Caches.keptSize (caches : Caches) : UInt64 :=
  UInt64.ofNat (caches.kept.weight fun _ size => size.toNat)

/-! ## Sums -/

theorem sum_eq_ofNat (sizes : List UInt64) :
    sizes.sum = UInt64.ofNat (sizes.map UInt64.toNat).sum := by
  induction sizes with
  | nil => rfl
  | cons size sizes ih =>
    rw [sum_cons, map_cons, sum_cons, UInt64.ofNat_add, UInt64.ofNat_toNat, ih]

theorem foldl_sub (size : UInt64) (sizes : List UInt64) :
    sizes.foldl (· - ·) size = size - sizes.sum := by
  induction sizes generalizing size with
  | nil => exact (UInt64.sub_zero size).symm
  | cons => grind

section Sums

variable {cs : Caches}

theorem keptSize_of_insert {next : Caches} {key : Key} {size : UInt64}
    (hkept : next.kept = cs.kept.insert key size) :
    next.keptSize + ((cs.kept.lookup key).getD 0) = cs.keptSize + size := by
  have hweight := @HashMap.weight_insert_add _ _ _ cs.kept key size fun _ size => size.toNat
  have hprev : (cs.kept.lookup key).elim 0 UInt64.toNat = ((cs.kept.lookup key).getD 0).toNat := by
    cases cs.kept.lookup key <;> rfl
  rw [hprev] at hweight
  have hwrapped := congrArg UInt64.ofNat hweight
  rw [UInt64.ofNat_add, UInt64.ofNat_add, UInt64.ofNat_toNat, UInt64.ofNat_toNat, ← hkept]
    at hwrapped
  exact hwrapped

/-- Erasing records of the index of a cache. -/
theorem keptSize_of_eraseAll {next : Caches} (hinv : IndexInv cs) {cache : Cache}
    (hcache : cache ∈ cs.all) {records : List RecordInformation}
    (hrecs : records.Sublist cache.records)
    (hkept : next.kept = cs.kept.eraseAll (records.map RecordInformation.key)) :
    next.keptSize + (records.map RecordInformation.size).sum = cs.keptSize := by
  by_cases hopened : cache.state = .opened
  · have hdistinct := (hinv.lists hcache hopened).distinct
    rw [Cache.entries, map_recorded_fst] at hdistinct
    have hweight := @HashMap.weight_eraseAll_add _ _ _ cs.kept (fun _ size => size.toNat) _
      (hdistinct.sublist (hrecs.map _))
    have hsizes : (records.map RecordInformation.key).map
        (fun key => (cs.kept.lookup key).elim 0 UInt64.toNat) =
          (records.map RecordInformation.size).map UInt64.toNat := by
      rw [map_map, map_map]
      refine map_congr_left fun record hrec => ?_
      rw [Function.comp_apply, (hinv.lookup_of_mem hcache (hrecs.subset hrec)).2]
      rfl
    rw [hsizes] at hweight
    rw [sum_eq_ofNat, Caches.keptSize, hkept, ← UInt64.ofNat_add, hweight]
    rfl
  · have hnone : records = [] :=
      sublist_nil.1 ((hinv.closed hcache hopened).1 ▸ hrecs)
    subst hnone
    rw [Caches.keptSize, hkept]
    exact UInt64.add_zero _

theorem keptSize_of_settled (hpersist : cs.shouldPersist = true)
    (hsettled : cs.isSettled = true) :
    cs.keptSize = (cs.disk.entries.map fun entry => entry.2.size).sum := by
  rw [sum_eq_ofNat, map_map, Caches.keptSize, Caches.kept_of_settled hpersist hsettled,
    HashMap.weight_mapValues]
  rfl

end Sums

/-! ## Effects -/

/-- The unique name is that of a cache, or has not been given to any. -/
def Known (caches : Caches) (uniqueName : ℕ) : Prop :=
  (∃ cache ∈ caches.all, cache.uniqueName = uniqueName) ∨ caches.nextUUID ≤ uniqueName

theorem known_of_mem {cs : Caches} {cache : Cache} (hcache : cache ∈ cs.all) :
    Known cs cache.uniqueName :=
  .inl ⟨cache, hcache, rfl⟩

structure Effect (caches next : Caches) : Prop where
  /-- What the size is off by does not change. -/
  drift : next.size - next.keptSize = caches.size - caches.keptSize
  shouldPersist : next.shouldPersist = caches.shouldPersist
  isInitialized : next.isInitialized = true → caches.isInitialized = true
  nextUUID : caches.nextUUID ≤ next.nextUUID
  keys : ∀ key ∈ next.kept, key ∈ caches.kept ∨ Known caches key.type
  names : ∀ cache ∈ next.all, Known caches cache.uniqueName
  list : ∀ entry ∈ next.cachesList, entry ∈ caches.cachesList ∨ Known caches entry.2

namespace Effect

variable {cs next : Caches} {cache : Cache}

theorem known (heffect : Effect cs next) {uniqueName : ℕ} (hknown : Known next uniqueName) :
    Known cs uniqueName := by
  rcases hknown with ⟨cache, hcache, rfl⟩ | hnew
  · exact heffect.names cache hcache
  · exact .inr (heffect.nextUUID.trans hnew)

/-- Effects one after the other. -/
theorem trans {middle : Caches} (hfirst : Effect cs middle)
    (hsecond : Effect middle next) : Effect cs next where
  drift := hsecond.drift.trans hfirst.drift
  shouldPersist := hsecond.shouldPersist.trans hfirst.shouldPersist
  isInitialized hinitialized := hfirst.isInitialized (hsecond.isInitialized hinitialized)
  nextUUID := hfirst.nextUUID.trans hsecond.nextUUID
  keys key hkey := (hsecond.keys key hkey).elim (hfirst.keys key) fun hknown =>
    .inr (hfirst.known hknown)
  names cache hcache := hfirst.known (hsecond.names cache hcache)
  list entry hentry := (hsecond.list entry hentry).elim (hfirst.list entry) fun hknown =>
    .inr (hfirst.known hknown)

theorem of_kept_eq (hkept : next.kept = cs.kept) (hsize : next.size = cs.size)
    (hpersist : next.shouldPersist = cs.shouldPersist)
    (hinit : next.isInitialized = true → cs.isInitialized = true)
    (huuid : cs.nextUUID ≤ next.nextUUID)
    (hnames : ∀ cache ∈ next.all, Known cs cache.uniqueName)
    (hlist : next.cachesList = cs.cachesList) : Effect cs next where
  drift := by rw [Caches.keptSize, hkept, hsize, Caches.keptSize]
  shouldPersist := hpersist
  isInitialized := hinit
  nextUUID := huuid
  keys key hkey := .inl (hkept ▸ hkey)
  names := hnames
  list entry hentry := .inl (hlist ▸ hentry)

theorem refl (cs : Caches) : Effect cs cs :=
  of_kept_eq rfl rfl rfl id le_rfl (fun _ => known_of_mem) rfl

variable {ident : ℕ} {change : Cache → Cache}

section

variable (hname : ∀ cache, (change cache).uniqueName = cache.uniqueName)
include hname

theorem known_modifyCache :
    ∀ cache ∈ (cs.modifyCache ident change).all, Known cs cache.uniqueName := by
  intro cache hcache
  rw [Caches.all, Caches.modifyCache, ← map_append] at hcache
  obtain ⟨before, hbefore, rfl⟩ := mem_map.1 hcache
  refine .inl ⟨before, hbefore, ?_⟩
  split
  · exact (hname before).symm
  · rfl

theorem exists_modifyCache (hcache : cache ∈ cs.all) :
    ∃ changed ∈ (cs.modifyCache ident change).all, changed.uniqueName = cache.uniqueName := by
  refine ⟨if cache.identifier = ident then change cache else cache, ?_, ?_⟩
  · rw [Caches.all, Caches.modifyCache, ← map_append]
    exact mem_map_of_mem hcache
  · split
    · exact hname cache
    · rfl

end

theorem modifyCache (ident : ℕ) {change : Cache → Cache}
    (hname : ∀ cache, (change cache).uniqueName = cache.uniqueName) :
    Effect cs (cs.modifyCache ident change) :=
  of_kept_eq rfl rfl rfl id le_rfl (known_modifyCache hname) rfl

theorem of_sameCaches (hsame : SameCaches cs next)
    (hdrift : next.size - next.keptSize = cs.size - cs.keptSize)
    (hkeys : ∀ key ∈ next.kept, key ∈ cs.kept ∨ Known cs key.type) :
    Effect cs next where
  drift := hdrift
  shouldPersist := hsame.shouldPersist
  isInitialized hinitialized := hsame.isInitialized ▸ hinitialized
  nextUUID := hsame.nextUUID
  keys := hkeys
  names cache hcache := by
    rw [Caches.all, hsame.live, hsame.removed] at hcache
    exact known_of_mem hcache
  list entry hentry := .inl (hsame.cachesList ▸ hentry)

theorem of_advances (hadvances : Advances cs next) : Effect cs next := by
  refine of_sameCaches hadvances.toSameCaches ?_ fun key hkey => .inl (hadvances.kept ▸ hkey)
  rw [Caches.keptSize, hadvances.kept, hadvances.size, Caches.keptSize]

/-- A record that is written adds what its size has changed by. -/
theorem writeRecord (info : RecordInformation) (record : Record)
    (hsize : info.size = record.responseBodySize) {prevRecSize : UInt64}
    (hprev : (cs.kept.lookup info.key).getD 0 = prevRecSize)
    (hknown : Known cs info.key.type) :
    Effect cs (cs.writeRecord info record hsize prevRecSize) := by
  have hkept := @Caches.kept_writeRecord cs info record hsize prevRecSize
  refine of_sameCaches (sameCaches_writeRecord _ _ _ _ _) ?_ ?_
  · grind [Caches.writeRecord, keptSize_of_insert]
  · simp_all

section

variable (hinv : IndexInv cs)
include hinv

theorem addRecord (hcache : cache ∈ cs.all) (time : ℕ)
    (record : Record) : Effect cs (cs.addRecord cache time record) := by
  have hchanged : Effect cs
      { cs.modifyCache cache.identifier
          (Cache.appendRecord (cs.toRecordInformation cache time record)) with
        nextUUID := cs.nextUUID + 1 } :=
    of_kept_eq rfl rfl rfl id (Nat.le_succ _) (known_modifyCache fun _ => rfl) rfl
  refine hchanged.trans (writeRecord _ _ _ ?_ ?_)
  · rw [Caches.key_toRecordInformation]
    exact congrArg (Option.getD · 0) (AList.lookup_eq_none.2 (hinv.next_notMem cache.uniqueName))
  · rw [Caches.key_toRecordInformation]
    exact .inl (exists_modifyCache (fun _ => rfl) hcache)

theorem finishUpdate (update : Update) :
    Effect cs (cs.finishUpdate update) := by
  rw [Caches.finishUpdate]
  split
  · exact refl cs
  · next cache hfind =>
    split
    · exact refl cs
    · next recInfo hrec =>
      have hcache := (find_spec hfind).1
      have hmem := mem_of_mem_filter (mem_of_find?_eq_some hrec)
      obtain ⟨htype, hheld⟩ := hinv.lookup_of_mem hcache hmem
      refine trans ?_ (writeRecord _ _ _ ?_ ?_)
      · exact modifyCache _ fun _ => rfl
      · rw [Caches.key_replaceInformation]
        exact congrArg (Option.getD · 0) hheld
      · rw [Caches.key_replaceInformation, htype]
        exact .inl (exists_modifyCache (fun _ => rfl) hcache)

section

variable (hready : ∀ s ∈ cs.stateOf ident, s = .opened)
include hready

theorem storeRecord {parse : Str → URL} (time : ℕ)
    (record : Record) :
    Effect cs (cs.storeRecord parse ident time record) := by
  rw [Caches.storeRecord]
  split
  · exact refl cs
  · next cache hfind =>
    have hcache := (find_spec hfind).1
    have hopened : cache.state = .opened :=
      hready cache.state (Option.mem_map_of_mem _ (Option.mem_def.2 hfind))
    dsimp only
    split
    · exact addRecord hinv hcache time record
    · next existingRec _ =>
      have hcounted := @IndexInv.countUpdate _ _ hinv hcache hopened existingRec.key
        (fun item => { item with updateResponseCounter := item.updateResponseCounter + 1 })
        fun _ => rfl
      rw [Caches.updateRecordToDisk]
      split
      · exact modifyCache _ fun _ => rfl
      · split
        · exact of_kept_eq rfl rfl rfl id le_rfl (known_modifyCache fun _ => rfl) rfl
        · refine trans ?_ (finishUpdate hcounted _)
          exact modifyCache _ fun _ => rfl

theorem storeRecords {parse : Str → URL} (time : ℕ)
    (records : List Record) :
    Effect cs (cs.storeRecords parse ident time records) := by
  induction records generalizing cs with
  | nil => exact refl cs
  | cons record records ih =>
    refine (storeRecord hinv hready time record).trans (ih (hinv.storeRecord hready time record) ?_)
    rwa [stateOf_storeRecord]

end

/-- Records that are removed take their sizes with them. -/
theorem removeRecords (hcache : cache ∈ cs.all)
    {records : List RecordInformation} (hrecs : records.Sublist cache.records)
    {before : Caches} (hidle : before.isWriting (records.map RecordInformation.key) = false)
    (hbefore : Effect cs before) (hkept : before.kept = cs.kept) :
    Effect cs (before.removeRecords records) := by
  have hremoved : (before.removeRecords records).kept =
      before.kept.eraseAll (records.map RecordInformation.key) := Caches.kept_removeRecords hidle
  have hsize : (before.removeRecords records).size =
      before.size - (records.map RecordInformation.size).sum := by
    rw [Caches.removeRecords]
    split
    · exact foldl_sub _ _
    · exact foldl_sub _ _
  refine hbefore.trans (of_sameCaches (sameCaches_removeRecords before records) ?_ ?_)
  · have hsum := keptSize_of_eraseAll hinv hcache hrecs (hkept ▸ hremoved)
    have hsame : before.keptSize = cs.keptSize := by rw [Caches.keptSize, hkept, Caches.keptSize]
    grind
  · intro key hkey
    rw [hremoved] at hkey
    exact .inl (HashMap.mem_eraseAll.1 hkey).2

end

theorem openCache : Effect cs (cs.openCache cache) := by
  rw [Caches.openCache]
  split
  · exact refl cs
  · exact refl cs
  · exact of_kept_eq rfl rfl rfl id le_rfl (known_modifyCache fun _ => rfl) rfl

theorem writeCachesToDisk : Effect cs cs.writeCachesToDisk := by
  rw [Caches.writeCachesToDisk]
  split
  · refine { refl cs with list := ?_ }
    intro entry hentry
    obtain ⟨cache, hcache, rfl⟩ := mem_map.1 hentry
    exact .inr (known_of_mem (mem_append_left _ hcache))
  · exact refl cs

theorem openNamed (name : Str) : Effect cs (cs.openNamed name) := by
  rw [Caches.openNamed]
  split
  · exact openCache
  · refine trans ?_ writeCachesToDisk
    refine of_kept_eq rfl rfl rfl id (Nat.le_succ _) (fun cache hcache => ?_) rfl
    rw [Caches.all, append_assoc, singleton_append] at hcache
    rcases mem_cons.1 (perm_middle.mem_iff.1 hcache) with rfl | hold
    · exact .inr le_rfl
    · exact known_of_mem hold

theorem remove (ident : ℕ) : Effect cs (cs.remove ident) := by
  rw [Caches.remove]
  split
  · exact refl cs
  · next cache hfind =>
    refine trans ?_ writeCachesToDisk
    refine of_kept_eq rfl rfl rfl id le_rfl (fun other hother => known_of_mem ?_) rfl
    rcases mem_append.1 hother with hlive | hremoved
    · exact mem_append_left _ (mem_of_mem_eraseP hlive)
    · rcases mem_append.1 hremoved with hold | hnew
      · exact mem_append_right _ hold
      · rw [mem_singleton.1 hnew]
        exact mem_append_left _ (mem_of_find?_eq_some hfind)

theorem disposeLive : Effect cs (cs.disposeLive cache) := by
  rw [Caches.disposeLive]
  split
  · next hpersist =>
    dsimp only
    split
    · exact modifyCache _ fun _ => rfl
    · have hcleared : Effect cs (cs.modifyCache cache.identifier Cache.clearMemoryRepresentation) :=
        modifyCache _ fun _ => rfl
      refine hcleared.trans (of_kept_eq ?_ rfl rfl
        (fun hfalse => absurd hfalse Bool.false_ne_true) le_rfl ?_ rfl)
      · rw [Caches.kept, Caches.kept]
        exact (if_pos hpersist).trans (if_pos hpersist).symm
      · exact fun cache hcache => known_of_mem (mem_append_right _ hcache)
  · exact refl cs

end Effect

/-- What a step does: it has an effect as described, or it reads the list of the caches, or it
disposes a removed cache. -/
inductive StepEffect (caches : Caches) : Action → Caches → Prop
  | effect {action : Action} {next : Caches} (heffect : Effect caches next) :
      StepEffect caches action next
  | initializeCaches : StepEffect caches .initializeCaches caches.initializeCaches
  | disposeRemoved {identifier : ℕ} {cache : Cache} (hfind : caches.find identifier = some cache)
      (hremoved : (caches.removedCaches.any fun other =>
        other.identifier = cache.identifier) = true)
      (hidle : caches.isWriting cache.keys = false) :
      StepEffect caches (.dispose identifier) (caches.disposeRemoved cache)

/-- Every orderly step is one of these. -/
theorem stepEffect {cs next : Caches} (hinv : IndexInv cs) {parse : Str → URL}
    {action : Action} (horderly : Orderly parse cs action)
    (hstep : step parse cs action = some next) : StepEffect cs action next := by
  cases action with
  | initializeCaches => exact Option.some.inj hstep ▸ .initializeCaches
  | openNamed name =>
    obtain ⟨-, ⟨⟩⟩ := Option.ite_none_right_eq_some.1 hstep
    exact .effect (.openNamed name)
  | readCache =>
    obtain ⟨cache, -, rfl⟩ := Option.map_eq_some_iff.1 hstep
    exact .effect .openCache
  | finishOpening =>
    obtain ⟨trav, -, rfl⟩ := Option.map_eq_some_iff.1 hstep
    refine .effect (.of_kept_eq rfl rfl rfl id le_rfl ?_ rfl)
    exact Effect.known_modifyCache fun _ => rfl
  | storeRecords =>
    refine Option.some.inj hstep ▸ .effect (.storeRecords hinv ?_ _ _)
    intro s hs
    obtain ⟨cache, hfind, rfl⟩ := Option.mem_map.1 hs
    exact horderly cache hfind
  | finishUpdate idx =>
    obtain ⟨update, -, rfl⟩ := Option.map_eq_some_iff.1 hstep
    have hpopped : IndexInv { cs with updates := cs.updates.eraseIdx idx } :=
      hinv.of_kept_eq ⟨⟨rfl, rfl, rfl, rfl, rfl, rfl, le_rfl⟩, rfl⟩ hinv.ordered rfl
    have hsame : Effect cs { cs with updates := cs.updates.eraseIdx idx } :=
      .of_kept_eq rfl rfl rfl id le_rfl (fun _ => known_of_mem) rfl
    exact .effect (hsame.trans (.finishUpdate hpopped update))
  | delete ident request options =>
    obtain ⟨cache, hfind, hremove⟩ := Option.bind_eq_some_iff.1 hstep
    obtain ⟨-, ⟨⟩⟩ := Option.ite_none_right_eq_some.1 hremove
    exact .effect (.removeRecords hinv (find_spec hfind).1 filter_sublist
      (horderly cache hfind) (.modifyCache _ fun _ => rfl) rfl)
  | remove ident =>
    obtain ⟨-, ⟨⟩⟩ := Option.ite_none_right_eq_some.1 hstep
    exact .effect (.remove ident)
  | dispose =>
    obtain ⟨cache, hfind, rfl⟩ := Option.map_eq_some_iff.1 hstep
    rw [Caches.dispose]
    split
    · next hremoved => exact .disposeRemoved hfind hremoved (horderly cache hfind hremoved)
    · exact .effect .disposeLive
  | dispatchWriteOperation =>
    exact .effect (.of_advances (advances_of_dispatchWriteOperation hinv.ordered hstep))
  | completeWrite => exact .effect (.of_advances (advances_of_completeWrite hinv.ordered hstep))
  | completeRemoval =>
    exact .effect (.of_advances (advances_of_completeRemoval hinv.ordered hstep))

end PurcFetcher.DomCache
