import PurcFetcher.DomCache.Effects

/-!
# Deleting a cache

When a removed cache is disposed, the records of its index are removed from the storage.  They
are all the records of the cache if the cache is open and the session is persistent.  A cache
that was not opened since its list was read has no index, and in an ephemeral session nothing is
removed.
-/

namespace PurcFetcher.DomCache

open Machine Text List

/-- No record of the cache is kept in any later state, and the records of the other caches are
kept as they were. -/
def Deletes (parse : Str → URL) (caches next : Caches) (uniqueName : ℕ) : Prop :=
  (∀ later final, Meets (step parse) (Orderly parse) next later →
      run (step parse) next later = some final → ∀ key ∈ final.kept, key.type ≠ uniqueName) ∧
    ∀ key, key.type ≠ uniqueName → next.kept.lookup key = caches.kept.lookup key

/-- No cache and no record has the unique name, and none will get it. -/
structure Gone (uniqueName : ℕ) (caches : Caches) : Prop where
  lt : uniqueName < caches.nextUUID
  names : ∀ cache ∈ caches.all, cache.uniqueName ≠ uniqueName
  list : caches.shouldPersist = true → ∀ entry ∈ caches.cachesList, entry.2 ≠ uniqueName
  keys : ∀ key ∈ caches.kept, key.type ≠ uniqueName

namespace Gone

variable {caches next : Caches} {uniqueName : ℕ}

variable (hgone : Gone uniqueName caches)
include hgone

theorem not_known : ¬ Known caches uniqueName := by
  rintro (⟨cache, hcache, hname⟩ | hnew)
  · exact hgone.names cache hcache hname
  · exact hgone.lt.not_ge hnew

/-- What is gone stays so in such a step. -/
theorem of_effect (heffect : Effect caches next) :
    Gone uniqueName next where
  lt := hgone.lt.trans_le heffect.nextUUID
  names cache hcache hname := hgone.not_known (hname ▸ heffect.names cache hcache)
  list hpersist entry hentry hname := by
    rcases heffect.list entry hentry with hold | hknown
    · exact hgone.list (heffect.shouldPersist ▸ hpersist) entry hold hname
    · exact hgone.not_known (hname ▸ hknown)
  keys key hkey htype := by
    rcases heffect.keys key hkey with hold | hknown
    · exact hgone.keys key hold htype
    · exact hgone.not_known (htype ▸ hknown)

theorem initializeCaches :
    Gone uniqueName caches.initializeCaches := by
  rw [Caches.initializeCaches]
  split
  · exact hgone
  · split
    · next hpersist =>
      refine { hgone with names := fun cache hcache hname => ?_ }
      rcases mem_append.1 hcache with hread | hremoved
      · obtain ⟨numbered, hnumbered, rfl⟩ := mem_map.1 hread
        obtain ⟨-, -, hentry⟩ := mem_zipIdx hnumbered
        exact hgone.list hpersist _ (hentry ▸ getElem_mem _) hname
      · exact hgone.names cache (mem_append_right _ hremoved) hname
    · exact { hgone with }

theorem disposeRemoved {cache : Cache} (hidle : caches.isWriting cache.keys = false) :
    Gone uniqueName (caches.disposeRemoved cache) where
  lt := hgone.lt
  names other hother := by
    refine hgone.names other ?_
    rcases mem_append.1 hother with hlive | hremoved
    · exact mem_append_left _ hlive
    · exact mem_append_right _ (mem_of_mem_eraseP hremoved)
  list := hgone.list
  keys key hkey := hgone.keys key (IndexInv.mem_of_mem_disposeRemoved hidle hkey)

theorem step (hinv : IndexInv caches) {parse : Str → URL}
    {action : Action} (horderly : Orderly parse caches action)
    (hstep : step parse caches action = some next) : Gone uniqueName next := by
  cases stepEffect hinv horderly hstep with
  | effect heffect => exact hgone.of_effect heffect
  | initializeCaches => exact hgone.initializeCaches
  | disposeRemoved _ _ hidle => exact hgone.disposeRemoved hidle

/-- What is gone stays so in an orderly run. -/
theorem run (hinv : IndexInv caches) {parse : Str → URL}
    {actions : List Action} (horderly : Meets (DomCache.step parse) (Orderly parse) caches actions)
    (hrun : Machine.run (DomCache.step parse) caches actions = some next) :
    Gone uniqueName next := by
  have hboth : IndexInv next ∧ Gone uniqueName next :=
    @run_of_step _ _ _ (Orderly parse) (fun caches => IndexInv caches ∧ Gone uniqueName caches)
      _ (fun hboth horderly hstep =>
        ⟨hboth.1.step horderly hstep, hboth.2.step hboth.1 horderly hstep⟩)
      _ _ ⟨hinv, hgone⟩ horderly hrun
  exact hboth.2

end Gone

/-! ## Disposing a removed cache -/

section Dispose

variable {caches : Caches} {cache : Cache}

theorem any_of_mem_removed (hremoved : cache ∈ caches.removedCaches) :
    (caches.removedCaches.any fun other => other.identifier = cache.identifier) = true :=
  any_eq_true.2 ⟨cache, hremoved, decide_eq_true rfl⟩

variable (hinv : IndexInv caches)
include hinv

theorem gone_disposeRemoved (hremoved : cache ∈ caches.removedCaches)
    (hkeys : ∀ key ∈ (caches.disposeRemoved cache).kept, key.type ≠ cache.uniqueName) :
    Gone cache.uniqueName (caches.disposeRemoved cache) := by
  have hcache : cache ∈ caches.all := mem_append_right _ hremoved
  have hperm := hinv.perm_disposeRemoved hcache (any_of_mem_removed hremoved)
  have hnames : ∀ other ∈ (caches.disposeRemoved cache).all,
      other.uniqueName ≠ cache.uniqueName := by
    have hdistinct := (hperm.map Cache.uniqueName).nodup_iff.1 hinv.names
    rw [map_cons, nodup_cons] at hdistinct
    exact fun other hother hname => hdistinct.1 (mem_map.2 ⟨other, hother, hname⟩)
  refine ⟨(hinv.fresh cache hcache).2, hnames, fun hpersist entry hentry => ?_, hkeys⟩
  have hinit : caches.isInitialized = true := by
    by_contra hidle
    exact absurd (hinv.idle (Bool.not_eq_true _ ▸ hidle) ▸ hcache) not_mem_nil
  have hlisted := hinv.listed hinit hpersist ▸ hentry
  obtain ⟨live, hlive, rfl⟩ := mem_map.1 hlisted
  exact hnames live (mem_append_left _ hlive)

/-- When no record of a disposed cache is left. -/
theorem kept_disposeRemoved_free_iff (hcache : cache ∈ caches.all)
    (hidle : caches.isWriting cache.keys = false) :
    (∀ key ∈ (caches.disposeRemoved cache).kept, key.type ≠ cache.uniqueName) ↔
      (caches.shouldPersist = true ∧ cache.state = .opened) ∨
        ∀ key ∈ caches.kept, key.type ≠ cache.uniqueName := by
  by_cases hopened : caches.shouldPersist = true ∧ cache.state = .opened
  · refine iff_of_true (fun key hkey htype => ?_) (.inl hopened)
    rw [Caches.kept_disposeRemoved hidle, if_pos hopened.1] at hkey
    obtain ⟨hindexed, hkept⟩ := HashMap.mem_eraseAll.1 hkey
    obtain ⟨size, hheld⟩ := Option.isSome_iff_exists.1 (AList.lookup_isSome.2 hkept)
    have hentry := ((hinv.lists hcache hopened.2).mem_iff (key, size)).2 ⟨htype, hheld⟩
    obtain ⟨info, hmem, hrecorded⟩ := mem_map.1 hentry
    exact hindexed (mem_map.2 ⟨info, hmem, congrArg Prod.fst hrecorded⟩)
  · have hsame : (caches.disposeRemoved cache).kept = caches.kept := by
      rw [Caches.kept_disposeRemoved hidle]
      split
      · next hpersist =>
        rw [Cache.keys, (hinv.closed hcache fun hstate => hopened ⟨hpersist, hstate⟩).1]
        rfl
      · rfl
    rw [hsame, or_iff_right hopened]

end Dispose

/-- Disposing a removed cache deletes its records, and no others, if and only if the cache is
open in a persistent session or no record of it is kept. -/
theorem disposing_deletes_records_iff {parse : Str → URL} (shouldPersist : Bool)
    (directory : Directory) {actions : List Action} {caches next : Caches} {cache : Cache}
    (horderly : Meets (step parse) (Orderly parse) (.create shouldPersist directory) actions)
    (hrun : run (step parse) (.create shouldPersist directory) actions = some caches)
    (hremoved : cache ∈ caches.removedCaches) (hidle : caches.isWriting cache.keys = false)
    (hstep : step parse caches (.dispose cache.identifier) = some next) :
    Deletes parse caches next cache.uniqueName ↔
      (caches.shouldPersist = true ∧ cache.state = .opened) ∨
        ∀ key ∈ caches.kept, key.type ≠ cache.uniqueName := by
  have hinv : IndexInv caches :=
    run_of_step (fun hinv horderly hstep => hinv.step horderly hstep)
      (indexInv_create shouldPersist directory) horderly hrun
  have hcache : cache ∈ caches.all := mem_append_right _ hremoved
  obtain ⟨found, hfind, rfl⟩ := Option.map_eq_some_iff.1 hstep
  obtain ⟨hfound, hident⟩ := find_spec hfind
  rw [hinv.eq_of_identifier hfound hcache hident, Caches.dispose,
    if_pos (any_of_mem_removed hremoved)]
  rw [← kept_disposeRemoved_free_iff hinv hcache hidle]
  constructor
  · exact fun hdeletes => hdeletes.1 [] _ trivial rfl
  · intro hkeys
    have hdisposed := hinv.disposeRemoved hcache hidle (any_of_mem_removed hremoved)
    have hgone := gone_disposeRemoved hinv hremoved hkeys
    refine ⟨fun later final hlater hfinal => ?_, fun key htype => ?_⟩
    · exact (hgone.run hdisposed hlater hfinal).keys
    · exact hinv.lookup_disposeRemoved_of_ne hcache hidle htype

namespace Sample

/-- A directory with a cache that has a record. -/
def pagesDirectory : Directory where
  disk := AList.singleton ⟨0, 1⟩ ⟨1, 10, record 10, rfl⟩
  cachesList := [(lit "pages", 0)]
  nextUUID := 2
  keys_lt key hkey := by
    rw [AList.mem_keys, AList.keys_singleton, List.mem_singleton] at hkey
    subst hkey
    decide
  names_lt := by decide
  names_nodup := by decide

/-- A cache is opened, with a record in it, and removed. -/
def openedActions : List Action :=
  [.initializeCaches, .openNamed (lit "pages"), .finishOpening 0, .remove 0]

/-- A cache is removed and disposed that was not opened. -/
def unopenedActions : List Action :=
  [.initializeCaches, .remove 0, .dispose 0, .completeRemoval]

/-- A cache gets a record, and is removed and disposed. -/
def ephemeralActions : List Action :=
  [.initializeCaches, .openNamed (lit "pages"), .storeRecords 0 1 [record 10], .remove 0,
    .dispose 0]

end Sample

theorem disposing_deletes_records_iff_opened :
    ∃ caches next cache,
      run (step Sample.parse) (.create true Sample.pagesDirectory) Sample.openedActions =
        some caches ∧
      cache ∈ caches.removedCaches ∧
      caches.kept.lookup ⟨cache.uniqueName, 1⟩ = some 10 ∧
      step Sample.parse caches (.dispose cache.identifier) = some next ∧
      Deletes Sample.parse caches next cache.uniqueName := by
  have hrun := @run_eq_after _ _ (step Sample.parse) (.create true Sample.pagesDirectory)
    Sample.openedActions (by decide +kernel)
  have hfacts : ∀ cache ∈ (after (step Sample.parse) (.create true Sample.pagesDirectory)
      Sample.openedActions).removedCaches.head?,
      cache.state = .opened ∧
      (after (step Sample.parse) (.create true Sample.pagesDirectory)
        Sample.openedActions).isWriting cache.keys = false ∧
      (after (step Sample.parse) (.create true Sample.pagesDirectory)
        Sample.openedActions).kept.lookup ⟨cache.uniqueName, 1⟩ = some 10 ∧
      (step Sample.parse (after (step Sample.parse) (.create true Sample.pagesDirectory)
        Sample.openedActions) (.dispose cache.identifier)).isSome = true := by decide +kernel
  obtain ⟨cache, hcache⟩ := Option.isSome_iff_exists.1
    (show (after (step Sample.parse) (.create true Sample.pagesDirectory)
      Sample.openedActions).removedCaches.head?.isSome = true by decide +kernel)
  obtain ⟨hopened, hidle, hheld, hsome⟩ := hfacts cache hcache
  obtain ⟨next, hstep⟩ := Option.isSome_iff_exists.1 hsome
  have hremoved := mem_of_mem_head? hcache
  exact ⟨_, next, cache, hrun, hremoved, hheld, hstep,
    (disposing_deletes_records_iff true Sample.pagesDirectory (by decide +kernel) hrun hremoved
      hidle hstep).2 (.inl ⟨by decide +kernel, hopened⟩)⟩

/-- The record of a cache that was not opened stays on the disk, and the record of a cache of
an ephemeral session stays in the volatile storage. -/
theorem disposed_cache_keeps_records :
    (∃ final,
      Meets (step Sample.parse) (Orderly Sample.parse) (.create true Sample.pagesDirectory)
        Sample.unopenedActions ∧
      run (step Sample.parse) (.create true Sample.pagesDirectory) Sample.unopenedActions =
        some final ∧
      final.caches.isEmpty = true ∧ final.removedCaches.isEmpty = true ∧
      final.isSettled = true ∧ final.disk.keys = [⟨0, 1⟩]) ∧
    ∃ final,
      Meets (step Sample.parse) (Orderly Sample.parse) (.create false .empty)
        Sample.ephemeralActions ∧
      run (step Sample.parse) (.create false .empty) Sample.ephemeralActions = some final ∧
      final.caches.isEmpty = true ∧ final.removedCaches.isEmpty = true ∧
      final.volatileStorage.keys = [⟨0, 1⟩] := by
  constructor
  · refine ⟨_, by decide +kernel, run_eq_after (by decide +kernel), ?_⟩
    decide +kernel
  · refine ⟨_, by decide +kernel, run_eq_after (by decide +kernel), ?_⟩
    decide +kernel

end PurcFetcher.DomCache
