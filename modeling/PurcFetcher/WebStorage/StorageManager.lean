import PurcFetcher.WebStorage.DatabaseIdentifier
import PurcFetcher.WebStorage.LocalStorage

/-!
# Clearing local storage

A storage manager has local, transient and session namespaces of areas, and a persistent one
has the files of a directory.  It reports the origins that have local storage, from the names
of the files or from the areas with items, and it deletes the local storage of origins, or of
those modified since some time.
-/

namespace PurcFetcher.WebStorage

open Loader List Text

/-! ## Areas and files -/

structure StoredFile where
  table : ItemTable
  modificationTime : ℤ
deriving DecidableEq

/-- The files of the directory by their names. -/
abbrev Files := HashMap Str StoredFile

/-- The areas of a namespace by their origins. -/
abbrev AreaMap := HashMap SecurityOriginData StorageArea

namespace StorageArea

/-- What closing the database of an area does to its file. -/
def closeDatabase [SqliteText] (area : StorageArea) (now : ℤ) (name : Str) (files : Files) :
    Files :=
  match area.localStorageDatabase with
  | none => files
  | some database =>
    let closed := LocalStorageDatabase.close
      { database := database, file := (files.lookup name).map StoredFile.table, queued := 0 }
    match closed.file with
    | none => files.erase name
    | some table => files.insert name { table := table, modificationTime := now }

end StorageArea

namespace AreaMap

def clearStorageAreasMatchingOrigin (origin : SecurityOriginData) (areas : AreaMap) : AreaMap :=
  match areas.lookup origin with
  | none => areas
  | some area => areas.insert origin area.clearArea

/-- The databases that `clearStorageAreasMatchingOrigin` closes. -/
def closeDatabase [SqliteText] (origin : SecurityOriginData) (now : ℤ) (areas : AreaMap)
    (files : Files) : Files :=
  match areas.lookup origin with
  | none => files
  | some area => area.closeDatabase now (databaseFileName origin) files

def clearAllStorageAreas (areas : AreaMap) : AreaMap :=
  HashMap.mapValues StorageArea.clearArea areas

/-- `origins` and `ephemeralOrigins`: the origins of the areas with items. -/
def origins (areas : AreaMap) : List SecurityOriginData :=
  (areas.entries.filter fun entry => !entry.2.storageMap.map.entries.isEmpty).map Sigma.fst

end AreaMap

/-! ## The manager -/

structure StorageManager where
  /-- The files of a manager with a tracker. -/
  databaseFiles : Option Files
  localStorageNamespaces : HashMap ℕ AreaMap
  transientLocalStorageNamespaces : HashMap (ℕ × SecurityOriginData) AreaMap
  sessionStorageNamespaces : HashMap ℕ AreaMap
  now : ℤ
deriving DecidableEq

/-- `LocalStorageDatabaseTracker::origins`. -/
def Files.origins (files : Files) : List SecurityOriginData :=
  files.keys.filterMap originOfFileName

/-- `LocalStorageDatabaseTracker::databasesModifiedSince`. -/
def Files.modifiedSince (files : Files) (time : ℤ) : List SecurityOriginData :=
  files.origins.filter fun origin =>
    match files.lookup (databaseFileName origin) with
    | none => false
    | some file => file.modificationTime ≥ time

/-- The origins of all areas of some namespaces. -/
def namespaceOrigins {K : Type} (namespaces : HashMap K AreaMap) : List SecurityOriginData :=
  namespaces.entries.flatMap fun entry => entry.2.origins

namespace StorageManager

def getLocalStorageOrigins (manager : StorageManager) : List SecurityOriginData :=
  (match manager.databaseFiles with
    | some files => files.origins
    | none => namespaceOrigins manager.localStorageNamespaces) ++
    namespaceOrigins manager.transientLocalStorageNamespaces

/-- Clearing the local areas of an origin closes their databases. -/
def clearLocalAreas [SqliteText] (manager : StorageManager) (origin : SecurityOriginData) :
    StorageManager :=
  { manager with
    localStorageNamespaces :=
      manager.localStorageNamespaces.mapValues (AreaMap.clearStorageAreasMatchingOrigin origin)
    databaseFiles := manager.databaseFiles.map fun files =>
      manager.localStorageNamespaces.entries.foldl
        (fun files entry => AreaMap.closeDatabase origin manager.now entry.2 files) files }

def clearTransientAreas (manager : StorageManager) (origin : SecurityOriginData) :
    StorageManager :=
  { manager with
    transientLocalStorageNamespaces :=
      manager.transientLocalStorageNamespaces.mapValues
        (AreaMap.clearStorageAreasMatchingOrigin origin) }

def deleteDatabaseWithOrigin (manager : StorageManager) (origin : SecurityOriginData) :
    StorageManager :=
  { manager with
    databaseFiles := manager.databaseFiles.map fun files => files.erase (databaseFileName origin) }

def deleteLocalStorageEntriesForOrigins [SqliteText] (manager : StorageManager)
    (origins : List SecurityOriginData) : StorageManager :=
  origins.foldl (fun manager origin =>
    deleteDatabaseWithOrigin (clearTransientAreas (clearLocalAreas manager origin) origin) origin)
    manager

def deleteLocalStorageOriginsModifiedSince [SqliteText] (manager : StorageManager)
    (time : ℤ) : StorageManager :=
  match manager.databaseFiles with
  | some files =>
    (files.modifiedSince time).foldl
      (fun manager origin => deleteDatabaseWithOrigin (clearLocalAreas manager origin) origin)
      { manager with
        transientLocalStorageNamespaces :=
          manager.transientLocalStorageNamespaces.mapValues AreaMap.clearAllStorageAreas }
  | none =>
    { manager with
      localStorageNamespaces :=
        manager.localStorageNamespaces.mapValues AreaMap.clearAllStorageAreas }

end StorageManager

/-! ## What is left -/

namespace AreaMap

theorem mem_origins_iff {areas : AreaMap} {origin : SecurityOriginData} :
    origin ∈ areas.origins ↔
      ∃ area, areas.lookup origin = some area ∧ area.storageMap.map.entries ≠ [] := by
  rw [origins, mem_map]
  constructor
  · rintro ⟨⟨key, area⟩, hentry, rfl⟩
    rw [mem_filter, Bool.not_eq_true', isEmpty_eq_false_iff] at hentry
    exact ⟨area, AList.mem_lookup_iff.2 hentry.1, hentry.2⟩
  · rintro ⟨area, hlookup, hitems⟩
    refine ⟨⟨origin, area⟩, ?_, rfl⟩
    rw [mem_filter, Bool.not_eq_true', isEmpty_eq_false_iff]
    exact ⟨AList.mem_lookup_iff.1 hlookup, hitems⟩

theorem mem_origins_clearStorageAreasMatchingOrigin {areas : AreaMap}
    {origin other : SecurityOriginData} :
    other ∈ (clearStorageAreasMatchingOrigin origin areas).origins ↔
      other ≠ origin ∧ other ∈ areas.origins := by
  rw [mem_origins_iff, mem_origins_iff, clearStorageAreasMatchingOrigin]
  cases hlookup : areas.lookup origin with
  | none => grind
  | some =>
    rw [HashMap.lookup_insert_eq_ite]
    by_cases heq : other = origin
    · rw [if_pos heq]
      constructor
      · rintro ⟨cleared, hcleared, hitems⟩
        cases hcleared
        exact absurd rfl hitems
      · exact fun hboth => absurd heq hboth.1
    · rw [if_neg heq]
      exact (and_iff_right heq).symm

theorem origins_clearAllStorageAreas (areas : AreaMap) :
    areas.clearAllStorageAreas.origins = [] := by
  rw [origins, map_eq_nil_iff, filter_eq_nil_iff]
  intro entry hentry
  obtain ⟨before, -, rfl⟩ := mem_map.1 hentry
  exact Bool.false_ne_true

end AreaMap

variable {origin : SecurityOriginData}

theorem mem_namespaceOrigins_iff {K : Type} {namespaces : HashMap K AreaMap} :
    origin ∈ namespaceOrigins namespaces ↔ ∃ entry ∈ namespaces.entries, origin ∈ entry.2.origins :=
  mem_flatMap

theorem mem_namespaceOrigins_clear {K : Type} {namespaces : HashMap K AreaMap}
    {other : SecurityOriginData} :
    other ∈ namespaceOrigins
        (namespaces.mapValues (AreaMap.clearStorageAreasMatchingOrigin origin)) ↔
      other ≠ origin ∧ other ∈ namespaceOrigins namespaces := by
  rw [mem_namespaceOrigins_iff, mem_namespaceOrigins_iff]
  constructor
  · rintro ⟨entry, hentry, hother⟩
    obtain ⟨before, hbefore, rfl⟩ := mem_map.1 hentry
    rw [AreaMap.mem_origins_clearStorageAreasMatchingOrigin] at hother
    exact ⟨hother.1, before, hbefore, hother.2⟩
  · rintro ⟨hne, before, hbefore, hother⟩
    exact ⟨_, mem_map.2 ⟨before, hbefore, rfl⟩,
      AreaMap.mem_origins_clearStorageAreasMatchingOrigin.2 ⟨hne, hother⟩⟩

theorem namespaceOrigins_clearAll {K : Type} (namespaces : HashMap K AreaMap) :
    namespaceOrigins (namespaces.mapValues AreaMap.clearAllStorageAreas) = [] := by
  rw [namespaceOrigins, flatMap_eq_nil_iff]
  intro entry hentry
  obtain ⟨before, -, rfl⟩ := mem_map.1 hentry
  exact AreaMap.origins_clearAllStorageAreas before.2

/-- The files of the origins are gone, and the other ones are as before. -/
def Deletes (origins : List SecurityOriginData) (before after : Option Files) : Prop :=
  Option.Rel (fun files left => ∀ name, left.lookup name =
    if name ∈ origins.map databaseFileName then none else files.lookup name) before after

theorem Deletes.nil (files : Option Files) : Deletes [] files files := by
  cases files with
  | none => exact .none
  | some => exact .some fun name => (if_neg not_mem_nil).symm

theorem Deletes.cons {origins : List SecurityOriginData} {before middle after : Option Files}
    (hfirst : Deletes [origin] before middle) (hrest : Deletes origins middle after) :
    Deletes (origin :: origins) before after := by
  cases hfirst with
  | none =>
    cases hrest
    exact .none
  | some hfirst =>
    cases hrest with
    | some hrest =>
      refine .some fun name => ?_
      rw [hrest name, hfirst name, map_cons, map_cons, map_nil]
      by_cases hname : name ∈ origins.map databaseFileName
      · rw [if_pos hname, if_pos (mem_cons_of_mem _ hname)]
      · grind

theorem lookup_foldl_closeDatabase [SqliteText] {K : Type} {now : ℤ} {name : Str}
    (hname : name ≠ databaseFileName origin) (entries : List ((_ : K) × AreaMap)) (files : Files) :
    (entries.foldl (fun files entry => AreaMap.closeDatabase origin now entry.2 files)
        files).lookup name = files.lookup name := by
  induction entries generalizing files with
  | nil => rfl
  | cons entry entries ih =>
    rw [foldl_cons, ih, AreaMap.closeDatabase]
    split
    · rfl
    · rw [StorageArea.closeDatabase]
      split
      · rfl
      · dsimp only
        split
        · exact AList.lookup_erase_ne hname
        · exact AList.lookup_insert_ne hname

namespace StorageManager

variable {mgr : StorageManager}

theorem deletes_clearLocalAreas [SqliteText] (origin : SecurityOriginData) :
    Deletes [origin] mgr.databaseFiles
      (deleteDatabaseWithOrigin (clearLocalAreas mgr origin) origin).databaseFiles := by
  change Deletes [origin] mgr.databaseFiles
    ((mgr.databaseFiles.map _).map fun files : Files => files.erase (databaseFileName origin))
  cases mgr.databaseFiles with
  | none => exact .none
  | some =>
    refine .some fun name => ?_
    rw [HashMap.lookup_erase_eq_ite, map_cons, map_nil]
    by_cases hname : name = databaseFileName origin
    · rw [if_pos hname, if_pos (mem_singleton.2 hname)]
    · rw [if_neg hname, if_neg (mt mem_singleton.1 hname)]
      exact lookup_foldl_closeDatabase hname _ _

/-- Deleting the entries of origins deletes their files and the items of their areas. -/
theorem deleteLocalStorageEntriesForOrigins_spec [SqliteText] (origins : List SecurityOriginData) :
    Deletes origins mgr.databaseFiles
        (mgr.deleteLocalStorageEntriesForOrigins origins).databaseFiles ∧
      (∀ origin, origin ∈ namespaceOrigins
          (mgr.deleteLocalStorageEntriesForOrigins origins).localStorageNamespaces ↔
        origin ∉ origins ∧ origin ∈ namespaceOrigins mgr.localStorageNamespaces) ∧
      ∀ origin, origin ∈ namespaceOrigins
          (mgr.deleteLocalStorageEntriesForOrigins origins).transientLocalStorageNamespaces ↔
        origin ∉ origins ∧ origin ∈ namespaceOrigins mgr.transientLocalStorageNamespaces := by
  induction origins generalizing mgr with
  | nil =>
    exact ⟨.nil _, fun origin => (and_iff_right not_mem_nil).symm,
      fun origin => (and_iff_right not_mem_nil).symm⟩
  | cons first origins ih =>
    obtain ⟨hfiles, hlocal, htransient⟩ := @ih (deleteDatabaseWithOrigin
      (clearTransientAreas (clearLocalAreas mgr first) first) first)
    refine ⟨(deletes_clearLocalAreas first).cons hfiles, fun origin => ?_, fun origin => ?_⟩
    · rw [mem_cons, not_or, and_assoc, and_left_comm]
      exact (hlocal origin).trans (and_congr_right' mem_namespaceOrigins_clear)
    · rw [mem_cons, not_or, and_assoc, and_left_comm]
      exact (htransient origin).trans (and_congr_right' mem_namespaceOrigins_clear)

theorem deletes_foldl_clearLocalAreas [SqliteText] (origins : List SecurityOriginData) :
    Deletes origins mgr.databaseFiles
        (origins.foldl (fun mgr origin =>
          deleteDatabaseWithOrigin (clearLocalAreas mgr origin) origin) mgr).databaseFiles ∧
      (origins.foldl (fun mgr origin =>
          deleteDatabaseWithOrigin (clearLocalAreas mgr origin) origin)
            mgr).transientLocalStorageNamespaces =
        mgr.transientLocalStorageNamespaces := by
  induction origins generalizing mgr with
  | nil => exact ⟨.nil _, rfl⟩
  | cons first origins ih =>
    obtain ⟨hfiles, htransient⟩ := @ih (deleteDatabaseWithOrigin (clearLocalAreas mgr first) first)
    exact ⟨(deletes_clearLocalAreas first).cons hfiles, htransient⟩

/-- Nothing is reported, and no file is left. -/
def Cleared (manager : StorageManager) : Prop :=
  manager.getLocalStorageOrigins = [] ∧ ∀ files ∈ manager.databaseFiles, files.keys = []

/-- The file of each name is the file of an origin that is read from the name of a file. -/
def FilesReread (files : Files) (name : Str) : Prop :=
  ∃ other ∈ files, (originOfFileName other).map databaseFileName = some name

/-- Each file is found through the origin of a file or through a transient area with items. -/
def Reached (manager : StorageManager) : Prop :=
  ∀ files ∈ manager.databaseFiles, ∀ name ∈ files,
    FilesReread files name ∨
      ∃ origin ∈ namespaceOrigins manager.transientLocalStorageNamespaces,
        databaseFileName origin = name

/-- Each file is found through the origin of a file, and without files there are no transient
areas with items. -/
def ReachedSince (manager : StorageManager) : Prop :=
  match manager.databaseFiles with
  | some files => ∀ name ∈ files, FilesReread files name
  | none => namespaceOrigins manager.transientLocalStorageNamespaces = []

/-- The files are those of origins with no character in their hosts that is escaped. -/
def PlainHosts (manager : StorageManager) : Prop :=
  ∀ files ∈ manager.databaseFiles, ∀ name ∈ files, ∃ origin : SecurityOriginData,
    separatorCharacter ∉ origin.protocol ∧ EscapesNone origin.host ∧
      name = databaseFileName origin

variable {files : Files}

theorem filesReread_iff {name : Str} :
    FilesReread files name ↔ name ∈ files.origins.map databaseFileName := by
  rw [FilesReread, Files.origins, map_filterMap, mem_filterMap]
  rfl

theorem keys_eq_nil_iff {left : Files} {origins : List SecurityOriginData}
    (hleft : ∀ name, left.lookup name =
      if name ∈ origins.map databaseFileName then none else files.lookup name) :
    left.keys = [] ↔ ∀ name ∈ files, name ∈ origins.map databaseFileName := by
  rw [eq_nil_iff_forall_not_mem]
  refine forall_congr' fun name => ?_
  rw [← AList.mem_keys, ← AList.lookup_eq_none, hleft name]
  by_cases hname : name ∈ origins.map databaseFileName
  · rw [if_pos hname]
    exact iff_of_true rfl fun _ => hname
  · rw [if_neg hname, AList.lookup_eq_none]
    exact ⟨fun habsent hmem => absurd hmem habsent, fun hall hmem => hname (hall hmem)⟩

theorem origins_of_keys_eq_nil (hkeys : files.keys = []) : files.origins = [] := by
  rw [Files.origins, hkeys]
  rfl

theorem cleared_entries_iff [SqliteText] {origins : List SecurityOriginData}
    (horigins : ∀ origin, origin ∈ origins ↔ origin ∈ mgr.getLocalStorageOrigins) :
    (mgr.deleteLocalStorageEntriesForOrigins origins).Cleared ↔ mgr.Reached := by
  obtain ⟨hfiles, hlocal, htransient⟩ := deleteLocalStorageEntriesForOrigins_spec origins
  have hnoTransient : namespaceOrigins
      (mgr.deleteLocalStorageEntriesForOrigins origins).transientLocalStorageNamespaces = [] := by
    rw [eq_nil_iff_forall_not_mem]
    intro origin hmem
    obtain ⟨hnot, hbefore⟩ := (htransient origin).1 hmem
    exact hnot ((horigins origin).2 (mem_append_right _ hbefore))
  rw [Cleared, getLocalStorageOrigins, hnoTransient, append_nil, Reached]
  rw [getLocalStorageOrigins] at horigins
  generalize (mgr.deleteLocalStorageEntriesForOrigins origins).databaseFiles = left at hfiles ⊢
  generalize mgr.databaseFiles = files at hfiles horigins ⊢
  cases hfiles with
  | none =>
    -- The areas of an ephemeral manager are reported themselves.
    refine iff_of_true ⟨?_, fun _ hnone => absurd hnone (Option.not_mem_none _)⟩
      fun _ hnone => absurd hnone (Option.not_mem_none _)
    rw [eq_nil_iff_forall_not_mem]
    intro origin hmem
    obtain ⟨hnot, hbefore⟩ := (hlocal origin).1 hmem
    exact hnot ((horigins origin).2 (mem_append_left _ hbefore))
  | @some files left hleft =>
    have hnames : ∀ name, name ∈ origins.map databaseFileName ↔
        FilesReread files name ∨
          ∃ origin ∈ namespaceOrigins mgr.transientLocalStorageNamespaces,
            databaseFileName origin = name := by
      intro name
      rw [filesReread_iff, mem_map, mem_map, ← exists_or]
      refine exists_congr fun origin => ?_
      rw [horigins origin, mem_append, or_and_right]
    have hkeys := keys_eq_nil_iff hleft
    constructor
    · grind
    · grind [origins_of_keys_eq_nil]

theorem cleared_modifiedSince_iff [SqliteText] {time : ℤ}
    (htime : ∀ files ∈ mgr.databaseFiles, ∀ name, ∀ file ∈ files.lookup name,
      time ≤ file.modificationTime) :
    (mgr.deleteLocalStorageOriginsModifiedSince time).Cleared ↔ mgr.ReachedSince := by
  rw [deleteLocalStorageOriginsModifiedSince, ReachedSince]
  cases hfiles : mgr.databaseFiles with
  -- Only the local areas are cleared.
  | none => grind [Cleared, getLocalStorageOrigins, namespaceOrigins_clearAll]
  | some files =>
    obtain ⟨hdeletes, htransient⟩ := @deletes_foldl_clearLocalAreas
      { mgr with
        transientLocalStorageNamespaces :=
          mgr.transientLocalStorageNamespaces.mapValues AreaMap.clearAllStorageAreas }
      _ (files.modifiedSince time)
    rw [hfiles] at hdeletes htransient
    rw [Cleared, getLocalStorageOrigins, htransient, namespaceOrigins_clearAll, append_nil]
    generalize databaseFiles (foldl _ _ _) = left at hdeletes ⊢
    cases hdeletes with
    | @some _ left hleft =>
      have hkeys := keys_eq_nil_iff hleft
      have hnames : ∀ name ∈ files, name ∈ (files.modifiedSince time).map databaseFileName ↔
          FilesReread files name := by
        intro name hname
        rw [filesReread_iff, mem_map, mem_map]
        refine exists_congr fun origin => ?_
        rw [Files.modifiedSince, mem_filter]
        constructor
        · exact fun hboth => ⟨hboth.1.1, hboth.2⟩
        · rintro ⟨horigin, rfl⟩
          obtain ⟨file, hfile⟩ := Option.isSome_iff_exists.1 (AList.lookup_isSome.2 hname)
          refine ⟨⟨horigin, ?_⟩, rfl⟩
          rw [hfile]
          exact decide_eq_true (htime files hfiles _ file hfile)
      constructor
      · grind
      · grind [origins_of_keys_eq_nil]

theorem filesReread_of_plainHosts (hplain : mgr.PlainHosts)
    (hfiles : mgr.databaseFiles = some files) {name : Str} (hname : name ∈ files) :
    FilesReread files name := by
  obtain ⟨origin, hprotocol, hhost, rfl⟩ := hplain files hfiles name hname
  obtain ⟨reread, hreread, hsame⟩ :=
    originOfFileName_of_plain hprotocol ((encodeForFileName_eq_self_iff _).2 hhost)
  exact ⟨_, hname, by rw [hreread, Option.map_some, hsame]⟩

/-- Deleting the entries of all reported origins, or what was modified since a time before
every modification, leaves no file and nothing to report exactly if each file is found through
an origin that is reported, and in the second case without files exactly if no transient area
has items.  Files of origins with no character in their hosts that is escaped are found. -/
theorem clearing_clears [SqliteText] (manager : StorageManager) :
    (∀ origins : List SecurityOriginData,
      (∀ origin, origin ∈ origins ↔ origin ∈ manager.getLocalStorageOrigins) →
        ((manager.deleteLocalStorageEntriesForOrigins origins).Cleared ↔ manager.Reached)) ∧
    (∀ time : ℤ, (∀ files ∈ manager.databaseFiles, ∀ name, ∀ file ∈ files.lookup name,
        time ≤ file.modificationTime) →
      ((manager.deleteLocalStorageOriginsModifiedSince time).Cleared ↔ manager.ReachedSince)) ∧
    (manager.PlainHosts → manager.Reached ∧
      (manager.ReachedSince ↔ manager.databaseFiles.isSome = true ∨
        namespaceOrigins manager.transientLocalStorageNamespaces = [])) := by
  refine ⟨fun _ => cleared_entries_iff, fun _ => cleared_modifiedSince_iff, fun hplain => ?_⟩
  refine ⟨fun files hfiles name hname => .inl (filesReread_of_plainHosts hplain hfiles hname), ?_⟩
  rw [ReachedSince]
  split
  · grind [filesReread_of_plainHosts]
  · next hnone =>
    rw [hnone]
    exact (or_iff_right Bool.false_ne_true).symm

namespace Sample

def loopback : SecurityOriginData := ⟨lit "http", lit "[::1]", none⟩

def named : SecurityOriginData := ⟨lit "http", lit "a_b", some 8080⟩

def persistent (origin : SecurityOriginData) : StorageManager where
  databaseFiles := some (AList.singleton (databaseFileName origin) ⟨.empty, 0⟩)
  localStorageNamespaces := ∅
  transientLocalStorageNamespaces := ∅
  sessionStorageNamespaces := ∅
  now := 0

/-- An ephemeral manager with one item in a transient area. -/
def ephemeral (origin : SecurityOriginData) : StorageManager where
  databaseFiles := none
  localStorageNamespaces := ∅
  transientLocalStorageNamespaces := AList.singleton (1, origin)
    (AList.singleton origin
      { StorageArea.create with
        storageMap := (StorageArea.create.storageMap.setItem 1 WebStorage.Sample.a
          WebStorage.Sample.b).current })
  sessionStorageNamespaces := ∅
  now := 0

end Sample

local instance : SqliteText := ⟨id⟩

theorem clearing_clears_named :
    ((Sample.persistent Sample.named).deleteLocalStorageEntriesForOrigins
        (Sample.persistent Sample.named).getLocalStorageOrigins).Cleared ∧
      ((Sample.persistent Sample.named).deleteLocalStorageOriginsModifiedSince 0).Cleared := by
  have hplain : (Sample.persistent Sample.named).PlainHosts := by
    rintro files hfiles name hname
    cases hfiles
    exact ⟨Sample.named, by decide +kernel,
      (encodeForFileName_eq_self_iff _).1 (by decide +kernel),
      mem_singleton.1 (AList.mem_keys.1 hname)⟩
  have htime : ∀ files ∈ (Sample.persistent Sample.named).databaseFiles, ∀ name,
      ∀ file ∈ files.lookup name, (0 : ℤ) ≤ file.modificationTime := by
    intro files hfiles name file hfile
    cases hfiles
    cases mem_singleton.1 (AList.mem_lookup_iff.1 hfile)
    exact le_rfl
  obtain ⟨hentries, hsince, hreached⟩ := clearing_clears (Sample.persistent Sample.named)
  exact ⟨(hentries _ fun _ => Iff.rfl).2 (hreached hplain).1,
    (hsince 0 htime).2 ((hreached hplain).2.2 (.inl rfl))⟩

/-- The file of the origin of `http://[::1]` is reported under another host, and stays.  An
ephemeral manager goes on reporting the origin of a transient area. -/
theorem clearing_leaves_file_and_transient_items :
    ¬ ((Sample.persistent Sample.loopback).deleteLocalStorageEntriesForOrigins
        (Sample.persistent Sample.loopback).getLocalStorageOrigins).Cleared ∧
      ¬ ((Sample.persistent Sample.loopback).deleteLocalStorageOriginsModifiedSince 0).Cleared ∧
      ¬ ((Sample.ephemeral Sample.loopback).deleteLocalStorageOriginsModifiedSince 0).Cleared := by
  refine ⟨?_, ?_, ?_⟩
  · intro hcleared
    exact absurd hcleared.1 (by decide +kernel)
  · intro hcleared
    exact absurd hcleared.1 (by decide +kernel)
  · intro hcleared
    exact absurd hcleared.1 (by decide +kernel)

end StorageManager

end PurcFetcher.WebStorage
