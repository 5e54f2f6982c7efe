import PurcFetcher.WebStorage.StorageMap

/-!
# Local storage behind its database

A persistent storage area imports its items from the database of its origin before its first
operation, and writes its changes behind: it keeps the changed items and whether everything
was cleared, and a task on the queue writes them, a hundred at a time.  Closing writes what
is left and deletes a database without rows.  Everything SQLite is asked to do succeeds, but
a text with an unpaired surrogate may not be stored as it is.
-/

namespace PurcFetcher.WebStorage

open Machine List

/-! ## The database -/

/-- A value of a row: SQL's `NULL`, or the UTF-16 code units of a text or of a blob. -/
abbrev Cell := Option (List UInt16)

/-- The rows of `ItemTable`.  The keys are unique, which does not concern `NULL`, and no value
is `NULL`. -/
structure ItemTable where
  rows : HashMap (List UInt16) (List UInt16)
  nullKeyRows : List (List UInt16)
deriving DecidableEq

/-- Binding a buffer of so many code units.  A null pointer binds `NULL`. -/
def bindCharacters (characters : Option (List UInt16)) (length : ℕ) : Cell :=
  characters.map (List.take length)

/-- The characters of the empty string are a null pointer. -/
def upconvertedCharacters (text : StorageString) : Option (List UInt16) :=
  if text.1.isEmpty then none else some text.1

/-- `bindText` and `bindBlob` supply some character for the empty string. -/
def bindString (text : StorageString) : Cell :=
  let anyCharacter := 0
  let characters := if text.1.isEmpty then some [anyCharacter] else upconvertedCharacters text
  bindCharacters characters text.1.length

/-- What is read back of a text that was bound: SQLite converts it to UTF-8 and back. -/
class SqliteText where
  stored : List UInt16 → List UInt16

/-- A blob is stored as it is bound, but a text is converted. -/
def bindText [SqliteText] (text : StorageString) : Cell :=
  (bindString text).map SqliteText.stored

/-- The conversions keep the text, as they do if it is well formed. -/
def StoredFaithfully [SqliteText] (text : StorageString) : Prop :=
  SqliteText.stored text.1 = text.1

/-- There are no strings of more than the greatest length. -/
def createString (characters : List UInt16) : Option StorageString :=
  if hbound : characters.length ≤ Text.maxLength then some ⟨characters, hbound⟩ else none

/-- A text that is `NULL` is the null string. -/
def getColumnText (cell : Cell) : Option StorageString := cell.bind createString

/-- A blob without bytes, or one that is `NULL`, is the empty string. -/
def getColumnBlobAsString : Cell → Option StorageString
  | none | some [] => some ⟨[], Nat.zero_le _⟩
  | some characters => createString characters

namespace ItemTable

def empty : ItemTable where
  rows := ∅
  nullKeyRows := []

/-- `INSERT INTO ItemTable VALUES (?, ?)`, with a conflict of keys replacing the old row and
failing without a value. -/
def insert (table : ItemTable) (key value : Cell) : Option ItemTable :=
  value.map fun value =>
    match key with
    | none => { table with nullKeyRows := table.nullKeyRows ++ [value] }
    | some key => { table with rows := table.rows.insert key value }

/-- `DELETE FROM ItemTable WHERE key=?`.  Nothing equals `NULL`. -/
def delete (table : ItemTable) : Cell → ItemTable
  | none => table
  | some key => { table with rows := table.rows.erase key }

/-- `SELECT key, value FROM ItemTable`. -/
def select (table : ItemTable) : List (Cell × Cell) :=
  table.rows.entries.map (fun row => (some row.1, some row.2)) ++
    table.nullKeyRows.map fun value => (none, some value)

/-- `SELECT COUNT(*) FROM ItemTable`. -/
def count (table : ItemTable) : ℕ := table.rows.entries.length + table.nullKeyRows.length

end ItemTable

inductive DatabaseOpeningStrategy where
  | createIfNonExistent
  | skipIfNonExistent
deriving DecidableEq

structure LocalStorageDatabase where
  isOpen : Bool
  didImportItems : Bool
  isClosed : Bool
  didScheduleDatabaseUpdate : Bool
  shouldClearItems : Bool
  /-- A null value is an item to be deleted. -/
  changedItems : HashMap StorageString (Option StorageString)
deriving DecidableEq

/-- A database object with the file of its origin and the number of its tasks that are on the
queue. -/
structure Disk where
  database : LocalStorageDatabase
  file : Option ItemTable
  queued : ℕ
deriving DecidableEq

namespace LocalStorageDatabase

def maximumItemsToUpdate : ℕ := 100

def create : LocalStorageDatabase where
  isOpen := false
  didImportItems := false
  isClosed := false
  didScheduleDatabaseUpdate := false
  shouldClearItems := false
  changedItems := ∅

def openDatabase (disk : Disk) (strategy : DatabaseOpeningStrategy) : Disk :=
  if disk.file.isNone && strategy = .skipIfNonExistent then disk
  else
    { disk with
      database := { disk.database with isOpen := true }
      file := some (disk.file.getD .empty) }

/-- The items of the rows that have a key and a value. -/
def readItems (rows : List (Cell × Cell)) : HashMap StorageString StorageString :=
  rows.foldl (fun items row =>
    match getColumnText row.1, getColumnBlobAsString row.2 with
    | some key, some value => items.add key value
    | _, _ => items) ∅

def importItems (disk : Disk) (storage : StorageMap) : Disk × StorageMap :=
  if disk.database.didImportItems then (disk, storage)
  else
    let opened := openDatabase
      { disk with database := { disk.database with didImportItems := true } } .skipIfNonExistent
    if opened.database.isOpen then
      (opened, storage.importItems (readItems ((opened.file.getD .empty).select)))
    else (opened, storage)

def scheduleDatabaseUpdate (disk : Disk) : Disk :=
  if disk.database.didScheduleDatabaseUpdate then disk
  else
    { disk with
      database := { disk.database with didScheduleDatabaseUpdate := true }
      queued := disk.queued + 1 }

def itemDidChange (disk : Disk) (key : StorageString) (value : Option StorageString) : Disk :=
  scheduleDatabaseUpdate
    { disk with
      database := { disk.database with
        changedItems := disk.database.changedItems.insert key value } }

def setItem (disk : Disk) (key value : StorageString) : Disk := itemDidChange disk key (some value)

def removeItem (disk : Disk) (key : StorageString) : Disk := itemDidChange disk key none

def clear (disk : Disk) : Disk :=
  scheduleDatabaseUpdate
    { disk with
      database := { disk.database with changedItems := ∅, shouldClearItems := true } }

/-- The loop over the changed items, which ends at the first one that fails. -/
def writeItems [SqliteText] :
    List ((_ : StorageString) × Option StorageString) → ItemTable → ItemTable
  | [], table => table
  | ⟨key, none⟩ :: changes, table => writeItems changes (table.delete (bindText key))
  | ⟨key, some value⟩ :: changes, table =>
    match table.insert (bindText key) (bindString value) with
    | some table => writeItems changes table
    | none => table

def updateDatabaseWithChangedItems [SqliteText] (disk : Disk)
    (changedItems : HashMap StorageString (Option StorageString)) : Disk :=
  let opened := if disk.database.isOpen then disk else openDatabase disk .createIfNonExistent
  let table := opened.file.getD .empty
  let cleared := if opened.database.shouldClearItems then .empty else table
  { opened with
    database := { opened.database with shouldClearItems := false }
    file := some (writeItems changedItems.entries cleared) }

/-- The keys of a batch are those of a hundred changed items. -/
def IsBatch (changedItems : HashMap StorageString (Option StorageString))
    (batch : List StorageString) : Prop :=
  batch.Nodup ∧ batch.length = maximumItemsToUpdate ∧ ∀ key ∈ batch, key ∈ changedItems

instance (changedItems : HashMap StorageString (Option StorageString))
    (batch : List StorageString) : Decidable (IsBatch changedItems batch) :=
  inferInstanceAs (Decidable (_ ∧ _ ∧ _))

/-- The task.  The hash map decides which items come first when there are too many. -/
def updateDatabase [SqliteText] (disk : Disk) (batch : List StorageString) : Option Disk :=
  if disk.database.isClosed then some disk
  else
    let changedItems := disk.database.changedItems
    if changedItems.entries.length ≤ maximumItemsToUpdate then
      some (updateDatabaseWithChangedItems
        { disk with
          database := { disk.database with
            didScheduleDatabaseUpdate := false
            changedItems := ∅ } } changedItems)
    else if IsBatch changedItems batch then
      let rest := scheduleDatabaseUpdate
        { disk with
          database := { disk.database with
            didScheduleDatabaseUpdate := false
            changedItems := changedItems.filter fun key => key ∉ batch } }
      some (updateDatabaseWithChangedItems rest (changedItems.filter fun key => key ∈ batch))
    else none

def databaseIsEmpty (disk : Disk) : Bool :=
  disk.database.isOpen && (disk.file.getD .empty).count == 0

def close [SqliteText] (disk : Disk) : Disk :=
  let closed := { disk with database := { disk.database with isClosed := true } }
  let written :=
    if closed.database.didScheduleDatabaseUpdate then
      let updated := updateDatabaseWithChangedItems closed closed.database.changedItems
      { updated with database := { updated.database with changedItems := ∅ } }
    else closed
  let isEmpty := databaseIsEmpty written
  { written with
    database := { written.database with isOpen := false }
    file := if isEmpty then none else written.file }

end LocalStorageDatabase

/-! ## The area -/

structure StorageArea where
  storageMap : StorageMap
  localStorageDatabase : Option LocalStorageDatabase
  didImportItemsFromDatabase : Bool
deriving DecidableEq

/-- A persistent area with the file of its origin and the tasks on the queue. -/
structure Storing where
  area : StorageArea
  file : Option ItemTable
  queued : ℕ
deriving DecidableEq

namespace StorageArea

def localStorageDatabaseQuotaInBytes : UInt32 := 5 * 1024 * 1024

def create : StorageArea where
  storageMap := .create localStorageDatabaseQuotaInBytes
  localStorageDatabase := none
  didImportItemsFromDatabase := false

/-- A new area of an origin whose file is as given. -/
def openOn (file : Option ItemTable) : Storing where
  area := create
  file := file
  queued := 0

def withDisk (storing : Storing) (disk : Disk) (storage : StorageMap) : Storing where
  area := { storing.area with storageMap := storage, localStorageDatabase := some disk.database }
  file := disk.file
  queued := disk.queued

def disk (storing : Storing) (database : LocalStorageDatabase) : Disk where
  database := database
  file := storing.file
  queued := storing.queued

def openDatabaseAndImportItemsIfNeeded (storing : Storing) : Storing :=
  let database := storing.area.localStorageDatabase.getD .create
  if storing.area.didImportItemsFromDatabase then
    withDisk storing (disk storing database) storing.area.storageMap
  else
    let imported := LocalStorageDatabase.importItems (disk storing database) storing.area.storageMap
    let result := withDisk storing imported.1 imported.2
    { result with area := { result.area with didImportItemsFromDatabase := true } }

/-- What the database object is asked to do, if there is one. -/
def onDatabase (storing : Storing) (change : Disk → Disk) : Storing :=
  match storing.area.localStorageDatabase with
  | none => storing
  | some database => withDisk storing (change (disk storing database)) storing.area.storageMap

def setItem (storing : Storing) (key value : StorageString) : Storing :=
  let storing := openDatabaseAndImportItemsIfNeeded storing
  let outcome := storing.area.storageMap.setItem 1 key value
  let assigned := { storing with area := { storing.area with storageMap := outcome.current } }
  if outcome.quotaException then assigned
  else onDatabase assigned fun disk => LocalStorageDatabase.setItem disk key value

def removeItem (storing : Storing) (key : StorageString) : Storing :=
  let storing := openDatabaseAndImportItemsIfNeeded storing
  let outcome := storing.area.storageMap.removeItem 1 key
  let removed := { storing with area := { storing.area with storageMap := outcome.current } }
  if outcome.oldValue.isNone then removed
  else onDatabase removed fun disk => LocalStorageDatabase.removeItem disk key

def clear (storing : Storing) : Storing :=
  let storing := openDatabaseAndImportItemsIfNeeded storing
  if storing.area.storageMap.map.entries.length = 0 then storing
  else
    onDatabase
      { storing with area := { storing.area with
          storageMap := .create localStorageDatabaseQuotaInBytes } }
      LocalStorageDatabase.clear

def items (storing : Storing) : HashMap StorageString StorageString :=
  (openDatabaseAndImportItemsIfNeeded storing).area.storageMap.map

def updateDatabase [SqliteText] (storing : Storing) (batch : List StorageString) :
    Option Storing :=
  match storing.area.localStorageDatabase with
  | none => some storing
  | some database =>
    (LocalStorageDatabase.updateDatabase (disk storing database) batch).map fun updated =>
      withDisk storing updated storing.area.storageMap

def close [SqliteText] (storing : Storing) : Storing :=
  onDatabase storing LocalStorageDatabase.close

/-- `StorageArea::clear()`, which also lets go of the database. -/
def clearArea (area : StorageArea) : StorageArea where
  storageMap := .create area.storageMap.quotaSize
  localStorageDatabase := none
  didImportItemsFromDatabase := area.didImportItemsFromDatabase

end StorageArea

/-- An operation on the area, or a task of the queue. -/
inductive AreaAction where
  | setItem (key value : StorageString)
  | removeItem (key : StorageString)
  | clear
  | items
  | syncToDatabase (batch : List StorageString)
  | updateDatabase (batch : List StorageString)
deriving DecidableEq

def stepArea [SqliteText] (storing : Storing) : AreaAction → Option Storing
  | .setItem key value => some (StorageArea.setItem storing key value)
  | .removeItem key => some (StorageArea.removeItem storing key)
  | .clear => some (StorageArea.clear storing)
  | .items => some (StorageArea.openDatabaseAndImportItemsIfNeeded storing)
  | .syncToDatabase batch => StorageArea.updateDatabase storing batch
  | .updateDatabase batch =>
    if storing.queued = 0 then none
    else StorageArea.updateDatabase { storing with queued := storing.queued - 1 } batch

/-- The key that is set or removed is stored faithfully. -/
def AreaAction.StoresKey [SqliteText] : AreaAction → Prop
  | .setItem key _ | .removeItem key => StoredFaithfully key
  | _ => True

/-! ## What a database stands for -/

theorem bindString_eq (text : StorageString) : bindString text = some text.1 := by
  rw [bindString]
  split
  · next hempty =>
    rw [List.isEmpty_iff.1 hempty]
    rfl
  · next hsome =>
    rw [upconvertedCharacters, if_neg hsome]
    exact congrArg some take_length

theorem StoredFaithfully.bindText_eq [SqliteText] {text : StorageString}
    (hfaithful : StoredFaithfully text) : bindText text = some text.1 := by
  rw [bindText, bindString_eq]
  exact congrArg some hfaithful

theorem createString_eq_some_iff {chars : List UInt16} {text : StorageString} :
    createString chars = some text ↔ chars = text.1 := by
  rw [createString]
  constructor
  · grind
  · rintro rfl
    rw [dif_pos text.2]

theorem getColumnBlobAsString_some (chars : List UInt16) :
    getColumnBlobAsString (some chars) = createString chars := by
  cases chars with
  | nil => exact (createString_eq_some_iff.2 rfl).symm
  | cons => rfl

namespace ItemTable

def item (table : ItemTable) : StringMap :=
  fun key => (table.rows.lookup key.1).bind createString

variable {table next : ItemTable} {key value : StorageString}

theorem item_insert [SqliteText] (hkey : StoredFaithfully key)
    (hinsert : table.insert (bindText key) (bindString value) = some next) :
    next.item = Function.update table.item key (some value) := by
  rw [hkey.bindText_eq, bindString_eq, insert] at hinsert
  cases hinsert
  funext other
  rw [item, HashMap.lookup_insert_eq_ite, Function.update_apply]
  by_cases heq : other = key
  · rw [if_pos heq, if_pos (congrArg Subtype.val heq)]
    exact createString_eq_some_iff.2 rfl
  · rw [if_neg heq, if_neg (fun hval => heq (Subtype.ext hval))]
    rfl

theorem insert_bindString (key : Cell) : (table.insert key (bindString value)).isSome := by
  rw [bindString_eq value]
  rfl

theorem item_delete [SqliteText] (hkey : StoredFaithfully key) :
    (table.delete (bindText key)).item = Function.update table.item key none := by
  rw [hkey.bindText_eq]
  funext other
  rw [item, delete, HashMap.lookup_erase_eq_ite, Function.update_apply]
  by_cases heq : other = key
  · rw [if_pos heq, if_pos (congrArg Subtype.val heq)]
    rfl
  · rw [if_neg heq, if_neg (fun hval => heq (Subtype.ext hval))]
    rfl

def readRow (row : Cell × Cell) : Option ((_ : StorageString) × StorageString) :=
  (getColumnText row.1).bind fun key => (getColumnBlobAsString row.2).map fun value => ⟨key, value⟩

theorem readItems_eq_addAll (rows : List (Cell × Cell)) :
    LocalStorageDatabase.readItems rows = HashMap.addAll (rows.filterMap readRow) ∅ := by
  rw [LocalStorageDatabase.readItems, HashMap.addAll, foldl_filterMap]
  congr 1
  funext items row
  rw [readRow]
  cases getColumnText row.1 with
  | none => rfl
  | some => cases getColumnBlobAsString row.2 <;> rfl

theorem readRow_some (key val : List UInt16) :
    readRow (some key, some val) =
      (createString key).bind fun key => (createString val).map fun val => ⟨key, val⟩ := by
  rw [readRow, getColumnBlobAsString_some]
  rfl

/-- The rows with a key give each item once. -/
theorem dlookup_readRow {entries : List ((_ : List UInt16) × List UInt16)}
    (hdistinct : entries.NodupKeys) (key : StorageString) :
    ((entries.map fun row => ((some row.1, some row.2) : Cell × Cell)).filterMap readRow).dlookup
        key =
      (entries.dlookup key.1).bind createString := by
  induction entries with
  | nil => rfl
  | cons entry entries ih =>
    obtain ⟨first, held⟩ := entry
    obtain ⟨hnew, hrest⟩ := nodupKeys_cons.1 hdistinct
    rw [map_cons, filterMap_cons, readRow_some]
    cases hfirst : createString first with
    | none =>
      have hne : key.1 ≠ first := fun heq =>
        Option.some_ne_none _ ((createString_eq_some_iff.2 heq.symm).symm.trans hfirst)
      rw [dlookup_cons_ne _ _ hne]
      exact ih hrest
    | some name =>
      have hname := createString_eq_some_iff.1 hfirst
      by_cases heq : key = name
      · subst heq
        subst hname
        rw [dlookup_cons_eq, Option.bind_some, Option.bind_some]
        cases createString held with
        | none =>
          -- The only row of the key has no string for its value.
          refine (ih hrest).trans ?_
          rw [dlookup_eq_none.2 hnew]
          rfl
        | some => exact dlookup_cons_eq _ _ _
      · have hne : key.1 ≠ first := fun hval => heq (Subtype.ext (hval.trans hname))
        rw [dlookup_cons_ne _ _ hne, Option.bind_some]
        cases createString held with
        | none => exact ih hrest
        | some => exact (dlookup_cons_ne _ _ heq).trans (ih hrest)

theorem lookup_readItems (key : StorageString) :
    (LocalStorageDatabase.readItems table.select).lookup key = table.item key := by
  have hnull : (table.nullKeyRows.map fun value => ((none, some value) : Cell × Cell)).filterMap
      readRow = [] := by
    rw [filterMap_map, filterMap_eq_nil_iff]
    exact fun _ _ => rfl
  rw [readItems_eq_addAll, HashMap.lookup_addAll, AList.lookup_empty, Option.none_or, select,
    filterMap_append, hnull, append_nil, dlookup_readRow table.rows.nodupKeys]
  rfl

end ItemTable

namespace LocalStorageDatabase

/-- Writing changed items of distinct keys assigns or removes each of them. -/
theorem item_writeItems [SqliteText]
    {changes : List ((_ : StorageString) × Option StorageString)} (hdistinct : changes.NodupKeys)
    (hkeys : ∀ key ∈ changes.keys, StoredFaithfully key) (tbl : ItemTable) (key : StorageString) :
    (writeItems changes tbl).item key = (changes.dlookup key).getD (tbl.item key) := by
  induction changes generalizing tbl with
  | nil => rfl
  | cons change changes ih =>
    obtain ⟨first, written⟩ := change
    obtain ⟨hnew, hrest⟩ := nodupKeys_cons.1 hdistinct
    obtain ⟨hfirst, hkeys⟩ := forall_mem_cons.1 hkeys
    -- One change leaves a table in which the item of its key is what was written.
    obtain ⟨next, hwrite, hitem⟩ : ∃ next, writeItems (⟨first, written⟩ :: changes) tbl =
        writeItems changes next ∧ next.item = Function.update tbl.item first written := by
      cases written with
      | none => exact ⟨_, rfl, ItemTable.item_delete hfirst⟩
      | some value =>
        obtain ⟨next, hnext⟩ := Option.isSome_iff_exists.1
          (@ItemTable.insert_bindString tbl value (bindText first))
        refine ⟨next, ?_, ItemTable.item_insert hfirst hnext⟩
        rw [writeItems, hnext]
    rw [hwrite, ih hrest hkeys, hitem, Function.update_apply]
    by_cases heq : key = first
    · subst heq
      rw [if_pos rfl, dlookup_cons_eq, dlookup_eq_none.2 hnew]
      rfl
    · rw [if_neg heq, dlookup_cons_ne _ _ heq]

end LocalStorageDatabase

namespace Disk

def stored (disk : Disk) : StringMap := (disk.file.getD .empty).item

/-- The items in the file once the clearing and the changes are written. -/
def pending (disk : Disk) : StringMap :=
  fun key => (disk.database.changedItems.lookup key).getD
    (if disk.database.shouldClearItems then none else disk.stored key)

/-- Writing what is pending gives the items, and what is pending is scheduled. -/
structure Synced [SqliteText] (disk : Disk) (map : StringMap) : Prop where
  alive : disk.database.isClosed = false
  keys : ∀ key ∈ disk.database.changedItems, StoredFaithfully key
  items : disk.pending = map
  scheduled : disk.database.didScheduleDatabaseUpdate = false →
    disk.database.changedItems = ∅ ∧ disk.database.shouldClearItems = false

variable {disk next : Disk} {map : StringMap}

open LocalStorageDatabase

theorem openDatabase_createIfNonExistent :
    openDatabase disk .createIfNonExistent =
      { disk with
        database := { disk.database with isOpen := true }
        file := some (disk.file.getD .empty) } := by
  rw [openDatabase, if_neg]
  rw [Bool.and_eq_true, decide_eq_true_eq]
  exact fun hboth => absurd hboth.2 (by decide)

theorem stored_of_databaseIsEmpty (hempty : databaseIsEmpty disk = true) :
    disk.stored = fun _ => none := by
  rw [databaseIsEmpty, Bool.and_eq_true, beq_iff_eq, ItemTable.count] at hempty
  funext key
  have hrows : (disk.file.getD .empty).rows.entries = [] := eq_nil_of_length_eq_zero (by omega)
  rw [stored, ItemTable.item, AList.lookup, hrows]
  rfl

variable [SqliteText]

theorem Synced.schedule (halive : disk.database.isClosed = false)
    (hkeys : ∀ key ∈ disk.database.changedItems, StoredFaithfully key)
    (hitems : disk.pending = map) : (scheduleDatabaseUpdate disk).Synced map := by
  rw [scheduleDatabaseUpdate]
  split
  · next hscheduled =>
    refine ⟨halive, hkeys, hitems, fun hnot => ?_⟩
    exact absurd (hscheduled.symm.trans hnot).symm Bool.false_ne_true
  · exact ⟨halive, hkeys, hitems, fun hnot => absurd hnot.symm Bool.false_ne_true⟩

theorem Synced.itemDidChange (hsynced : disk.Synced map) {key : StorageString}
    (hkey : StoredFaithfully key) (val : Option StorageString) :
    (itemDidChange disk key val).Synced (Function.update map key val) := by
  refine Synced.schedule hsynced.alive (fun other hother => ?_) ?_
  · obtain rfl | hbefore := (AList.mem_insert _).1 hother
    exacts [hkey, hsynced.keys other hbefore]
  rw [← hsynced.items]
  funext other
  rw [pending, HashMap.lookup_insert_eq_ite, Function.update_apply]
  by_cases heq : other = key
  · rw [if_pos heq, if_pos heq]
    rfl
  · rw [if_neg heq, if_neg heq]
    rfl

theorem Synced.clear (hsynced : disk.Synced map) : (clear disk).Synced fun _ => none :=
  Synced.schedule hsynced.alive (fun key hkey => absurd hkey (AList.notMem_empty key)) rfl

theorem updateDatabaseWithChangedItems_eq
    (changedItems : HashMap StorageString (Option StorageString)) :
    updateDatabaseWithChangedItems disk changedItems =
      { disk with
        database := { disk.database with isOpen := true, shouldClearItems := false }
        file := some (writeItems changedItems.entries
          (if disk.database.shouldClearItems then .empty else disk.file.getD .empty)) } := by
  rw [updateDatabaseWithChangedItems, openDatabase_createIfNonExistent]
  split
  · grind
  · rfl

theorem stored_updateDatabaseWithChangedItems
    {changedItems : HashMap StorageString (Option StorageString)}
    (hkeys : ∀ key ∈ changedItems, StoredFaithfully key) :
    (updateDatabaseWithChangedItems disk changedItems).stored =
      fun key => (changedItems.lookup key).getD
        (if disk.database.shouldClearItems then none else disk.stored key) := by
  funext key
  rw [updateDatabaseWithChangedItems_eq, stored, Option.getD_some,
    item_writeItems changedItems.nodupKeys hkeys]
  split <;> rfl

theorem Synced.updateDatabase (hsynced : disk.Synced map) {batch : List StorageString}
    (hupdate : updateDatabase disk batch = some next) : next.Synced map := by
  rw [LocalStorageDatabase.updateDatabase, if_neg (by rw [hsynced.alive]; exact Bool.false_ne_true)]
    at hupdate
  dsimp only at hupdate
  split at hupdate
  · -- Everything is written, and nothing is pending any more.
    cases hupdate
    refine ⟨?_, ?_, ?_, ?_⟩
    · rw [updateDatabaseWithChangedItems_eq]
      exact hsynced.alive
    · rw [updateDatabaseWithChangedItems_eq]
      exact fun key hkey => absurd hkey (AList.notMem_empty key)
    · funext key
      rw [pending, stored_updateDatabaseWithChangedItems hsynced.keys,
        updateDatabaseWithChangedItems_eq]
      exact congrFun hsynced.items key
    · rw [updateDatabaseWithChangedItems_eq]
      exact fun _ => ⟨rfl, rfl⟩
  · -- The batch is written, and the other changes are pending as before.
    obtain ⟨-, hupdate⟩ := Option.ite_none_right_eq_some.1 hupdate
    cases hupdate
    refine ⟨?_, ?_, ?_, ?_⟩
    · rw [updateDatabaseWithChangedItems_eq]
      exact hsynced.alive
    · rw [updateDatabaseWithChangedItems_eq]
      exact fun key hkey => hsynced.keys key ((filter_sublist.map _).subset hkey)
    · rw [← hsynced.items]
      funext key
      rw [pending, stored_updateDatabaseWithChangedItems
          fun key hkey => hsynced.keys key ((filter_sublist.map _).subset hkey),
        updateDatabaseWithChangedItems_eq]
      change ((HashMap.filter _ disk.database.changedItems).lookup key).getD
        (((HashMap.filter _ disk.database.changedItems).lookup key).getD _) = _
      rw [HashMap.lookup_filter, HashMap.lookup_filter]
      by_cases hbatch : key ∈ batch
      · rw [if_neg (by simpa using hbatch), if_pos (by simpa using hbatch)]
        rfl
      · rw [if_pos (by simpa using hbatch), if_neg (by simpa using hbatch)]
        rfl
    · rw [updateDatabaseWithChangedItems_eq]
      exact fun hnot => absurd hnot.symm Bool.false_ne_true

/-- The file of a closed database has the items, also if it was deleted. -/
theorem Synced.close (hsynced : disk.Synced map) : (close disk).stored = map := by
  -- Deleting the file when it has no rows does not change what is stored.
  have hdelete : ∀ written : Disk, Disk.stored
      { written with
        database := { written.database with isOpen := false }
        file := if databaseIsEmpty written then none else written.file } = written.stored := by
    intro written
    cases hempty : databaseIsEmpty written with
    | true =>
      rw [stored_of_databaseIsEmpty hempty]
      rfl
    | false => rfl
  rw [LocalStorageDatabase.close, hdelete]
  split
  · refine (stored_updateDatabaseWithChangedItems hsynced.keys).trans ?_
    exact hsynced.items
  · next hidle =>
    obtain ⟨hchanged, hclear⟩ := hsynced.scheduled (Bool.eq_false_iff.2 hidle)
    rw [← hsynced.items]
    funext key
    rw [pending, hchanged, hclear]
    rfl

end Disk

/-! ## What an area holds -/

namespace StorageArea

open LocalStorageDatabase

/-- An area that has imported its items, with a database that stands for them. -/
def Ready [SqliteText] (storing : Storing) : Prop :=
  storing.area.didImportItemsFromDatabase = true ∧
    ∃ database, storing.area.localStorageDatabase = some database ∧
      (disk storing database).Synced storing.area.storageMap.getItem

/-- An area before its first operation, or one that has imported its items. -/
def Backed [SqliteText] (storing : Storing) : Prop := storing.area = create ∨ Ready storing

section

variable [SqliteText] {storing next : Storing}

theorem openDatabaseAndImportItemsIfNeeded_of_ready (hready : Ready storing) :
    openDatabaseAndImportItemsIfNeeded storing = storing := by
  obtain ⟨⟨storage, db, didImport⟩, file, queued⟩ := storing
  obtain ⟨himported, opened, hopened, -⟩ := hready
  cases himported
  cases hopened
  rfl

theorem open_create (harea : storing.area = create) :
    Ready (openDatabaseAndImportItemsIfNeeded storing) ∧
      (openDatabaseAndImportItemsIfNeeded storing).area.storageMap.getItem =
        (storing.file.getD .empty).item := by
  obtain ⟨area, file, queued⟩ := storing
  cases harea
  have hkeys : ∀ key ∈ LocalStorageDatabase.create.changedItems, StoredFaithfully key :=
    fun key hkey => absurd hkey (AList.notMem_empty key)
  cases file with
  | none => exact ⟨⟨rfl, _, rfl, rfl, hkeys, rfl, fun _ => ⟨rfl, rfl⟩⟩, rfl⟩
  | some table =>
    have hitems : (StorageMap.importItems (.create localStorageDatabaseQuotaInBytes)
        (readItems table.select)).getItem = table.item := by
      rw [StorageMap.getItem_importItems fun key _ => AList.notMem_empty key]
      funext key
      rw [ItemTable.lookup_readItems]
      exact Option.or_none
    exact ⟨⟨rfl, _, rfl, rfl, hkeys, hitems.symm, fun _ => ⟨rfl, rfl⟩⟩, hitems⟩

theorem Backed.ready_open (hbacked : Backed storing) :
    Ready (openDatabaseAndImportItemsIfNeeded storing) := by
  rcases hbacked with harea | hready
  · exact (open_create harea).1
  · rw [openDatabaseAndImportItemsIfNeeded_of_ready hready]
    exact hready

theorem Ready.onDatabase (hready : Ready storing) {change : Disk → Disk} {storage : StorageMap}
    (hchange : ∀ disk : Disk, disk.Synced storing.area.storageMap.getItem →
      (change disk).Synced storage.getItem) :
    Ready (onDatabase
      { storing with area := { storing.area with storageMap := storage } } change) := by
  obtain ⟨himported, db, hdb, hsynced⟩ := hready
  rw [StorageArea.onDatabase, hdb]
  exact ⟨himported, _, rfl, hchange _ hsynced⟩

theorem Ready.withMap (hready : Ready storing) {storage : StorageMap}
    (hsame : storage.getItem = storing.area.storageMap.getItem) :
    Ready { storing with area := { storing.area with storageMap := storage } } := by
  obtain ⟨himported, db, hdb, hsynced⟩ := hready
  exact ⟨himported, db, hdb, hsame ▸ hsynced⟩

section

variable {key : StorageString} {action : AreaAction} (hbacked : Backed storing)
include hbacked

theorem Backed.setItem (hkey : StoredFaithfully key) (val : StorageString) :
    Ready (setItem storing key val) := by
  have hready := hbacked.ready_open
  rw [StorageArea.setItem]
  split
  · next hexception =>
    refine hready.withMap ?_
    rw [StorageMap.getItem_setItem, if_pos hexception]
  · next hassigned =>
    refine hready.onDatabase fun disk hsynced => ?_
    rw [StorageMap.getItem_setItem, if_neg hassigned]
    exact hsynced.itemDidChange hkey (some val)

theorem Backed.removeItem (hkey : StoredFaithfully key) :
    Ready (removeItem storing key) := by
  have hready := hbacked.ready_open
  rw [StorageArea.removeItem]
  split
  · next habsent =>
    refine hready.withMap ?_
    rw [StorageMap.getItem_removeItem, Function.update_eq_self_iff]
    exact (Option.isNone_iff_eq_none.1 habsent).symm
  · refine hready.onDatabase fun disk hsynced => ?_
    rw [StorageMap.getItem_removeItem]
    exact hsynced.itemDidChange hkey none

theorem Backed.clear : Ready (clear storing) := by
  have hready := hbacked.ready_open
  rw [StorageArea.clear]
  split
  · exact hready
  · exact hready.onDatabase fun disk hsynced => hsynced.clear

theorem Backed.updateDatabase {batch : List StorageString}
    (hupdate : updateDatabase storing batch = some next) : Backed next := by
  rw [StorageArea.updateDatabase] at hupdate
  rcases hbacked with harea | ⟨himported, db, hdb, hsynced⟩
  · rw [harea] at hupdate
    cases hupdate
    exact .inl harea
  · rw [hdb] at hupdate
    obtain ⟨updated, hupdated, rfl⟩ := Option.map_eq_some_iff.1 hupdate
    exact .inr ⟨himported, _, rfl, hsynced.updateDatabase hupdated⟩

theorem Backed.step (hkey : action.StoresKey)
    (hstep : stepArea storing action = some next) : Backed next := by
  cases action with
  | setItem key value => exact Option.some.inj hstep ▸ .inr (hbacked.setItem hkey value)
  | removeItem key => exact Option.some.inj hstep ▸ .inr (hbacked.removeItem hkey)
  | clear => exact Option.some.inj hstep ▸ .inr hbacked.clear
  | items => exact Option.some.inj hstep ▸ .inr hbacked.ready_open
  | syncToDatabase => exact hbacked.updateDatabase hstep
  | updateDatabase =>
    obtain ⟨-, hupdate⟩ := Option.ite_none_left_eq_some.1 hstep
    have hsame : Backed { storing with queued := storing.queued - 1 } := by
      rcases hbacked with harea | ⟨himported, db, hdb, hsynced⟩
      · exact .inl harea
      · obtain ⟨halive, hkeys, hitems, hscheduled⟩ := hsynced
        exact .inr ⟨himported, db, hdb, halive, hkeys, hitems, hscheduled⟩
    exact hsame.updateDatabase hupdate

end

theorem items_create (harea : storing.area = create) (key : StorageString) :
    (items storing).lookup key = (storing.file.getD .empty).item key :=
  congrFun (open_create harea).2 key

theorem Backed.close (hbacked : Backed storing) (key : StorageString) :
    ((close storing).file.getD .empty).item key = (items storing).lookup key := by
  rcases hbacked with harea | hready
  · rw [items_create harea, StorageArea.close, StorageArea.onDatabase, harea]
    rfl
  · have hitems : items storing = storing.area.storageMap.map := by
      rw [items, openDatabaseAndImportItemsIfNeeded_of_ready hready]
    obtain ⟨-, db, hdb, hsynced⟩ := hready
    rw [hitems, StorageArea.close, StorageArea.onDatabase, hdb]
    exact congrFun hsynced.close key

theorem backed_of_run {file : Option ItemTable} {actions : List AreaAction}
    (hkeys : ∀ action ∈ actions, action.StoresKey)
    (hrun : run stepArea (openOn file) actions = some storing) : Backed storing :=
  run_of_step Backed.step (.inl rfl) (meets_of_forall hkeys _) hrun

end

/-- Whatever the clients of an area of an origin asked for, and however the tasks of the queue
came in between, after closing it a new area of the origin imports exactly the items it held. -/
theorem closed_area_is_restored [SqliteText] {storing : Storing} {file : Option ItemTable}
    {actions : List AreaAction} (hkeys : ∀ action ∈ actions, action.StoresKey)
    (hrun : run stepArea (openOn file) actions = some storing) (key : StorageString) :
    (items (openOn (close storing).file)).lookup key = (items storing).lookup key := by
  rw [items_create rfl]
  exact (backed_of_run hkeys hrun).close key

/-- A database that stores every text faithfully. -/
local instance faithfulText : SqliteText := ⟨id⟩

theorem storesKey (action : AreaAction) : action.StoresKey := by
  cases action <;> trivial

/-- The items may have an empty key and an empty value. -/
theorem closed_area_is_restored_empty_strings : ∃ storing, run stepArea (openOn none)
        [.setItem Sample.a Sample.b, .updateDatabase [], .setItem ⟨[], by decide⟩ ⟨[], by decide⟩,
          .removeItem Sample.a] = some storing ∧
      (items (openOn (close storing).file)).lookup ⟨[], by decide⟩ = some ⟨[], by decide⟩ ∧
      (items (openOn (close storing).file)).lookup Sample.a = none := by
  have hrun := @run_eq_after _ _ stepArea (openOn none)
    [.setItem Sample.a Sample.b, .updateDatabase [], .setItem ⟨[], by decide⟩ ⟨[], by decide⟩,
      .removeItem Sample.a] (by decide +kernel)
  refine ⟨_, hrun, ?_, ?_⟩
  · rw [closed_area_is_restored (fun action _ => storesKey action) hrun]
    decide +kernel
  · rw [closed_area_is_restored (fun action _ => storesKey action) hrun]
    decide +kernel

/-- Clearing the area itself writes the item that was set, and the next area imports it. -/
theorem cleared_area_is_not_restored : ∃ storing ∈ run stepArea (openOn none)
        [.setItem Sample.a Sample.b],
      let cleared := { close storing with area := (close storing).area.clearArea }
      (items cleared).lookup Sample.a = none ∧
      (items (openOn (close cleared).file)).lookup Sample.a = some Sample.b := by
  decide +kernel

/-- The file with the changes that wait holds the items of an area that has imported them. -/
theorem area_is_always_backed [SqliteText] (file : Option ItemTable) {actions : List AreaAction}
    (hkeys : ∀ action ∈ actions, action.StoresKey) :
    Always stepArea Backed (openOn file) actions :=
  always_of_step Backed.step (.inl rfl) (meets_of_forall hkeys _)

theorem area_is_always_backed_removed : Always stepArea Backed (openOn none)
    [.setItem Sample.a Sample.b, .updateDatabase [], .removeItem Sample.a] :=
  area_is_always_backed none fun action _ => storesKey action

/-- At most a hundred items have changed since they were last written. -/
def FewChanges (storing : Storing) : Prop :=
  ∀ database ∈ storing.area.localStorageDatabase,
    database.changedItems.entries.length ≤ maximumItemsToUpdate

/-- With few changes, the file has the items of an area that has imported its items after one
synchronization. -/
theorem synced_area_is_stored [SqliteText] {storing : Storing} {file : Option ItemTable}
    {actions : List AreaAction} (hkeys : ∀ action ∈ actions, action.StoresKey)
    (hrun : run stepArea (openOn file) actions = some storing)
    (himported : storing.area.didImportItemsFromDatabase = true) (hfew : FewChanges storing)
    (batch : List StorageString) :
    ∃ next, updateDatabase storing batch = some next ∧
      (next.file.getD .empty).item = next.area.storageMap.getItem ∧
      next.area.storageMap = storing.area.storageMap := by
  obtain harea | ⟨-, database, hdatabase, hsynced⟩ := backed_of_run hkeys hrun
  · rw [harea] at himported
    exact absurd himported Bool.false_ne_true
  · have hlength : (disk storing database).database.changedItems.entries.length ≤
        maximumItemsToUpdate := hfew database hdatabase
    rw [updateDatabase, hdatabase]
    dsimp only
    rw [LocalStorageDatabase.updateDatabase, hsynced.alive, if_neg Bool.false_ne_true]
    rw [if_pos hlength, Option.map_some]
    refine ⟨_, rfl, ?_, rfl⟩
    exact (Disk.stored_updateDatabaseWithChangedItems hsynced.keys).trans hsynced.items

theorem synced_area_is_stored_cleared : ∃ storing, run stepArea (openOn none)
        [.setItem Sample.a Sample.b, .clear, .setItem Sample.c Sample.a] = some storing ∧
      ∃ next, updateDatabase storing [] = some next ∧
        (next.file.getD .empty).item = next.area.storageMap.getItem ∧
        next.area.storageMap = storing.area.storageMap := by
  refine ⟨_, run_eq_after (by decide +kernel), ?_⟩
  apply synced_area_is_stored (fun action _ => storesKey action) (run_eq_after (by decide +kernel))
  · decide +kernel
  · unfold FewChanges
    decide +kernel

/-- A key of one character. -/
def numbered (number : ℕ) : StorageString := ⟨[.ofNat number], show 1 ≤ Text.maxLength by decide⟩

/-- Of 101 items that were set, one is not in the file after the synchronization. -/
theorem item_left_unwritten : ∃ storing ∈ run stepArea (openOn none)
        ((range 101).map fun number => .setItem (numbered number) Sample.a),
      ∃ next ∈ updateDatabase storing ((range 100).map numbered),
        next.area.storageMap.getItem (numbered 100) = some Sample.a ∧
        (next.file.getD .empty).item (numbered 100) = none := by
  decide +kernel

end StorageArea

end PurcFetcher.WebStorage
