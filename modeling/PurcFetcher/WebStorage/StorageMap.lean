import PurcFetcher.Core.HashMap
import PurcFetcher.Core.Machine
import PurcFetcher.Wtf.Text

/-!
# Storage maps and their quota

A storage map holds the items of one storage area and keeps the number of characters of its
keys and values in an unsigned counter of 32 bits.  Setting an item is refused if there would
be more characters than the quota has room for.  A map that several areas refer to is copied
before it is changed.  Importing items does not look at the quota.
-/

namespace PurcFetcher.WebStorage

open Machine List

abbrev StorageString := { text : Text.Str // text.length ≤ Text.maxLength }

namespace StorageString

def length (text : StorageString) : UInt32 := .ofNat text.1.length

def lengthOrZero (text : Option StorageString) : UInt32 := text.elim 0 length

@[simp]
theorem toNat_length (text : StorageString) : text.length.toNat = text.1.length := by
  have hbound : text.1.length ≤ 2147483647 := text.2
  exact UInt32.toNat_ofNat_of_lt' (by change _ < 4294967296; omega)

end StorageString

def itemLength (key value : StorageString) : ℕ := key.1.length + value.1.length

structure StorageMap where
  map : HashMap StorageString StorageString
  quotaSize : UInt32
  currentLength : UInt32
deriving DecidableEq

namespace StorageMap

/-- `UINT_MAX`. -/
def noQuota : UInt32 := 4294967295

def create (quota : UInt32) : StorageMap where
  map := ∅
  quotaSize := quota
  currentLength := 0

def copy (storage : StorageMap) : StorageMap where
  map := storage.map
  quotaSize := storage.quotaSize
  currentLength := storage.currentLength

def getItem (storage : StorageMap) (key : StorageString) : Option StorageString :=
  storage.map.lookup key

/-- The length after an assignment, in three steps, and whether one of them overflows. -/
def newLength (currentLength valueLength oldLength adjustedKeyLength : UInt32) :
    Bool × UInt32 :=
  let overflow := decide (currentLength + valueLength < currentLength)
  let length := currentLength + valueLength
  let overflow := overflow || decide (length - oldLength > length)
  let length := length - oldLength
  let overflow := overflow || decide (length + adjustedKeyLength < length)
  (overflow, length + adjustedKeyLength)

/-- The map a call was made on, the map it returned, and its output parameters. -/
structure Outcome where
  this : StorageMap
  returned : Option StorageMap
  oldValue : Option StorageString
  quotaException : Bool

def Outcome.current (outcome : Outcome) : StorageMap := outcome.returned.getD outcome.this

/-- `setItem` on a map with one reference. -/
def setItemUnshared (storage : StorageMap) (key value : StorageString) : Outcome :=
  let oldValue := storage.map.lookup key
  let adjustedKeyLength := if oldValue.isNone then key.length else 0
  let length := newLength storage.currentLength value.length
    (StorageString.lengthOrZero oldValue) adjustedKeyLength
  let overQuota := decide (length.2 > storage.quotaSize / 2)
  if storage.quotaSize ≠ noQuota ∧ (length.1 || overQuota) then
    { this := storage, returned := none, oldValue := oldValue, quotaException := true }
  else
    { this := { storage with
        map := storage.map.insert key value
        currentLength := length.2 }
      returned := none
      oldValue := oldValue
      quotaException := false }

def setItem (storage : StorageMap) (refCount : ℕ) (key value : StorageString) : Outcome :=
  if refCount > 1 then
    let outcome := storage.copy.setItemUnshared key value
    { outcome with this := storage, returned := some outcome.this }
  else
    storage.setItemUnshared key value

/-- The quota is lifted for the call, and a copy is made without one. -/
def setItemIgnoringQuota (storage : StorageMap) (refCount : ℕ) (key value : StorageString) :
    Outcome :=
  let outcome := { storage with quotaSize := noQuota }.setItem refCount key value
  { outcome with this := { outcome.this with quotaSize := storage.quotaSize } }

/-- `removeItem` on a map with one reference. -/
def removeItemUnshared (storage : StorageMap) (key : StorageString) : Outcome :=
  let oldValue := storage.map.lookup key
  let length := if oldValue.isSome then storage.currentLength - key.length
    else storage.currentLength
  { this := { storage with
      map := storage.map.erase key
      currentLength := length - StorageString.lengthOrZero oldValue }
    returned := none
    oldValue := oldValue
    quotaException := false }

def removeItem (storage : StorageMap) (refCount : ℕ) (key : StorageString) : Outcome :=
  if refCount > 1 then
    let outcome := storage.copy.removeItemUnshared key
    { outcome with this := storage, returned := some outcome.this }
  else
    storage.removeItemUnshared key

/-- The loop of `importItems` for one item. -/
def importItem (storage : StorageMap) (item : (_ : StorageString) × StorageString) :
    StorageMap :=
  { storage with
    currentLength := storage.currentLength + (item.1.length + item.2.length)
    map := storage.map.add item.1 item.2 }

def importItems (storage : StorageMap) (items : HashMap StorageString StorageString) :
    StorageMap :=
  if storage.map.entries.isEmpty then
    -- The items are moved, and then their lengths are added.
    { storage with
      map := items
      currentLength := items.entries.foldl
        (fun length item => length + (item.1.length + item.2.length)) storage.currentLength }
  else
    items.entries.foldl importItem storage

end StorageMap

/-! ## Runs -/

/-- A call on one of the maps that are alive, with the number of references to it. -/
inductive MapAction where
  | copy (index : ℕ)
  | setItem (index refCount : ℕ) (key value : StorageString)
  | removeItem (index refCount : ℕ) (key : StorageString)
  | importItems (index : ℕ) (items : HashMap StorageString StorageString)

/-- The map a call is made on is replaced, and the map it returns is a further one. -/
def settle (maps : List StorageMap) (index : ℕ) (outcome : StorageMap.Outcome) :
    List StorageMap :=
  maps.set index outcome.this ++ outcome.returned.toList

def stepMaps (maps : List StorageMap) : MapAction → Option (List StorageMap)
  | .copy index => maps[index]?.map fun storage => maps ++ [storage.copy]
  | .setItem index refCount key value =>
    maps[index]?.map fun storage => settle maps index (storage.setItem refCount key value)
  | .removeItem index refCount key =>
    maps[index]?.map fun storage => settle maps index (storage.removeItem refCount key)
  | .importItems index items =>
    maps[index]?.map fun storage => maps.set index (storage.importItems items)

/-- Only keys that are not yet present are imported. -/
def ImportsNew (maps : List StorageMap) : MapAction → Prop
  | .importItems index items => ∀ storage ∈ maps[index]?, ∀ key ∈ items, key ∉ storage.map
  | _ => True

/-- After an import the characters can be counted in 32 bits. -/
def ImportFits (maps : List StorageMap) : MapAction → Prop
  | .importItems index items =>
    ∀ storage ∈ maps[index]?,
      HashMap.weight itemLength storage.map + HashMap.weight itemLength items < 2 ^ 32
  | _ => True

/-! ## The string map a storage map stands for -/

abbrev StringMap := StorageString → Option StorageString

namespace StringMap

/-- The sum of the lengths of all keys and values. -/
noncomputable def characters (map : StringMap) : ℕ := ∑ᶠ key, (map key).elim 0 (itemLength key)

open Classical in
/-- Assigning to a map that has room for a number of characters. -/
noncomputable def setItem (room : ℕ) (map : StringMap) (key value : StorageString) :
    StringMap :=
  if room < characters (Function.update map key (some value)) then map
  else Function.update map key (some value)

open Classical in
/-- The map that a call changes, or a changed copy of it if there are other references. -/
noncomputable def change (maps : List StringMap) (index refCount : ℕ) (map : StringMap) :
    List StringMap :=
  if refCount > 1 then maps ++ [map] else maps.set index map

noncomputable def step (room : ℕ) (maps : List StringMap) : MapAction → Option (List StringMap)
  | .copy index => maps[index]?.map fun map => maps ++ [map]
  | .setItem index refCount key value =>
    maps[index]?.map fun map => change maps index refCount (map.setItem room key value)
  | .removeItem index refCount key =>
    maps[index]?.map fun map => change maps index refCount (Function.update map key none)
  | .importItems index items =>
    maps[index]?.map fun map => maps.set index fun key => (items.lookup key).or (map key)

end StringMap

namespace StorageMap

/-- The items are those of the string map and the counter is the number of their
characters. -/
structure Agrees (storage : StorageMap) (map : StringMap) : Prop where
  items : storage.getItem = map
  length : storage.currentLength.toNat = map.characters

variable {storage : StorageMap} {map : StringMap} {key value : StorageString}

theorem characters_getItem :
    StringMap.characters storage.getItem = HashMap.weight itemLength storage.map :=
  HashMap.weight_eq_finsum.symm

theorem getItem_insert (len : UInt32) :
    getItem { storage with map := storage.map.insert key value, currentLength := len } =
      Function.update storage.getItem key (some value) := by
  funext other
  rw [getItem, HashMap.lookup_insert_eq_ite, Function.update_apply]
  rfl

theorem getItem_erase (len : UInt32) :
    getItem { storage with map := storage.map.erase key, currentLength := len } =
      Function.update storage.getItem key none := by
  funext other
  rw [getItem, HashMap.lookup_erase_eq_ite, Function.update_apply]
  rfl

/-- Whatever the counter, an assignment that is refused leaves the items as they are and any
other one assigns. -/
theorem getItem_setItem (refCount : ℕ) :
    (storage.setItem refCount key value).current.getItem =
      if (storage.setItem refCount key value).quotaException then storage.getItem
      else Function.update storage.getItem key (some value) := by
  have hunshared : (storage.setItemUnshared key value).this.getItem =
      (if (storage.setItemUnshared key value).quotaException then storage.getItem
        else Function.update storage.getItem key (some value)) ∧
      (storage.setItemUnshared key value).returned = none := by
    rw [setItemUnshared]
    generalize (if (storage.map.lookup key).isNone then key.length else 0) = adjustedKeyLength
    split
    · exact ⟨rfl, rfl⟩
    · exact ⟨getItem_insert _, rfl⟩
  rw [setItem]
  split
  · exact hunshared.1
  · rw [Outcome.current, hunshared.2]
    exact hunshared.1

theorem getItem_removeItem (refCount : ℕ) :
    (storage.removeItem refCount key).current.getItem =
      Function.update storage.getItem key none := by
  rw [removeItem]
  split <;> exact getItem_erase _

theorem characters_update_some :
    StringMap.characters (Function.update storage.getItem key (some value)) +
        (storage.getItem key).elim 0 (itemLength key) =
      StringMap.characters storage.getItem + itemLength key value := by
  rw [← getItem_insert storage.currentLength, characters_getItem, characters_getItem]
  exact HashMap.weight_insert_add

theorem characters_update_none : StringMap.characters (Function.update storage.getItem key none) +
        (storage.getItem key).elim 0 (itemLength key) =
      StringMap.characters storage.getItem := by
  rw [← getItem_erase storage.currentLength, characters_getItem, characters_getItem]
  exact HashMap.weight_erase_add

/-- With a counter that is at least the old length, either no step overflows or what is
counted is more than half of all numbers. -/
theorem newLength_spec {curLen valLen oldLen keyLen limit : UInt32}
    (hold : oldLen.toNat ≤ curLen.toNat) (hsmall : oldLen.toNat ≤ Text.maxLength)
    (hlimit : limit.toNat ≤ Text.maxLength) :
    ((newLength curLen valLen oldLen keyLen).1 ||
        decide ((newLength curLen valLen oldLen keyLen).2 > limit)) =
      decide (limit.toNat <
        curLen.toNat + valLen.toNat - oldLen.toNat + keyLen.toNat) ∧
    ((newLength curLen valLen oldLen keyLen).1 = false →
      (newLength curLen valLen oldLen keyLen).2.toNat =
        curLen.toNat + valLen.toNat - oldLen.toNat + keyLen.toNat) := by
  have hval := valLen.toNat_lt
  have hkey := keyLen.toNat_lt
  rw [Text.maxLength] at hsmall hlimit
  constructor
  · rw [Bool.eq_iff_iff]
    simp only [newLength, gt_iff_lt, UInt32.lt_iff_toNat_lt, UInt32.toNat_add, UInt32.toNat_sub,
      Bool.or_eq_true, decide_eq_true_eq]
    omega
  · simp only [newLength, gt_iff_lt, UInt32.lt_iff_toNat_lt, UInt32.toNat_add, UInt32.toNat_sub,
      Bool.or_eq_false_iff, decide_eq_false_iff_not, Nat.not_lt]
    omega

/-- A changed map, or the changed copy of a map with other references. -/
def Outcome.Becomes (outcome : Outcome) (storage : StorageMap) (refCount : ℕ)
    (map : StringMap) : Prop :=
  outcome.current.Agrees map ∧ outcome.current.quotaSize = storage.quotaSize ∧
    if refCount > 1 then outcome.this = storage ∧ outcome.returned.isSome
    else outcome.returned = none

section

variable (hlen : storage.currentLength.toNat = StringMap.characters storage.getItem)
include hlen

theorem lengthOrZero_le :
    (StorageString.lengthOrZero (storage.map.lookup key)).toNat ≤ storage.currentLength.toNat := by
  rw [hlen, characters_getItem]
  cases hold : storage.map.lookup key with
  | none => exact Nat.zero_le _
  | some old =>
    grind [itemLength, StorageString.lengthOrZero, StorageString.toNat_length, HashMap.weight,
      HashMap.weight_of_lookup]

/-- The sum of the three steps is the number of characters after the assignment. -/
theorem characters_update_eq_steps :
    storage.currentLength.toNat + value.length.toNat -
        (StorageString.lengthOrZero (storage.map.lookup key)).toNat +
        (if (storage.map.lookup key).isNone then key.length else 0).toNat =
      StringMap.characters (Function.update storage.getItem key (some value)) := by
  have hupdate := @characters_update_some storage key value
  have hle := @lengthOrZero_le storage key hlen
  rw [itemLength, ← hlen] at hupdate
  rw [getItem] at hupdate
  cases hold : storage.map.lookup key with
  | none =>
    rw [hold, Option.elim_none] at hupdate
    rw [StorageString.lengthOrZero, Option.elim_none, Option.isNone_none, if_pos rfl,
      StorageString.toNat_length, StorageString.toNat_length]
    change _ - 0 + _ = _
    omega
  | some =>
    rw [hold, Option.elim_some, itemLength] at hupdate
    rw [StorageString.lengthOrZero, Option.elim_some, Option.isNone_some,
      if_neg Bool.false_ne_true, StorageString.toNat_length, StorageString.toNat_length]
    change _ + 0 = _
    omega

end

theorem lengthOrZero_le_maxLength (text : Option StorageString) :
    (StorageString.lengthOrZero text).toNat ≤ Text.maxLength := by
  cases text with
  | none => exact Nat.zero_le _
  | some text => exact (StorageString.toNat_length text).le.trans text.2

theorem setItemUnshared_spec (hquota : storage.quotaSize ≠ noQuota)
    (hagrees : storage.Agrees map) :
    (storage.setItemUnshared key value).Becomes storage 1
        (map.setItem (storage.quotaSize.toNat / 2) key value) ∧
      ((storage.setItemUnshared key value).quotaException = true ↔
        storage.quotaSize.toNat / 2 <
          StringMap.characters (Function.update map key (some value))) ∧
      ((storage.setItemUnshared key value).quotaException = true →
        (storage.setItemUnshared key value).current = storage) := by
  obtain ⟨rfl, hlen⟩ := hagrees
  have hroom : (storage.quotaSize / 2).toNat = storage.quotaSize.toNat / 2 := UInt32.toNat_div _ _
  have hlimit : (storage.quotaSize / 2).toNat ≤ Text.maxLength := by
    have hbound := storage.quotaSize.toNat_lt
    rw [hroom, Text.maxLength]
    omega
  obtain ⟨hrefused, hexact⟩ := @newLength_spec storage.currentLength value.length
    (StorageString.lengthOrZero (storage.map.lookup key))
    (if (storage.map.lookup key).isNone then key.length else 0) (storage.quotaSize / 2)
    (lengthOrZero_le hlen) (lengthOrZero_le_maxLength _) hlimit
  rw [characters_update_eq_steps hlen, hroom] at hrefused
  rw [characters_update_eq_steps hlen] at hexact
  rw [setItemUnshared, hrefused]
  by_cases hover : storage.quotaSize.toNat / 2 <
      StringMap.characters (Function.update storage.getItem key (some value))
  · rw [if_pos ⟨hquota, decide_eq_true hover⟩, StringMap.setItem, if_pos hover]
    exact ⟨⟨⟨rfl, hlen⟩, rfl, rfl⟩, iff_of_true rfl hover, fun _ => rfl⟩
  · have hallowed : ¬ (storage.quotaSize ≠ noQuota ∧
        decide (storage.quotaSize.toNat / 2 <
          StringMap.characters (Function.update storage.getItem key (some value))) = true) :=
      fun hboth => hover (of_decide_eq_true hboth.2)
    rw [if_neg hallowed, StringMap.setItem, if_neg hover]
    rw [decide_eq_false hover, Bool.or_eq_false_iff] at hrefused
    refine ⟨⟨⟨getItem_insert _, ?_⟩, rfl, rfl⟩, iff_of_false Bool.false_ne_true hover,
      fun hexception => absurd hexception Bool.false_ne_true⟩
    exact hexact hrefused.1

theorem removeItemUnshared_spec (hagrees : storage.Agrees map) :
    (storage.removeItemUnshared key).Becomes storage 1 (Function.update map key none) := by
  obtain ⟨rfl, hlen⟩ := hagrees
  refine ⟨⟨getItem_erase _, ?_⟩, rfl, rfl⟩
  have hupdate := @characters_update_none storage key
  rw [← hlen, getItem] at hupdate
  change (_ - StorageString.lengthOrZero (storage.map.lookup key)).toNat = _
  cases hold : storage.map.lookup key with
  | none => grind [StorageString.lengthOrZero]
  | some =>
    rw [hold, Option.elim_some, itemLength] at hupdate
    rw [Option.isSome_some, if_pos rfl, StorageString.lengthOrZero, Option.elim_some,
      UInt32.toNat_sub, UInt32.toNat_sub, StorageString.toNat_length,
      StorageString.toNat_length]
    have hcur := storage.currentLength.toNat_lt
    omega

/-- Changing a map with other references changes a copy in the same way. -/
theorem setItem_spec (hquota : storage.quotaSize ≠ noQuota) (hagrees : storage.Agrees map)
    (refCount : ℕ) :
    (storage.setItem refCount key value).Becomes storage refCount
        (map.setItem (storage.quotaSize.toNat / 2) key value) ∧
      ((storage.setItem refCount key value).quotaException = true ↔
        storage.quotaSize.toNat / 2 <
          StringMap.characters (Function.update map key (some value))) ∧
      ((storage.setItem refCount key value).quotaException = true →
        (storage.setItem refCount key value).current = storage) := by
  obtain ⟨⟨hafter, hsize, hsame⟩, hrefused, hunchanged⟩ :=
    @setItemUnshared_spec storage map key value hquota hagrees
  rw [setItem]
  split
  · next hshared =>
    have hcur : (storage.setItemUnshared key value).current =
        (storage.setItemUnshared key value).this := by
      rw [Outcome.current, hsame]
      rfl
    rw [hcur] at hafter hsize hunchanged
    refine ⟨⟨hafter, hsize, ?_⟩, hrefused, hunchanged⟩
    rw [if_pos hshared]
    exact ⟨rfl, rfl⟩
  · next hunshared =>
    refine ⟨⟨hafter, hsize, ?_⟩, hrefused, hunchanged⟩
    rw [if_neg hunshared]
    exact hsame

theorem toNat_foldl_length (entries : List ((_ : StorageString) × StorageString))
    (start : UInt32) :
    (entries.foldl (fun len item => len + (item.1.length + item.2.length)) start).toNat =
      (start.toNat + (entries.map fun item => itemLength item.1 item.2).sum) % 2 ^ 32 := by
  induction entries generalizing start with
  | nil => exact (Nat.mod_eq_of_lt start.toNat_lt).symm
  | cons item entries ih =>
    rw [foldl_cons, ih, map_cons, sum_cons, UInt32.toNat_add, UInt32.toNat_add,
      StorageString.toNat_length, StorageString.toNat_length, itemLength]
    omega

theorem foldl_importItem (entries : List ((_ : StorageString) × StorageString)) :
    entries.foldl importItem storage =
      { storage with
        map := HashMap.addAll entries storage.map
        currentLength := entries.foldl
          (fun len item => len + (item.1.length + item.2.length)) storage.currentLength } := by
  induction entries generalizing storage with
  | nil => rfl
  | cons item entries ih => exact ih

variable {items : HashMap StorageString StorageString}

theorem currentLength_importItems :
    (storage.importItems items).currentLength.toNat =
      (storage.currentLength.toNat + HashMap.weight itemLength items) % 2 ^ 32 := by
  rw [HashMap.weight, ← toNat_foldl_length, importItems]
  split
  · rfl
  · rw [foldl_importItem]

theorem getItem_importItems (hnew : ∀ key ∈ items, key ∉ storage.map) :
    (storage.importItems items).getItem =
      fun key => (items.lookup key).or (storage.getItem key) := by
  funext key
  rw [importItems]
  split
  · grind [getItem, AList.lookup]
  · rw [foldl_importItem, getItem, HashMap.lookup_addAll]
    change (storage.getItem key).or (items.lookup key) = _
    cases hheld : items.lookup key with
    | none => rw [Option.or_none, Option.none_or]
    | some =>
      have habsent : storage.getItem key = none :=
        AList.lookup_eq_none.2 (hnew key (AList.lookup_isSome.1 (hheld ▸ rfl)))
      rw [habsent]
      rfl

theorem importItems_spec (hagrees : storage.Agrees map) (hnew : ∀ key ∈ items, key ∉ storage.map)
    (hfits : HashMap.weight itemLength storage.map + HashMap.weight itemLength items < 2 ^ 32) :
    (storage.importItems items).Agrees (fun key => (items.lookup key).or (map key)) ∧
      (storage.importItems items).quotaSize = storage.quotaSize := by
  obtain ⟨rfl, hlen⟩ := hagrees
  refine ⟨⟨getItem_importItems hnew, ?_⟩, ?_⟩
  · have hsum : StringMap.characters (fun key => (items.lookup key).or (storage.getItem key)) =
        HashMap.weight itemLength items + HashMap.weight itemLength storage.map :=
      HashMap.finsum_or_of_disjoint hnew
    rw [currentLength_importItems, hlen, characters_getItem, hsum, Nat.mod_eq_of_lt hfits,
      Nat.add_comm]
  · rw [importItems]
    split
    · rfl
    · rw [foldl_importItem]

end StorageMap

/-! ## Whole runs -/

section Runs

variable {A B : Type*} {related : A → B → Prop}

theorem forall₂_getElem? {left : List A} {right : List B} (hall : List.Forall₂ related left right)
    {idx : ℕ} {first : A} (hfirst : left[idx]? = some first) :
    ∃ second, right[idx]? = some second ∧ related first second := by
  induction hall generalizing idx with
  | nil => exact absurd hfirst (Option.some_ne_none _).symm
  | cons hhead htail ih => grind

theorem forall₂_set {left : List A} {right : List B} (hall : List.Forall₂ related left right)
    {first : A} {second : B} (hrelated : related first second) (idx : ℕ) :
    List.Forall₂ related (left.set idx first) (right.set idx second) := by
  induction hall generalizing idx with
  | nil => exact .nil
  | cons hhead htail ih =>
    cases idx with
    | zero => exact .cons hrelated htail
    | succ idx => exact .cons hhead (ih idx)

end Runs

/-- Each storage map agrees with its string map and has the quota. -/
def MapsAgree (quota : UInt32) (maps : List StorageMap) (strings : List StringMap) : Prop :=
  List.Forall₂ (fun storage map => storage.Agrees map ∧ storage.quotaSize = quota) maps strings

theorem MapsAgree.settle {quota : UInt32} {maps : List StorageMap} {strings : List StringMap}
    (hall : MapsAgree quota maps strings) {idx refCount : ℕ} {storage : StorageMap}
    (hst : maps[idx]? = some storage) (hquota : storage.quotaSize = quota)
    {out : StorageMap.Outcome} {map : StringMap}
    (hbecomes : out.Becomes storage refCount map) :
    MapsAgree quota (settle maps idx out) (StringMap.change strings idx refCount map) := by
  obtain ⟨hagrees, hsize, hkind⟩ := hbecomes
  rw [WebStorage.settle, StringMap.change]
  by_cases hshared : refCount > 1
  · rw [if_pos hshared] at hkind
    obtain ⟨hthis, hreturned⟩ := hkind
    obtain ⟨copied, hcopied⟩ := Option.isSome_iff_exists.1 hreturned
    rw [StorageMap.Outcome.current, hcopied] at hagrees hsize
    obtain ⟨hidx, hheld⟩ := List.getElem?_eq_some_iff.1 hst
    rw [if_pos hshared, hthis, ← hheld, set_getElem_self hidx, hcopied]
    exact rel_append hall (.cons ⟨hagrees, hsize.trans hquota⟩ .nil)
  · rw [if_neg hshared] at hkind
    rw [StorageMap.Outcome.current, hkind] at hagrees hsize
    rw [if_neg hshared, hkind]
    change MapsAgree quota (maps.set idx out.this ++ []) _
    rw [append_nil]
    exact forall₂_set hall ⟨hagrees, hsize.trans hquota⟩ idx

theorem MapsAgree.step {quota : UInt32} (hquota : quota ≠ StorageMap.noQuota)
    {maps next : List StorageMap} {strings : List StringMap} {action : MapAction}
    (hall : MapsAgree quota maps strings)
    (himports : ImportsNew maps action ∧ ImportFits maps action)
    (hstep : stepMaps maps action = some next) :
    ∃ followers, StringMap.step (quota.toNat / 2) strings action = some followers ∧
      MapsAgree quota next followers := by
  cases action with
  | copy =>
    obtain ⟨storage, hst, rfl⟩ := Option.map_eq_some_iff.1 hstep
    obtain ⟨map, hmap, hagrees, hsize⟩ := forall₂_getElem? hall hst
    refine ⟨_, Option.map_eq_some_iff.2 ⟨map, hmap, rfl⟩, ?_⟩
    exact rel_append hall (.cons ⟨⟨hagrees.items, hagrees.length⟩, hsize⟩ .nil)
  | setItem idx refCount key value =>
    obtain ⟨storage, hst, rfl⟩ := Option.map_eq_some_iff.1 hstep
    obtain ⟨map, hmap, hagrees, hsize⟩ := forall₂_getElem? hall hst
    refine ⟨_, Option.map_eq_some_iff.2 ⟨map, hmap, rfl⟩, ?_⟩
    rw [← hsize] at hquota
    have hbecomes := (@StorageMap.setItem_spec _ _ key value hquota hagrees refCount).1
    rw [hsize] at hbecomes
    exact hall.settle hst hsize hbecomes
  | removeItem idx refCount =>
    obtain ⟨storage, hst, rfl⟩ := Option.map_eq_some_iff.1 hstep
    obtain ⟨map, hmap, hagrees, hsize⟩ := forall₂_getElem? hall hst
    refine ⟨_, Option.map_eq_some_iff.2 ⟨map, hmap, rfl⟩, ?_⟩
    obtain ⟨hafter, hless, hsame⟩ := @StorageMap.removeItemUnshared_spec storage map _ hagrees
    refine hall.settle hst hsize ?_
    rw [StorageMap.removeItem]
    split
    · next hshared =>
      refine ⟨hafter, hless, ?_⟩
      rw [if_pos hshared]
      exact ⟨rfl, rfl⟩
    · next hunshared =>
      refine ⟨hafter, hless, ?_⟩
      rw [if_neg hunshared]
      exact hsame
  | importItems idx =>
    obtain ⟨storage, hst, rfl⟩ := Option.map_eq_some_iff.1 hstep
    obtain ⟨map, hmap, hagrees, hsize⟩ := forall₂_getElem? hall hst
    obtain ⟨hafter, hsame⟩ := StorageMap.importItems_spec hagrees
      (himports.1 storage hst) (himports.2 storage hst)
    refine ⟨_, Option.map_eq_some_iff.2 ⟨map, hmap, rfl⟩, ?_⟩
    exact forall₂_set hall ⟨hafter, hsame.trans hsize⟩ idx

/-- As long as no import brings the characters beyond what 32 bits count, storage maps are
string maps: they follow the calls on string maps, the counter is the number of characters of
all keys and values, and an assignment is refused, and then nothing changes, exactly if it
leaves more characters than half of the quota. -/
theorem storage_maps_follow_string_maps {quota : UInt32} (hquota : quota ≠ StorageMap.noQuota)
    {actions : List MapAction} {maps : List StorageMap}
    (himports : Meets stepMaps (fun maps action => ImportsNew maps action ∧ ImportFits maps action)
      [StorageMap.create quota] actions)
    (hrun : run stepMaps [StorageMap.create quota] actions = some maps) :
    ∃ strings, run (StringMap.step (quota.toNat / 2)) [fun _ => none] actions = some strings ∧
      List.Forall₂ StorageMap.Agrees maps strings ∧
      ∀ storage ∈ maps, ∀ refCount key value,
        ((storage.setItem refCount key value).quotaException = true ↔
          quota.toNat / 2 <
            StringMap.characters (Function.update storage.getItem key (some value))) ∧
        ((storage.setItem refCount key value).quotaException = true →
          (storage.setItem refCount key value).current = storage) := by
  have hstart : MapsAgree quota [StorageMap.create quota] [fun _ => none] := by
    refine .cons ⟨⟨rfl, ?_⟩, rfl⟩ .nil
    have hempty := @StorageMap.characters_getItem (StorageMap.create quota)
    exact hempty.symm
  obtain ⟨strings, hstrings, hall⟩ := run_of_simulation (MapsAgree.step hquota) hstart himports hrun
  refine ⟨strings, hstrings, hall.imp fun _ _ hboth => hboth.1, ?_⟩
  intro storage hmem refCount key value
  obtain ⟨index, hstorage⟩ := mem_iff_getElem?.1 hmem
  obtain ⟨map, -, ⟨rfl, hlength⟩, rfl⟩ := forall₂_getElem? hall hstorage
  exact (StorageMap.setItem_spec hquota ⟨rfl, hlength⟩ refCount).2

namespace Sample

def a : StorageString := ⟨[97], by decide⟩

def b : StorageString := ⟨[98], by decide⟩

def c : StorageString := ⟨[99], by decide⟩

def twoItems (value : StorageString) : HashMap StorageString StorageString :=
  (AList.singleton a value).insert b value

end Sample

theorem storage_maps_follow_string_maps_set_copied : ∃ maps, run stepMaps [StorageMap.create 4]
        [.setItem 0 1 Sample.a Sample.b, .setItem 0 2 Sample.c Sample.a] = some maps ∧
      ∃ strings, run (StringMap.step 2) [fun _ => none]
          [.setItem 0 1 Sample.a Sample.b, .setItem 0 2 Sample.c Sample.a] = some strings ∧
        List.Forall₂ StorageMap.Agrees maps strings := by
  have himports : Meets stepMaps
      (fun maps action => ImportsNew maps action ∧ ImportFits maps action) [StorageMap.create 4]
      [.setItem 0 1 Sample.a Sample.b, .setItem 0 2 Sample.c Sample.a] :=
    ⟨⟨trivial, trivial⟩, fun _ _ => ⟨⟨trivial, trivial⟩, fun _ _ => trivial⟩⟩
  have hrun := @run_eq_after _ _ stepMaps [StorageMap.create 4]
    [.setItem 0 1 Sample.a Sample.b, .setItem 0 2 Sample.c Sample.a] (by decide +kernel)
  obtain ⟨strings, hstrings, hall, -⟩ := storage_maps_follow_string_maps (by decide) himports hrun
  exact ⟨_, hrun, strings, hstrings, hall⟩

/-- Two items with values of the greatest length are imported.  The counter is back at zero,
and a third item is accepted though there are far more characters than the quota has room
for. -/
theorem import_wraps_the_length :
    ∃ value storage, run stepMaps [StorageMap.create 4] [.importItems 0 (Sample.twoItems value)] =
        some [storage] ∧
      Meets stepMaps ImportsNew [StorageMap.create 4]
        [.importItems 0 (Sample.twoItems value)] ∧
      storage.currentLength = 0 ∧ StringMap.characters storage.getItem = 2 ^ 32 ∧
      (storage.setItem 1 Sample.c Sample.c).quotaException = false ∧
      2 < StringMap.characters (Function.update storage.getItem Sample.c (some Sample.c)) := by
  obtain ⟨value, hvalue⟩ : ∃ value : StorageString, value.1.length = Text.maxLength :=
    ⟨⟨replicate Text.maxLength 97, length_replicate.le⟩, length_replicate⟩
  have hweight : HashMap.weight itemLength (Sample.twoItems value) = 2 ^ 32 := by
    have hentries : (Sample.twoItems value).entries = [⟨Sample.b, value⟩, ⟨Sample.a, value⟩] := rfl
    have ha : Sample.a.1.length = 1 := rfl
    have hb : Sample.b.1.length = 1 := rfl
    rw [HashMap.weight, hentries, map_cons, map_cons, map_nil, sum_cons,
      sum_cons, sum_nil, itemLength, itemLength, hvalue, ha, hb, Text.maxLength]
    omega
  obtain ⟨storage, hstorage⟩ : ∃ storage,
      storage = (StorageMap.create 4).importItems (Sample.twoItems value) := ⟨_, rfl⟩
  have hlength : storage.currentLength = 0 := by
    apply UInt32.toNat_inj.1
    rw [hstorage, StorageMap.currentLength_importItems, hweight]
    rfl
  have hmap : storage.map = Sample.twoItems value := by
    rw [hstorage]
    rfl
  have hquota : storage.quotaSize = 4 := by
    rw [hstorage]
    rfl
  have hcharacters : StringMap.characters storage.getItem = 2 ^ 32 := by
    rw [StorageMap.characters_getItem, hmap, hweight]
  have habsent : storage.map.lookup Sample.c = none := by
    rw [hmap]
    rfl
  have hmeets : Meets stepMaps ImportsNew [StorageMap.create 4]
      [.importItems 0 (Sample.twoItems value)] := by
    refine ⟨fun storage hstorage key _ => ?_, fun _ _ => trivial⟩
    cases hstorage
    exact AList.notMem_empty key
  refine ⟨value, storage, hstorage ▸ rfl, hmeets, hlength, hcharacters, ?_, ?_⟩
  · rw [StorageMap.setItem, if_neg (by decide), StorageMap.setItemUnshared, hlength, habsent,
      hquota, if_neg (by decide)]
  · have hupdate := @StorageMap.characters_update_some storage Sample.c Sample.c
    rw [hcharacters, StorageMap.getItem, habsent, Option.elim_none, Nat.add_zero] at hupdate
    omega

end PurcFetcher.WebStorage
