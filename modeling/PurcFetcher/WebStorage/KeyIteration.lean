import PurcFetcher.WebStorage.StorageMap

/-!
# The keys of a storage map by index

`key` walks an iterator of the hash table forward from where the last call left it, or from the
start if the index lies behind.  A change of the map drops the iterator.  An import does not.
-/

namespace PurcFetcher.WebStorage

open Machine List

/-- A storage map with the order of its table. -/
structure IteratedMap where
  storage : StorageMap
  /-- The keys in the order of their buckets. -/
  order : List StorageString
  /-- `m_iteratorIndex`, unless it is `UINT_MAX`, and the key at `m_iterator`, unless it is at
  the end. -/
  iterator : Option (ℕ × Option StorageString)

namespace IteratedMap

def nextKey (order : List StorageString) (key : StorageString) : Option StorageString :=
  order[order.idxOf key + 1]?

/-- The loop of `setIteratorToIndex`. -/
def walk (order : List StorageString) : ℕ → Option StorageString → Option StorageString
  | 0, iterator => iterator
  | steps + 1, iterator => walk order steps (iterator.bind (nextKey order))

def setIteratorToIndex (state : IteratedMap) (index : ℕ) : Option StorageString :=
  match state.iterator with
  | some (current, iterator) =>
    if current ≤ index then walk state.order (index - current) iterator
    else walk state.order index state.order.head?
  | none => walk state.order index state.order.head?

def length (state : IteratedMap) : ℕ := state.storage.map.keys.length

/-- There is no key at the end of the table. -/
def key (state : IteratedMap) (index : ℕ) : IteratedMap × Option StorageString :=
  if index ≥ state.length then (state, none)
  else
    ({ state with iterator := some (index, state.setIteratorToIndex index) },
      state.setIteratorToIndex index)

/-- The results of the calls of `key` for the indices, one after the other. -/
def keysAt : IteratedMap → List ℕ → List (Option StorageString)
  | _, [] => []
  | state, index :: indices => (state.key index).2 :: keysAt (state.key index).1 indices

/-- A call on the map, with the order of the table after it. -/
inductive Action where
  | setItem (refCount : ℕ) (key value : StorageString) (order : List StorageString)
  | setItemIgnoringQuota (refCount : ℕ) (key value : StorageString) (order : List StorageString)
  | removeItem (refCount : ℕ) (key : StorageString) (order : List StorageString)
  | importItems (items : HashMap StorageString StorageString) (order : List StorageString)
  | key (index : ℕ)

def place (storage : StorageMap) (iterator : Option (ℕ × Option StorageString))
    (order : List StorageString) : Option IteratedMap :=
  if order.isPerm storage.map.keys then some ⟨storage, order, iterator⟩ else none

/-- `invalidateIterator`, unless the call leaves this map as it is. -/
def change (state : IteratedMap) (outcome : StorageMap.Outcome) (same : Bool)
    (order : List StorageString) : Option IteratedMap :=
  if outcome.returned.isSome || same then some state else place outcome.this none order

/-- An import leaves the iterator at its bucket. -/
def step (state : IteratedMap) : Action → Option IteratedMap
  | .setItem refCount key value order =>
    let outcome := state.storage.setItem refCount key value
    state.change outcome outcome.quotaException order
  | .setItemIgnoringQuota refCount key value order =>
    let outcome := state.storage.setItemIgnoringQuota refCount key value
    state.change outcome outcome.quotaException order
  | .removeItem refCount key order =>
    let outcome := state.storage.removeItem refCount key
    state.change outcome outcome.oldValue.isNone order
  | .importItems items order => place (state.storage.importItems items) state.iterator order
  | .key index => some (state.key index).1

def create (quota : UInt32) : IteratedMap := ⟨.create quota, [], none⟩

/-- Items are imported while no iterator is kept. -/
def importsWithoutIterator (state : IteratedMap) : Action → Bool
  | .importItems _ _ => state.iterator.isNone
  | _ => true

/-- The iterator is where its index says. -/
structure Sound (state : IteratedMap) : Prop where
  order : state.order.Perm state.storage.map.keys
  iterator : ∀ index iterator, state.iterator = some (index, iterator) →
    iterator = state.order[index]?

variable {state next : IteratedMap}

theorem walk_eq {order : List StorageString} (hnodup : order.Nodup) (steps start : ℕ) :
    walk order steps order[start]? = order[start + steps]? := by
  induction steps generalizing start with
  | zero => rfl
  | succ steps ih =>
    have hnext : order[start]?.bind (nextKey order) = order[start + 1]? := by
      cases hkey : order[start]? with
      | none => exact (getElem?_eq_none (Nat.le_succ_of_le (getElem?_eq_none_iff.1 hkey))).symm
      | some =>
        obtain ⟨hstart, rfl⟩ := List.getElem?_eq_some_iff.1 hkey
        rw [Option.bind_some, nextKey, hnodup.idxOf_getElem]
    rw [walk, hnext, ih, Nat.add_right_comm]
    rfl

namespace Sound

section

variable (hsound : state.Sound)
include hsound

theorem nodup : state.order.Nodup := hsound.order.nodup_iff.2 state.storage.map.keys_nodup

theorem setIteratorToIndex (idx : ℕ) :
    state.setIteratorToIndex idx = state.order[idx]? := by
  have hstart : walk state.order idx state.order.head? = state.order[idx]? := by
    rw [head?_eq_getElem?, walk_eq hsound.nodup, Nat.zero_add]
  rw [IteratedMap.setIteratorToIndex]
  split
  · next cur iterator hiterator =>
    split
    · next hle =>
      rw [hsound.iterator cur iterator hiterator, walk_eq hsound.nodup, Nat.add_sub_cancel' hle]
    · exact hstart
  · exact hstart

/-- Each call of `key` returns the key at its index, and the iterator stays sound. -/
theorem key {idx : ℕ} (hidx : idx < state.length) :
    (state.key idx).2 = state.order[idx]? ∧ (state.key idx).1.Sound ∧
      (state.key idx).1.order = state.order ∧ (state.key idx).1.length = state.length := by
  rw [IteratedMap.key, if_neg (Nat.not_le.2 hidx)]
  have hiterator := hsound.setIteratorToIndex idx
  refine ⟨hiterator, ⟨hsound.order, ?_⟩, rfl, rfl⟩
  rintro _ _ ⟨⟩
  exact hiterator

theorem keysAt {indices : List ℕ}
    (hindices : ∀ idx ∈ indices, idx < state.length) :
    state.keysAt indices = indices.map fun idx => state.order[idx]? := by
  induction indices generalizing state with
  | nil => rfl
  | cons idx indices ih =>
    obtain ⟨hfirst, hrest⟩ := forall_mem_cons.1 hindices
    obtain ⟨hkey, hnext, horder, hlen⟩ := hsound.key hfirst
    rw [IteratedMap.keysAt, hkey, map_cons, ih hnext (hlen ▸ hrest), horder]

end

theorem place {storage : StorageMap} {order : List StorageString}
    (hplace : place storage none order = some next) : next.Sound := by
  obtain ⟨hperm, ⟨⟩⟩ := Option.ite_none_right_eq_some.1 hplace
  exact ⟨isPerm_iff.1 hperm, fun _ _ hnone => absurd hnone.symm (Option.some_ne_none _)⟩

theorem step (hsound : state.Sound) {action : Action}
    (himports : state.importsWithoutIterator action = true)
    (hstep : state.step action = some next) : next.Sound := by
  cases action with
  | setItem | setItemIgnoringQuota | removeItem =>
    rw [IteratedMap.step, change] at hstep
    split at hstep
    · exact Option.some.inj hstep ▸ hsound
    · exact .place hstep
  | importItems =>
    rw [IteratedMap.step, Option.isNone_iff_eq_none.1 himports] at hstep
    exact .place hstep
  | key idx =>
    cases hstep
    by_cases hidx : idx < state.length
    · exact (hsound.key hidx).2.1
    · rw [IteratedMap.key, if_pos (Nat.not_lt.1 hidx)]
      exact hsound

end Sound

/-- If items are imported only while no iterator is kept, calling `key` for all indices, in any
order, returns every key once. -/
theorem keysAt_perm {quota : UInt32} {actions : List Action}
    (himports : Meets step (fun state action => state.importsWithoutIterator action = true)
      (create quota) actions)
    (hrun : run step (create quota) actions = some state) {indices : List ℕ}
    (hindices : indices.Perm (range state.length)) :
    (state.keysAt indices).Perm (state.storage.map.keys.map some) := by
  have hsound : state.Sound := by
    refine run_of_step (fun hsound himports hstep => Sound.step hsound himports hstep) ?_
      himports hrun
    exact ⟨.refl _, fun _ _ hnone => absurd hnone.symm (Option.some_ne_none _)⟩
  rw [hsound.keysAt fun index hindex => mem_range.1 (hindices.mem_iff.1 hindex)]
  refine (hindices.map _).trans (.trans (.of_eq ?_) (hsound.order.map some))
  rw [length, ← hsound.order.length_eq]
  refine ext_getElem (by rw [length_map, length_map, length_range]) fun index _ hindex => ?_
  rw [getElem_map, getElem_map, getElem_range, getElem?_eq_getElem]

theorem keysAt_perm_backwards :
    ∃ state, run step (create 100) [.setItem 1 Sample.a Sample.b [Sample.a], .key 0,
        .setItem 1 Sample.c Sample.a [Sample.c, Sample.a], .key 1] = some state ∧
      state.order = [Sample.c, Sample.a] ∧
      (state.keysAt [1, 0]).Perm (state.storage.map.keys.map some) := by
  refine ⟨_, run_eq_after (by decide +kernel), by decide +kernel, ?_⟩
  exact keysAt_perm (by decide +kernel) (run_eq_after (by decide +kernel)) (by decide +kernel)

/-- After an import before the iterator's bucket, the first index still returns the key that was
first, the second one is at the end, and the imported key is never returned. -/
theorem imported_key_never_returned :
    ∃ state, run step (create 100) [.setItem 1 Sample.a Sample.b [Sample.a], .key 0,
        .importItems (AList.singleton Sample.b Sample.b) [Sample.b, Sample.a]] = some state ∧
      Sample.b ∈ state.storage.map ∧ state.length = 2 ∧
      state.keysAt [0, 1] = [some Sample.a, none] := by
  refine ⟨_, run_eq_after (by decide +kernel), ?_⟩
  decide +kernel

end IteratedMap

end PurcFetcher.WebStorage
