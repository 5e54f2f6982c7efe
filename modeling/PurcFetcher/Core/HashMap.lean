import Mathlib.Algebra.BigOperators.Finprod
import Mathlib.Data.List.AList

/-!
# Hash maps

A hash map is a list of entries with distinct keys, whose order nothing depends on.  Apart
from what is looked up in it, it is known by the sum of a weight of its entries.
-/

namespace PurcFetcher

open List

abbrev HashMap (K V : Type*) := AList fun _ : K => V

namespace HashMap

variable {K V : Type*} [DecidableEq K]

/-- The entry is added only if there is none for its key. -/
def add (key : K) (value : V) (map : HashMap K V) : HashMap K V :=
  if key ∈ map then map else map.insert key value

def addAll (entries : List ((_ : K) × V)) (map : HashMap K V) : HashMap K V :=
  entries.foldl (fun map entry => add entry.1 entry.2 map) map

def eraseAll (keys : List K) (map : HashMap K V) : HashMap K V :=
  keys.foldl (fun map key => map.erase key) map

def insertAll (entries : List (K × V)) (map : HashMap K V) : HashMap K V :=
  entries.foldl (fun map entry => map.insert entry.1 entry.2) map

def weight (weigh : K → V → ℕ) (map : HashMap K V) : ℕ :=
  (map.entries.map fun entry => weigh entry.1 entry.2).sum

def filter (keep : K → Bool) (map : HashMap K V) : HashMap K V where
  entries := map.entries.filter fun entry => keep entry.1
  nodupKeys := map.nodupKeys.sublist List.filter_sublist

omit [DecidableEq K] in
theorem nodupKeys_mapValues {W : Type*} {change : V → W} {entries : List ((_ : K) × V)}
    (hdistinct : entries.NodupKeys) :
    (entries.map fun entry => (⟨entry.1, change entry.2⟩ : (_ : K) × W)).NodupKeys := by
  rw [List.NodupKeys, List.keys, map_map]
  exact hdistinct

def mapValues {W : Type*} (change : V → W) (map : HashMap K V) : HashMap K W where
  entries := map.entries.map fun entry => ⟨entry.1, change entry.2⟩
  nodupKeys := nodupKeys_mapValues map.nodupKeys

variable {map : HashMap K V} {key other : K} {val : V} {weigh : K → V → ℕ}

theorem lookup_insert_eq_ite (other : K) :
    (map.insert key val).lookup other = if other = key then some val else map.lookup other := by
  split
  · next heq =>
    subst heq
    exact AList.lookup_insert map
  · next hne => exact AList.lookup_insert_ne hne

theorem lookup_erase_eq_ite (other : K) :
    (map.erase key).lookup other = if other = key then none else map.lookup other := by
  split
  · next heq =>
    subst heq
    exact AList.lookup_erase other map
  · next hne => exact AList.lookup_erase_ne hne

theorem lookup_add (other : K) :
    (add key val map).lookup other =
      (map.lookup other).or (if other = key then some val else none) := by
  rw [add]
  split
  · next hmem =>
    by_cases heq : other = key
    · obtain ⟨held, hheld⟩ := Option.isSome_iff_exists.1 (AList.lookup_isSome.2 hmem)
      rw [heq, hheld]
      rfl
    · rw [if_neg heq, Option.or_none]
  · next hmem =>
    rw [lookup_insert_eq_ite]
    by_cases heq : other = key
    · rw [if_pos heq, if_pos heq, heq, AList.lookup_eq_none.2 hmem]
      rfl
    · rw [if_neg heq, if_neg heq, Option.or_none]

/-- Entries that are added do not replace any. -/
theorem lookup_addAll (entries : List ((_ : K) × V)) :
    (addAll entries map).lookup key = (map.lookup key).or (entries.dlookup key) := by
  induction entries generalizing map with
  | nil => exact Option.or_none.symm
  | cons entry entries ih =>
    obtain ⟨first, held⟩ := entry
    change (addAll entries (add first held map)).lookup key = _
    rw [ih, lookup_add, Option.or_assoc]
    by_cases heq : key = first
    · subst heq
      rw [if_pos rfl, dlookup_cons_eq]
      rfl
    · rw [if_neg heq, dlookup_cons_ne _ _ heq]
      rfl

/-- An erased entry takes its weight with it. -/
theorem weight_erase_add :
    weight weigh (map.erase key) + (map.lookup key).elim 0 (weigh key) = weight weigh map := by
  obtain ⟨entries, hdistinct⟩ := map
  change ((entries.kerase key).map _).sum + (entries.dlookup key).elim 0 (weigh key) =
    (entries.map fun entry => weigh entry.1 entry.2).sum
  clear hdistinct
  induction entries with
  | nil => rfl
  | cons entry entries ih =>
    obtain ⟨first, held⟩ := entry
    by_cases heq : key = first
    · subst heq
      have herase : kerase key (⟨key, held⟩ :: entries) = entries := kerase_cons_eq rfl
      rw [herase, dlookup_cons_eq, Option.elim_some, Nat.add_comm]
      rfl
    · rw [kerase_cons_ne heq, dlookup_cons_ne _ _ heq, map_cons, sum_cons, Nat.add_assoc, ih]
      rfl

/-- What is left after several keys were erased. -/
theorem lookup_eraseAll (keys : List K) :
    (eraseAll keys map).lookup key = if key ∈ keys then none else map.lookup key := by
  induction keys generalizing map with
  | nil => exact (if_neg not_mem_nil).symm
  | cons first keys ih =>
    change (eraseAll keys (map.erase first)).lookup key = _
    rw [ih, lookup_erase_eq_ite]
    by_cases hkeys : key ∈ keys
    · rw [if_pos hkeys, if_pos (mem_cons_of_mem _ hkeys)]
    · grind

theorem mem_eraseAll {keys : List K} : key ∈ eraseAll keys map ↔ key ∉ keys ∧ key ∈ map := by
  rw [← AList.lookup_isSome, lookup_eraseAll, ← AList.lookup_isSome]
  by_cases hkeys : key ∈ keys
  · rw [if_pos hkeys]
    exact iff_of_false Bool.false_ne_true fun hkept => hkept.1 hkeys
  · rw [if_neg hkeys]
    exact (and_iff_right hkeys).symm

theorem erase_insert :
    (map.insert key val).erase other =
      if other = key then map.erase key else (map.erase other).insert key val := by
  split
  · next heq =>
    subst heq
    exact AList.ext (kerase_cons_eq rfl)
  · next hne =>
    refine AList.ext ((kerase_cons_ne hne).trans ?_)
    exact congrArg (_ :: ·) (kerase_comm _ _ _)

/-- An insertion before keys are erased counts only for another key. -/
theorem eraseAll_insert (keys : List K) :
    eraseAll keys (map.insert key val) =
      if key ∈ keys then eraseAll keys map else (eraseAll keys map).insert key val := by
  induction keys generalizing map with
  | nil => exact (if_neg not_mem_nil).symm
  | cons first keys ih =>
    change eraseAll keys ((map.insert key val).erase first) = _
    rw [erase_insert]
    by_cases hfirst : first = key
    · rw [if_pos hfirst, if_pos (mem_cons.2 (.inl hfirst.symm)), hfirst]
      rfl
    · rw [if_neg hfirst, ih]
      exact ite_congr (by simp [Ne.symm hfirst]) (fun _ => rfl) fun _ => rfl

/-- What is inserted under a key that is erased does not matter. -/
theorem eraseAll_insertAll (keys : List K) (entries : List (K × V)) :
    eraseAll keys (insertAll entries map) =
      insertAll (entries.filter fun entry => entry.1 ∉ keys) (eraseAll keys map) := by
  induction entries generalizing map with
  | nil => rfl
  | cons entry entries ih =>
    change eraseAll keys (insertAll entries (map.insert entry.1 entry.2)) = _
    rw [ih, eraseAll_insert, filter_cons]
    by_cases hkeys : entry.1 ∈ keys
    · rw [if_pos hkeys, if_neg (by simpa using hkeys)]
    · rw [if_neg hkeys, if_pos (by simpa using hkeys)]
      rfl

theorem mem_insertAll {entries : List (K × V)} :
    key ∈ insertAll entries map ↔ key ∈ entries.map Prod.fst ∨ key ∈ map := by
  induction entries generalizing map with
  | nil => exact (or_iff_right not_mem_nil).symm
  | cons entry entries ih =>
    change key ∈ insertAll entries (map.insert entry.1 entry.2) ↔ _
    rw [ih, AList.mem_insert, map_cons, mem_cons]
    tauto

theorem weight_eraseAll_add {keys : List K} (hdistinct : keys.Nodup) :
    weight weigh (eraseAll keys map) +
        (keys.map fun key => (map.lookup key).elim 0 (weigh key)).sum = weight weigh map := by
  induction keys generalizing map with
  | nil => rfl
  | cons first keys ih =>
    obtain ⟨hnew, hrest⟩ := nodup_cons.1 hdistinct
    have hsame : keys.map (fun key => ((map.erase first).lookup key).elim 0 (weigh key)) =
        keys.map fun key => (map.lookup key).elim 0 (weigh key) := by
      refine map_congr_left fun key hkey => ?_
      have hne : key ≠ first := fun heq => hnew (heq ▸ hkey)
      rw [AList.lookup_erase_ne hne]
    have hfirst := @weight_erase_add _ _ _ map first weigh
    have hkeys := @ih (map.erase first) hrest
    rw [hsame] at hkeys
    rw [eraseAll, foldl_cons, map_cons, sum_cons]
    change weight weigh (eraseAll keys (map.erase first)) + _ = _
    omega

/-- An insertion takes the weight of the old entry and adds its own. -/
theorem weight_insert_add :
    weight weigh (map.insert key val) + (map.lookup key).elim 0 (weigh key) =
      weight weigh map + weigh key val := by
  rw [← @weight_erase_add _ _ _ map key weigh, weight, AList.entries_insert, map_cons, sum_cons]
  change weigh key val + weight weigh (map.erase key) + _ = _
  omega

theorem weight_of_lookup (hheld : map.lookup key = some val) :
    weigh key val ≤ weight weigh map := by
  have herase := @weight_erase_add _ _ _ map key weigh
  rw [hheld, Option.elim_some] at herase
  omega

theorem support_weigh_subset : Function.support (fun key => (map.lookup key).elim 0 (weigh key)) ⊆
      (map.keys.toFinset : Set K) := by
  intro key hkey
  rw [coe_toFinset, Set.mem_ofPred_eq, ← AList.mem_keys, ← AList.lookup_isSome]
  by_contra hnone
  rw [Option.not_isSome_iff_eq_none] at hnone
  exact hkey (congrArg (fun held => held.elim 0 (weigh key)) hnone)

/-- The weight as a sum over all keys. -/
theorem weight_eq_finsum : weight weigh map = ∑ᶠ key, (map.lookup key).elim 0 (weigh key) := by
  rw [finsum_eq_sum_of_support_subset _ support_weigh_subset, sum_toFinset _ map.keys_nodup, weight]
  change _ = ((map.entries.map Sigma.fst).map _).sum
  rw [map_map]
  apply congrArg List.sum
  refine map_congr_left fun entry hentry => ?_
  have hlookup : map.lookup entry.1 = some entry.2 := AList.mem_lookup_iff.2 hentry
  change _ = (map.lookup entry.1).elim 0 (weigh entry.1)
  rw [hlookup, Option.elim_some]

/-- The weight of two maps that have no key in common. -/
theorem finsum_or_of_disjoint {others : HashMap K V}
    (hdisjoint : ∀ key ∈ others, key ∉ map) :
    ∑ᶠ key, ((others.lookup key).or (map.lookup key)).elim 0 (weigh key) =
      weight weigh others + weight weigh map := by
  have hfinite : ∀ tbl : HashMap K V,
      (Function.support fun key => (tbl.lookup key).elim 0 (weigh key)).Finite :=
    fun tbl => Set.Finite.subset (Finset.finite_toSet _) support_weigh_subset
  rw [weight_eq_finsum, weight_eq_finsum, ← finsum_add_distrib (hfinite others) (hfinite map)]
  refine finsum_congr fun key => ?_
  cases hheld : others.lookup key with
  | none => rw [Option.none_or, Option.elim_none, Nat.zero_add]
  | some =>
    have hmem : key ∈ others := AList.lookup_isSome.1 (hheld ▸ rfl)
    rw [Option.some_or, AList.lookup_eq_none.2 (hdisjoint key hmem)]
    rfl

theorem lookup_filter (keep : K → Bool) :
    (filter keep map).lookup key = if keep key then map.lookup key else none := by
  obtain ⟨entries, hdistinct⟩ := map
  change (entries.filter fun entry => keep entry.1).dlookup key =
    if _ then entries.dlookup key else _
  clear hdistinct
  induction entries with
  | nil => exact (ite_self none).symm
  | cons entry entries ih =>
    obtain ⟨first, held⟩ := entry
    by_cases heq : key = first
    · grind
    · grind

section MapValues

variable {W : Type*} (change : V → W)

theorem kerase_map (entries : List ((_ : K) × V)) :
    List.kerase key (entries.map fun entry => (⟨entry.1, change entry.2⟩ : (_ : K) × W)) =
      (List.kerase key entries).map fun entry => ⟨entry.1, change entry.2⟩ :=
  eraseP_map

theorem mapValues_erase : mapValues change (map.erase key) = (mapValues change map).erase key :=
  AList.ext (kerase_map change map.entries).symm

theorem mapValues_insert :
    mapValues change (map.insert key val) = (mapValues change map).insert key (change val) := by
  apply AList.ext
  change _ :: _ = _ :: _
  rw [mapValues, kerase_map]

theorem mapValues_eraseAll (keys : List K) :
    mapValues change (eraseAll keys map) = eraseAll keys (mapValues change map) := by
  induction keys generalizing map with
  | nil => rfl
  | cons key keys ih =>
    change mapValues change (eraseAll keys (map.erase key)) =
      eraseAll keys ((mapValues change map).erase key)
    rw [ih, mapValues_erase]

omit [DecidableEq K] in
/-- Weighing changed values is weighing by the change. -/
theorem weight_mapValues (weigh : K → W → ℕ) :
    weight weigh (mapValues change map) = weight (fun key val => weigh key (change val)) map :=
  congrArg List.sum map_map

end MapValues

end HashMap

end PurcFetcher
