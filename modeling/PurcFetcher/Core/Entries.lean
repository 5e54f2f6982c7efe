import Mathlib.Data.List.Nodup

/-!
# Vectors of entries as finite maps

A vector of keys and values is searched from the front for the first key with a name.
Keys may be spelled in many ways and have the same name.  As long as no two entries have
the same name, assigning and removing are those of a finite map from names to values.
-/

namespace PurcFetcher.Entries

open List

variable {A V N : Type*} [DecidableEq N] (name : A → N)

def names (entries : List (A × V)) : List N := entries.map fun entry => name entry.1

/-- The index of the first entry with the name. -/
def findMatching (wanted : N) (entries : List (A × V)) : Option ℕ :=
  entries.findIdx? fun entry => name entry.1 = wanted

/-- The value of the first entry with the name. -/
def lookup (wanted : N) (entries : List (A × V)) : Option V :=
  (entries.find? fun entry => name entry.1 = wanted).map Prod.snd

/-- The first entry with the name of the key gets the value, or there is a new entry at
the end. -/
def assign (key : A) (value : V) (entries : List (A × V)) : List (A × V) :=
  match findMatching name (name key) entries with
  | none => entries ++ [(key, value)]
  | some index => entries.modify index fun entry => (entry.1, value)

/-- The first entry with the name of the key has its value changed, or there is a new entry
at the end. -/
def alter (key : A) (new : V) (change : V → Option V) (entries : List (A × V)) :
    Option (List (A × V)) :=
  match findMatching name (name key) entries with
  | none => some (entries ++ [(key, new)])
  | some index =>
    entries[index]?.bind fun old => (change old.2).map fun value =>
      entries.modify index fun entry => (entry.1, value)

def removeFirstMatching (wanted : N) (entries : List (A × V)) : List (A × V) :=
  entries.eraseP fun entry => name entry.1 = wanted

/-- A map that is updated with all entries whose name is accepted. -/
def overlay (accepts : N → Bool) (entries : List (A × V)) (map : N → Option V) :
    N → Option V :=
  entries.foldl (fun map entry =>
    if accepts (name entry.1) then Function.update map (name entry.1) (some entry.2)
    else map) map

variable {name} {key : A} {value : V} {wanted : N} {entries : List (A × V)}

theorem lookup_cons (entry : A × V) :
    lookup name wanted (entry :: entries) =
      if name entry.1 = wanted then some entry.2 else lookup name wanted entries := by
  rw [lookup, find?_cons]
  by_cases hname : name entry.1 = wanted
  · simp only [hname, decide_true, if_true, Option.map_some]
  · simp only [hname, decide_false, if_false]
    rfl

theorem assign_cons (entry : A × V) :
    assign name key value (entry :: entries) =
      if name entry.1 = name key then (entry.1, value) :: entries
      else entry :: assign name key value entries := by
  rw [assign, findMatching, findIdx?_cons]
  by_cases hname : name entry.1 = name key
  · simp only [hname, decide_true, if_true]
    rfl
  · grind [assign, findMatching]

@[simp]
theorem isSome_lookup_iff : (lookup name wanted entries).isSome ↔ wanted ∈ names name entries := by
  simp [lookup, names]

theorem lookup_eq_none_iff : lookup name wanted entries = none ↔ wanted ∉ names name entries := by
  rw [← isSome_lookup_iff, Option.not_isSome_iff_eq_none]

theorem isSome_findMatching :
    (findMatching name wanted entries).isSome = (lookup name wanted entries).isSome := by
  rw [Bool.eq_iff_iff]
  simp [findMatching, lookup]

/-- The loop that looks for an index finds the value of the first entry. -/
theorem getElem?_findMatching :
    (findMatching name wanted entries).bind (fun idx => entries[idx]?.map Prod.snd) =
      lookup name wanted entries := by
  induction entries with
  | nil => rfl
  | cons entry entries ih =>
    rw [lookup_cons, findMatching, findIdx?_cons]
    by_cases hname : name entry.1 = wanted
    · simp only [hname, decide_true, if_true]
      rfl
    · simp only [hname, decide_false, Bool.false_eq_true, if_false]
      rw [← ih, findMatching, Option.bind_map]
      rfl

theorem assign_of_not_mem (hnew : name key ∉ names name entries) :
    assign name key value entries = entries ++ [(key, value)] := by
  rw [assign]
  split
  · rfl
  · grind [isSome_findMatching, isSome_lookup_iff]

/-- A change in place is an assignment of the changed value. -/
theorem alter_eq_assign {change : V → Option V} :
    alter name key value change entries =
      ((lookup name (name key) entries).elim (some value) change).map fun res =>
        assign name key res entries := by
  rw [← getElem?_findMatching, alter]
  cases hfind : findMatching name (name key) entries with
  | none => grind [assign]
  | some idx =>
    have hassign : ∀ res, assign name key res entries =
        entries.modify idx fun entry => (entry.1, res) := by
      intro res
      rw [assign, hfind]
    have hidx : idx < entries.length := (findIdx?_eq_some_iff_findIdx_eq.1 hfind).1
    simp only [Option.bind_some, getElem?_eq_getElem hidx, Option.map_some,
      Option.elim_some, hassign]

/-- An assignment is seen under its own name only. -/
@[simp]
theorem lookup_assign :
    lookup name wanted (assign name key value entries) =
      if name key = wanted then some value else lookup name wanted entries := by
  induction entries with
  | nil => exact lookup_cons (key, value)
  | cons entry entries ih => grind [assign_cons, lookup_cons]

/-- A name keeps its place, and a new one is last. -/
theorem names_assign :
    names name (assign name key value entries) =
      if name key ∈ names name entries then names name entries
      else names name entries ++ [name key] := by
  induction entries with
  | nil => rfl
  | cons entry entries ih => grind [assign_cons, names]

theorem nodup_assign (hnodup : (names name entries).Nodup) :
    (names name (assign name key value entries)).Nodup := by
  rw [names_assign]
  split
  · exact hnodup
  · grind

theorem mem_names_assign :
    wanted ∈ names name (assign name key value entries) ↔
      wanted = name key ∨ wanted ∈ names name entries := by
  rw [← isSome_lookup_iff, lookup_assign, ← isSome_lookup_iff]
  by_cases hwanted : name key = wanted
  · simp [hwanted]
  · simp [hwanted, Ne.symm hwanted]

theorem removeFirstMatching_cons (entry : A × V) :
    removeFirstMatching name wanted (entry :: entries) =
      if name entry.1 = wanted then entries
      else entry :: removeFirstMatching name wanted entries := by
  rw [removeFirstMatching, eraseP_cons]
  by_cases hname : name entry.1 = wanted
  · simp only [hname, decide_true, cond_true, if_true]
  · simp only [hname, decide_false, cond_false, if_false]
    rfl

theorem names_removeFirstMatching_sublist :
    (names name (removeFirstMatching name wanted entries)).Sublist (names name entries) :=
  eraseP_sublist.map _

/-- With distinct names the first entry with a name is the only one. -/
theorem lookup_removeFirstMatching (hnodup : (names name entries).Nodup) (other : N) :
    lookup name other (removeFirstMatching name wanted entries) =
      if wanted = other then none else lookup name other entries := by
  induction entries with
  | nil =>
    rw [ite_eq_left_iff.2]
    · rfl
    · exact fun _ => rfl
  | cons entry entries ih =>
    obtain ⟨hnew, hrest⟩ := nodup_cons.1 hnodup
    by_cases hname : name entry.1 = wanted
    · rw [removeFirstMatching_cons, if_pos hname, lookup_cons, hname]
      by_cases hother : wanted = other
      · rw [if_pos hother, lookup_eq_none_iff, ← hother, ← hname]
        exact hnew
      · rw [if_neg hother, if_neg hother]
    · rw [removeFirstMatching_cons, if_neg hname, lookup_cons, lookup_cons, ih hrest]
      by_cases hother : wanted = other
      · grind
      · rw [if_neg hother, if_neg hother]

/-- The first of two lists hides the second. -/
theorem lookup_append (first second : List (A × V)) :
    lookup name wanted (first ++ second) =
      (lookup name wanted first).or (lookup name wanted second) := by
  simp only [lookup, find?_append, Option.map_or]

/-- With distinct names an entry is not overwritten by a later one. -/
theorem overlay_apply {accepts : N → Bool} (hnodup : (names name entries).Nodup)
    (map : N → Option V) :
    overlay name accepts entries map wanted =
      if accepts wanted then (lookup name wanted entries).or (map wanted) else map wanted := by
  induction entries generalizing map with
  | nil => exact (ite_self _).symm
  | cons entry entries ih =>
    obtain ⟨hnew, hrest⟩ := nodup_cons.1 hnodup
    rw [overlay, foldl_cons, ← overlay, ih hrest, lookup_cons]
    by_cases hname : name entry.1 = wanted
    · have hnone : lookup name wanted entries = none := lookup_eq_none_iff.2 (hname ▸ hnew)
      rw [hnone, if_pos hname, hname]
      by_cases haccepts : accepts wanted
      · simp [haccepts]
      · simp [haccepts]
    · grind

theorem perm_cons_eraseP {choose : A → Bool} {list : List A} {chosen : A}
    (hfind : list.find? choose = some chosen) : list.Perm (chosen :: list.eraseP choose) := by
  obtain ⟨hchosen, before, after, rfl, hbefore⟩ := find?_eq_some_iff_append.1 hfind
  rw [eraseP_append_right _ fun other hother => by simpa using hbefore other hother,
    eraseP_cons_of_pos hchosen]
  exact perm_middle

end PurcFetcher.Entries
