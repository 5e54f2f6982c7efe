import PurcFetcher.WebStorage.StorageMap

/-!
# Storage maps that areas share

A clone of a storage area refers to the same map.  A call on a map with other references works
on a copy, which the area then installs.
-/

namespace PurcFetcher.WebStorage

open Machine List

/-- A storage area with the address of its map. -/
structure Holder where
  map : ℕ
  quotaInBytes : UInt32
deriving DecidableEq

structure Sharing where
  maps : ℕ → StorageMap
  holders : List Holder

inductive MapCall where
  | setItem (key value : StorageString)
  | setItemIgnoringQuota (key value : StorageString)
  | removeItem (key : StorageString)

namespace MapCall

def apply (storage : StorageMap) (refCount : ℕ) : MapCall → StorageMap.Outcome
  | .setItem key value => storage.setItem refCount key value
  | .setItemIgnoringQuota key value => storage.setItemIgnoringQuota refCount key value
  | .removeItem key => storage.removeItem refCount key

def ignoresQuota : MapCall → Bool
  | .setItemIgnoringQuota _ _ => true
  | _ => false

end MapCall

namespace Sharing

inductive Action where
  | clone (index : ℕ)
  | call (index : ℕ) (call : MapCall)
  /-- `StorageArea::clear`, for a client only if there are items. -/
  | clear (index : ℕ) (client : Bool)

def Action.index : Action → ℕ
  | .clone index | .call index _ | .clear index _ => index

/-- Some holders of one map. -/
def share (storage : StorageMap) (count : ℕ) : Sharing where
  maps := fun _ => storage
  holders := replicate count ⟨0, storage.quotaSize⟩

/-- The references to the holder's map, its own and those of others. -/
def refCount (state : Sharing) (index : ℕ) (holder : Holder) : ℕ :=
  1 + ((state.holders.eraseIdx index).map Holder.map).count holder.map

/-- An address that no holder refers to. -/
def fresh (state : Sharing) : ℕ := (state.holders.map Holder.map).sum + 1

def install (state : Sharing) (index : ℕ) (holder : Holder) (storage : StorageMap) : Sharing where
  maps := Function.update state.maps state.fresh storage
  holders := state.holders.set index { holder with map := state.fresh }

def write (state : Sharing) (map : ℕ) (storage : StorageMap) : Sharing :=
  { state with maps := Function.update state.maps map storage }

def call (state : Sharing) (index : ℕ) (holder : Holder) (call : MapCall) : Sharing :=
  let outcome := call.apply (state.maps holder.map) (state.refCount index holder)
  let written := state.write holder.map outcome.this
  match outcome.returned with
  | none => written
  | some copied => written.install index holder copied

def clear (state : Sharing) (index : ℕ) (holder : Holder) (client : Bool) : Sharing :=
  if client && (state.maps holder.map).map.entries.isEmpty then state
  else state.install index holder (.create holder.quotaInBytes)

def step (state : Sharing) (action : Action) : Option Sharing :=
  state.holders[action.index]?.map fun holder =>
    match action with
    | .clone _ => { state with holders := state.holders ++ [holder] }
    | .call index call => state.call index holder call
    | .clear index client => state.clear index holder client

/-- The map of each holder. -/
def held (state : Sharing) : List StorageMap :=
  state.holders.map fun holder => state.maps holder.map

/-- The items and the length of a map. -/
def contents (storage : StorageMap) : HashMap StorageString StorageString × UInt32 :=
  (storage.map, storage.currentLength)

/-- What an unshared map has after the action. -/
def alone (storage : StorageMap) : Action → StorageMap
  | .clone _ => storage
  | .call _ call => (call.apply storage 1).this
  | .clear _ client =>
    if client && storage.map.entries.isEmpty then storage else .create storage.quotaSize

/-- The action changes the holder's contents as those of an unshared map, and no other holder's. -/
def Isolates (state : Sharing) (action : Action) (next : Sharing) : Prop :=
  ∀ index storage, state.held[index]? = some storage → next.held[index]?.map contents =
    some (contents (if index = action.index then alone storage action else storage))

/-- The quota is ignored only on maps that are not shared. -/
def ignoresUnshared (state : Sharing) : Action → Bool
  | .call index call => !call.ignoresQuota ||
    state.holders[index]?.all fun holder => state.refCount index holder ≤ 1
  | _ => true

def KeepsQuota (state : Sharing) : Prop :=
  ∀ holder ∈ state.holders, (state.maps holder.map).quotaSize = holder.quotaInBytes

/-- A call on a shared map leaves it and returns a copy with what an unshared map would have. -/
theorem apply_spec (storage : StorageMap) (refCount : ℕ) (call : MapCall) :
    ∃ cur, contents cur = contents (call.apply storage 1).this ∧
      (call.ignoresQuota = false ∨ ¬ refCount > 1 → cur.quotaSize = storage.quotaSize) ∧
      if refCount > 1 then (call.apply storage refCount).this = storage ∧
        (call.apply storage refCount).returned = some cur
      else (call.apply storage refCount).this = cur ∧
        (call.apply storage refCount).returned = none := by
  have hset : ∀ (storage : StorageMap) key val,
      (storage.setItemUnshared key val).this.quotaSize = storage.quotaSize ∧
        (storage.setItemUnshared key val).returned = none := by
    intro storage key val
    rw [StorageMap.setItemUnshared]
    generalize (if (storage.map.lookup key).isNone then key.length else 0) = adjustedKeyLength
    split <;> exact ⟨rfl, rfl⟩
  by_cases hshared : refCount > 1
  · simp only [if_pos hshared]
    cases call with
    | setItem key val =>
      simp only [MapCall.apply, StorageMap.setItem, if_pos hshared]
      exact ⟨_, rfl, fun _ => (hset storage key val).1, trivial, rfl⟩
    | setItemIgnoringQuota =>
      simp only [MapCall.apply, StorageMap.setItemIgnoringQuota, StorageMap.setItem, if_pos hshared]
      refine ⟨_, ?_, fun hkeeps => ?_, trivial, rfl⟩
      · rfl
      · exact hkeeps.elim (absurd · Bool.false_ne_true.symm) (absurd hshared)
    | removeItem =>
      simp only [MapCall.apply, StorageMap.removeItem, if_pos hshared]
      exact ⟨_, rfl, fun _ => rfl, trivial, rfl⟩
  · simp only [if_neg hshared]
    cases call with
    | setItem key val => grind [MapCall.apply, StorageMap.setItem]
    | setItemIgnoringQuota key val =>
      grind [MapCall.apply, StorageMap.setItemIgnoringQuota, StorageMap.setItem]
    | removeItem =>
      simp only [MapCall.apply, StorageMap.removeItem, if_neg hshared]
      exact ⟨_, rfl, fun _ => rfl, rfl, rfl⟩

variable {state next : Sharing} {index : ℕ} {holder : Holder} (storage : StorageMap)

theorem held_write (hrefs : ¬ state.refCount index holder > 1)
    (hholder : state.holders[index]? = some holder) :
    (state.write holder.map storage).held = state.held.set index storage := by
  obtain ⟨hidx, hheld⟩ := List.getElem?_eq_some_iff.1 hholder
  have hnone : holder.map ∉ (state.holders.eraseIdx index).map Holder.map := fun hmem =>
    hrefs (Nat.add_lt_add_left (count_pos_iff.2 hmem) 1)
  apply ext_getElem?
  intro other
  change (state.holders.map fun second => Function.update state.maps holder.map storage
    second.map)[other]? = ((state.holders.map _).set index storage)[other]?
  by_cases hsame : index = other
  · grind
  · rw [getElem?_set_ne hsame, getElem?_map, getElem?_map]
    refine Option.map_congr fun second hsecond => Function.update_of_ne (fun hmap => hnone ?_) _ _
    exact mem_map.2 ⟨second, mem_eraseIdx_iff_getElem?.2 ⟨other, Ne.symm hsame, hsecond⟩, hmap⟩

theorem ne_fresh {other : Holder} (hother : other ∈ state.holders) : other.map ≠ state.fresh :=
  (Nat.lt_succ_of_le (le_sum_of_mem (mem_map_of_mem hother))).ne

theorem held_install :
    (state.install index holder storage).held = state.held.set index storage := by
  rw [held, held, install, map_set]
  dsimp only
  rw [Function.update_self]
  apply congrArg (List.set · index storage)
  exact map_congr_left fun other hother => Function.update_of_ne (ne_fresh hother) _ _

/-- Every action but a clone replaces the map of one holder. -/
theorem Isolates.of_set {action : Action} (hheld : next.held = state.held.set action.index storage)
    (hcontents : ∀ before, state.held[action.index]? = some before →
      contents storage = contents (alone before action)) : state.Isolates action next := by
  intro other before hbefore
  rw [hheld]
  by_cases hsame : other = action.index
  · grind
  · rw [if_neg hsame, getElem?_set_ne (Ne.symm hsame), hbefore, Option.map_some]

theorem keepsQuota_install (hkeeps : state.KeepsQuota)
    (hquota : storage.quotaSize = holder.quotaInBytes) :
    (state.install index holder storage).KeepsQuota := by
  intro other hother
  rcases mem_or_eq_of_mem_set hother with hold | rfl
  · exact (congrArg _ (Function.update_of_ne (ne_fresh hold) _ _)).trans (hkeeps other hold)
  · exact (congrArg _ (Function.update_self _ _ _)).trans hquota

theorem keepsQuota_write (hkeeps : state.KeepsQuota) {map : ℕ}
    (hquota : storage.quotaSize = (state.maps map).quotaSize) :
    (state.write map storage).KeepsQuota := by
  intro other hother
  rw [← hkeeps other hother]
  change (Function.update state.maps map storage other.map).quotaSize = _
  rw [Function.update_apply]
  split
  · next hsame => rw [hquota, hsame]
  · rfl

theorem step_spec {action : Action} (hstep : state.step action = some next) :
    state.Isolates action next ∧
      (state.KeepsQuota → state.ignoresUnshared action = true → next.KeepsQuota) := by
  obtain ⟨holder, hholder, rfl⟩ := Option.map_eq_some_iff.1 hstep
  have hmem := mem_of_getElem? hholder
  have hheld : state.held[action.index]? = some (state.maps holder.map) := by
    rw [held, getElem?_map, hholder, Option.map_some]
  cases action with
  | clone =>
    refine ⟨?_, fun hkeeps _ => forall_mem_append.2 ⟨hkeeps, forall_mem_singleton.2
      (hkeeps holder hmem)⟩⟩
    intro other storage hst
    obtain ⟨hother, -⟩ := List.getElem?_eq_some_iff.1 hst
    have happend : held { state with holders := state.holders ++ [holder] } =
        state.held ++ [state.maps holder.map] := map_append
    rw [happend, getElem?_append_left hother, hst, alone, ite_self, Option.map_some]
  | call index call =>
    obtain ⟨cur, hcontents, hquota, hcall⟩ :=
      apply_spec (state.maps holder.map) (state.refCount index holder) call
    have halone : ∀ before, state.held[index]? = some before →
        contents cur = contents (alone before (.call index call)) := fun before hbefore =>
      Option.some.inj (hheld.symm.trans hbefore) ▸ hcontents
    dsimp only
    rw [Sharing.call]
    split at hcall
    · next hshared =>
      rw [hcall.1, hcall.2, write, Function.update_eq_self]
      refine ⟨.of_set cur (held_install cur) halone,
        fun hkeeps hignores => keepsQuota_install cur hkeeps ?_⟩
      rw [← hkeeps holder hmem]
      rw [ignoresUnshared, show state.holders[index]? = some holder from hholder,
        Bool.or_eq_true, Bool.not_eq_true'] at hignores
      exact hquota (hignores.imp id fun hle => Nat.not_lt.2 (of_decide_eq_true hle))
    · next hunshared =>
      rw [hcall.1, hcall.2]
      exact ⟨.of_set cur (held_write cur hunshared hholder) halone,
        fun hkeeps _ => keepsQuota_write cur hkeeps (hquota (.inr hunshared))⟩
  | clear =>
    dsimp only
    rw [clear]
    split
    · next hempty =>
      refine ⟨fun other storage hst => ?_, fun hkeeps _ => hkeeps⟩
      rw [hst]
      split
      · grind [alone]
      · rfl
    · next hitems =>
      refine ⟨.of_set _ (held_install _) fun before hbefore => ?_,
        fun hkeeps _ => keepsQuota_install _ hkeeps rfl⟩
      cases hheld.symm.trans hbefore
      rw [alone, if_neg hitems]
      rfl

omit storage in
/-- Each action is isolated, and in every run of holders that share one map each map keeps its
holder's quota if the quota is ignored only on maps that are not shared. -/
theorem clones_isolated (storage : StorageMap) (count : ℕ) (actions : List Action)
    (hrun : run step (share storage count) actions = some state) :
    (∀ action next, state.step action = some next → state.Isolates action next) ∧
      (Meets step (fun state action => state.ignoresUnshared action = true)
        (share storage count) actions → state.KeepsQuota) := by
  refine ⟨fun action next hstep => (step_spec hstep).1, fun hmeets => ?_⟩
  refine run_of_step (fun hkeeps hignores hstep => (step_spec hstep).2 hkeeps hignores) ?_ hmeets
    hrun
  exact fun holder hholder => eq_of_mem_replicate hholder ▸ rfl

theorem clones_isolated_copied : ∃ state,
    run step (share (.create 8) 2) [.call 0 (.setItem Sample.a Sample.b)] = some state ∧
      (∀ next, state.step (.call 1 (.setItemIgnoringQuota Sample.c Sample.a)) = some next →
        state.Isolates (.call 1 (.setItemIgnoringQuota Sample.c Sample.a)) next) ∧
      state.KeepsQuota := by
  refine ⟨_, run_eq_after (by decide +kernel), ?_⟩
  obtain ⟨hisolates, hkeeps⟩ := clones_isolated (.create 8) 2
    [.call 0 (.setItem Sample.a Sample.b)] (run_eq_after (by decide +kernel))
  exact ⟨hisolates _, hkeeps (by decide +kernel)⟩

/-- A clone that ignores the quota once on the shared map has no quota any more. -/
theorem clone_loses_quota : ∃ state,
    run step (share (.create 2) 2) [.call 1 (.setItemIgnoringQuota Sample.a Sample.b)] =
        some state ∧
      state.held.map StorageMap.quotaSize = [2, StorageMap.noQuota] ∧
      state.held.map (fun storage => (storage.setItem 1 Sample.c Sample.c).quotaException) =
        [true, false] ∧
      ¬ state.KeepsQuota := by
  refine ⟨_, run_eq_after (by decide +kernel), by decide +kernel, by decide +kernel, ?_⟩
  intro hkeeps
  exact absurd (hkeeps ⟨1, 2⟩ (by decide +kernel)) (by decide +kernel)

end Sharing

end PurcFetcher.WebStorage
