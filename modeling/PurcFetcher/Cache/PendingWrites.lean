import PurcFetcher.Cache.StorageSteps

/-!
# Pending writes

A write that is pending waits for the timer or for the active write.  In a storage that avoids
randomness it may also wait for the end of a synchronization, and a synchronization that is in
progress has a traversal or a completion on the main run loop.
-/

namespace PurcFetcher.Cache

open List

def Traversal.synchronizes (traversal : Traversal) : Bool :=
  match traversal.kind with
  | .synchronize _ _ => true
  | _ => false

def MainTask.synchronizes : MainTask → Bool
  | .synchronized _ _ => true
  | _ => false

namespace Storage

/-- The parts of a storage that say what a pending write waits for. -/
def writeSide (storage : Storage) :
    List WriteOperation × List WriteOperation × Bool × Mode × Bool :=
  (storage.pendingWriteOperations, storage.activeWriteOperations,
    storage.writeOperationDispatchTimer, storage.mode, storage.synchronizationInProgress)

/-- Which traversals and which tasks of the main run loop are part of a synchronization. -/
def synchronizationFlags (storage : Storage) : List Bool :=
  storage.traversals.map Traversal.synchronizes ++ storage.mainQueue.map MainTask.synchronizes

/-- A pending write waits for the timer, for an active write or for a synchronization, and a
synchronization in progress has a traversal or a completion that waits. -/
structure Waits (storage : Storage) : Prop where
  writes : storage.pendingWriteOperations ≠ [] →
    storage.writeOperationDispatchTimer = true ∨ storage.activeWriteOperations ≠ [] ∨
      storage.mode = .avoidRandomness ∧ storage.synchronizationInProgress = true
  synchronizes : storage.synchronizationInProgress = true → true ∈ storage.synchronizationFlags

/-- What pending writes wait for stays, and a synchronization goes on. -/
structure Continues (storage next : Storage) : Prop where
  side : next.writeSide = storage.writeSide
  flags : true ∈ storage.synchronizationFlags → true ∈ next.synchronizationFlags

variable {storage next : Storage}

theorem Waits.continues (hwaits : storage.Waits) (hcontinues : storage.Continues next) :
    next.Waits := by
  obtain ⟨hpend, hrest⟩ := Prod.mk.inj hcontinues.side
  obtain ⟨hactive, hrest⟩ := Prod.mk.inj hrest
  obtain ⟨htimer, hrest⟩ := Prod.mk.inj hrest
  obtain ⟨hmode, hprogress⟩ := Prod.mk.inj hrest
  refine ⟨?_, fun hsame => hcontinues.flags (hwaits.synchronizes (hprogress ▸ hsame))⟩
  rw [hpend, hactive, htimer, hmode, hprogress]
  exact hwaits.writes

theorem Continues.trans {middle : Storage} (hfirst : storage.Continues middle)
    (hsecond : middle.Continues next) : storage.Continues next :=
  ⟨hsecond.side.trans hfirst.side, fun hflag => hsecond.flags (hfirst.flags hflag)⟩

theorem Continues.of_subset (hside : next.writeSide = storage.writeSide)
    (htravs : storage.traversals.map Traversal.synchronizes ⊆
      next.traversals.map Traversal.synchronizes)
    (hqueue : storage.mainQueue ⊆ next.mainQueue) : storage.Continues next := by
  refine ⟨hside, fun hflag => ?_⟩
  rcases mem_append.1 hflag with htrav | htask
  · exact mem_append_left _ (htravs htrav)
  · exact mem_append_right _ (map_subset _ hqueue htask)

theorem Continues.of_eq (hside : next.writeSide = storage.writeSide)
    (htravs : next.traversals = storage.traversals)
    (hqueue : next.mainQueue = storage.mainQueue) : storage.Continues next :=
  .of_subset hside (htravs ▸ List.Subset.refl _) (hqueue ▸ List.Subset.refl _)

variable {trav : Traversal} {task : MainTask} {idx : ℕ}

theorem Continues.of_append (hside : next.writeSide = storage.writeSide)
    (htravs : next.traversals = storage.traversals)
    (hqueue : next.mainQueue = storage.mainQueue ++ [task]) : storage.Continues next :=
  .of_subset hside (htravs ▸ List.Subset.refl _) (hqueue ▸ subset_append_left _ _)

theorem Continues.of_traversal (hside : next.writeSide = storage.writeSide)
    (htravs : next.traversals = storage.traversals ++ [trav])
    (hqueue : next.mainQueue = storage.mainQueue) : storage.Continues next :=
  .of_subset hside (htravs ▸ map_subset _ (subset_append_left _ _)) (hqueue ▸ List.Subset.refl _)

/-! ## What leaves the pending writes alone -/

theorem continues_deleteFile (storage : Storage) (entry : Entry) :
    storage.Continues (storage.deleteFile entry) := by
  refine .of_subset rfl ?_ (List.Subset.refl _)
  change _ ⊆ (storage.traversals.map (Traversal.forget entry)).map Traversal.synchronizes
  rw [map_map]
  exact List.Subset.refl _

theorem continues_shrinkIfNeeded (storage : Storage) (exceeds : Bool) :
    storage.Continues (storage.shrinkIfNeeded exceeds) := by
  rw [shrinkIfNeeded, shrink]
  split
  · exact .of_eq rfl rfl rfl
  · split
    · split
      · exact .of_eq rfl rfl rfl
      · exact .of_traversal rfl rfl rfl
    · exact .of_eq rfl rfl rfl

theorem synchronizes_visited (entry : Entry) (trav : Traversal) :
    (trav.visited entry).synchronizes = trav.synchronizes := by
  rw [Traversal.synchronizes, Traversal.synchronizes, Traversal.visited]
  rw [Traversal.see.eq_def]
  cases trav.kind with
  | synchronize => cases entry.isBlob <;> rfl
  | shrink => rfl
  | clear => rfl

theorem continues_visit (htrav : storage.traversals[idx]? = some trav) (entry : Entry)
    (delete : Bool) : storage.Continues (storage.visit idx trav entry delete) := by
  have hseen : storage.Continues { storage with
      traversals := storage.traversals.set idx (trav.visited entry) } := by
    refine .of_subset rfl ?_ (List.Subset.refl _)
    obtain ⟨hidx, hold⟩ := List.getElem?_eq_some_iff.1 htrav
    have hlen : idx < (storage.traversals.map Traversal.synchronizes).length := by rwa [length_map]
    have hsame : (storage.traversals.map Traversal.synchronizes).set idx
        (trav.visited entry).synchronizes = storage.traversals.map Traversal.synchronizes := by
      rw [synchronizes_visited, ← hold, ← getElem_map Traversal.synchronizes]
      exact set_getElem_self hlen
    rw [map_set, hsame]
    exact List.Subset.refl _
  rw [visit]
  split
  · exact hseen
  · split
    · exact (hseen.trans (continues_deleteFile _ _)).trans (continues_deleteFile _ _)
    · exact hseen
  · split
    · exact hseen.trans (continues_deleteFile _ _)
    · exact hseen

/-- A traversal of a synchronization leaves the completion of it. -/
theorem continues_finishTraversal (htrav : storage.traversals[idx]? = some trav) :
    storage.Continues (storage.finishTraversal idx trav.kind) := by
  by_cases hsynchronizes : trav.synchronizes = true
  · rw [Traversal.synchronizes] at hsynchronizes
    cases hkind : trav.kind with
    | synchronize recFilter blobFilter =>
      refine ⟨rfl, fun _ => mem_append_right _ ?_⟩
      rw [mem_map]
      exact ⟨.synchronized recFilter blobFilter, mem_append_right _ mem_cons_self, rfl⟩
    | shrink | clear =>
      rw [hkind] at hsynchronizes
      exact absurd hsynchronizes Bool.false_ne_true
  · rw [Bool.not_eq_true] at hsynchronizes
    have hleft :
        storage.Continues { storage with traversals := storage.traversals.eraseIdx idx } := by
      refine ⟨rfl, fun hflag => ?_⟩
      rcases mem_append.1 hflag with hfirst | hsecond
      · obtain ⟨hidx, hold⟩ := List.getElem?_eq_some_iff.1 htrav
        have hperm := (getElem_cons_eraseIdx_perm hidx).symm.map Traversal.synchronizes
        rw [hold, map_cons, hsynchronizes] at hperm
        rcases mem_cons.1 (hperm.mem_iff.1 hfirst) with hhead | htail
        · exact absurd hhead.symm Bool.false_ne_true
        · exact mem_append_left _ htail
      · exact mem_append_right _ hsecond
    cases hkind : trav.kind with
    | synchronize => grind [Traversal.synchronizes]
    | shrink => exact hleft.trans (.of_append rfl rfl rfl)
    | clear => exact hleft

theorem continues_take {rest : List MainTask} (hqueue : storage.mainQueue = task :: rest)
    (hother : task.synchronizes = false) :
    storage.Continues { storage with mainQueue := rest } := by
  refine ⟨rfl, fun hflag => ?_⟩
  rw [synchronizationFlags, hqueue, map_cons, hother] at hflag
  rcases mem_append.1 hflag with hfirst | hsecond
  · exact mem_append_left _ hfirst
  · rcases mem_cons.1 hsecond with hhead | htail
    · exact absurd hhead.symm Bool.false_ne_true
    · exact mem_append_right _ htail

/-! ## What changes them -/

theorem dispatchRounds_keeps (rounds : ℕ) (storage : Storage) :
    (dispatchRounds rounds storage).synchronizationInProgress =
        storage.synchronizationInProgress ∧
      (dispatchRounds rounds storage).traversals = storage.traversals ∧
      (dispatchRounds rounds storage).mainQueue = storage.mainQueue := by
  induction rounds generalizing storage with
  | zero => exact ⟨rfl, rfl, rfl⟩
  | succ rounds ih =>
    rw [dispatchRounds]
    split
    · exact ⟨rfl, rfl, rfl⟩
    · split
      · exact ⟨rfl, rfl, rfl⟩
      · exact ih _

theorem active_dispatchRounds (rounds : ℕ) {storage : Storage}
    (hactive : storage.activeWriteOperations ≠ []) :
    (dispatchRounds rounds storage).activeWriteOperations ≠ [] := by
  cases rounds with
  | zero => exact hactive
  | succ =>
    rw [dispatchRounds]
    split
    · exact hactive
    · have hfull : storage.activeWriteOperations.length ≥ maximumActiveWriteOperationCount :=
        length_pos_of_ne_nil hactive
      rw [if_pos hfull]
      exact hactive

/-- Writes that are still pending after dispatching wait for an active one. -/
theorem waits_dispatchPending
    (hsynchronizes : storage.synchronizationInProgress = true →
      true ∈ storage.synchronizationFlags) :
    storage.dispatchPendingWriteOperations.Waits := by
  refine ⟨fun hpend => Or.inr (Or.inl ?_), ?_⟩
  · rw [dispatchPendingWriteOperations] at hpend ⊢
    cases hlast : storage.pendingWriteOperations.getLast? with
    | none =>
      rw [getLast?_eq_none_iff] at hlast
      rw [hlast] at hpend
      exact absurd hlast hpend
    | some =>
      obtain ⟨rounds, hrounds⟩ := Nat.exists_eq_succ_of_ne_zero
        (length_pos_of_mem (mem_of_getLast? hlast)).ne'
      rw [hrounds, Nat.succ_eq_add_one, dispatchRounds, hlast]
      dsimp only
      split
      · next hfull => exact ne_nil_of_length_pos hfull
      · exact active_dispatchRounds rounds (cons_ne_nil _ _)
  · grind [dispatchPendingWriteOperations, synchronizationFlags, dispatchRounds_keeps]

section

variable (hwaits : storage.Waits)
include hwaits

theorem Waits.synchronize : storage.synchronize.Waits := by
  rw [Storage.synchronize]
  split
  · exact hwaits
  · refine ⟨fun hpend => ?_, fun _ => mem_append_left _ ?_⟩
    · rcases hwaits.writes hpend with htimer | hactive | ⟨hmode, -⟩
      · exact Or.inl htimer
      · exact Or.inr (Or.inl hactive)
      · exact Or.inr (Or.inr ⟨hmode, rfl⟩)
    · rw [map_append]
      exact mem_append_right _ mem_cons_self

theorem Waits.setCapacity (cap : ℕ) (exceeds : Bool) :
    (storage.setCapacity cap exceeds).Waits := by
  rw [Storage.setCapacity]
  split
  · exact hwaits
  · refine Waits.continues ?_ (continues_shrinkIfNeeded _ exceeds)
    exact hwaits.continues (.of_eq rfl rfl rfl)

theorem Waits.finishWriteOperation (op : WriteOperation)
    (error exceeds : Bool) :
    (storage.finishWriteOperation op error exceeds).Waits := by
  rw [Storage.finishWriteOperation]
  split
  · exact hwaits.continues (.of_eq rfl rfl rfl)
  · refine Waits.continues ?_ (continues_shrinkIfNeeded _ exceeds)
    exact waits_dispatchPending hwaits.synchronizes

theorem Waits.store (record : Record) : (storage.store record).Waits := by
  rw [Storage.store]
  split
  · exact hwaits
  · dsimp only
    split
    · next hheld =>
      refine ⟨fun _ => ?_, hwaits.synchronizes⟩
      rcases hheld with hmore | ⟨hprogress, hmode⟩
      · apply hwaits.writes
        intro hnil
        apply hmore
        rw [hnil]
        rfl
      · exact Or.inr (Or.inr ⟨hmode, hprogress⟩)
    · exact ⟨fun _ => Or.inl rfl, hwaits.synchronizes⟩

theorem Waits.remove (keys : List Key) : (storage.remove keys).Waits := by
  refine ⟨fun hpend => hwaits.writes fun hnil => hpend ?_, hwaits.synchronizes⟩
  change storage.pendingWriteOperations.filter _ = []
  rw [hnil]
  rfl

theorem Waits.removeKey (key : Key) : (storage.removeKey key).Waits := by
  rw [Storage.removeKey]
  split
  · exact hwaits.remove [key]
  · exact hwaits

end

theorem Waits.runMain {rest : List MainTask} (hwaits : storage.Waits)
    (hqueue : storage.mainQueue = task :: rest) (accepts exceeds : Bool) :
    (runMainTask { storage with mainQueue := rest } accepts exceeds task).Waits := by
  cases task with
  | synchronized =>
    rw [runMainTask, finishSynchronization]
    split
    · exact waits_dispatchPending fun hprogress => absurd hprogress Bool.false_ne_true
    · next hmode =>
      refine ⟨fun hpend => ?_, fun hprogress => absurd hprogress Bool.false_ne_true⟩
      rcases hwaits.writes hpend with htimer | hactive | ⟨hrandomness, -⟩
      · exact Or.inl htimer
      · exact Or.inr (Or.inl hactive)
      · exact absurd hrandomness hmode
  | shrunk =>
    apply Waits.synchronize
    exact (hwaits.continues (continues_take hqueue rfl)).continues (.of_eq rfl rfl rfl)
  | blobStored =>
    apply Waits.finishWriteOperation
    exact (hwaits.continues (continues_take hqueue rfl)).continues (.of_eq rfl rfl rfl)
  | written op error =>
    exact (hwaits.continues (continues_take hqueue rfl)).finishWriteOperation op error exceeds
  | finishRead op record blob =>
    have htaken := hwaits.continues (continues_take hqueue rfl)
    rw [runMainTask, finishReadOperation]
    split
    · exact htaken.continues (.of_eq rfl rfl rfl)
    · split
      · exact htaken.continues (.of_eq rfl rfl rfl)
      · have htold : Waits { storage with
            mainQueue := rest
            reads := storage.reads.deliver op (ReadOperation.finish record blob) } :=
          htaken.continues (.of_eq rfl rfl rfl)
        exact (htold.removeKey op.key).continues (.of_eq rfl rfl rfl)
  | deliver => exact (hwaits.continues (continues_take hqueue rfl)).continues (.of_eq rfl rfl rfl)

theorem Waits.moves {action : Action} (hwaits : storage.Waits)
    (hmoves : Moves storage action next) : next.Waits := by
  cases hmoves with
  | store record => exact hwaits.store record
  | remove key => exact hwaits.removeKey key
  | removeKeys keys => exact hwaits.remove keys
  | clear => exact hwaits.continues (.of_traversal rfl rfl rfl)
  | setCapacity cap exceeds => exact hwaits.setCapacity cap exceeds
  | retrieve =>
    rw [retrieve]
    split
    · exact hwaits.continues (.of_eq rfl rfl rfl)
    · split
      · exact hwaits.continues (.of_eq rfl rfl rfl)
      · split
        · exact hwaits.continues (.of_append rfl rfl rfl)
        · exact hwaits.continues (.of_eq rfl rfl rfl)
  | fireWriteTimer => exact waits_dispatchPending hwaits.synchronizes
  | fireReadTimeout | endSerial => exact hwaits.continues (.of_eq rfl rfl rfl)
  | runMain accepts exceeds task rest hqueue => exact hwaits.runMain hqueue accepts exceeds
  | deleteFiles key =>
    refine Waits.continues ?_ (continues_deleteFile _ ⟨key.recordPath, true⟩)
    refine Waits.continues ?_ (continues_deleteFile _ ⟨key.recordPath, false⟩)
    exact hwaits.continues (.of_eq rfl rfl rfl)
  | storeBody idx out op =>
    rw [storeBody]
    split
    · exact hwaits.continues (.of_eq rfl rfl rfl)
    · apply
        (hwaits.continues (continues_deleteFile storage ⟨op.record.key.recordPath, true⟩)).continues
      cases out with
      | notStored => exact .of_eq rfl rfl rfl
      | notLinked | stored => exact .of_append rfl rfl rfl
  | openFile idx created inline op =>
    apply
      (hwaits.continues (continues_deleteFile storage ⟨op.record.key.recordPath, false⟩)).continues
    cases created <;> exact .of_eq rfl rfl rfl
  | writeFile idx error =>
    rw [writeFile, finishFile]
    apply hwaits.continues
    cases error with
    | true => exact .of_append rfl rfl rfl
    | false =>
      simp only [Bool.false_eq_true, if_false]
      split <;> exact .of_append rfl rfl rfl
  | leaveWrite => exact hwaits.continues (.of_append rfl rfl rfl)
  | readFile | readBlob =>
    rw [updateReadTask]
    split
    · exact hwaits.continues (.of_append rfl rfl rfl)
    · exact hwaits.continues (.of_eq rfl rfl rfl)
  | visit idx entry delete trav htrav => exact hwaits.continues (continues_visit htrav entry delete)
  | finishTraversal idx trav htrav => exact hwaits.continues (continues_finishTraversal htrav)

end Storage

end PurcFetcher.Cache
