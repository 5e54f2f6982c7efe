import PurcFetcher.Cache.Survival

/-!
# Reading one's own writes

A record that is not on the disk yet is delivered from the write operations: the pending
ones are searched from the newest on, then the active one.  Since the operations stay in
the order in which they were stored, the first one that is found is the newest.

`retrieve` comes to that search only when the capacity is not zero and the filter does not
deny the key, and what it finds is the last store only if that one was not removed while
an older one was active.
-/

namespace PurcFetcher.Cache

open Machine List

theorem getLast?_of_sublist {A : Type*} {part all : List A} {last : A}
    (hpart : part.Sublist all) (hnodup : all.Nodup) (hlast : all.getLast? = some last)
    (hmem : last ∈ part) : part.getLast? = some last := by
  rw [← dropLast_append_getLast? last hlast] at hpart hnodup
  obtain ⟨front, back, rfl, hfront, hback⟩ := sublist_append_iff.1 hpart
  cases sublist_singleton.1 hback with
  | inl hnone => grind
  | inr hself => rw [hself, getLast?_concat]

namespace Storage

variable {storage : Storage} {key : Key}

/-- `retrieve` finds the record of the last store of the key, and the next task it posts
to the main run loop delivers it. -/
def DeliversLast (storage : Storage) (key : Key) (priority : Priority) : Prop :=
  ∃ operation, storage.lastStore key = some operation ∧
    (storage.retrieve key priority).mainQueue =
      storage.mainQueue ++ [.deliver ⟨storage.reads.retrieved, key⟩ operation]

/-- The search of `retrieveFromMemory` gives the newest operation that is left. -/
theorem findWriteOperation_eq_getLast? (hwrites : WritesInv [] storage) (key : Key) :
    storage.findWriteOperation key =
      (ofKey key
        (storage.activeWriteOperations ++ storage.pendingWriteOperations.reverse)).getLast? := by
  have hactive : storage.activeWriteOperations.reverse = storage.activeWriteOperations := by
    cases hwrites.phase.active_cases with
    | inl hnone => rw [hnone, reverse_nil]
    | inr hone =>
      obtain ⟨op, hone⟩ := hone
      rw [hone, reverse_singleton]
  have hreverse : storage.pendingWriteOperations ++ storage.activeWriteOperations =
      (storage.activeWriteOperations ++ storage.pendingWriteOperations.reverse).reverse := by
    rw [reverse_append, reverse_reverse, hactive]
  rw [findWriteOperation, hreverse, ← head?_filter, filter_reverse, head?_reverse]
  rfl

/-- `retrieve` delivers the operation that the search finds. -/
theorem mainQueue_retrieve {found : WriteOperation} (hcap : storage.capacity ≠ 0)
    (hmay : storage.mayContain key) (hfound : storage.findWriteOperation key = some found)
    (prio : Priority) :
    (storage.retrieve key prio).mainQueue =
      storage.mainQueue ++ [.deliver ⟨storage.reads.retrieved, key⟩ found] := by
  rw [retrieve]
  simp only [hcap, if_false, hmay, not_true_eq_false, hfound]

/-- A key with a pending or active write is answered with its last store exactly when the
capacity is not zero, the filter does not deny the key and the last store is still pending
or active. -/
theorem deliversLast_iff (hwrites : WritesInv [] storage) (prio : Priority)
    (hwriting : ∃ op ∈ storage.pendingWriteOperations ++ storage.activeWriteOperations,
      op.record.key = key) :
    storage.DeliversLast key prio ↔
      storage.capacity ≠ 0 ∧ storage.mayContain key ∧
        ∃ op ∈ storage.pendingWriteOperations ++ storage.activeWriteOperations,
          storage.lastStore key = some op := by
  constructor
  · rintro ⟨op, hlast, hqueue⟩
    have hposted : (storage.retrieve key prio).mainQueue ≠ storage.mainQueue := by
      rw [hqueue]
      simp
    rw [retrieve] at hqueue hposted
    split at hqueue
    · next hzero =>
      rw [if_pos hzero] at hposted
      exact absurd rfl hposted
    · next hcap =>
      split at hqueue
      · grind
      · next hmay =>
        refine ⟨hcap, not_not.1 hmay, op, ?_, hlast⟩
        split at hqueue
        · next found hfound =>
          have hsame := append_cancel_left hqueue
          cases hsame
          exact mem_of_find?_eq_some hfound
        · obtain ⟨writing, hmem, hkey⟩ := hwriting
          grind
  · rintro ⟨hcap, hmay, op, hmem, hlast⟩
    have hnumbers : (storage.stored.map (·.number)).Nodup := by
      rw [hwrites.numbers]
      exact nodup_range
    have hnodup : (ofKey key storage.stored).Nodup := (List.Nodup.of_map _ hnumbers).filter _
    have hkey : op ∈ ofKey key storage.stored := mem_of_getLast? hlast
    refine ⟨op, hlast, mainQueue_retrieve hcap hmay ?_ prio⟩
    rw [findWriteOperation_eq_getLast? hwrites]
    apply getLast?_of_sublist (hwrites.current.filter _) hnodup hlast
    refine mem_filter.2 ⟨?_, (mem_filter.1 hkey).2⟩
    rw [mem_append, mem_reverse]
    exact (mem_append.1 hmem).symm

/-- What was stored was stored by an action of the run. -/
theorem stored_of_run {mode : Mode} {pageSize cap : ℕ} {disk : Disk} {actions : List Action}
    (hrun : run step (.opened mode pageSize cap disk) actions = some storage) :
    ∀ op ∈ storage.stored, .store op.record ∈ actions := by
  let FromActions : Holdings → Prop := fun holdings =>
    ∀ op ∈ holdings.stored, .store op.record ∈ actions
  let Known : Change → Prop := fun change => ∀ op, change = .store op → .store op.record ∈ actions
  have hchange {before change after} (hfrom : FromActions before) (hknown : Known change)
      (hstep : Holdings.Step before change after) : FromActions after := by
    cases hstep with
    | store op => grind
    | storeBody idx large out op =>
      obtain ⟨blobs, inline, hafter, -⟩ := before.storeBody_spec idx op large out
      rw [hafter]
      exact hfrom
    | openFile idx created inline op =>
      obtain ⟨files, stage, hafter, -⟩ := before.openFile_spec idx op inline created
      rw [hafter]
      exact hfrom
    | _ => exact hfrom
  have hallowed {storage : Storage} {action : Action} (hact : action ∈ actions)
      (change : Change) (hallows : Allows storage action change) : Known change := by
    rintro op rfl
    rwa [← hallows]
  have halways := always_holdings hchange hallowed (.opened mode pageSize cap disk)
    (fun op hmem => absurd hmem not_mem_nil) (meets_of_forall (fun _ => id) _)
  exact (halways.last hrun).2

/-- Every key has the record of its last store on the disk. -/
def HoldsLastStores (storage : Storage) : Prop :=
  ∀ key operation, storage.lastStore key = some operation →
    storage.disk.record key = some operation.record

/-- Nothing is on its way in a storage without operations, so its stores are on the
disk. -/
theorem holdsLastStores_of_idle {mode : Mode} {pageSize cap : ℕ} {disk : Disk}
    {actions : List Action}
    (hrun : run step (.opened mode pageSize cap disk) actions = some storage)
    (hundisturbed : Meets step (fun storage action => ∀ path, Undisturbed path storage action)
      (.opened mode pageSize cap disk) actions)
    (hpaths : ∀ left right, .store left ∈ actions → .store right ∈ actions →
      left.key.recordPath = right.key.recordPath → left.key = right.key)
    (hidle : storage.Idle) : storage.HoldsLastStores := by
  intro key op hlast
  have hmem := mem_filter.1 (mem_of_getLast? hlast)
  have hkey : op.record.key = key := of_decide_eq_true hmem.2
  have hstored := stored_of_run hrun op hmem.1
  have howns : ∀ action ∈ actions, OwnsPath key action := by
    rintro action hact record rfl hpath
    rw [← hkey] at hpath ⊢
    exact hpaths record op.record hact hstored hpath
  have hkeeps := hundisturbed.mono fun _ _ hundisturbed => hundisturbed key.recordPath
  have hkept := (always_kept mode pageSize cap disk key hkeeps howns).last hrun
  obtain hpend | hactive | hwritten := storeSurvives_of_kept hkept.2 op hlast
  · rw [hidle.pendingWrites] at hpend
    exact absurd hpend not_mem_nil
  · rw [hidle.activeWrites] at hactive
    exact absurd hactive not_mem_nil
  · exact hwritten

/-- In every reachable state a key with a pending or active write is answered with its
last store exactly under the conditions of `deliversLast_iff`, the writes have reached the
disk in the order of the stores, and no more of them are active than allowed.  At the end
of a run that disturbs no path the disk holds the last store of each key. -/
theorem reads_own_writes (mode : Mode) (pageSize capacity : ℕ) (disk : Disk)
    (actions : List Action) (storage : Storage)
    (hrun : run step (.opened mode pageSize capacity disk) actions = some storage) :
    (∀ key priority,
        (∃ operation ∈ storage.pendingWriteOperations ++ storage.activeWriteOperations,
          operation.record.key = key) →
        (storage.DeliversLast key priority ↔
          storage.capacity ≠ 0 ∧ storage.mayContain key ∧
            ∃ operation ∈ storage.pendingWriteOperations ++ storage.activeWriteOperations,
              storage.lastStore key = some operation)) ∧
      storage.written.Sublist storage.stored ∧
      storage.activeWriteOperations.length ≤ maximumActiveWriteOperationCount ∧
      (Meets step (fun storage action => ∀ path, Undisturbed path storage action)
          (.opened mode pageSize capacity disk) actions →
        (∀ left right, .store left ∈ actions → .store right ∈ actions →
          left.key.recordPath = right.key.recordPath → left.key = right.key) →
        storage.Idle → storage.HoldsLastStores) := by
  have hwrites : WritesInv [] storage :=
    run_of_step (fun hwrites _ hnext => hwrites.step hnext)
      (.opened mode pageSize capacity disk) (meets_true _ _) hrun
  refine ⟨fun key priority => deliversLast_iff hwrites priority, ?_,
    hwrites.phase.length_active_le, holdsLastStores_of_idle hrun⟩
  have hwritten : storage.written.Sublist (storage.written ++
      storage.writeTasks.map (·.operation) ++ storage.pendingWriteOperations.reverse) := by
    rw [append_assoc]
    exact sublist_append_left _ _
  exact hwritten.trans hwrites.order

/-- Another record of the key of `Record.sample 1 7`. -/
def newerRecord : Record :=
  { Record.sample 1 7 with body := some [8] }

/-- The first of two records of a key is being written when the second one is stored. -/
def storingTwice : List Action :=
  [.store (.sample 1 7), .fireWriteTimer, .store newerRecord]

/-- Both records are written, one after the other. -/
def writingTwice : List Action :=
  storingTwice ++ [.storeBody 0 .notStored, .openFile 0 true, .writeFile 0 false,
    .runMain true false, .storeBody 0 .notStored, .openFile 0 true, .writeFile 0 false,
    .runMain true false]

def storedTwice (actions : List Action) : Storage :=
  after step (.opened .normal 4096 1000 ⟨∅, ∅⟩) actions

theorem reads_own_writes_stored_twice :
    (storedTwice storingTwice).DeliversLast newerRecord.key 0 ∧
      (storedTwice writingTwice).lastStore newerRecord.key = some ⟨1, newerRecord⟩ ∧
      (storedTwice writingTwice).HoldsLastStores := by
  have hstoring := @run_eq_after _ _ step (.opened .normal 4096 1000 ⟨∅, ∅⟩) storingTwice
    (by decide +kernel)
  have hwriting := @run_eq_after _ _ step (.opened .normal 4096 1000 ⟨∅, ∅⟩) writingTwice
    (by decide +kernel)
  have hmem : (⟨1, newerRecord⟩ : WriteOperation) ∈
      (storedTwice storingTwice).pendingWriteOperations ++
        (storedTwice storingTwice).activeWriteOperations := by decide +kernel
  have hnothing : ∀ action ∈ writingTwice, disturbsNothing action = true := by decide
  refine ⟨?_, by decide +kernel, ?_⟩
  · refine ((reads_own_writes _ _ _ _ _ _ hstoring).1 _ 0 ⟨_, hmem, rfl⟩).2 ⟨?_, ?_, _, hmem, ?_⟩
    all_goals decide +kernel
  · refine (reads_own_writes _ _ _ _ _ _ hwriting).2.2.2 ?_ ?_ ?_
    · apply (meets_of_forall hnothing _).mono
      exact fun storage action hnothing path => undisturbed_of_disturbsNothing hnothing path
    · have hkey : ∀ record, .store record ∈ writingTwice → record.key = newerRecord.key := by
        simp [writingTwice, storingTwice, newerRecord]
      exact fun left right hleft hright _ => (hkey left hleft).trans (hkey right hright).symm
    · constructor <;> decide +kernel

/-- A key is read before it was stored.  Then it is stored twice, and the first write is
active and the second one pending when the read ends with nothing and removes the key. -/
def olderLeftRun : List Action :=
  [.retrieve (Record.sample 1 7).key 0, .readFile 0 true, .readBlob 0, .store (.sample 1 7),
    .fireWriteTimer, .store newerRecord, .runMain false false]

def olderLeft : Storage :=
  after step (.opened .normal 4096 1000 ⟨∅, ∅⟩) olderLeftRun

/-- The first of the two records is delivered. -/
theorem retrieve_delivers_older_store :
    run step (.opened .normal 4096 1000 ⟨∅, ∅⟩) olderLeftRun = some olderLeft ∧
      olderLeft.activeWriteOperations = [⟨0, .sample 1 7⟩] ∧
      olderLeft.lastStore (Record.sample 1 7).key = some ⟨1, newerRecord⟩ ∧
      (olderLeft.retrieve (Record.sample 1 7).key 0).mainQueue =
        olderLeft.mainQueue ++
          [.deliver ⟨olderLeft.reads.retrieved, (Record.sample 1 7).key⟩ ⟨0, .sample 1 7⟩] ∧
      ¬ olderLeft.DeliversLast (Record.sample 1 7).key 0 := by
  have hlast : olderLeft.lastStore (Record.sample 1 7).key = some ⟨1, newerRecord⟩ := by
    decide +kernel
  have hqueue := @mainQueue_retrieve olderLeft (Record.sample 1 7).key ⟨0, .sample 1 7⟩
    (by decide +kernel) (by decide +kernel) (by decide +kernel) 0
  refine ⟨run_eq_after (by decide +kernel), by decide +kernel, hlast, hqueue, ?_⟩
  rintro ⟨operation, hoperation, hdelivers⟩
  have hsame := append_cancel_left (hqueue.symm.trans hdelivers)
  cases hsame
  exact absurd (Option.some.inj (hlast.symm.trans hoperation)) (by decide)

end Storage

end PurcFetcher.Cache
