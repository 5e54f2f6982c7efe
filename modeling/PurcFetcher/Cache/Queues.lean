import PurcFetcher.Cache.PendingWrites
import PurcFetcher.Cache.ReadQueues

/-!
# The queues of a storage go on

An operation that waits is waited for: reads wait only while others are active, and each active
read has a task or a completion that will dispatch the next one.  Writes wait for the timer, for
the active write, or for the end of the synchronization that holds them back.
-/

namespace PurcFetcher.Cache

open Machine List
open scoped List

/-! ## Reads -/

namespace Reads

/-- Each active operation has a task or a completion that waits. -/
def Owned (reads : Reads) (posted : List ReadOperation) : Prop :=
  reads.active ~ reads.tasks.map ReadTask.operation ++ posted

variable {reads : Reads} {posted : List ReadOperation}

section

variable (howned : Owned reads posted)
include howned

theorem Owned.dispatchPending {mode : Mode} {mayBlob : Key → Bool} (order : List Priority) :
    Owned (dispatchPending mode mayBlob order reads) posted := by
  induction order generalizing reads with
  | nil => exact howned
  | cons prio rest ih =>
    rw [Reads.dispatchPending]
    split
    · exact howned
    · split
      · exact ih howned
      · next op hlast =>
        apply ih
        change op :: reads.active ~ (reads.tasks ++ [_]).map ReadTask.operation ++ posted
        rw [map_append, append_assoc]
        exact (howned.cons op).trans perm_middle.symm

end

theorem Owned.release {op : ReadOperation} (howned : Owned reads (op :: posted)) :
    Owned (release op reads) posted := by
  have hfront := howned.trans perm_middle
  exact ((cons_perm_iff_perm_erase.1 hfront.symm).2).symm

/-- What holds of the read operations and their posted completions after every run. -/
structure Inv (reads : Reads) (posted : List ReadOperation) : Prop where
  ordered : Ordered reads
  full : Full reads
  owned : Owned reads posted

namespace Inv

variable {mode : Mode} {mayBlob : Key → Bool} {reads : Reads}
  {posted : List ReadOperation} {idx : ℕ} {old : ReadTask}

section

variable (hinv : Inv reads posted)
include hinv

theorem told (delivered : List (ReadOperation × Option Record)) :
    Inv { reads with delivered := delivered } posted :=
  ⟨⟨hinv.ordered.atMost, hinv.ordered.numbers, hinv.ordered.nodup, hinv.ordered.sorted⟩,
    hinv.full, hinv.owned⟩

theorem counted :
    Inv { reads with retrieved := reads.retrieved + 1 } posted :=
  ⟨⟨hinv.ordered.atMost, fun op hmem =>
      Nat.lt_succ_of_lt (hinv.ordered.numbers op hmem),
    hinv.ordered.nodup, hinv.ordered.sorted⟩, hinv.full, hinv.owned⟩

end

theorem released {op : ReadOperation} (hinv : Inv reads (op :: posted)) :
    Inv (dispatchPending mode mayBlob priorities (release op reads)) posted := by
  obtain ⟨hordered, hfull⟩ := (hinv.ordered.release op).dispatchPending (hinv.full.release op)
  exact ⟨hordered, hfull, hinv.owned.release.dispatchPending priorities⟩

theorem canceled (hinv : Inv reads posted) : Inv reads.cancelAllReadOperations posted := by
  obtain ⟨told, hcanceled, -⟩ := cancelAllReadOperations_eq reads
  obtain ⟨hatMost, hnumbers, hnodup, -⟩ := hinv.ordered
  rw [hcanceled]
  refine ⟨⟨hatMost, fun op hmem => ?_, ?_, fun _ => List.Pairwise.nil⟩,
    fun hwaiting => absurd rfl hwaiting, hinv.owned⟩
  · rcases mem_append.1 hmem with hactive | hwaiting
    · exact hnumbers op (mem_append_left _ hactive)
    · exact absurd hwaiting not_mem_nil
  · exact (nodup_append.1 hnodup).1.append nodup_nil fun _ _ hnil => absurd hnil not_mem_nil

theorem withTasks (hinv : Inv reads posted) {tasks : List ReadTask}
    {nextPosted : List ReadOperation} (howned : Owned { reads with tasks := tasks } nextPosted) :
    Inv { reads with tasks := tasks } nextPosted :=
  ⟨⟨hinv.ordered.atMost, hinv.ordered.numbers, hinv.ordered.nodup, hinv.ordered.sorted⟩,
    hinv.full, howned⟩

end Inv

end Reads

/-- What holds of the read operations of a storage after every run. -/
def ReadsInv (storage : Storage) : Prop :=
  storage.reads.Inv (postedReads storage.mainQueue)

namespace ReadsInv

variable {storage next : Storage} {action : Action}

theorem opened (mode : Mode) (pageSize cap : ℕ) (disk : Disk) :
    ReadsInv (Storage.opened mode pageSize cap disk) where
  ordered :=
    { atMost := Nat.zero_le _
      numbers := fun _ hmem => absurd hmem not_mem_nil
      nodup := nodup_nil
      sorted := fun _ => List.Pairwise.nil }
  full := fun hwaiting => absurd rfl hwaiting
  owned := List.Perm.refl []

theorem readStep (hinv : ReadsInv storage) (hstep : storage.ReadStep action next.readSide) :
    ReadsInv next := by
  rw [ReadsInv, ← postedReads_answering] at hinv ⊢
  change next.readSide.1.Inv (postedReads next.readSide.2)
  generalize next.readSide = side at hstep ⊢
  cases hstep with
  | kept => exact hinv
  | answered => exact hinv.counted.told _
  | found =>
    rw [postedReads_append]
    exact (append_nil (postedReads (answering storage.mainQueue))).symm ▸ hinv.counted
  | queued key prio =>
    obtain ⟨hordered, hfull⟩ := (hinv.ordered.enqueue prio rfl).dispatchPending
      (hinv.full.enqueue prio ⟨storage.reads.retrieved, key⟩)
    have howned :
        (Reads.enqueue prio ⟨storage.reads.retrieved, key⟩ storage.reads).Owned _ := hinv.owned
    exact ⟨hordered, hfull, howned.dispatchPending priorities⟩
  | canceled => exact hinv.canceled
  | progressed action idx old task htask hsame =>
    refine hinv.withTasks ?_
    have hops : (storage.reads.tasks.set idx task).map ReadTask.operation =
        storage.reads.tasks.map ReadTask.operation := by
      obtain ⟨hidx, hold⟩ := List.getElem?_eq_some_iff.1 htask
      have hlen : idx < (storage.reads.tasks.map ReadTask.operation).length := by rwa [length_map]
      rw [map_set, hsame, ← hold, ← getElem_map ReadTask.operation]
      exact set_getElem_self hlen
    change storage.reads.active ~ (storage.reads.tasks.set idx task).map ReadTask.operation ++ _
    rw [hops]
    exact hinv.owned
  | posted action idx old record blob htask =>
    rw [postedReads_append]
    refine hinv.withTasks ?_
    obtain ⟨hidx, hold⟩ := List.getElem?_eq_some_iff.1 htask
    have htasks : storage.reads.tasks ~ old :: storage.reads.tasks.eraseIdx idx := by
      rw [← hold]
      exact (getElem_cons_eraseIdx_perm hidx).symm
    calc storage.reads.active
        ~ storage.reads.tasks.map ReadTask.operation ++ _ := hinv.owned
      _ ~ (old :: storage.reads.tasks.eraseIdx idx).map ReadTask.operation ++ _ :=
          (htasks.map ReadTask.operation).append_right _
      _ ~ (storage.reads.tasks.eraseIdx idx).map ReadTask.operation ++ (old.operation :: _) :=
          perm_middle.symm
      _ ~ _ := (perm_append_singleton _ _).symm.append_left _
  | finished accepts exceeds op record blob rest mode mayBlob hhead =>
    rw [hhead] at hinv
    split
    · exact Reads.Inv.released hinv
    · exact Reads.Inv.released (hinv.told _)
  | delivered accepts exceeds op found rest hhead =>
    rw [hhead] at hinv
    exact hinv.told _

end ReadsInv

/-! ## The order of dispatching -/

/-- Nothing waits that should have been dispatched before the operation. -/
def Reads.First (reads : Reads) (operation : ReadOperation) (priority : Priority) : Prop :=
  ∀ other, ∀ waiting ∈ reads.pending other,
    other < priority ∨ other = priority ∧ operation.number < waiting.number

/-- The operation that is dispatched is the first of those that wait. -/
theorem Reads.Dispatched.first {mode : Mode} {mayBlob : Key → Bool} {reads next : Reads}
    (hdispatched : Dispatched mode mayBlob reads next) (hordered : Ordered reads)
    {op : ReadOperation} (hactive : op ∈ next.active)
    (hnew : op ∉ reads.active) :
    next.active = op :: reads.active ∧ ∃ prio, op ∈ reads.pending prio ∧ next.First op prio := by
  cases hdispatched with
  | nothing => exact absurd hactive hnew
  | oldest prio dispatched hlast hhigher =>
    obtain rfl : op = dispatched := (mem_cons.1 hactive).resolve_right hnew
    refine ⟨rfl, prio, mem_of_getLast? hlast, fun other waiting hwaiting => ?_⟩
    change waiting ∈ Function.update reads.pending prio (reads.pending prio).dropLast other
      at hwaiting
    rcases lt_trichotomy other prio with hlower | rfl | hgreater
    · exact Or.inl hlower
    · rw [Function.update_self] at hwaiting
      have hsorted := hordered.sorted other
      rw [← dropLast_append_getLast? op hlast, pairwise_append] at hsorted
      exact Or.inr ⟨rfl, hsorted.2.2 waiting hwaiting op mem_cons_self⟩
    · grind

namespace Storage

variable {storage next : Storage} {action : Action}

/-- The read operation becomes active in a step. -/
def Dispatches (storage next : Storage) (operation : ReadOperation) : Prop :=
  operation ∈ next.reads.active ∧ operation ∉ storage.reads.active

/-- The read operation waits with the priority, or is made by the action. -/
def WaitsWith (storage : Storage) (action : Action) (operation : ReadOperation)
    (priority : Priority) : Prop :=
  operation ∈ storage.reads.pending priority ∨
    action = .retrieve operation.key priority ∧ operation.number = storage.reads.retrieved

/-- A step dispatches one read at most, before which no other should have been dispatched. -/
structure DispatchesFirst (storage : Storage) (action : Action) (next : Storage) : Prop where
  one : ∀ operation other, storage.Dispatches next operation → storage.Dispatches next other →
    operation = other
  first : ∀ operation, storage.Dispatches next operation →
    ∃ priority, storage.WaitsWith action operation priority ∧ next.reads.First operation priority

/-- The completion of a read dispatches another one if one waits. -/
structure DispatchesInOrder (storage : Storage) (action : Action) (next : Storage) : Prop
    extends DispatchesFirst storage action next where
  more : ∀ accepts exceeds operation record blob rest, action = .runMain accepts exceeds →
    storage.mainQueue = .finishRead operation record blob :: rest →
      (∃ priority, storage.reads.pending priority ≠ []) → ∃ other, storage.Dispatches next other

/-- No queue of the storage stalls. -/
structure GoesOn (storage : Storage) : Prop where
  reads : (∃ priority, storage.reads.pending priority ≠ []) →
    ∃ operation ∈ storage.reads.active,
      operation ∈ storage.reads.tasks.map ReadTask.operation ∨
        operation ∈ postedReads storage.mainQueue
  atMost : storage.reads.active.length ≤ maximumActiveReadOperationCount + 1
  writes : storage.pendingWriteOperations ≠ [] →
    storage.writeOperationDispatchTimer = true ∨ storage.activeWriteOperations ≠ [] ∨
      storage.mode = .avoidRandomness ∧ storage.synchronizationInProgress = true ∧
        true ∈ storage.synchronizationFlags
  inOrder : ∀ action next, storage.step action = some next → storage.DispatchesInOrder action next

theorem waiting_ne_nil_iff {reads : Reads} :
    reads.waiting ≠ [] ↔ ∃ prio, reads.pending prio ≠ [] := by
  rw [Ne, Reads.waiting_eq_nil_iff, not_forall]

theorem first_of_dispatched {reads : Reads} {mode : Mode} {mayBlob : Key → Bool}
    (hdispatched : Reads.Dispatched mode mayBlob reads next.reads)
    (hordered : reads.Ordered) (hsubset : reads.active ⊆ storage.reads.active)
    (hwaits : ∀ op prio, op ∈ reads.pending prio →
      storage.WaitsWith action op prio) :
    storage.DispatchesFirst action next := by
  constructor
  · intro op other hop hother
    obtain ⟨hactive, -⟩ := hdispatched.first hordered hop.1 (fun hmem => hop.2 (hsubset hmem))
    have hmem := hother.1
    rw [hactive] at hmem
    rcases mem_cons.1 hmem with hsame | hold
    · exact hsame.symm
    · exact absurd (hsubset hold) hother.2
  · intro op hop
    obtain ⟨-, prio, hpend, hfirst⟩ := hdispatched.first hordered hop.1
      (fun hmem => hop.2 (hsubset hmem))
    exact ⟨prio, hwaits op prio hpend, hfirst⟩

theorem first_of_subset (hsubset : next.reads.active ⊆ storage.reads.active) :
    storage.DispatchesFirst action next :=
  ⟨fun _ _ hop _ => absurd (hsubset hop.1) hop.2, fun _ hop => absurd (hsubset hop.1) hop.2⟩

theorem dispatched_of_finished (hinv : ReadsInv storage) {op : ReadOperation}
    {record : Option Record} {mode : Mode} {mayBlob : Key → Bool}
    (hreads : next.reads = Reads.dispatchPending mode mayBlob priorities
      (Reads.release op (if op ∈ storage.reads.canceled then storage.reads
        else storage.reads.deliver op record))) :
    ∃ delivered, Reads.Dispatched mode mayBlob
      (Reads.release op { storage.reads with delivered := delivered }) next.reads := by
  rw [hreads]
  split
  · exact ⟨_, Reads.dispatched_dispatchPending (hinv.full.release op)⟩
  · exact ⟨_, Reads.dispatched_dispatchPending ((hinv.told _).full.release op)⟩

theorem first_of_readStep (hinv : ReadsInv storage)
    (hstep : storage.ReadStep action next.readSide) : storage.DispatchesFirst action next := by
  generalize hside : next.readSide = side at hstep
  have hreads : next.reads = side.1 := congrArg Prod.fst hside
  cases hstep with
  | queued key prio =>
    have hdispatched := @Reads.dispatched_dispatchPending storage.mode storage.mayContainBlob _
      (hinv.full.enqueue prio ⟨storage.reads.retrieved, key⟩)
    dsimp only at hreads
    rw [← hreads] at hdispatched
    refine first_of_dispatched hdispatched (hinv.ordered.enqueue prio rfl)
      (List.Subset.refl _) fun op other hmem => ?_
    change op ∈ Function.update storage.reads.pending prio _ other at hmem
    by_cases hother : other = prio
    · rw [hother, Function.update_self] at hmem
      rcases mem_cons.1 hmem with rfl | hold
      · exact Or.inr ⟨by rw [hother], rfl⟩
      · exact Or.inl (hother ▸ hold)
    · rw [Function.update_of_ne hother] at hmem
      exact Or.inl hmem
  | canceled =>
    obtain ⟨told, hcanceled, -⟩ := Reads.cancelAllReadOperations_eq storage.reads
    rw [hcanceled] at hreads
    exact first_of_subset (hreads ▸ List.Subset.refl _)
  | finished accepts exceeds op =>
    obtain ⟨delivered, hdispatched⟩ := dispatched_of_finished hinv hreads
    exact first_of_dispatched hdispatched ((hinv.told delivered).ordered.release op)
      erase_subset fun _ _ hmem => Or.inl hmem
  | _ => exact first_of_subset (hreads ▸ List.Subset.refl _)

/-- The completion of a read makes room for one that waits. -/
theorem dispatches_more (hinv : ReadsInv storage) {op : ReadOperation}
    {record : Option (Record × Bool)} {blob : Option (List UInt8)} {rest : List MainTask}
    {accepts exceeds : Bool} (hhead : storage.mainQueue = .finishRead op record blob :: rest)
    (hwaiting : storage.reads.waiting ≠ [])
    (hstep : storage.step (.runMain accepts exceeds) = some next) :
    ∃ other, storage.Dispatches next other := by
  obtain ⟨mode, mayBlob, hanswers⟩ := answers_finishReadOperation
    { storage with mainQueue := rest } op record blob accepts
  have hnext :
      next = finishReadOperation { storage with mainQueue := rest } op record blob accepts := by
    rw [step, hhead] at hstep
    exact (Option.some.inj hstep).symm
  rw [← hnext] at hanswers
  obtain ⟨hreads, -⟩ := Prod.mk.inj hanswers
  obtain ⟨delivered, hdispatched⟩ := dispatched_of_finished hinv hreads
  -- The operation is active, so that its end leaves room.
  have hmem : op ∈ storage.reads.active := by
    have howned := hinv.owned
    rw [hhead] at howned
    exact howned.mem_iff.2 (mem_append_right _ mem_cons_self)
  have hroom : (storage.reads.active.erase op).length ≤
      maximumActiveReadOperationCount := by
    rw [length_erase_of_mem hmem]
    exact Nat.sub_le_of_le_add hinv.ordered.atMost
  generalize hafter : next.reads = after at hdispatched
  cases hdispatched with
  | nothing hnothing => exact absurd hnothing (not_or.2 ⟨Nat.not_lt.2 hroom, hwaiting⟩)
  | oldest prio dispatched hlast =>
    refine ⟨dispatched, hafter ▸ mem_cons_self, fun hold => ?_⟩
    have hpend := Reads.mem_waiting.2 ⟨prio, mem_of_getLast? hlast⟩
    exact (nodup_append.1 hinv.ordered.nodup).2.2 dispatched hold dispatched hpend rfl

/-- What holds of the queues after every run. -/
structure QueuesInv (storage : Storage) : Prop where
  reads : ReadsInv storage
  waits : storage.Waits

theorem QueuesInv.step (hinv : storage.QueuesInv) (hnext : storage.step action = some next) :
    next.QueuesInv := by
  have hmoves := moves_of_step hnext
  exact ⟨hinv.reads.readStep (readStep_of_moves hmoves), hinv.waits.moves hmoves⟩

theorem QueuesInv.opened (mode : Mode) (pageSize cap : ℕ) (disk : Disk) :
    (opened mode pageSize cap disk).QueuesInv where
  reads := ReadsInv.opened mode pageSize cap disk
  waits := ⟨fun hpend => absurd rfl hpend, fun _ => mem_cons_self⟩

theorem QueuesInv.goesOn (hinv : storage.QueuesInv) : storage.GoesOn where
  reads hpend := by
    have hfull := hinv.reads.full (waiting_ne_nil_iff.2 hpend)
    obtain ⟨op, hactive⟩ := exists_mem_of_length_pos (Nat.zero_lt_of_lt hfull)
    exact ⟨op, hactive, mem_append.1 (hinv.reads.owned.mem_iff.1 hactive)⟩
  atMost := hinv.reads.ordered.atMost
  writes hpend := by
    rcases hinv.waits.writes hpend with htimer | hactive | ⟨hmode, hprogress⟩
    · exact Or.inl htimer
    · exact Or.inr (Or.inl hactive)
    · exact Or.inr (Or.inr ⟨hmode, hprogress, hinv.waits.synchronizes hprogress⟩)
  inOrder action next hnext := by
    refine ⟨first_of_readStep hinv.reads (readStep_of_moves (moves_of_step hnext)), ?_⟩
    rintro accepts exceeds op record blob rest rfl hhead hpend
    exact dispatches_more hinv.reads hhead (waiting_ne_nil_iff.2 hpend) hnext

theorem always_queuesInv (mode : Mode) (pageSize cap : ℕ) (disk : Disk)
    (actions : List Action) :
    Always step QueuesInv (Storage.opened mode pageSize cap disk) actions :=
  always_of_step (fun hinv _ hnext => hinv.step hnext) (QueuesInv.opened mode pageSize cap disk)
    (meets_true _ _)

/-- In every state of every run, no queue stalls. -/
theorem always_goesOn (mode : Mode) (pageSize capacity : ℕ) (disk : Disk)
    (actions : List Action) :
    Always step GoesOn (Storage.opened mode pageSize capacity disk) actions :=
  (always_queuesInv mode pageSize capacity disk actions).mono fun _ hinv => hinv.goesOn

end Storage

end PurcFetcher.Cache
