import PurcFetcher.Cache.Reads

/-!
# The queues of read operations

A read operation waits in the queue of its priority, then it is active, with a task on a
background queue or with a completion that waits on the main run loop.  Operations wait only
while as many as possible are active.  So there is never room for more than one of them, and the
one that is dispatched is the oldest of the highest priority.
-/

namespace PurcFetcher.Cache

open List

open scoped List

namespace Reads

/-! ## Waiting operations -/

theorem mem_priorities (prio : Priority) : prio ∈ priorities := by
  revert prio
  decide

theorem nodup_priorities : priorities.Nodup := by decide

theorem pairwise_priorities : priorities.Pairwise (· > ·) := by decide

/-- The operations that wait, the highest priority first. -/
def waiting (reads : Reads) : List ReadOperation := priorities.flatMap reads.pending

theorem mem_waiting {reads : Reads} {op : ReadOperation} :
    op ∈ reads.waiting ↔ ∃ priority, op ∈ reads.pending priority := by
  rw [waiting, mem_flatMap]
  constructor
  · rintro ⟨priority, -, hmem⟩
    exact ⟨priority, hmem⟩
  · rintro ⟨priority, hmem⟩
    exact ⟨priority, mem_priorities priority, hmem⟩

theorem waiting_eq_nil_iff {reads : Reads} :
    reads.waiting = [] ↔ ∀ priority, reads.pending priority = [] := by
  rw [waiting, flatMap_eq_nil_iff]
  exact ⟨fun hnil priority => hnil priority (mem_priorities priority),
    fun hnil priority _ => hnil priority⟩

/-- The queues other than the one of a priority. -/
def waitingElsewhere (reads : Reads) (priority : Priority) : List ReadOperation :=
  (priorities.erase priority).flatMap reads.pending

theorem perm_waiting (reads : Reads) (prio : Priority) :
    reads.waiting ~ reads.pending prio ++ reads.waitingElsewhere prio := by
  have hperm := (perm_cons_erase (mem_priorities prio)).flatMap_right reads.pending
  rwa [flatMap_cons] at hperm

theorem perm_waiting_update (reads : Reads) (prio : Priority) (queue : List ReadOperation) :
    waiting { reads with pending := Function.update reads.pending prio queue } ~
      queue ++ reads.waitingElsewhere prio := by
  have hperm := perm_waiting { reads with pending := Function.update reads.pending prio queue } prio
  have helsewhere : waitingElsewhere
      { reads with pending := Function.update reads.pending prio queue } prio =
        reads.waitingElsewhere prio := by
    apply flatMap_congr
    intro other hother
    have hne : other ≠ prio := ((nodup_priorities.mem_erase_iff).1 hother).1
    exact Function.update_of_ne hne _ _
  rw [helsewhere] at hperm
  dsimp only at hperm
  rwa [Function.update_self] at hperm

/-! ## Dispatching -/

section

variable (mode : Mode) (mayContainBlob : Key → Bool)

/-- The oldest operation of a queue is dispatched. -/
def dispatchOldest (priority : Priority) (operation : ReadOperation) (reads : Reads) : Reads :=
  dispatchReadOperation mode mayContainBlob operation
    { reads with
      pending := Function.update reads.pending priority (reads.pending priority).dropLast }

/-- At most one operation is dispatched: the oldest of the highest priority, if there is room for
it. -/
inductive Dispatched (reads : Reads) : Reads → Prop
  | nothing (hnothing : maximumActiveReadOperationCount < reads.active.length ∨
      reads.waiting = []) : Dispatched reads reads
  | oldest (priority : Priority) (operation : ReadOperation)
      (hlast : (reads.pending priority).getLast? = some operation)
      (hhigher : ∀ higher, priority < higher → reads.pending higher = [])
      (hroom : reads.active.length ≤ maximumActiveReadOperationCount) :
      Dispatched reads (dispatchOldest mode mayContainBlob priority operation reads)

variable {mode mayContainBlob} {reads : Reads}

theorem dispatchPending_of_full (order : List Priority)
    (hfull : maximumActiveReadOperationCount < reads.active.length) :
    dispatchPending mode mayContainBlob order reads = reads := by
  cases order with
  | nil => rfl
  | cons => rw [dispatchPending, if_pos hfull]

theorem dispatchPending_of_empty {order : List Priority}
    (hempty : ∀ priority ∈ order, reads.pending priority = []) :
    dispatchPending mode mayContainBlob order reads = reads := by
  induction order with
  | nil => rfl
  | cons priority rest ih => grind [dispatchPending]

/-- The first operation that is dispatched comes from the first queue that is not empty. -/
theorem dispatchPending_eq (order : List Priority)
    (hroom : reads.active.length ≤ maximumActiveReadOperationCount) :
    (∀ prio ∈ order, reads.pending prio = []) ∨
      ∃ before prio after operation, order = before ++ prio :: after ∧
        (∀ other ∈ before, reads.pending other = []) ∧
        (reads.pending prio).getLast? = some operation ∧
        dispatchPending mode mayContainBlob order reads = dispatchPending mode mayContainBlob after
            (dispatchOldest mode mayContainBlob prio operation reads) := by
  induction order with
  | nil => exact Or.inl fun _ hmem => absurd hmem not_mem_nil
  | cons prio rest ih =>
    cases hlast : (reads.pending prio).getLast? with
    | some operation =>
      refine Or.inr ⟨[], prio, rest, operation, rfl, ?_, hlast, ?_⟩
      · exact fun _ hmem => absurd hmem not_mem_nil
      · rw [dispatchPending, if_neg (Nat.not_lt.2 hroom), hlast]
        rfl
    | none =>
      have hempty := getLast?_eq_none_iff.1 hlast
      have hskip : dispatchPending mode mayContainBlob (prio :: rest) reads =
          dispatchPending mode mayContainBlob rest reads := by
        rw [dispatchPending, if_neg (Nat.not_lt.2 hroom), hlast]
      rcases ih with hall | ⟨before, other, after, operation, rfl, hbefore, hother, hrest⟩
      · exact Or.inl (forall_mem_cons.2 ⟨hempty, hall⟩)
      · grind

variable {priority : Priority} {operation : ReadOperation}

theorem perm_waiting_dispatchOldest (hlast : (reads.pending priority).getLast? = some operation) :
    reads.waiting ~
      operation :: (dispatchOldest mode mayContainBlob priority operation reads).waiting := by
  have hqueue := (dropLast_append_getLast? operation hlast).symm
  have hmoved : reads.pending priority ~ operation :: (reads.pending priority).dropLast := by
    conv_lhs => rw [hqueue]
    exact perm_append_singleton _ _
  calc reads.waiting
      ~ reads.pending priority ++ reads.waitingElsewhere priority := perm_waiting reads priority
    _ ~ operation :: (reads.pending priority).dropLast ++ reads.waitingElsewhere priority :=
        hmoved.append_right _
    _ ~ operation :: (dispatchOldest mode mayContainBlob priority operation reads).waiting :=
        (perm_waiting_update reads priority _).symm.cons operation

theorem dispatched_dispatchPending
    (hone : maximumActiveReadOperationCount ≤ reads.active.length ∨ reads.waiting.length ≤ 1) :
    Dispatched mode mayContainBlob reads
      (dispatchPending mode mayContainBlob priorities reads) := by
  by_cases hfull : maximumActiveReadOperationCount < reads.active.length
  · rw [dispatchPending_of_full _ hfull]
    exact .nothing (Or.inl hfull)
  have hroom := Nat.not_lt.1 hfull
  rcases dispatchPending_eq priorities hroom with
    hempty | ⟨before, priority, after, operation, horder, hbefore, hlast, hrest⟩
  · rw [dispatchPending_of_empty hempty]
    exact .nothing (Or.inr (flatMap_eq_nil_iff.2 hempty))
  -- After the first operation there is no room, or nothing waits.
  have hends : dispatchPending mode mayContainBlob after
      (dispatchOldest mode mayContainBlob priority operation reads) =
        dispatchOldest mode mayContainBlob priority operation reads := by
    rcases hone with hactive | hwaiting
    · exact dispatchPending_of_full after (Nat.lt_succ_of_le hactive)
    · apply dispatchPending_of_empty
      have hlen :=
        (@perm_waiting_dispatchOldest mode mayContainBlob reads priority operation hlast).length_eq
      rw [length_cons] at hlen
      have hnil := eq_nil_of_length_eq_zero (show (dispatchOldest mode mayContainBlob priority
        operation reads).waiting.length = 0 by omega)
      exact fun other _ => waiting_eq_nil_iff.1 hnil other
  rw [hrest, hends]
  refine .oldest priority operation hlast (fun higher hhigher => hbefore higher ?_) hroom
  have hmem := mem_priorities higher
  have hsorted := pairwise_priorities
  rw [horder] at hmem hsorted
  rcases mem_append.1 hmem with hbeforeMem | hafterMem
  · exact hbeforeMem
  · rcases mem_cons.1 hafterMem with rfl | hafter
    · exact absurd hhigher (lt_irrefl _)
    · have hlower := (pairwise_cons.1 (pairwise_append.1 hsorted).2.1).1 higher hafter
      exact absurd hhigher (lt_asymm hlower)

/-! ## The order of the operations -/

/-- Few operations are active, each operation is in one place, and the newer operations of a queue
have the greater numbers. -/
structure Ordered (reads : Reads) : Prop where
  atMost : reads.active.length ≤ maximumActiveReadOperationCount + 1
  numbers : ∀ operation ∈ reads.active ++ reads.waiting, operation.number < reads.retrieved
  nodup : (reads.active ++ reads.waiting).Nodup
  sorted : ∀ priority,
    (reads.pending priority).Pairwise fun newer older => older.number < newer.number

/-- Operations wait only while there is no room for them. -/
def Full (reads : Reads) : Prop :=
  reads.waiting ≠ [] → maximumActiveReadOperationCount < reads.active.length

theorem perm_dispatchOldest (hlast : (reads.pending priority).getLast? = some operation) :
    reads.active ++ reads.waiting ~
      (dispatchOldest mode mayContainBlob priority operation reads).active ++
        (dispatchOldest mode mayContainBlob priority operation reads).waiting :=
  ((perm_waiting_dispatchOldest hlast).append_left reads.active).trans perm_middle

theorem Ordered.dispatchPending (hordered : Ordered reads)
    (hone : maximumActiveReadOperationCount ≤ reads.active.length ∨ reads.waiting.length ≤ 1) :
    Ordered (dispatchPending mode mayContainBlob priorities reads) ∧
      Full (dispatchPending mode mayContainBlob priorities reads) := by
  have hdispatched := @dispatched_dispatchPending mode mayContainBlob reads hone
  generalize Reads.dispatchPending mode mayContainBlob priorities reads = next at hdispatched ⊢
  cases hdispatched with
  | nothing hnothing => exact ⟨hordered, fun hwaiting => hnothing.resolve_right hwaiting⟩
  | oldest priority operation hlast hhigher hroom =>
    have hperm := @perm_dispatchOldest mode mayContainBlob reads priority operation hlast
    constructor
    · refine ⟨Nat.succ_le_succ hroom, fun other hother => ?_, hperm.nodup_iff.1 hordered.nodup, ?_⟩
      · exact hordered.numbers other (hperm.mem_iff.2 hother)
      · intro other
        change (Function.update reads.pending priority _ other).Pairwise _
        by_cases hother : other = priority
        · rw [hother, Function.update_self]
          exact (hordered.sorted priority).sublist (dropLast_sublist _)
        · rw [Function.update_of_ne hother]
          exact hordered.sorted other
    · intro hwaiting
      have hlen :=
        (@perm_waiting_dispatchOldest mode mayContainBlob reads priority operation hlast).length_eq
      rw [length_cons] at hlen
      have hpos := length_pos_of_ne_nil hwaiting
      have hactive := hone.resolve_right (by omega)
      exact Nat.lt_succ_of_le hactive

/-! ### What the storage does with the operations -/

/-- The operations that were not canceled before are told that there is no record. -/
theorem foldl_cancel_eq (ops : List ReadOperation) (reads : Reads) :
    ∃ told : List ReadOperation, ops.foldl cancel reads =
        { reads with
          delivered := reads.delivered ++ told.map fun operation => (operation, none)
          canceled := told.reverse ++ reads.canceled } ∧
      told.Nodup ∧
        ∀ operation, operation ∈ told ↔ operation ∈ ops ∧ operation ∉ reads.canceled := by
  induction ops generalizing reads with
  | nil =>
    refine ⟨[], ?_, nodup_nil, fun operation => ?_⟩
    · rw [map_nil, append_nil]
      rfl
    · exact iff_of_false not_mem_nil fun hmem => not_mem_nil hmem.1
  | cons first ops ih =>
    rw [foldl_cons, cancel]
    by_cases hcanceled : first ∈ reads.canceled
    · obtain ⟨told, heq, hnodup, hmem⟩ := ih reads
      rw [if_pos hcanceled]
      refine ⟨told, heq, hnodup, fun operation => (hmem operation).trans ?_⟩
      refine and_congr_left fun hnew => ⟨mem_cons_of_mem _, fun hcons => ?_⟩
      exact (mem_cons.1 hcons).resolve_left fun hself => hnew (hself ▸ hcanceled)
    · obtain ⟨told, heq, hnodup, hmem⟩ :=
        ih { deliver first none reads with canceled := first :: reads.canceled }
      rw [if_neg hcanceled, heq]
      refine ⟨first :: told, ?_, nodup_cons.2 ⟨fun hold => ?_, hnodup⟩, fun operation => ?_⟩
      · simp only [deliver, map_cons, reverse_cons, append_assoc, singleton_append]
      · exact ((hmem first).1 hold).2 mem_cons_self
      · grind

theorem cancelAllReadOperations_eq (reads : Reads) :
    ∃ told : List ReadOperation, reads.cancelAllReadOperations =
        { reads with
          pending := fun _ => []
          timeoutTimer := false
          delivered := reads.delivered ++ told.map fun operation => (operation, none)
          canceled := told.reverse ++ reads.canceled } ∧
      told.Nodup ∧ ∀ operation, operation ∈ told ↔
        operation ∈ reads.active ++ reads.waiting ∧ operation ∉ reads.canceled := by
  obtain ⟨told, heq, hnodup, hmem⟩ := foldl_cancel_eq
    (reads.active ++ priorities.flatMap fun priority => (reads.pending priority).reverse) reads
  rw [cancelAllReadOperations, heq]
  refine ⟨told, rfl, hnodup, fun operation => (hmem operation).trans ?_⟩
  simp only [waiting, mem_append, mem_flatMap, mem_reverse]

/-- A new operation, before operations are dispatched. -/
def enqueue (priority : Priority) (operation : ReadOperation) (reads : Reads) : Reads :=
  { reads with
    retrieved := reads.retrieved + 1
    pending := Function.update reads.pending priority (operation :: reads.pending priority) }

theorem perm_waiting_enqueue (prio : Priority) (op : ReadOperation) (reads : Reads) :
    (enqueue prio op reads).waiting ~ op :: reads.waiting := by
  calc (enqueue prio op reads).waiting
      ~ op :: reads.pending prio ++ reads.waitingElsewhere prio := perm_waiting_update reads prio _
    _ ~ op :: reads.waiting := (perm_waiting reads prio).symm.cons op

theorem Ordered.enqueue (hordered : Ordered reads) (prio : Priority)
    (hnum : op.number = reads.retrieved) :
    Ordered (enqueue prio op reads) := by
  have hperm : (Reads.enqueue prio op reads).active ++ (Reads.enqueue prio op reads).waiting ~
        op :: (reads.active ++ reads.waiting) :=
    ((perm_waiting_enqueue prio op reads).append_left reads.active).trans perm_middle
  refine ⟨hordered.atMost, fun other hother => ?_, ?_, fun other => ?_⟩
  · rcases mem_cons.1 (hperm.mem_iff.1 hother) with rfl | hold
    · exact Nat.lt_succ_of_le (Nat.le_of_eq hnum)
    · exact Nat.lt_succ_of_lt (hordered.numbers other hold)
  · rw [hperm.nodup_iff, nodup_cons]
    refine ⟨fun hmem => ?_, hordered.nodup⟩
    exact absurd (hordered.numbers op hmem) (Nat.not_lt.2 (Nat.le_of_eq hnum.symm))
  · change (Function.update reads.pending prio (op :: reads.pending prio) other).Pairwise _
    by_cases hother : other = prio
    · rw [hother, Function.update_self, pairwise_cons]
      refine ⟨fun older holder => ?_, hordered.sorted prio⟩
      rw [hnum]
      exact hordered.numbers older (mem_append_right _ (mem_waiting.2 ⟨prio, holder⟩))
    · rw [Function.update_of_ne hother]
      exact hordered.sorted other

/-- An operation is not active any more, before operations are dispatched. -/
def release (operation : ReadOperation) (reads : Reads) : Reads :=
  { reads with
    active := reads.active.erase operation
    timeoutTimer := reads.timeoutTimer && reads.active.erase operation ≠ [] }

theorem Ordered.release (hordered : Ordered reads) (op : ReadOperation) :
    Ordered (release op reads) := by
  have hsublist : (Reads.release op reads).active ++ reads.waiting <+
      reads.active ++ reads.waiting := erase_sublist.append_right _
  refine ⟨?_, fun other hother => hordered.numbers other (hsublist.subset hother),
    hordered.nodup.sublist hsublist, hordered.sorted⟩
  exact Nat.le_trans erase_sublist.length_le hordered.atMost

theorem Full.enqueue (hfull : Full reads) (prio : Priority) (op : ReadOperation) :
    maximumActiveReadOperationCount ≤ (enqueue prio op reads).active.length ∨
      (enqueue prio op reads).waiting.length ≤ 1 := by
  by_cases hwaiting : reads.waiting = []
  · right
    rw [(perm_waiting_enqueue prio op reads).length_eq, hwaiting]
    exact Nat.le_refl 1
  · exact Or.inl (Nat.le_of_lt (hfull hwaiting))

theorem Full.release (hfull : Full reads) (op : ReadOperation) :
    maximumActiveReadOperationCount ≤ (release op reads).active.length ∨
      (release op reads).waiting.length ≤ 1 := by
  by_cases hwaiting : reads.waiting = []
  · right
    change reads.waiting.length ≤ 1
    rw [hwaiting]
    exact Nat.zero_le 1
  · left
    have hactive := hfull hwaiting
    change maximumActiveReadOperationCount ≤ (reads.active.erase op).length
    rw [length_erase]
    split
    · omega
    · omega

end

end Reads

/-! ## The read operations of a storage -/

def MainTask.readOperation? : MainTask → Option ReadOperation
  | .finishRead operation _ _ => some operation
  | _ => none

def MainTask.delivery? : MainTask → Option ReadOperation
  | .deliver operation _ => some operation
  | _ => none

/-- The read operations whose completions wait. -/
def postedReads (mainQueue : List MainTask) : List ReadOperation :=
  mainQueue.filterMap MainTask.readOperation?

/-- The calls of `retrieve` that a write operation answers. -/
def postedDeliveries (mainQueue : List MainTask) : List ReadOperation :=
  mainQueue.filterMap MainTask.delivery?

theorem postedReads_append (left right : List MainTask) :
    postedReads (left ++ right) = postedReads left ++ postedReads right :=
  filterMap_append

theorem postedDeliveries_append (left right : List MainTask) :
    postedDeliveries (left ++ right) = postedDeliveries left ++ postedDeliveries right :=
  filterMap_append

/-- The tasks of the main run loop that readers wait for. -/
def MainTask.answersReader : MainTask → Bool
  | .finishRead _ _ _ | .deliver _ _ => true
  | _ => false

def answering (mainQueue : List MainTask) : List MainTask :=
  mainQueue.filter MainTask.answersReader

theorem postedReads_answering (mainQueue : List MainTask) :
    postedReads (answering mainQueue) = postedReads mainQueue := by
  rw [postedReads, answering, filterMap_filter, postedReads]
  congr 1
  funext task
  cases task <;> rfl

theorem postedDeliveries_answering (mainQueue : List MainTask) :
    postedDeliveries (answering mainQueue) = postedDeliveries mainQueue := by
  rw [postedDeliveries, answering, filterMap_filter, postedDeliveries]
  congr 1
  funext task
  cases task <;> rfl

theorem answering_post {task : MainTask} (hanswers : task.answersReader = true)
    (mainQueue : List MainTask) :
    answering (mainQueue ++ [task]) = answering mainQueue ++ [task] := by
  rw [answering, filter_append, filter_cons_of_pos hanswers, filter_nil]
  rfl

/-- What a read gives was found before or is on the disk. -/
def ReadTask.FindsOnDisk (old : ReadTask) (disk : Disk)
    (record : Option (Option (Record × Bool))) : Prop :=
  ∀ found, record = some (some found) →
    old.record = some (some found) ∨ disk.readRecord old.operation.key = some found

namespace Storage

/-- The read operations, and the tasks that answer them. -/
def readSide (storage : Storage) : Reads × List MainTask :=
  (storage.reads, answering storage.mainQueue)

/-- What a step does with the read operations and with what answers them. -/
inductive ReadStep (storage : Storage) : Action → Reads × List MainTask → Prop
  | kept (action : Action) : ReadStep storage action storage.readSide
  | answered (key : Key) (priority : Priority) : ReadStep storage (.retrieve key priority)
        (Reads.deliver ⟨storage.reads.retrieved, key⟩ none
          { storage.reads with retrieved := storage.reads.retrieved + 1 },
          answering storage.mainQueue)
  | found (key : Key) (priority : Priority) (found : WriteOperation)
      (hfound : storage.findWriteOperation key = some found) :
      ReadStep storage (.retrieve key priority)
        ({ storage.reads with retrieved := storage.reads.retrieved + 1 },
          answering storage.mainQueue ++ [.deliver ⟨storage.reads.retrieved, key⟩ found])
  | queued (key : Key) (priority : Priority) : ReadStep storage (.retrieve key priority)
        (Reads.dispatchPending storage.mode storage.mayContainBlob priorities
          (storage.reads.enqueue priority ⟨storage.reads.retrieved, key⟩),
          answering storage.mainQueue)
  | canceled : ReadStep storage .fireReadTimeout
        (storage.reads.cancelAllReadOperations, answering storage.mainQueue)
  | progressed (action : Action) (index : ℕ) (old task : ReadTask)
      (htask : storage.reads.tasks[index]? = some old) (hsame : task.operation = old.operation)
      (hfinds : old.FindsOnDisk storage.disk task.record) :
      ReadStep storage action
        ({ storage.reads with tasks := storage.reads.tasks.set index task },
          answering storage.mainQueue)
  | posted (action : Action) (index : ℕ) (old : ReadTask) (record : Option (Record × Bool))
      (blob : Option (List UInt8)) (htask : storage.reads.tasks[index]? = some old)
      (hfinds : old.FindsOnDisk storage.disk (some record)) :
      ReadStep storage action
        ({ storage.reads with tasks := storage.reads.tasks.eraseIdx index },
          answering storage.mainQueue ++ [.finishRead old.operation record blob])
  | finished (accepts exceeds : Bool) (operation : ReadOperation)
      (record : Option (Record × Bool)) (blob : Option (List UInt8)) (rest : List MainTask)
      (mode : Mode) (mayContainBlob : Key → Bool)
      (hhead : answering storage.mainQueue = .finishRead operation record blob :: rest) :
      ReadStep storage (.runMain accepts exceeds)
        (Reads.dispatchPending mode mayContainBlob priorities
          (Reads.release operation (if operation ∈ storage.reads.canceled then storage.reads
            else storage.reads.deliver operation (ReadOperation.finish record blob))), rest)
  | delivered (accepts exceeds : Bool) (operation : ReadOperation) (found : WriteOperation)
      (rest : List MainTask)
      (hhead : answering storage.mainQueue = .deliver operation found :: rest) :
      ReadStep storage (.runMain accepts exceeds)
        (storage.reads.deliver operation (some found.record), rest)

namespace ReadStep

variable {storage next : Storage} {action : Action}

theorem of_eq {side : Reads × List MainTask} (hside : next.readSide = side)
    (hstep : ReadStep storage action side) : ReadStep storage action next.readSide :=
  hside ▸ hstep

theorem of_readSide (hside : next.readSide = storage.readSide) :
    ReadStep storage action next.readSide :=
  of_eq hside (.kept action)

theorem of_answers (hanswers : next.answers = storage.answers) :
    ReadStep storage action next.readSide :=
  of_readSide (congrArg (Prod.map id answering) hanswers)

theorem of_append (task : MainTask) (hother : task.answersReader = false)
    (hanswers : next.answers = (storage.reads, storage.mainQueue ++ [task])) :
    ReadStep storage action next.readSide := by
  obtain ⟨hreads, hqueue⟩ := Prod.mk.inj hanswers
  apply of_readSide
  rw [readSide, readSide, hreads, hqueue, answering, filter_append,
    filter_cons_of_neg (Bool.eq_false_iff.1 hother), filter_nil, append_nil]
  rfl

theorem of_tail {task : MainTask} {rest : List MainTask} (hother : task.answersReader = false)
    (hhead : storage.mainQueue = task :: rest)
    (hanswers : next.answers = (storage.reads, rest)) :
    ReadStep storage action next.readSide := by
  obtain ⟨hreads, hqueue⟩ := Prod.mk.inj hanswers
  have hrest : answering (task :: rest) = answering rest :=
    filter_cons_of_neg (Bool.eq_false_iff.1 hother)
  apply of_readSide
  rw [readSide, readSide, hreads, hqueue, hhead, hrest]

end ReadStep

variable (storage : Storage)

theorem readStep_updateReadTask {storage : Storage} {action : Action} {idx : ℕ}
    {old task : ReadTask} (htask : storage.reads.tasks[idx]? = some old)
    (hsame : task.operation = old.operation)
    (hfinds : old.FindsOnDisk storage.disk task.record) :
    ReadStep storage action (storage.updateReadTask idx task).readSide := by
  rw [updateReadTask]
  split
  · next record blob hrec hblob =>
    rw [hrec] at hfinds
    rw [readSide, answering_post rfl, hsame]
    exact .posted action idx old record blob htask hfinds
  · exact .progressed action idx old task htask hsame hfinds

theorem answers_finishReadOperation (op : ReadOperation) (record : Option (Record × Bool))
    (blob : Option (List UInt8)) (accepts : Bool) :
    ∃ mode mayContainBlob,
      (storage.finishReadOperation op record blob accepts).answers =
        (Reads.dispatchPending mode mayContainBlob priorities
          (Reads.release op (if op ∈ storage.reads.canceled then storage.reads
            else storage.reads.deliver op (ReadOperation.finish record blob))),
          storage.mainQueue) := by
  rw [finishReadOperation]
  generalize hfinished : (if op ∈ storage.reads.canceled then storage else _ : Storage) = finished
  have hanswers : finished.answers =
      (if op ∈ storage.reads.canceled then storage.reads
        else storage.reads.deliver op (ReadOperation.finish record blob),
        storage.mainQueue) := by
    rw [← hfinished]
    by_cases hcanceled : op ∈ storage.reads.canceled
    · rw [if_pos hcanceled, if_pos hcanceled]
      rfl
    · rw [if_neg hcanceled, if_neg hcanceled]
      cases accepts with
      | true => rfl
      | false => exact answers_removeKey op.key
  obtain ⟨hreads, hqueue⟩ := Prod.mk.inj hanswers
  refine ⟨finished.mode, finished.mayContainBlob, ?_⟩
  rw [← hreads, ← hqueue]
  rfl

theorem readStep_runMain {storage : Storage} {task : MainTask} {rest : List MainTask}
    (hhead : storage.mainQueue = task :: rest) (accepts exceeds : Bool) :
    ReadStep storage (.runMain accepts exceeds)
      (runMainTask { storage with mainQueue := rest } accepts exceeds task).readSide := by
  cases task with
  | synchronized recFilter blobFilter =>
    exact .of_tail rfl hhead (answers_finishSynchronization recFilter blobFilter)
  | shrunk => exact .of_tail rfl hhead answers_synchronize
  | blobStored operation =>
    exact .of_tail rfl hhead (answers_finishWriteOperation operation false exceeds)
  | written operation error =>
    exact .of_tail rfl hhead (answers_finishWriteOperation operation error exceeds)
  | finishRead operation record blob =>
    obtain ⟨mode, mayContainBlob, hanswers⟩ := answers_finishReadOperation
      { storage with mainQueue := rest } operation record blob accepts
    obtain ⟨hreads, hqueue⟩ := Prod.mk.inj hanswers
    have hside : (finishReadOperation { storage with mainQueue := rest } operation record blob
        accepts).readSide = (_, answering rest) := Prod.ext hreads (congrArg answering hqueue)
    exact .of_eq hside (.finished accepts exceeds operation record blob (answering rest) mode
      mayContainBlob (congrArg answering hhead))
  | deliver operation found =>
    exact .delivered accepts exceeds operation found (answering rest) (congrArg answering hhead)

theorem readStep_of_moves {storage next : Storage} {action : Action}
    (hmoves : Moves storage action next) : ReadStep storage action next.readSide := by
  cases hmoves with
  | store record => exact .of_answers (answers_store record)
  | remove key => exact .of_answers (answers_removeKey key)
  | setCapacity cap exceeds =>
    rw [setCapacity]
    split
    · exact .of_answers rfl
    · exact .of_answers (answers_shrinkIfNeeded exceeds)
  | retrieve key prio =>
    rw [retrieve]
    split
    · exact .answered key prio
    · split
      · exact .answered key prio
      · split
        · next found hfound =>
          rw [readSide, answering_post rfl]
          exact .found key prio found hfound
        · exact .queued key prio
  | fireWriteTimer => exact .of_answers (answers_dispatchRounds _)
  | fireReadTimeout => exact .canceled
  | runMain accepts exceeds task rest hqueue => exact readStep_runMain hqueue accepts exceeds
  | storeBody idx out op =>
    rw [storeBody]
    split
    · exact .of_answers rfl
    · cases out with
      | notStored => exact .of_answers rfl
      | notLinked | stored => exact .of_append (.blobStored op) rfl rfl
  | openFile idx created => cases created <;> exact .of_answers rfl
  | writeFile idx error inline op =>
    rw [writeFile, finishFile]
    cases error with
    | true => exact .of_append (.written op true) rfl rfl
    | false =>
      simp only [Bool.false_eq_true, if_false]
      split <;> exact .of_append (.written op false) rfl rfl
  | leaveWrite idx error operation => exact .of_append (.written operation true) rfl rfl
  | readFile idx decodes operation blob htask =>
    refine readStep_updateReadTask htask rfl fun found hfound => Or.inr ?_
    cases decodes with
    | false => cases hfound
    | true => exact Option.some.inj hfound
  | readBlob idx operation record htask =>
    exact readStep_updateReadTask htask rfl fun found hfound => Or.inl hfound
  | visit =>
    rw [visit]
    split
    · exact .of_answers rfl
    · split <;> exact .of_answers rfl
    · split <;> exact .of_answers rfl
  | finishTraversal idx trav =>
    cases trav.kind with
    | synchronize recFilter blobFilter =>
      exact .of_append (.synchronized recFilter blobFilter) rfl rfl
    | shrink => exact .of_append .shrunk rfl rfl
    | clear => exact .of_answers rfl
  | _ => exact .of_answers rfl

end Storage

end PurcFetcher.Cache
