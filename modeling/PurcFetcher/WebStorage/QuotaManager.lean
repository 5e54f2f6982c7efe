import Mathlib.Algebra.BigOperators.Group.List.Basic
import Mathlib.Algebra.Ring.Nat
import PurcFetcher.Core.Machine

/-!
# Granting space within a quota

A storage quota manager grants requests for space from a countdown.  A request that the
countdown does not cover makes it ask for the usage and count down from the quota again, and
a request that is still not covered waits for an increase of the quota.  What was granted is
written some time later.  The usage does not tell what was granted and is not yet written.
-/

namespace PurcFetcher.WebStorage

open Machine List

/-- A grant with the quota in force when it was made. -/
structure Grant where
  space : UInt64
  quota : UInt64
deriving DecidableEq

structure StorageQuotaManager where
  quotaCountDown : UInt64
  quota : UInt64
  usage : UInt64
  quotaUpdatedBasedOnUsage : Bool
  /-- The requests of the main thread that wait for the background queue. -/
  workQueue : List UInt64
  /-- The request that waits for an increase of the quota and holds the lock. -/
  waiting : Option UInt64
  /-- What the usage getter reports. -/
  stored : UInt64
  /-- The grants that are not yet written, in the order in which they were made. -/
  unwritten : List Grant
deriving DecidableEq

namespace StorageQuotaManager

variable {manager next : StorageQuotaManager}

def create (quota stored : UInt64) : StorageQuotaManager where
  quotaCountDown := 0
  quota := quota
  usage := 0
  quotaUpdatedBasedOnUsage := false
  workQueue := []
  waiting := none
  stored := stored
  unwritten := []

def tryGrantRequest (manager : StorageQuotaManager) (spaceRequested : UInt64) :
    Option StorageQuotaManager :=
  if spaceRequested ≤ manager.quotaCountDown then
    some { manager with
      quotaCountDown := manager.quotaCountDown - spaceRequested
      unwritten := manager.unwritten ++ [⟨spaceRequested, manager.quota⟩] }
  else none

/-- Without a step of the quota the usage is divided by zero. -/
def updateQuotaBasedOnUsage (manager : StorageQuotaManager) : Option StorageQuotaManager :=
  if manager.quotaUpdatedBasedOnUsage then some manager
  else
    let defaultQuotaStep := manager.quota / 10
    if defaultQuotaStep = 0 then none
    else
      some { manager with
        quotaUpdatedBasedOnUsage := true
        quota := max manager.quota
          (defaultQuotaStep * (manager.usage / defaultQuotaStep + 1)) }

def updateUsage (manager : StorageQuotaManager) : StorageQuotaManager :=
  { manager with usage := manager.stored }

def updateQuotaCountDown (manager : StorageQuotaManager) : StorageQuotaManager :=
  { manager with
    quotaCountDown := if manager.usage < manager.quota then manager.quota - manager.usage else 0 }

/-- The part after the lock is taken, up to where it waits for an increase of the quota. -/
def requestSpaceOnBackgroundThread (manager : StorageQuotaManager) (spaceRequested : UInt64) :
    Option StorageQuotaManager :=
  match manager.tryGrantRequest spaceRequested with
  | some granted => some granted
  | none =>
    manager.updateUsage.updateQuotaBasedOnUsage.map fun updated =>
      let counted := updated.updateQuotaCountDown
      match counted.tryGrantRequest spaceRequested with
      | some granted => granted
      | none => { counted with waiting := some spaceRequested }

/-- The part after the answer to the request for an increase. -/
def quotaIncreaseDecided (manager : StorageQuotaManager) (spaceRequested : UInt64)
    (newQuota : Option UInt64) : StorageQuotaManager :=
  let increased := { manager with quota := newQuota.getD manager.quota, waiting := none }
  let counted := increased.updateUsage.updateQuotaCountDown
  (counted.tryGrantRequest spaceRequested).getD counted

/-- The fast path if the lock can be taken, and otherwise a task for the background queue. -/
def requestSpaceOnMainThread (manager : StorageQuotaManager) (spaceRequested : UInt64)
    (contended : Bool) : StorageQuotaManager :=
  let dispatched := { manager with workQueue := manager.workQueue ++ [spaceRequested] }
  if contended || manager.waiting.isSome then dispatched
  else (manager.tryGrantRequest spaceRequested).getD dispatched

inductive QuotaAction where
  /-- A request on the main thread, while another thread has the lock or not. -/
  | requestOnMainThread (spaceRequested : UInt64) (contended : Bool)
  | requestOnBackgroundThread (spaceRequested : UInt64)
  /-- The next task of the background queue. -/
  | runWorkQueue
  | quotaIncreaseDecided (newQuota : Option UInt64)
  /-- One of the grants is written. -/
  | write (index : ℕ)
deriving DecidableEq

def step (manager : StorageQuotaManager) : QuotaAction → Option StorageQuotaManager
  | .requestOnMainThread spaceRequested contended =>
    some (manager.requestSpaceOnMainThread spaceRequested contended)
  | .requestOnBackgroundThread spaceRequested =>
    if manager.waiting.isSome then none
    else manager.requestSpaceOnBackgroundThread spaceRequested
  | .runWorkQueue =>
    match manager.workQueue with
    | [] => none
    | spaceRequested :: rest =>
      if manager.waiting.isSome then none
      else
        { manager with workQueue := rest }.requestSpaceOnBackgroundThread spaceRequested
  | .quotaIncreaseDecided newQuota =>
    manager.waiting.map fun spaceRequested => manager.quotaIncreaseDecided spaceRequested newQuota
  | .write index =>
    manager.unwritten[index]?.bind fun grant =>
      if manager.stored.toNat + grant.space.toNat < 2 ^ 64 then
        some { manager with
          stored := manager.stored + grant.space
          unwritten := manager.unwritten.eraseIdx index }
      else none

/-- The requests that come to be decided in a step. -/
def requests (manager : StorageQuotaManager) : QuotaAction → List UInt64
  | .requestOnMainThread spaceRequested _ => [spaceRequested]
  | .requestOnBackgroundThread spaceRequested => [spaceRequested]
  | .runWorkQueue => manager.workQueue.head?.toList
  | .quotaIncreaseDecided _ | .write _ => []

def refreshes (manager : StorageQuotaManager) : QuotaAction → Bool
  | .requestOnMainThread _ _ => false
  | .requestOnBackgroundThread spaceRequested => spaceRequested > manager.quotaCountDown
  | .runWorkQueue => manager.workQueue.head?.any fun space => space > manager.quotaCountDown
  | .quotaIncreaseDecided _ => true
  | .write _ => false

/-- When the usage is asked for, all grants are written, and requests for no space are made
only while the usage is within the quota. -/
def Reflected (manager : StorageQuotaManager) (action : QuotaAction) : Prop :=
  (manager.refreshes action = true → manager.unwritten = []) ∧
    (0 ∈ manager.requests action → manager.stored ≤ manager.quota)

instance (manager : StorageQuotaManager) (action : QuotaAction) :
    Decidable (manager.Reflected action) :=
  inferInstanceAs (Decidable (_ ∧ _))

/-- The sum of the grants that are not yet written. -/
def unwrittenSpace (manager : StorageQuotaManager) : ℕ :=
  (manager.unwritten.map fun grant => grant.space.toNat).sum

/-- With the usage, the grants that are not yet written are within the quota in force when
the last of them was made. -/
def WithinQuota (manager : StorageQuotaManager) : Prop :=
  ∀ last ∈ manager.unwritten.getLast?,
    manager.stored.toNat + manager.unwrittenSpace ≤ last.quota.toNat

/-- All grants that are not yet written were made under the quota, and as long as there are
some, or there is something left to count down, the sum is within it.  A request for no
space never waits. -/
structure QuotaInv (manager : StorageQuotaManager) : Prop where
  waits : ∀ space ∈ manager.waiting, space ≠ 0
  quotas : ∀ grant ∈ manager.unwritten, grant.quota = manager.quota
  room : manager.unwritten ≠ [] ∨ manager.quotaCountDown ≠ 0 →
    manager.stored.toNat + manager.unwrittenSpace + manager.quotaCountDown.toNat ≤
      manager.quota.toNat

variable {spaceRequested : UInt64}

theorem QuotaInv.tryGrantRequest (hinv : manager.QuotaInv)
    (hzero : spaceRequested = 0 → manager.stored ≤ manager.quota)
    (hgrant : manager.tryGrantRequest spaceRequested = some next) : next.QuotaInv := by
  obtain ⟨hle, hgrant⟩ := Option.ite_none_right_eq_some.1 hgrant
  cases hgrant
  refine ⟨hinv.waits, ?_, fun _ => ?_⟩
  · intro grant hgrant
    rcases mem_append.1 hgrant with hold | hnew
    · exact hinv.quotas grant hold
    · rw [mem_singleton.1 hnew]
  · have hspace : unwrittenSpace { manager with
        quotaCountDown := manager.quotaCountDown - spaceRequested
        unwritten := manager.unwritten ++ [⟨spaceRequested, manager.quota⟩] } =
        manager.unwrittenSpace + spaceRequested.toNat := by
      rw [unwrittenSpace, map_append, sum_append]
      rfl
    rw [hspace]
    dsimp only
    rw [UInt64.toNat_sub_of_le _ _ hle]
    rw [UInt64.le_iff_toNat_le] at hle
    by_cases hroom : manager.unwritten ≠ [] ∨ manager.quotaCountDown ≠ 0
    · have hwithin := hinv.room hroom
      omega
    · -- Nothing is counted down, so that only a request for no space is granted.
      obtain ⟨hwritten, hdown⟩ := not_or.1 hroom
      rw [not_not.1 hdown, UInt64.toNat_zero] at hle ⊢
      have hstored := hzero (UInt64.toNat_inj.1 (Nat.le_zero.1 hle))
      rw [UInt64.le_iff_toNat_le] at hstored
      rw [unwrittenSpace, not_not.1 hwritten, map_nil, sum_nil]
      omega

theorem QuotaInv.updateQuotaCountDown (hwaits : ∀ space ∈ manager.waiting, space ≠ 0)
    (hwritten : manager.unwritten = []) (husage : manager.usage = manager.stored) :
    manager.updateQuotaCountDown.QuotaInv := by
  refine ⟨hwaits, fun grant hgrant => absurd (hwritten ▸ hgrant) not_mem_nil, fun hroom => ?_⟩
  have hspace : manager.updateQuotaCountDown.unwrittenSpace = 0 := by
    change (manager.unwritten.map _).sum = 0
    rw [hwritten]
    rfl
  rw [hspace]
  change manager.stored.toNat + 0 +
    (if manager.usage < manager.quota then manager.quota - manager.usage else 0).toNat ≤
      manager.quota.toNat
  rcases hroom with hunwritten | hdown
  · exact absurd hwritten hunwritten
  · have hless : manager.usage < manager.quota := by
      by_contra hless
      exact hdown (if_neg hless)
    rw [if_pos hless, UInt64.toNat_sub_of_le _ _ (UInt64.le_of_lt hless), husage]
    rw [UInt64.lt_iff_toNat_lt, husage] at hless
    omega

theorem updateQuotaBasedOnUsage_frame (hupdate : manager.updateQuotaBasedOnUsage = some next) :
    next.unwritten = manager.unwritten ∧ next.stored = manager.stored ∧
      next.usage = manager.usage ∧ next.waiting = manager.waiting := by
  rw [updateQuotaBasedOnUsage] at hupdate
  split at hupdate
  · cases hupdate
    exact ⟨rfl, rfl, rfl, rfl⟩
  · grind

/-- A request that is not granted, or one for which nothing is unwritten when the usage is
asked for, keeps the invariant. -/
theorem QuotaInv.requestSpaceOnBackgroundThread (hinv : manager.QuotaInv)
    (hzero : spaceRequested = 0 → manager.stored ≤ manager.quota)
    (hwritten : spaceRequested > manager.quotaCountDown → manager.unwritten = [])
    (hreq : manager.requestSpaceOnBackgroundThread spaceRequested = some next) :
    next.QuotaInv := by
  rw [StorageQuotaManager.requestSpaceOnBackgroundThread] at hreq
  split at hreq
  · next granted hgrant =>
    cases hreq
    exact hinv.tryGrantRequest hzero hgrant
  · next hrefused =>
    have hmore : spaceRequested > manager.quotaCountDown := by
      grind [StorageQuotaManager.tryGrantRequest]
    obtain ⟨updated, hupdated, rfl⟩ := Option.map_eq_some_iff.1 hreq
    obtain ⟨hunwritten, hstored, husage, hwaiting⟩ := updateQuotaBasedOnUsage_frame hupdated
    have hcounted : updated.updateQuotaCountDown.QuotaInv :=
      .updateQuotaCountDown (hwaiting ▸ hinv.waits) (hunwritten.trans (hwritten hmore))
        (husage.trans hstored.symm)
    -- A request for no space is granted at once.
    have hsome : spaceRequested ≠ 0 := by
      rintro rfl
      exact absurd hmore (UInt64.not_lt.2 UInt64.zero_le)
    dsimp only
    split
    · next granted hgrant => exact hcounted.tryGrantRequest (fun hnone => absurd hnone hsome) hgrant
    · refine ⟨?_, hcounted.quotas, hcounted.room⟩
      rintro _ ⟨⟩
      exact hsome

theorem QuotaInv.quotaIncreaseDecided (hsome : spaceRequested ≠ 0)
    (hwritten : manager.unwritten = []) (newQuota : Option UInt64) :
    (manager.quotaIncreaseDecided spaceRequested newQuota).QuotaInv := by
  have hcounted : StorageQuotaManager.QuotaInv (StorageQuotaManager.updateQuotaCountDown
      (updateUsage { manager with quota := newQuota.getD manager.quota, waiting := none })) :=
    .updateQuotaCountDown (fun _ hnone => absurd hnone (Option.not_mem_none _)) hwritten rfl
  rw [StorageQuotaManager.quotaIncreaseDecided]
  cases hgrant : StorageQuotaManager.tryGrantRequest _ spaceRequested with
  | none => exact hcounted
  | some => exact hcounted.tryGrantRequest (fun hnone => absurd hnone hsome) hgrant

section

variable (hinv : manager.QuotaInv)
include hinv

theorem QuotaInv.write {idx : ℕ} {grant : Grant}
    (hgrant : manager.unwritten[idx]? = some grant)
    (hfits : manager.stored.toNat + grant.space.toNat < 2 ^ 64) :
    StorageQuotaManager.QuotaInv { manager with
      stored := manager.stored + grant.space
      unwritten := manager.unwritten.eraseIdx idx } := by
  refine ⟨hinv.waits, fun other hother => hinv.quotas other (mem_of_mem_eraseIdx hother),
    fun _ => ?_⟩
  have hroom := hinv.room (.inl (ne_nil_of_mem (mem_of_getElem? hgrant)))
  obtain ⟨hidx, hheld⟩ := List.getElem?_eq_some_iff.1 hgrant
  have hsum : (manager.unwritten.map fun grant => grant.space.toNat).sum = grant.space.toNat +
        ((manager.unwritten.eraseIdx idx).map fun grant => grant.space.toNat).sum := by
    have hperm := (getElem_cons_eraseIdx_perm hidx).map fun grant => grant.space.toNat
    rw [hheld] at hperm
    exact hperm.sum_eq.symm
  rw [unwrittenSpace] at hroom ⊢
  dsimp only
  rw [UInt64.toNat_add, Nat.mod_eq_of_lt hfits]
  omega

theorem QuotaInv.step {action : QuotaAction}
    (hreflected : manager.Reflected action) (hstep : manager.step action = some next) :
    next.QuotaInv := by
  obtain ⟨hwritten, hzero⟩ := hreflected
  cases action with
  | requestOnMainThread spaceRequested contended =>
    cases hstep
    rw [StorageQuotaManager.requestSpaceOnMainThread]
    split
    · exact ⟨hinv.waits, hinv.quotas, hinv.room⟩
    · cases hgrant : manager.tryGrantRequest spaceRequested with
      | none => exact ⟨hinv.waits, hinv.quotas, hinv.room⟩
      | some => exact hinv.tryGrantRequest (fun hnone => hzero (mem_singleton.2 hnone.symm)) hgrant
  | requestOnBackgroundThread =>
    obtain ⟨-, hreq⟩ := Option.ite_none_left_eq_some.1 hstep
    exact hinv.requestSpaceOnBackgroundThread (fun hnone => hzero (mem_singleton.2 hnone.symm))
      (fun hmore => hwritten (decide_eq_true hmore)) hreq
  | runWorkQueue =>
    rw [StorageQuotaManager.step] at hstep
    rw [refreshes] at hwritten
    rw [requests] at hzero
    split at hstep
    · exact absurd hstep (Option.some_ne_none _).symm
    · next spaceRequested rest hqueue =>
      obtain ⟨-, hreq⟩ := Option.ite_none_left_eq_some.1 hstep
      rw [hqueue] at hwritten hzero
      have hsame : StorageQuotaManager.QuotaInv { manager with workQueue := rest } :=
        ⟨hinv.waits, hinv.quotas, hinv.room⟩
      exact hsame.requestSpaceOnBackgroundThread (fun hnone => hzero (mem_singleton.2 hnone.symm))
        (fun hmore => hwritten (decide_eq_true hmore)) hreq
  | quotaIncreaseDecided newQuota =>
    obtain ⟨spaceRequested, hwaiting, rfl⟩ := Option.map_eq_some_iff.1 hstep
    exact .quotaIncreaseDecided (hinv.waits spaceRequested hwaiting) (hwritten rfl) newQuota
  | write =>
    obtain ⟨grant, hgrant, hwrite⟩ := Option.bind_eq_some_iff.1 hstep
    obtain ⟨hfits, hnext⟩ := Option.ite_none_right_eq_some.1 hwrite
    cases hnext
    exact hinv.write hgrant hfits

end

/-- If whenever the usage is asked for all earlier grants are written, the usage together
with the grants that are not yet written never exceeds the quota in force when the last of
them was made. -/
theorem grants_within_quota {quota stored : UInt64} {actions : List QuotaAction}
    (hreflected : Meets step Reflected (create quota stored) actions)
    (hrun : run step (create quota stored) actions = some manager) : manager.WithinQuota := by
  have hstart : (create quota stored).QuotaInv :=
    ⟨fun _ hnone => absurd hnone (Option.not_mem_none _), fun _ hnil => absurd hnil not_mem_nil,
      fun hroom => absurd hroom (by rintro (hunwritten | hdown) <;> contradiction)⟩
  have hinv : manager.QuotaInv :=
    run_of_step (fun hinv hreflected hstep => QuotaInv.step hinv hreflected hstep) hstart
      hreflected hrun
  intro last hlast
  have hmem : last ∈ manager.unwritten := mem_of_getLast? hlast
  have hroom := hinv.room (.inl (ne_nil_of_mem hmem))
  rw [hinv.quotas last hmem]
  omega

theorem grants_within_quota_written : ∃ manager, run step (create 100 95)
        [.requestOnBackgroundThread 5, .write 0, .requestOnBackgroundThread 20,
          .quotaIncreaseDecided (some 200), .requestOnMainThread 10 false] = some manager ∧
      manager.unwritten = [⟨20, 200⟩, ⟨10, 200⟩] ∧ manager.WithinQuota := by
  refine ⟨_, run_eq_after (by decide +kernel), by decide +kernel, ?_⟩
  exact grants_within_quota (by decide +kernel) (run_eq_after (by decide +kernel))

/-- The usage is asked for while a grant of 60 is not yet written, and another 50 are granted
of a quota of 100. -/
theorem grants_exceed_quota : ∃ manager, run step (create 100 0)
        [.requestOnBackgroundThread 60, .requestOnBackgroundThread 50] = some manager ∧
      ¬ manager.WithinQuota := by
  have hrun := @run_eq_after _ _ step (create 100 0)
    [.requestOnBackgroundThread 60, .requestOnBackgroundThread 50] (by decide +kernel)
  refine ⟨_, hrun, fun hwithin => ?_⟩
  have hlast := hwithin ⟨50, 100⟩ (by decide +kernel)
  exact absurd hlast (by decide +kernel)

/-! ## The first update of the quota -/

/-- The steps that are the least to exceed the usage, without a bound. -/
def coveringSteps (manager : StorageQuotaManager) : ℕ :=
  (manager.quota / 10).toNat * (manager.usage.toNat / (manager.quota / 10).toNat + 1)

/-- The update comes to an end without a wrap, the quota does not shrink, and the first update
leaves it above the usage. -/
def CoversUsage (manager : StorageQuotaManager) : Prop :=
  ∃ next, manager.updateQuotaBasedOnUsage = some next ∧ manager.quota ≤ next.quota ∧
    (manager.quotaUpdatedBasedOnUsage = false →
      next.quota.toNat = max manager.quota.toNat manager.coveringSteps ∧
        manager.usage < next.quota)

theorem toNat_max (left right : UInt64) : (max left right).toNat = max left.toNat right.toNat := by
  exact apply_ite UInt64.toNat _ right left

theorem usage_lt_coveringSteps (hstep : manager.quota / 10 ≠ 0) :
    manager.usage.toNat < manager.coveringSteps := by
  have hpos : 0 < (manager.quota / 10).toNat :=
    Nat.pos_of_ne_zero fun hzero => hstep (UInt64.toNat_inj.1 hzero)
  exact Nat.lt_mul_div_succ _ hpos

/-- If the least number of steps fits, neither the quotient nor the product wraps. -/
theorem toNat_steps (hstep : manager.quota / 10 ≠ 0) (hfits : manager.coveringSteps < 2 ^ 64) :
    (manager.quota / 10 * (manager.usage / (manager.quota / 10) + 1)).toNat =
      manager.coveringSteps := by
  have hpos : 0 < (manager.quota / 10).toNat :=
    Nat.pos_of_ne_zero fun hzero => hstep (UInt64.toNat_inj.1 hzero)
  have hcount := (Nat.le_mul_of_pos_left _ hpos).trans_lt hfits
  rw [UInt64.toNat_mul, UInt64.toNat_add, UInt64.toNat_div manager.usage, UInt64.toNat_one,
    Nat.mod_eq_of_lt hcount]
  exact Nat.mod_eq_of_lt hfits

/-- The first update divides by zero below a quota of ten, and it wraps exactly if the steps
that exceed the usage do not fit in 64 bits. -/
theorem coversUsage_iff (manager : StorageQuotaManager) :
    manager.CoversUsage ↔ manager.quotaUpdatedBasedOnUsage = true ∨
      10 ≤ manager.quota ∧ manager.coveringSteps < 2 ^ 64 := by
  by_cases hupdated : manager.quotaUpdatedBasedOnUsage = true
  · refine iff_of_true ⟨manager, if_pos hupdated, UInt64.le_refl _, ?_⟩ (.inl hupdated)
    exact fun hfirst => absurd (hupdated.symm.trans hfirst) Bool.false_ne_true.symm
  · have hstep : manager.quota / 10 = 0 ↔ ¬ 10 ≤ manager.quota := by grind
    rw [or_iff_right hupdated, CoversUsage, updateQuotaBasedOnUsage, if_neg hupdated]
    by_cases hzero : manager.quota / 10 = 0
    · grind
    · rw [if_neg hzero]
      refine Iff.trans ⟨?_, ?_⟩ (and_iff_right (not_not.1 (mt hstep.2 hzero))).symm
      · rintro ⟨next, hnext, -, hcovers⟩
        have hquota := (hcovers (Bool.not_eq_true _ ▸ hupdated)).1
        exact (Nat.le_max_right _ _).trans_lt (hquota ▸ UInt64.toNat_lt next.quota)
      · intro hfits
        have hquota := (toNat_max manager.quota _).trans
          (congrArg (max manager.quota.toNat) (toNat_steps hzero hfits))
        refine ⟨_, rfl, ?_, fun _ => ⟨hquota, ?_⟩⟩
        · exact UInt64.le_iff_toNat_le.2 (hquota ▸ Nat.le_max_left _ _)
        · rw [UInt64.lt_iff_toNat_lt, hquota]
          exact (usage_lt_coveringSteps hzero).trans_le (Nat.le_max_right _ _)

/-- A quota of nine divides by zero, and the largest usage leaves a quota of a hundred as it
is. -/
theorem first_update_fails :
    (create 9 0).updateQuotaBasedOnUsage = none ∧
      (∀ next ∈ updateQuotaBasedOnUsage { create 100 0 with usage := 18446744073709551615 },
        next.quota = 100) ∧
      ¬ (create 9 0).CoversUsage ∧
      ¬ CoversUsage { create 100 0 with usage := 18446744073709551615 } := by
  refine ⟨by decide +kernel, by decide +kernel, ?_, ?_⟩
  · rintro ⟨next, hnext, -⟩
    have hnone : (create 9 0).updateQuotaBasedOnUsage.isSome = false := by decide +kernel
    rw [hnext] at hnone
    exact Bool.false_ne_true hnone.symm
  · rintro ⟨next, hnext, -, hcovers⟩
    have hless : ∀ next ∈
        updateQuotaBasedOnUsage { create 100 0 with usage := 18446744073709551615 },
        next.quota ≤ 18446744073709551615 := by decide +kernel
    exact absurd (hcovers rfl).2 (UInt64.not_lt.2 (hless next hnext))

end StorageQuotaManager

end PurcFetcher.WebStorage
