import PurcFetcher.DomCache.Effects

/-!
# The size of the caches

The size is changed by what each write and each removal of a record adds and takes away.  Along
an orderly run it stays the sum of the sizes of the records that are kept, until a removed cache
with records is disposed: its records are removed from the storage, and the size still counts
them.
-/

namespace PurcFetcher.DomCache

open Machine Text

/-- Once initialized, the size is the sum of the recorded sizes. -/
def Counted (caches : Caches) : Prop :=
  caches.isInitialized = true → caches.size = caches.keptSize

/-- No removed cache with records is disposed in a persistent session. -/
def DisposesEmpty (caches : Caches) : Action → Prop
  | .dispose identifier => ∀ cache ∈ caches.find identifier, caches.shouldPersist = true →
      (caches.removedCaches.any fun other => other.identifier = cache.identifier) = true →
        (cache.records.map RecordInformation.size).sum = 0
  | _ => True

instance (caches : Caches) : (action : Action) → Decidable (DisposesEmpty caches action)
  | .dispose _ => inferInstanceAs (Decidable (∀ cache ∈ _, _ → _ → List.sum _ = 0))
  | .initializeCaches | .openNamed _ | .readCache _ | .finishOpening _ | .storeRecords _ _ _
  | .finishUpdate _ | .delete _ _ _ | .remove _ | .dispatchWriteOperation | .completeWrite
  | .completeRemoval => isTrue trivial

/-! ## Runs -/

theorem keptSize_disposeRemoved {cs : Caches} (hinv : IndexInv cs) {cache : Cache}
    (hcache : cache ∈ cs.all) (hpersist : cs.shouldPersist = true)
    (hidle : cs.isWriting cache.keys = false) :
    (cs.disposeRemoved cache).keptSize + (cache.records.map RecordInformation.size).sum =
      cs.keptSize := by
  refine keptSize_of_eraseAll hinv hcache (List.Sublist.refl _) ?_
  rw [Caches.kept_disposeRemoved hidle, if_pos hpersist]
  rfl

/-- In an ephemeral session the size is right from the start. -/
def SizeInv (caches : Caches) : Prop :=
  caches.isInitialized = true ∨ caches.shouldPersist = false → caches.size = caches.keptSize

namespace SizeInv

variable {caches next : Caches}

variable (hsize : SizeInv caches)
include hsize

theorem initializeCaches
    (hsettled : caches.isInitialized = false → caches.isSettled = true) :
    SizeInv caches.initializeCaches := by
  rw [Caches.initializeCaches]
  split
  · exact hsize
  · next hidle =>
    have hpend := hsettled (Bool.not_eq_true _ ▸ hidle)
    split
    · next hpersist => exact fun _ => (keptSize_of_settled hpersist hpend).symm
    · next hpersist => exact fun _ => hsize (.inr (Bool.not_eq_true _ ▸ hpersist))

theorem disposeRemoved (hinv : IndexInv caches) {ident : ℕ}
    {cache : Cache} (hfind : caches.find ident = some cache)
    (hremoved : (caches.removedCaches.any fun other => other.identifier = cache.identifier) = true)
    (hidle : caches.isWriting cache.keys = false)
    (hempty : DisposesEmpty caches (.dispose ident)) :
    SizeInv (caches.disposeRemoved cache) := by
  intro hcounts
  have hbefore : caches.size = caches.keptSize := hsize hcounts
  change caches.size = _
  by_cases hpersist : caches.shouldPersist = true
  · have hsum := keptSize_disposeRemoved hinv (find_spec hfind).1 hpersist hidle
    rw [hempty cache hfind hpersist hremoved, UInt64.add_zero] at hsum
    exact hbefore.trans hsum.symm
  · rw [hbefore, Caches.keptSize, Caches.keptSize, Caches.kept_disposeRemoved hidle,
      if_neg hpersist]

/-- A step keeps the count if it disposes only caches without records. -/
theorem step (hinv : IndexInv caches) {parse : Str → URL}
    {action : Action} (horderly : Orderly parse caches action)
    (hempty : DisposesEmpty caches action) (hstep : step parse caches action = some next) :
    SizeInv next := by
  cases stepEffect hinv horderly hstep with
  | effect heffect =>
    intro hcounts
    have hdrift := heffect.drift
    rw [hsize (hcounts.imp heffect.isInitialized fun hpersist =>
      heffect.shouldPersist ▸ hpersist)] at hdrift
    grind
  | initializeCaches => exact hsize.initializeCaches horderly
  | disposeRemoved hfind hremoved hidle =>
    exact hsize.disposeRemoved hinv hfind hremoved hidle hempty

end SizeInv

/-- Disposing a removed cache with records leaves the size wrong. -/
theorem not_counted_of_dispose {cs : Caches} {parse : Str → URL} {action : Action}
    (hinv : IndexInv cs) (horderly : Orderly parse cs action) (hcounted : Counted cs)
    (hrecs : ¬ DisposesEmpty cs action) :
    ∃ next, step parse cs action = some next ∧ ¬ (IndexInv next ∧ Counted next) := by
  cases action with
  | dispose =>
    rw [DisposesEmpty] at hrecs
    push Not at hrecs
    obtain ⟨cache, hfind, hpersist, hremoved, hsum⟩ := hrecs
    refine ⟨cs.dispose cache, congrArg (Option.map _) hfind, fun hnext => hsum ?_⟩
    have hcache := (find_spec hfind).1
    have hinit : cs.isInitialized = true := by
      by_contra hidle
      exact absurd (hinv.idle (Bool.not_eq_true _ ▸ hidle) ▸ hcache) List.not_mem_nil
    have hdispose : cs.dispose cache = cs.disposeRemoved cache := if_pos hremoved
    rw [hdispose] at hnext
    have hkept := keptSize_disposeRemoved hinv hcache hpersist (horderly cache hfind hremoved)
    have hbefore : cs.size = cs.keptSize := hcounted hinit
    have hafter : cs.size = (cs.disposeRemoved cache).keptSize := hnext.2 hinit
    grind
  | _ => exact absurd trivial hrecs

namespace Sample

/-- A record is stored in a new cache and replaced, the cache is closed and opened again, and
the record is deleted before the cache is removed and disposed. -/
def storeActions : List Action :=
  [.initializeCaches, .openNamed (lit "pages"), .storeRecords 0 1 [record 10],
    .storeRecords 0 2 [record 30], .dispatchWriteOperation, .completeWrite, .finishUpdate 0,
    .dispatchWriteOperation, .completeWrite, .dispose 0, .initializeCaches,
    .openNamed (lit "pages"), .finishOpening 0, .delete 1 request { }, .remove 1, .dispose 1,
    .completeRemoval, .completeRemoval]

/-- A cache with a record is removed and disposed. -/
def disposeActions : List Action :=
  [.initializeCaches, .openNamed (lit "pages"), .storeRecords 0 1 [record 10],
    .dispatchWriteOperation, .completeWrite, .remove 0, .dispose 0, .completeRemoval]

end Sample

end PurcFetcher.DomCache
