import PurcFetcher.DomCache.CachesList

/-!
# Writes of the list of caches

At most one write of the list is in flight, and the requests that arrive during it run
afterwards in the order of their arrival.  Each callback is either called or held in one place.
When nothing is in flight the file has the names of the caches.

This is so in runs in which a clear ends well.  A clear removes the file at once and forgets the
caches when the storage has been cleared.  A cache that is opened in between brings the file back,
and the callbacks that wait for a cache to open are lost when the cache is forgotten.
-/

namespace PurcFetcher.CachesList

open Persistence DomCache List

/-! ## What is in flight -/

def heldBy (caches : List Cache) : List ℕ := caches.flatMap Cache.pendingOpeningCallbacks

def fileAfter (file : Option (List UInt8)) (operations : List FileOperation) :
    Option (List UInt8) :=
  (operations.getLast?.map FileOperation.result).getD file

namespace Caches

variable (state : Caches)

/-- The writes that were asked for and have not completed. -/
def writes : List Write :=
  state.fileOperations.filterMap FileOperation.write? ++ state.written.map Prod.fst

/-- The callbacks that are kept to be called later. -/
def held : List ℕ :=
  state.pendingWritingCallbacks.map Waiting.callback ++ state.writes.map Write.callback ++
    state.storageClears ++ state.traversals.map Traversal.callback ++
    heldBy (state.caches ++ state.removedCaches)

def answered : List ℕ := state.called.map Prod.fst

/-- The file after the operations that were asked for. -/
def finalFile : Option (List UInt8) := fileAfter state.file state.fileOperations

/-- No file operation, write or clear is under way. -/
def Quiet : Prop :=
  state.fileOperations = [] ∧ state.writes = [] ∧ state.pendingWritingCallbacks = [] ∧
    state.storageClears = []

end Caches

/-- What holds of the requests, the writes, the callbacks and the file. -/
structure Serialized (state : Caches) : Prop where
  one_write : state.writes.length ≤ 1
  waits : state.pendingWritingCallbacks ≠ [] → state.writes ≠ []
  in_order : state.ran ++ state.pendingWritingCallbacks.map Waiting.callback =
    List.range state.arrived
  called_or_held : (state.answered ++ state.held).Perm (List.range state.arrived)
  all_called : state.Quiet → state.traversals = [] → state.answered.Perm (List.range state.arrived)
  names_unique : (state.caches.map Cache.name).Nodup
  on_disk : state.shouldPersist → !state.fileFailed → state.Quiet →
    state.caches.length ≤ maxNames →
    readNames state.file = some (state.caches.map fun cache => (cache.name.1, cache.uniqueName.1))

/-- When the storage has been cleared, the list is not being written, its file is absent after
the operations that were asked for, and no callback waits for one of the caches to open. -/
def EndsWell (state : Caches) : Action → Prop
  | .storageCleared _ =>
    state.isWritingCachesToDisk = false ∧ state.finalFile = none ∧ heldBy state.caches = []
  | _ => True

instance decidableEndsWell :
    (state : Caches) → (action : Action) → Decidable (EndsWell state action)
  | state, .storageCleared _ => inferInstanceAs (Decidable
      (state.isWritingCachesToDisk = false ∧ state.finalFile = none ∧ heldBy state.caches = []))
  | _, .request _ | _, .performFile _ | _, .completeWrite | _, .finishOpening _ => .isTrue trivial

/-! ## The caches -/

/-- No callback waits for the cache to open, or a traversal for it is under way. -/
def Attended (traversals : List Traversal) (cache : Cache) : Prop :=
  (cache.state ≠ .opening ∧ cache.pendingOpeningCallbacks = []) ∨
    ∃ traversal ∈ traversals, traversal.cacheIdentifier = cache.identifier

/-- The caches have identifiers of their own and are attended to. -/
structure Tracked (nextCacheIdentifier : ℕ) (traversals : List Traversal) (caches : List Cache) :
    Prop where
  identifiers : (caches.map Cache.identifier).Nodup
  fresh : ∀ cache ∈ caches, cache.identifier < nextCacheIdentifier
  attended : ∀ cache ∈ caches, Attended traversals cache

namespace Tracked

variable {nextCacheIdent : ℕ} {travs : List Traversal} {cs : List Cache}

section

variable (htracked : Tracked nextCacheIdent travs cs)
include htracked

theorem perm {other : List Cache}
    (hperm : other.Perm cs) : Tracked nextCacheIdent travs other where
  identifiers := ((hperm.map _).nodup_iff).2 htracked.identifiers
  fresh cache hcache := htracked.fresh cache (hperm.mem_iff.1 hcache)
  attended cache hcache := htracked.attended cache (hperm.mem_iff.1 hcache)

theorem sublist {other : List Cache}
    (hsublist : other.Sublist cs) : Tracked nextCacheIdent travs other where
  identifiers := htracked.identifiers.sublist (hsublist.map _)
  fresh cache hcache := htracked.fresh cache (hsublist.subset hcache)
  attended cache hcache := htracked.attended cache (hsublist.subset hcache)

theorem cons {cache : Cache}
    (hident : cache.identifier = nextCacheIdent) (hattended : Attended travs cache) :
    Tracked (nextCacheIdent + 1) travs (cache :: cs) where
  identifiers := by
    rw [map_cons, nodup_cons]
    refine ⟨fun hmem => ?_, htracked.identifiers⟩
    obtain ⟨other, hother, heq⟩ := mem_map.1 hmem
    exact (htracked.fresh other hother).ne (heq.trans hident)
  fresh other hother := by
    rcases mem_cons.1 hother with rfl | hother
    · exact hident.trans_lt (Nat.lt_succ_self _)
    · exact (htracked.fresh other hother).trans (Nat.lt_succ_self _)
  attended other hother := by
    rcases mem_cons.1 hother with rfl | hother
    · exact hattended
    · exact htracked.attended other hother

end

/-- One cache changes, and the traversals for the others go on. -/
theorem change {before after : List Cache} {cache changed : Cache}
    (htracked : Tracked nextCacheIdent travs (before ++ cache :: after))
    {others : List Traversal} (hident : changed.identifier = cache.identifier)
    (hchanged : Attended others changed)
    (hothers : ∀ trav ∈ travs, trav.cacheIdentifier ≠ cache.identifier →
      trav ∈ others) :
    Tracked nextCacheIdent others (before ++ changed :: after) := by
  have hfront := htracked.perm perm_middle.symm
  have hnodup := nodup_cons.1 hfront.identifiers
  have hrest : Tracked nextCacheIdent others (changed :: (before ++ after)) := by
    refine ⟨?_, fun other hother => ?_, fun other hother => ?_⟩
    · rw [map_cons, hident]
      exact hfront.identifiers
    · rcases mem_cons.1 hother with rfl | hother
      · exact hident ▸ hfront.fresh cache mem_cons_self
      · exact hfront.fresh other (mem_cons_of_mem _ hother)
    · rcases mem_cons.1 hother with rfl | hother
      · exact hchanged
      · rcases hfront.attended other (mem_cons_of_mem _ hother) with hidle | htrav
        · exact .inl hidle
        · obtain ⟨trav, htrav, heq⟩ := htrav
          have hne : other.identifier ≠ cache.identifier :=
            fun hsame => hnodup.1 (hsame ▸ mem_map_of_mem hother)
          exact .inr ⟨trav, hothers trav htrav (heq ▸ hne), heq⟩
  exact hrest.perm perm_middle

end Tracked

theorem heldBy_middle (before after : List Cache) (cache : Cache) :
    (heldBy (before ++ cache :: after) : Multiset ℕ) =
      heldBy (before ++ after) + cache.pendingOpeningCallbacks := by
  simp only [heldBy, flatMap_append, flatMap_cons, ← Multiset.coe_add]
  abel

theorem heldBy_perm {cs other : List Cache} (hperm : cs.Perm other) :
    (heldBy cs : Multiset ℕ) = heldBy other :=
  Multiset.coe_eq_coe.2 (hperm.flatMap_right _)

theorem changeFirst_of_find? {fits : Cache → Bool} {cs : List Cache} {cache : Cache}
    (hfind : cs.find? fits = some cache) (change : Cache → Cache) :
    ∃ before after, cs = before ++ cache :: after ∧
      Caches.changeFirst fits change cs = before ++ change cache :: after := by
  induction cs with
  | nil => exact absurd hfind nofun
  | cons head tail ih =>
    by_cases hhead : fits head = true
    · rw [find?_cons_of_pos hhead, Option.some.injEq] at hfind
      subst hfind
      exact ⟨[], tail, rfl, lookmap_cons_some _ _ (if_pos hhead)⟩
    · rw [find?_cons_of_neg hhead] at hfind
      obtain ⟨before, after, hcs, hchange⟩ := ih hfind
      refine ⟨head :: before, after, by rw [hcs, cons_append], ?_⟩
      have hkept : (if fits head then some (change head) else none) = none := if_neg hhead
      exact (lookmap_cons_none _ _ hkept).trans (congrArg (head :: ·) hchange)

theorem map_changeFirst {A : Type} (val : Cache → A) {change : Cache → Cache}
    (hval : ∀ cache, val (change cache) = val cache) (fits : Cache → Bool)
    (cs : List Cache) :
    (Caches.changeFirst fits change cs).map val = cs.map val := by
  refine lookmap_map_eq _ val (fun cache changed hchanged => ?_) cs
  obtain ⟨-, hchanged⟩ := Option.ite_none_right_eq_some.1 hchanged
  rw [← Option.some.inj hchanged, hval]

/-! ## The invariant -/

/-- The callbacks that were called or are held for a write or a clear. -/
def Caches.listed (state : Caches) : Multiset ℕ :=
  state.answered + state.pendingWritingCallbacks.map Waiting.callback +
    state.writes.map Write.callback + state.storageClears

/-- The callbacks that were called or are held. -/
def Caches.account (state : Caches) : Multiset ℕ :=
  state.listed + state.traversals.map Traversal.callback +
    heldBy (state.caches ++ state.removedCaches)

/-- What each function keeps.  The callbacks that are `running` are with the function. -/
structure Inv (running : Multiset ℕ) (state : Caches) : Prop where
  writing : state.writes.length = state.isWritingCachesToDisk.toNat
  order : state.ran ++ state.pendingWritingCallbacks.map Waiting.callback = List.range state.arrived
  account : state.account + running = Multiset.range state.arrived
  names : (state.caches.map Cache.name).Nodup
  tracked : Tracked state.nextCacheIdentifier state.traversals (state.caches ++ state.removedCaches)
  volatile : state.shouldPersist = false → ∀ cache ∈ state.caches,
    cache.state = .opened ∧ cache.pendingOpeningCallbacks = []
  released : state.shouldPersist = true → state.hasStorage = false → state.caches = [] ∧
    ∀ waiting ∈ state.pendingWritingCallbacks, waiting.request.changesList = false
  initialized : state.shouldPersist = true → state.isInitialized = true → state.hasStorage = true

theorem Caches.hasStorage_reject {s : Caches} {waiting : Waiting}
    (hst : s.hasStorage = false) : (s.reject waiting).hasStorage = false := by
  rw [Caches.reject]
  split
  · rfl
  · exact hst

theorem Caches.pendingWritingCallbacks_reject {s : Caches} {waiting : Waiting} :
    (s.reject waiting).pendingWritingCallbacks = s.pendingWritingCallbacks := by
  rw [Caches.reject]
  split <;> rfl

namespace Inv

variable {running : Multiset ℕ} {state : Caches} {callback : ℕ}

theorem callAll {cbs : List ℕ} (hinv : Inv (cbs + running) state) (reply : Reply) :
    Inv running (state.callAll cbs reply) := by
  have haccount : (state.callAll cbs reply).account + running =
      state.account + (cbs + running) := by
    simp only [Caches.account, Caches.listed, Caches.answered, Caches.writes, Caches.callAll,
      map_append, map_map, Function.comp_def, map_id', ← Multiset.coe_add]
    abel
  exact { hinv with account := haccount.trans hinv.account }

theorem call (hinv : Inv (callback ::ₘ running) state) (reply : Reply) :
    Inv running (state.call callback reply) :=
  callAll (show Inv (([callback] : List ℕ) + running) state from hinv) reply

theorem callLast (hinv : Inv {callback} state) (reply : Reply) :
    Inv 0 (state.call callback reply) :=
  call hinv reply

section

variable (hinv : Inv running state)
include hinv

theorem removeFile : Inv running state.removeFile := by
  have hwrites : state.removeFile.writes = state.writes := by
    cases hpersist : state.shouldPersist <;>
      simp [Caches.writes, Caches.removeFile, FileOperation.write?, hpersist]
  refine { hinv with writing := ?_, account := ?_ }
  · exact (congrArg List.length hwrites).trans hinv.writing
  · rw [Caches.account, Caches.listed, hwrites]
    exact hinv.account

theorem clearMemoryRepresentation (hheld : heldBy state.caches = [])
    (hpend : state.shouldPersist = true →
      ∀ waiting ∈ state.pendingWritingCallbacks, waiting.request.changesList = false) :
    Inv running state.clearMemoryRepresentation := by
  have haccount : state.clearMemoryRepresentation.account = state.account := by
    have hall : heldBy (state.caches ++ state.removedCaches) = heldBy state.removedCaches := by
      rw [heldBy, flatMap_append]
      exact congrArg (· ++ _) hheld
    rw [Caches.account, Caches.account, hall]
    rfl
  exact { hinv with
    account := by rw [haccount]; exact hinv.account
    names := nodup_nil
    tracked := hinv.tracked.sublist (sublist_append_right _ _)
    volatile := fun _ _ hcache => absurd hcache not_mem_nil
    released := fun hpersist _ => ⟨rfl, hpend hpersist⟩
    initialized := fun _ hinit => absurd hinit Bool.false_ne_true }

theorem heldBy_eq_nil (hst : state.hasStorage = false) :
    heldBy state.caches = [] := by
  cases hpersist : state.shouldPersist with
  | true => rw [(hinv.released hpersist hst).1]; rfl
  | false => exact flatMap_eq_nil_iff.2 fun cache hcache => (hinv.volatile hpersist cache hcache).2

end

variable {width : StringWidth} {cache : Cache}

theorem writeCachesToDisk {write : Write} (hinv : Inv (write.callback ::ₘ running) state)
    (hidle : state.isWritingCachesToDisk = false) :
    Inv running (state.writeCachesToDisk width write) := by
  rw [Caches.writeCachesToDisk]
  split
  · exact hinv.call _
  split
  · exact hinv.removeFile.call _
  have hnone : state.writes = [] := by
    rw [← length_eq_zero_iff, hinv.writing, hidle]
    rfl
  obtain ⟨hasked, hwritten⟩ := append_eq_nil_iff.1 hnone
  refine { hinv with writing := ?_, account := Eq.trans ?_ hinv.account }
  · simp [Caches.writes, FileOperation.write?, hasked, hwritten]
  · simp only [Caches.account, Caches.listed, Caches.answered, Caches.writes,
      FileOperation.write?, hasked, hwritten, filterMap_append, filterMap_cons, filterMap_nil,
      map_cons, map_nil, nil_append, append_nil, Multiset.coe_singleton, Multiset.coe_nil,
      ← Multiset.singleton_add]
    abel

/-- One of the caches is replaced, and with it perhaps the traversals. -/
theorem replace (hinv : Inv running state) (before after : List Cache) {changed : Cache}
    (hall : state.caches ++ state.removedCaches = before ++ cache :: after)
    {cs removedCaches : List Cache}
    (hnext : cs ++ removedCaches = before ++ changed :: after)
    (hident : changed.identifier = cache.identifier) {others : List Traversal}
    (hattended : Attended others changed)
    (hothers : ∀ trav ∈ state.traversals, trav.cacheIdentifier ≠ cache.identifier → trav ∈ others)
    {remaining : Multiset ℕ}
    (hcbs : (others.map Traversal.callback : Multiset ℕ) +
        changed.pendingOpeningCallbacks + remaining =
      state.traversals.map Traversal.callback + cache.pendingOpeningCallbacks + running)
    (hnames : (cs.map Cache.name).Nodup)
    (hvolatile : state.shouldPersist = false → ∀ cache ∈ cs,
      cache.state = .opened ∧ cache.pendingOpeningCallbacks = [])
    (hreleased : state.shouldPersist = true → state.hasStorage = false → cs = []) :
    Inv remaining { state with
      caches := cs, removedCaches := removedCaches, traversals := others } := by
  refine { hinv with
    account := Eq.trans ?_ hinv.account
    names := hnames
    tracked := ?_
    volatile := hvolatile
    released := fun hpersist hst => ⟨hreleased hpersist hst, (hinv.released hpersist hst).2⟩ }
  · rw [Caches.account, Caches.account, hall, hnext, heldBy_middle, heldBy_middle]
    calc _ = state.listed + heldBy (before ++ after) +
          ((others.map Traversal.callback : Multiset ℕ) +
            changed.pendingOpeningCallbacks + remaining) := by
          change state.listed + _ + _ + _ = _
          abel
      _ = state.listed + heldBy (before ++ after) +
          (state.traversals.map Traversal.callback + cache.pendingOpeningCallbacks +
            running) := by rw [hcbs]
      _ = _ := by abel
  · have htracked := hinv.tracked
    rw [hall] at htracked
    rw [hnext]
    exact htracked.change hident hattended hothers

/-- A change of one cache and the callbacks it holds. -/
theorem changeCache (hinv : Inv running state) {fits : Cache → Bool}
    (hfind : state.caches.find? fits = some cache) (change : Cache → Cache)
    (hname : ∀ cache, (change cache).name = cache.name)
    (hident : (change cache).identifier = cache.identifier)
    (hvolatile : state.shouldPersist = false →
      (change cache).state = .opened ∧ (change cache).pendingOpeningCallbacks = [])
    {others : List Traversal} (hattended : Attended others (change cache))
    (hothers : ∀ trav ∈ state.traversals, trav.cacheIdentifier ≠ cache.identifier → trav ∈ others)
    {remaining : Multiset ℕ}
    (hcbs : (others.map Traversal.callback : Multiset ℕ) +
        (change cache).pendingOpeningCallbacks + remaining =
      state.traversals.map Traversal.callback + cache.pendingOpeningCallbacks + running) :
    Inv remaining { state with
      caches := Caches.changeFirst fits change state.caches, traversals := others } := by
  obtain ⟨before, after, hcs, hchange⟩ := changeFirst_of_find? hfind change
  refine hinv.replace before (after ++ state.removedCaches) ?_ ?_ hident hattended hothers
    hcbs ?_ ?_ ?_
  · rw [hcs, append_assoc, cons_append]
  · rw [hchange, append_assoc, cons_append]
  · rw [map_changeFirst Cache.name hname]
    exact hinv.names
  · intro hpersist other hother
    rw [hchange] at hother
    rcases mem_cons.1 (perm_middle.mem_iff.1 hother) with rfl | hother
    · exact hvolatile hpersist
    · refine hinv.volatile hpersist other ?_
      rw [hcs]
      exact perm_middle.mem_iff.2 (mem_cons_of_mem _ hother)
  · intro hpersist hst
    rw [(hinv.released hpersist hst).1] at hfind
    exact absurd hfind nofun

section

variable (hinv : Inv (callback ::ₘ running) state)
include hinv

theorem openFound (hfind : state.caches.find? (·.name = cache.name) = some cache) :
    Inv running (state.openFound callback cache) := by
  have hmem : cache ∈ state.caches := mem_of_find?_eq_some hfind
  have hattended := hinv.tracked.attended cache (mem_append_left _ hmem)
  have hpersist (hs : cache.state ≠ .opened) : state.shouldPersist ≠ false :=
    fun hpersist => hs (hinv.volatile hpersist cache hmem).1
  rw [Caches.openFound]
  split
  case h_1 => exact hinv.call _
  case h_2 hs =>
    refine hinv.changeCache hfind (.appendOpeningCallback callback) (fun _ => rfl) rfl ?_ ?_
      (fun _ htrav _ => htrav) ?_
    · exact fun hfalse => absurd hfalse (hpersist (by rw [hs]; decide))
    · rcases hattended with hidle | htrav
      · exact absurd hs hidle.1
      · exact .inr htrav
    · simp only [Cache.appendOpeningCallback, ← Multiset.coe_add, Multiset.coe_singleton,
        ← Multiset.singleton_add]
      abel
  case h_3 hs =>
    refine hinv.changeCache hfind .startOpening (fun _ => rfl) rfl ?_ ?_ ?_ ?_
    · exact fun hfalse => absurd hfalse (hpersist (by rw [hs]; decide))
    · exact .inr ⟨_, mem_append_right _ mem_cons_self, rfl⟩
    · exact fun _ htrav _ => mem_append_left _ htrav
    · simp only [Cache.startOpening, map_append, map_cons, map_nil,
        ← Multiset.coe_add, Multiset.coe_singleton, ← Multiset.singleton_add]
      abel

variable (hidle : state.isWritingCachesToDisk = false)
include hidle

theorem openCache {name uniqueName : Name}
    (hst : state.shouldPersist = true → state.hasStorage = true) :
    Inv running (state.openCache width callback name uniqueName) := by
  rw [Caches.openCache]
  split
  case h_1 cache hfind =>
    have hname := find?_some hfind
    obtain rfl := of_decide_eq_true hname
    exact hinv.openFound hfind
  case h_2 hfind =>
    refine writeCachesToDisk { hinv with
      account := ?_, names := ?_, tracked := ?_, volatile := ?_, released := ?_ } hidle
    · refine Eq.trans ?_ hinv.account
      have hheld := heldBy_middle state.caches state.removedCaches
        ⟨state.nextCacheIdentifier, name, uniqueName, .opened, []⟩
      rw [Multiset.coe_nil, add_zero, append_cons] at hheld
      exact congrArg (state.listed + state.traversals.map Traversal.callback + · +
        callback ::ₘ running) hheld
    · rw [map_append, nodup_append_comm]
      refine nodup_cons.2 ⟨fun hmem => ?_, hinv.names⟩
      obtain ⟨cache, hcache, heq⟩ := mem_map.1 hmem
      exact find?_eq_none.1 hfind cache hcache (decide_eq_true heq)
    · rw [append_assoc]
      exact (hinv.tracked.cons rfl (.inl ⟨CacheState.noConfusion, rfl⟩)).perm perm_middle
    · intro hpersist cache hcache
      rcases mem_append.1 hcache with hcache | hcache
      · exact hinv.volatile hpersist cache hcache
      · rw [mem_singleton.1 hcache]
        exact ⟨rfl, rfl⟩
    · exact fun hpersist hfalse => absurd ((hst hpersist).symm.trans hfalse) nofun

theorem remove {ident : ℕ} :
    Inv running (state.remove width callback ident) := by
  rw [Caches.remove]
  split
  case h_1 => exact hinv.call _
  case h_2 cache hfind =>
    have hperm := Entries.perm_cons_eraseP hfind
    have hall : (state.caches.eraseP (·.identifier = ident) ++
        (state.removedCaches ++ [cache])).Perm (state.caches ++ state.removedCaches) := by
      rw [← append_assoc]
      refine (perm_append_singleton _ _).trans ?_
      exact hperm.symm.append_right state.removedCaches
    refine writeCachesToDisk { hinv with
      account := ?_, names := ?_, tracked := ?_, volatile := ?_, released := ?_ } hidle
    · refine Eq.trans ?_ hinv.account
      rw [Caches.account, Caches.account, heldBy_perm hall]
      rfl
    · exact hinv.names.sublist ((eraseP_sublist).map _)
    · exact hinv.tracked.perm hall
    · exact fun hpersist other hother => hinv.volatile hpersist other (mem_of_mem_eraseP hother)
    · intro hpersist hst
      rw [(hinv.released hpersist hst).1] at hfind
      exact absurd hfind nofun

end

theorem reject {waiting : Waiting} (hinv : Inv (waiting.callback ::ₘ running) state)
    (hst : state.hasStorage = false) (hpend : state.pendingWritingCallbacks = []) :
    Inv running (state.reject waiting) := by
  rw [Caches.reject]
  split
  · refine call (hinv.removeFile.clearMemoryRepresentation (hinv.heldBy_eq_nil hst) ?_) _
    intro _ other hother
    exact absurd (hpend ▸ hother) not_mem_nil
  · exact hinv.call _

theorem foldl_reject {list : List Waiting} (hinv : Inv (list.map Waiting.callback + running) state)
    (hst : state.hasStorage = false) (hpend : state.pendingWritingCallbacks = []) :
    Inv running (list.foldl (fun state waiting => state.reject waiting) state) := by
  induction list generalizing state with
  | nil => rwa [map_nil, Multiset.coe_nil, zero_add] at hinv
  | cons waiting list ih =>
    rw [map_cons, ← Multiset.cons_coe, Multiset.cons_add] at hinv
    refine ih (hinv.reject hst hpend) ?_ ?_
    · exact Caches.hasStorage_reject hst
    · exact Caches.pendingWritingCallbacks_reject.trans hpend

theorem clear (hinv : Inv (callback ::ₘ running) state) : Inv running (state.clear callback) := by
  rw [Caches.clear]
  split
  case isTrue =>
    refine { hinv.removeFile with account := Eq.trans ?_ hinv.removeFile.account }
    simp only [Caches.account, Caches.listed, Caches.answered, Caches.writes, Caches.removeFile,
      ← Multiset.coe_add, Multiset.coe_singleton, ← Multiset.singleton_add]
    abel
  case isFalse hst =>
    have hst : state.hasStorage = false := Bool.eq_false_iff.2 hst
    have hcleared := hinv.removeFile.clearMemoryRepresentation (hinv.heldBy_eq_nil hst)
      fun hpersist => (hinv.released hpersist hst).2
    refine call (foldl_reject ?_ rfl rfl) _
    refine { hcleared with order := ?_, account := Eq.trans ?_ hcleared.account, released := ?_ }
    · rw [map_nil, append_nil]
      exact hcleared.order
    · simp only [Caches.account, Caches.listed, Caches.answered, Caches.writes, map_nil,
        Multiset.coe_nil]
      abel
    · exact fun _ _ => ⟨rfl, fun _ hwaiting => absurd hwaiting not_mem_nil⟩

/-- A request is answered, or waits for a file operation. -/
theorem execute {waiting : Waiting}
    (hinv : Inv {waiting.callback} { state with ran := state.ran ++ [waiting.callback] })
    (hidle : state.isWritingCachesToDisk = false)
    (hst : waiting.request.changesList = true → state.shouldPersist = true →
      state.hasStorage = true) : Inv 0 (state.execute width waiting) := by
  rw [Caches.execute]
  split
  case h_1 hrequest => exact openCache hinv hidle (hst (by rw [hrequest]; rfl))
  case h_2 => exact remove hinv hidle
  case h_3 => exact call hinv _
  case h_4 => exact clear hinv

end Inv

end PurcFetcher.CachesList
