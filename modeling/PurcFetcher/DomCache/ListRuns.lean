import PurcFetcher.DomCache.ListWrites

/-!
# Runs of requests on the list of caches

The invariant of the functions leads to runs.  Beside it, the file that the operations lead to
has the names of the caches as long as the storage is not being cleared, and no request waits
when the list is not being written.
-/

namespace PurcFetcher.CachesList

open Text Persistence Machine List

variable {width : StringWidth} {s : Caches}

/-! ## The file -/

/-- The file holds the list.  There may be no file for the empty list. -/
def Listed (width : StringWidth) (file : Option (List UInt8)) (list : List Names) : Prop :=
  (file = none ∧ list = []) ∨ file = some (encodeCacheNames width list)

def Stored (width : StringWidth) (state : Caches) : Prop :=
  state.shouldPersist = true → state.fileFailed = false → state.storageClears = [] →
    Listed width state.finalFile (state.caches.map Cache.names)

theorem fileAfter_append_singleton (file : Option (List UInt8)) (ops : List FileOperation)
    (op : FileOperation) :
    fileAfter file (ops ++ [op]) = op.result := by
  rw [fileAfter, getLast?_concat]
  rfl

theorem fileAfter_cons (file : Option (List UInt8)) (op : FileOperation)
    (ops : List FileOperation) :
    fileAfter file (op :: ops) = fileAfter op.result ops := by
  cases ops with
  | nil => rfl
  | cons => rfl

theorem finalFile_removeFile (hpersist : s.shouldPersist = true) :
    s.removeFile.finalFile = none := by
  rw [Caches.finalFile, Caches.removeFile, if_pos hpersist]
  exact fileAfter_append_singleton _ _ _

namespace Stored

theorem writeCachesToDisk (s : Caches) (write : Write) :
    Stored width (s.writeCachesToDisk width write) := by
  rw [Caches.writeCachesToDisk]
  split
  case isTrue hvolatile =>
    intro hpersist
    change s.shouldPersist = true at hpersist
    rw [hpersist] at hvolatile
    exact absurd hvolatile Bool.false_ne_true
  split
  case isTrue hempty =>
    intro hpersist _ _
    refine .inl ⟨finalFile_removeFile hpersist, ?_⟩
    exact map_eq_nil_iff.2 (List.isEmpty_iff.1 hempty)
  case isFalse => exact fun _ _ _ => .inr (fileAfter_append_singleton _ _ _)

theorem changeFirst (hstored : Stored width s) (fits : Cache → Bool) (change : Cache → Cache)
    (hchange : ∀ cache, (change cache).names = cache.names) (travs : List Traversal) :
    Stored width { s with
      caches := Caches.changeFirst fits change s.caches, traversals := travs } := by
  intro hpersist hfile hclears
  have hlisted := hstored hpersist hfile hclears
  rw [← map_changeFirst Cache.names hchange fits] at hlisted
  exact hlisted

theorem openFound (hstored : Stored width s) (callback : ℕ) (cache : Cache) :
    Stored width (s.openFound callback cache) := by
  rw [Caches.openFound]
  split
  · exact hstored
  · exact hstored.changeFirst _ (.appendOpeningCallback callback) (fun _ => rfl) _
  · exact hstored.changeFirst _ .startOpening (fun _ => rfl) _

theorem clearMemoryRepresentation (s : Caches) :
    Stored width s.removeFile.clearMemoryRepresentation :=
  fun hpersist _ _ => .inl ⟨finalFile_removeFile hpersist, rfl⟩

theorem foldl_reject (hstored : Stored width s) (list : List Waiting) :
    Stored width (list.foldl (fun s waiting => s.reject waiting) s) := by
  induction list generalizing s with
  | nil => exact hstored
  | cons waiting list ih =>
    refine ih ?_
    change Stored width (s.reject waiting)
    rw [Caches.reject]
    split
    · exact clearMemoryRepresentation s
    · exact hstored

theorem clear (s : Caches) (callback : ℕ) : Stored width (s.clear callback) := by
  rw [Caches.clear]
  split
  · exact fun _ _ hclears => absurd hclears (append_ne_nil_of_right_ne_nil _ (cons_ne_nil _ _))
  · refine foldl_reject ?_ _
    exact clearMemoryRepresentation s

theorem execute (hstored : Stored width s) (waiting : Waiting) :
    Stored width (s.execute width waiting) := by
  rw [Caches.execute]
  split
  · rw [Caches.openCache]
    split
    · refine openFound ?_ _ _
      exact hstored
    · exact writeCachesToDisk _ _
  · rw [Caches.remove]
    split
    · exact hstored
    · exact writeCachesToDisk _ _
  · exact hstored
  · exact clear _ _

end Stored

/-! ## The loop at the end of a write -/

theorem pending_writeCachesToDisk (s : Caches) (write : Write) :
    (s.writeCachesToDisk width write).pendingWritingCallbacks =
      s.pendingWritingCallbacks := by
  rw [Caches.writeCachesToDisk]
  split
  · rfl
  split <;> rfl

theorem pending_foldl_reject (s : Caches) (list : List Waiting) :
    (list.foldl (fun s waiting => s.reject waiting) s).pendingWritingCallbacks =
      s.pendingWritingCallbacks := by
  induction list generalizing s with
  | nil => rfl
  | cons waiting list ih => exact (ih _).trans Caches.pendingWritingCallbacks_reject

/-- A request that runs leaves the waiting requests or tells them of an error. -/
theorem pending_execute (width : StringWidth) (s : Caches) (waiting : Waiting) :
    (s.execute width waiting).pendingWritingCallbacks = s.pendingWritingCallbacks ∨
      (s.execute width waiting).pendingWritingCallbacks = [] := by
  rw [Caches.execute]
  split
  · left
    rw [Caches.openCache]
    split
    · rw [Caches.openFound]
      split <;> rfl
    · exact pending_writeCachesToDisk _ _
  · left
    rw [Caches.remove]
    split
    · rfl
    · exact pending_writeCachesToDisk _ _
  · exact .inl rfl
  · rw [Caches.clear]
    split
    · exact .inl rfl
    · exact .inr (pending_foldl_reject _ _)

/-- The invariant between two steps. -/
structure Between (width : StringWidth) (state : Caches) : Prop where
  inv : Inv 0 state
  stored : Stored width state
  waits : state.pendingWritingCallbacks ≠ [] → state.isWritingCachesToDisk = true

theorem Between.pending_eq_nil (hbetween : Between width s)
    (hidle : s.isWritingCachesToDisk = false) : s.pendingWritingCallbacks = [] := by
  by_contra hpending
  exact absurd ((hbetween.waits hpending).symm.trans hidle) nofun

theorem Inv.take (hinv : Inv 0 s) {waiting : Waiting} {rest : List Waiting}
    (hpend : s.pendingWritingCallbacks = waiting :: rest) :
    Inv {waiting.callback} { s with
      pendingWritingCallbacks := rest, ran := s.ran ++ [waiting.callback] } := by
  refine { hinv with order := ?_, account := Eq.trans ?_ hinv.account, released := ?_ }
  · rw [append_assoc, ← hinv.order, hpend]
    rfl
  · simp only [Caches.account, Caches.listed, Caches.answered, Caches.writes, hpend,
      map_cons, ← Multiset.cons_coe, ← Multiset.singleton_add]
    abel
  · intro hpersist hst
    obtain ⟨hcs, hreqs⟩ := hinv.released hpersist hst
    refine ⟨hcs, fun other hother => hreqs other ?_⟩
    exact hpend ▸ mem_cons_of_mem _ hother

/-- All callbacks that waited for the write have run. -/
theorem between_runPending {rounds : ℕ} (hinv : Inv 0 s) (hstored : Stored width s)
    (hrounds : s.pendingWritingCallbacks.length ≤ rounds) :
    Between width (Caches.runPending width rounds s) := by
  induction rounds generalizing s with
  | zero =>
    have hnone := length_eq_zero_iff.1 (Nat.le_zero.1 hrounds)
    exact ⟨hinv, hstored, fun hpend => absurd hnone hpend⟩
  | succ rounds ih =>
    rw [Caches.runPending]
    split
    case h_1 hnone => exact ⟨hinv, hstored, fun hpend => absurd hnone hpend⟩
    case h_2 waiting rest hpend =>
      split
      case isTrue hwriting => exact ⟨hinv, hstored, fun _ => hwriting⟩
      case isFalse hidle =>
        refine ih ((hinv.take hpend).execute (Bool.eq_false_iff.2 hidle) ?_)
          (Stored.execute ?_ waiting) ?_
        · intro hchanges hpersist
          by_contra hstorage
          have hreqs := (hinv.released hpersist (Bool.eq_false_iff.2 hstorage)).2
          have hfalse := hreqs waiting (hpend ▸ mem_cons_self)
          exact absurd (hchanges.symm.trans hfalse) nofun
        · exact hstored
        · grind [pending_execute]

/-! ## Steps -/

/-- A request gets the next number and waits. -/
theorem Inv.arrive (hinv : Inv 0 s) {request : Request}
    (hinit : request.changesList = true → s.isInitialized = true) :
    Inv 0 { s with
      arrived := s.arrived + 1
      pendingWritingCallbacks :=
        s.pendingWritingCallbacks ++ [⟨s.arrived, request⟩] } := by
  refine { hinv with order := ?_, account := ?_, released := ?_ }
  · rw [map_append, ← append_assoc, hinv.order, range_succ]
    rfl
  · rw [Multiset.range_succ, ← hinv.account]
    simp only [Caches.account, Caches.listed, Caches.answered, Caches.writes, map_append,
      map_cons, map_nil, ← Multiset.coe_add, Multiset.coe_singleton,
      ← Multiset.singleton_add]
    abel
  · intro hpersist hst
    obtain ⟨hcs, hreqs⟩ := hinv.released hpersist hst
    refine ⟨hcs, fun other hother => ?_⟩
    rcases mem_append.1 hother with hother | hother
    · exact hreqs other hother
    · rw [mem_singleton.1 hother]
      refine Bool.eq_false_iff.2 fun hchanges => ?_
      have hopen := hinv.initialized hpersist (hinit hchanges)
      exact absurd (hopen.symm.trans hst) Bool.false_ne_true.symm

section

variable (hbetween : Between width s)
include hbetween

theorem Between.arrive {request : Request}
    (hinit : request.changesList = true → s.isInitialized = true) :
    Between width (s.arrive width request) := by
  have hinv := hbetween.inv.arrive hinit
  rw [Caches.arrive]
  split
  case isTrue hwriting => exact ⟨hinv, hbetween.stored, fun _ => hwriting⟩
  case isFalse hidle =>
    have hidle := Bool.eq_false_iff.2 hidle
    have hnone := hbetween.pending_eq_nil hidle
    -- A request that does not wait is taken up at once, as the only one in the queue.
    have hqueue : s.pendingWritingCallbacks ++ [⟨s.arrived, request⟩] =
        ⟨s.arrived, request⟩ :: s.pendingWritingCallbacks := by
      rw [hnone, nil_append]
    refine ⟨(hinv.take hqueue).execute hidle ?_, Stored.execute ?_ _, fun hpend => absurd ?_ hpend⟩
    · exact fun hchanges hpersist => hbetween.inv.initialized hpersist (hinit hchanges)
    · exact hbetween.stored
    · exact (pending_execute width _ _).elim (·.trans hnone) id

theorem Between.performFile {op : FileOperation}
    {rest : List FileOperation} (hops : s.fileOperations = op :: rest)
    (failure : Option (Option (List UInt8))) :
    Between width (Caches.performFile op failure { s with fileOperations := rest }) := by
  have hinv := hbetween.inv
  have hwrites : (Caches.performFile op failure
      { s with fileOperations := rest }).writes.Perm s.writes := by
    cases op with
    | removeFile =>
      simp only [Caches.writes, Caches.performFile, FileOperation.write?, hops,
        Option.map_none, Option.toList_none, append_nil]
      exact .refl _
    | writeFile =>
      simp only [Caches.writes, Caches.performFile, FileOperation.write?, hops,
        Option.map_some, Option.toList_some, map_append, map_cons, map_nil,
        ← append_assoc]
      exact perm_append_singleton _ _
  refine ⟨{ hinv with writing := ?_, account := ?_ }, ?_, hbetween.waits⟩
  · exact hwrites.length_eq.trans hinv.writing
  · refine Eq.trans ?_ hinv.account
    have hcbs := Multiset.coe_eq_coe.2 (hwrites.map Write.callback)
    rw [Caches.account, Caches.listed, hcbs]
    rfl
  · intro hpersist hfile hclears
    obtain ⟨hfile, hfailure⟩ := Bool.or_eq_false_iff.1 hfile
    have hlisted := hbetween.stored hpersist hfile hclears
    rw [Caches.finalFile, hops, fileAfter_cons] at hlisted
    rw [Option.isSome_eq_false_iff, Option.isNone_iff_eq_none] at hfailure
    subst hfailure
    exact hlisted

theorem Between.completeWrite {write : Write} {failed : Bool}
    {rest : List (Write × Bool)} (hwritten : s.written = (write, failed) :: rest) :
    Between width (Caches.completeWrite width write failed { s with written := rest }) := by
  have hinv := hbetween.inv
  have hlen : s.writes.length = ((s.fileOperations.filterMap FileOperation.write?) ++
      rest.map Prod.fst).length + 1 := by
    simp [Caches.writes, hwritten, Nat.add_assoc]
  have hwriting : s.isWritingCachesToDisk = true := by
    by_contra hidle
    have hzero := hinv.writing
    rw [Bool.eq_false_iff.2 hidle, hlen] at hzero
    exact absurd hzero (Nat.succ_ne_zero _)
  have hpopped : Inv {write.callback} { s with
      written := rest, isWritingCachesToDisk := false } := by
    refine { hinv with writing := ?_, account := Eq.trans ?_ hinv.account }
    · have hone := hinv.writing
      rw [hwriting, hlen] at hone
      exact Nat.succ.inj hone
    · simp only [Caches.account, Caches.listed, Caches.answered, Caches.writes, hwritten,
        map_append, map_cons, ← Multiset.coe_add, ← Multiset.cons_coe,
        ← Multiset.singleton_add]
      abel
  exact between_runPending (hpopped.callLast _) hbetween.stored le_rfl

end

variable {pos : ℕ}

theorem Between.storageCleared (hbetween : Between width s) {callback : ℕ}
    (hcb : s.storageClears[pos]? = some callback)
    (hends : EndsWell s (.storageCleared pos)) :
    Between width (({ s with
      storageClears := s.storageClears.eraseIdx pos }.clearMemoryRepresentation).call
        callback .cleared) := by
  obtain ⟨hidle, hfile, hheld⟩ := hends
  have hnone := hbetween.pending_eq_nil hidle
  have hinv := hbetween.inv
  have hpopped : Inv {callback} { s with
      storageClears := s.storageClears.eraseIdx pos } := by
    obtain ⟨hlt, rfl⟩ := List.getElem?_eq_some_iff.1 hcb
    have hperm := getElem_cons_eraseIdx_perm hlt
    refine { hinv with account := Eq.trans ?_ hinv.account }
    simp only [Caches.account, Caches.listed, Caches.answered, Caches.writes,
      ← Multiset.coe_eq_coe.2 hperm, ← Multiset.cons_coe, ← Multiset.singleton_add]
    abel
  refine ⟨(hpopped.clearMemoryRepresentation hheld ?_).callLast _, ?_, ?_⟩
  · intro _ waiting hwaiting
    exact absurd (hnone ▸ hwaiting) not_mem_nil
  · exact fun _ _ _ => .inl ⟨hfile, rfl⟩
  · exact fun hpend => absurd hnone hpend

section Traversals

variable {travs : List Traversal} {pos : ℕ} {finished : Traversal}

variable (hfinished : travs[pos]? = some finished)
include hfinished

theorem callbacks_eraseIdx :
    {finished.callback} + ((travs.eraseIdx pos).map Traversal.callback : Multiset ℕ) =
      travs.map Traversal.callback := by
  obtain ⟨hlt, rfl⟩ := List.getElem?_eq_some_iff.1 hfinished
  have hperm := (getElem_cons_eraseIdx_perm hlt).map Traversal.callback
  rw [← Multiset.coe_eq_coe.2 hperm, map_cons, ← Multiset.cons_coe, Multiset.singleton_add]

theorem mem_eraseIdx_of_ne {other : Traversal} (hother : other ∈ travs)
    (hne : other.cacheIdentifier ≠ finished.cacheIdentifier) :
    other ∈ travs.eraseIdx pos := by
  obtain ⟨hlt, rfl⟩ := List.getElem?_eq_some_iff.1 hfinished
  have hperm := getElem_cons_eraseIdx_perm hlt
  rcases mem_cons.1 (hperm.mem_iff.2 hother) with rfl | hother
  · exact absurd rfl hne
  · exact hother

end Traversals

/-- The callbacks of a cache are called when it is open. -/
theorem Inv.finishOpening (hinv : Inv 0 s) {finished : Traversal}
    (hfinished : s.traversals[pos]? = some finished) :
    Inv 0 (Caches.finishOpening finished { s with traversals := s.traversals.eraseIdx pos }) := by
  have hcalled (cache : Cache) : ((s.traversals.eraseIdx pos).map Traversal.callback : Multiset ℕ) +
        (cache.finishOpening).pendingOpeningCallbacks +
        ((finished.callback :: cache.pendingOpeningCallbacks : List ℕ) + 0) =
      s.traversals.map Traversal.callback + cache.pendingOpeningCallbacks + 0 := by
    rw [← callbacks_eraseIdx hfinished, Cache.finishOpening, Multiset.coe_nil,
      ← Multiset.cons_coe, ← Multiset.singleton_add]
    abel
  rw [Caches.finishOpening]
  split
  case h_1 cache hfind =>
    have hfits := find?_some hfind
    have hident := of_decide_eq_true hfits
    refine Inv.callAll (hinv.changeCache hfind .finishOpening (fun _ => rfl) rfl
      (fun _ => ⟨rfl, rfl⟩) (.inl ⟨nofun, rfl⟩) ?_ (hcalled cache)) _
    exact fun other hother hne => mem_eraseIdx_of_ne hfinished hother (hident ▸ hne)
  case h_2 hnone =>
    split
    case h_1 cache hfind =>
      have hfits := find?_some hfind
      have hident := of_decide_eq_true hfits
      obtain ⟨before, after, hcs, hchange⟩ := changeFirst_of_find? hfind .finishOpening
      have hopened : cache.finishOpening.identifier = cache.identifier := rfl
      refine Inv.callAll (hinv.replace (s.caches ++ before) after ?_ ?_ hopened
        (.inl ⟨nofun, rfl⟩) ?_ (hcalled cache) hinv.names hinv.volatile
        fun hpersist hst => (hinv.released hpersist hst).1) _
      · exact (congrArg (s.caches ++ ·) hcs).trans (append_assoc _ _ _).symm
      · exact (congrArg (s.caches ++ ·) hchange).trans (append_assoc _ _ _).symm
      · exact fun other hother hne => mem_eraseIdx_of_ne hfinished hother (hident ▸ hne)
    case h_2 hremoved =>
      refine Inv.callLast ?_ _
      refine { hinv with account := Eq.trans ?_ hinv.account, tracked := ?_ }
      · rw [Caches.account, Caches.account, ← callbacks_eraseIdx hfinished]
        change s.listed + _ + _ + _ = _
        abel
      · refine { hinv.tracked with attended := fun cache hcache => ?_ }
        rcases hinv.tracked.attended cache hcache with hidle | ⟨other, hother, heq⟩
        · exact .inl hidle
        · refine .inr ⟨other, mem_eraseIdx_of_ne hfinished hother fun hsame => ?_, heq⟩
          have hident := decide_eq_true (heq.symm.trans hsame)
          rcases mem_append.1 hcache with hcache | hcache
          · exact find?_eq_none.1 hnone cache hcache hident
          · exact find?_eq_none.1 hremoved cache hcache hident

theorem Stored.finishOpening (hstored : Stored width s) (trav : Traversal)
    (travs : List Traversal) :
    Stored width (Caches.finishOpening trav { s with traversals := travs }) := by
  rw [Caches.finishOpening]
  split
  · exact hstored.changeFirst _ .finishOpening (fun _ => rfl) travs
  · split <;> exact hstored

theorem Between.finishOpening (hbetween : Between width s) {trav : Traversal}
    (htrav : s.traversals[pos]? = some trav) :
    Between width (Caches.finishOpening trav
      { s with traversals := s.traversals.eraseIdx pos }) := by
  refine ⟨hbetween.inv.finishOpening htrav, hbetween.stored.finishOpening _ _, ?_⟩
  have hwaits := hbetween.waits
  rw [Caches.finishOpening]
  split
  · exact hwaits
  · split <;> exact hwaits

/-- Between two steps nothing is half done. -/
theorem Between.step {action : Action} {next : Caches} (hbetween : Between width s)
    (hends : EndsWell s action) (hstep : step width s action = some next) :
    Between width next := by
  cases action with
  | request =>
    obtain ⟨hinit, hnext⟩ := Option.ite_none_right_eq_some.1 hstep
    exact Option.some.inj hnext ▸ hbetween.arrive hinit
  | performFile failure =>
    rw [CachesList.step] at hstep
    split at hstep
    case h_1 => exact absurd hstep nofun
    case h_2 operation rest hoperations =>
      exact Option.some.inj hstep ▸ hbetween.performFile hoperations failure
  | completeWrite =>
    rw [CachesList.step] at hstep
    split at hstep
    case h_1 => exact absurd hstep nofun
    case h_2 write failed rest hwritten =>
      exact Option.some.inj hstep ▸ hbetween.completeWrite hwritten
  | storageCleared =>
    obtain ⟨callback, hcb, hnext⟩ := Option.map_eq_some_iff.1 hstep
    exact hnext ▸ hbetween.storageCleared hcb hends
  | finishOpening =>
    obtain ⟨trav, htrav, hnext⟩ := Option.map_eq_some_iff.1 hstep
    exact hnext ▸ hbetween.finishOpening htrav

/-! ## Runs -/

variable (list : List Names)

theorem map_names_readCaches : (readCaches list).map Cache.names = list :=
  ext_getElem (by simp [readCaches]) fun idx _ _ => by simp [readCaches, Cache.names]

theorem tracked_readCaches (travs : List Traversal) :
    Tracked (list.length + 1) travs (readCaches list) := by
  have hcache (cache : Cache) (hcache : cache ∈ readCaches list) :
      cache.identifier < list.length + 1 ∧ Attended travs cache := by
    obtain ⟨idx, hidx, rfl⟩ := mem_mapIdx.1 hcache
    exact ⟨Nat.succ_lt_succ hidx, .inl ⟨nofun, rfl⟩⟩
  refine ⟨?_, fun cache hmem => (hcache cache hmem).1, fun cache hmem => (hcache cache hmem).2⟩
  have hidents : (readCaches list).map Cache.identifier = range' 1 list.length :=
    ext_getElem (by simp [readCaches]) fun idx _ _ => by simp [readCaches, add_comm]
  exact hidents ▸ nodup_range'

theorem heldBy_readCaches : heldBy (readCaches list) = [] := by
  refine flatMap_eq_nil_iff.2 fun cache hcache => ?_
  obtain ⟨idx, hidx, rfl⟩ := mem_mapIdx.1 hcache
  rfl

theorem between_start (shouldPersist : Bool) {list : List Names}
    (hnames : (list.map Prod.fst).Nodup) :
    Between width (Caches.start shouldPersist width list) := by
  cases shouldPersist with
  | false =>
    refine ⟨⟨rfl, rfl, rfl, nodup_nil, ⟨nodup_nil, nofun, nofun⟩, ?_, nofun, nofun⟩,
      nofun, fun hpend => absurd rfl hpend⟩
    exact fun _ cache hcache => absurd hcache not_mem_nil
  | true =>
    refine ⟨⟨rfl, rfl, ?_, ?_, ?_, nofun, nofun, fun _ _ => rfl⟩, fun _ _ _ => ?_,
      fun hpend => absurd rfl hpend⟩
    · rw [add_zero, Caches.account]
      change 0 + (heldBy (readCaches list ++ []) : Multiset ℕ) = 0
      rw [append_nil, heldBy_readCaches, zero_add, Multiset.coe_nil]
    · have hsame : (readCaches list).map Cache.name = list.map Prod.fst := by
        rw [← congrArg (List.map Prod.fst) (map_names_readCaches list), map_map]
        rfl
      exact hsame ▸ hnames
    · have htracked := tracked_readCaches list []
      rw [← append_nil (readCaches list)] at htracked
      exact htracked
    · have hlisted : Listed width
          (if list.isEmpty then none else some (encodeCacheNames width list))
          ((readCaches list).map Cache.names) := by
        rw [map_names_readCaches]
        split
        case isTrue hempty => exact .inl ⟨rfl, List.isEmpty_iff.1 hempty⟩
        case isFalse => exact .inr rfl
      exact hlisted

theorem Between.serialized (hbetween : Between width s) : Serialized s := by
  have hinv := hbetween.inv
  have hone : s.writes.length ≤ 1 := hinv.writing.trans_le (Bool.toNat_le _)
  have hperm : (s.answered ++ s.held).Perm (List.range s.arrived) := by
    refine Multiset.coe_eq_coe.1 (Eq.trans ?_ hinv.account)
    simp only [Caches.held, Caches.account, Caches.listed, ← Multiset.coe_add]
    abel
  refine ⟨hone, ?_, hinv.order, hperm, ?_, hinv.names, ?_⟩
  · intro hpend hnone
    have hzero := hinv.writing
    rw [hbetween.waits hpend, hnone] at hzero
    exact absurd hzero Nat.zero_ne_one
  · rintro ⟨-, hwrites, hpend, hclears⟩ htravs
    have hheld : s.held = [] := by
      have hnone : heldBy (s.caches ++ s.removedCaches) = [] := by
        refine flatMap_eq_nil_iff.2 fun cache hcache => ?_
        rcases hinv.tracked.attended cache hcache with hidle | ⟨trav, htrav, -⟩
        · exact hidle.2
        · exact absurd (htravs ▸ htrav) not_mem_nil
      rw [Caches.held, hwrites, hpend, hclears, htravs, hnone]
      rfl
    rwa [hheld, append_nil] at hperm
  · rintro hpersist hfile ⟨hops, -, -, hclears⟩ hlen
    have hlisted := hbetween.stored hpersist (by simpa using hfile) hclears
    rw [Caches.finalFile, hops] at hlisted
    change readNames (fileAfter s.file []) = _
    rcases hlisted with ⟨hnone, hnil⟩ | hsome
    · rw [hnone, map_eq_nil_iff.1 hnil]
      rfl
    · rw [hsome]
      rw [← length_map Cache.names] at hlen
      have hread := decodeCachesNames_encodeCacheNames width hlen
      rw [map_map] at hread
      exact hread

/-- In each run in which the clears end well, the list is written by one write at a time, waiting
requests run in the order of their arrival, each callback is called once, the names are unique,
and the file has the names of the caches when nothing is under way. -/
theorem list_writes_serialized (shouldPersist : Bool) (width : StringWidth) {list : List Names}
    (hnames : (list.map Prod.fst).Nodup) {actions : List Action} {final : Caches}
    (hends : Meets (step width) EndsWell (Caches.start shouldPersist width list) actions)
    (hrun : run (step width) (Caches.start shouldPersist width list) actions = some final) :
    Serialized final :=
  (run_of_step (fun hbetween hends hstep => hbetween.step hends hstep)
    (between_start shouldPersist hnames) hends hrun).serialized

namespace Sample

def wideStrings : StringWidth := .wide

def letter (unit : UChar) : Name where
  val := some [unit]
  property units hunits := by
    obtain rfl := Option.some.inj hunits
    exact show 1 ≤ maxLength by decide

def names (unit : UChar) : Names := (letter unit, letter (unit + 32))

def openLetter (unit : UChar) : Action := .request (.openCache (names unit).1 (names unit).2)

/-- A cache is opened for the first time.  Meanwhile the cache that was on the disk is opened
twice and removed, and all is cleared. -/
def orderly : List Action :=
  [openLetter 66, openLetter 65, openLetter 65, .request (.remove 1), .request (.cacheInfos 0),
    .performFile none, .completeWrite, .performFile none, .completeWrite, .finishOpening 0,
    .request .clear, .performFile none, .storageCleared 0]

/-- A cache is opened while the storage is being cleared. -/
def openDuringClear : List Action :=
  [.request .clear, openLetter 65, .performFile none, .performFile none, .completeWrite,
    .storageCleared 0]

/-- The storage is cleared while two requests wait for a cache to open. -/
def clearDuringOpen : List Action :=
  [openLetter 65, openLetter 65, .request .clear, .performFile none, .storageCleared 0,
    .finishOpening 0]

end Sample

open Sample

theorem list_writes_serialized_orderly :
    (run (step wideStrings) (Caches.start true wideStrings [names 65]) orderly).isSome ∧
      Serialized (after (step wideStrings) (Caches.start true wideStrings [names 65]) orderly) := by
  have hsome :
      (run (step wideStrings) (Caches.start true wideStrings [names 65]) orderly).isSome := by
    decide +kernel
  exact ⟨hsome, list_writes_serialized true wideStrings (by decide) (by decide +kernel)
    (run_eq_after hsome)⟩

/-- After the first run the file has a cache that was forgotten.  After the second run the
callback of the second request was not called and is not held. -/
theorem clear_loses_list_and_callback :
    (let final := after (step wideStrings) (Caches.start true wideStrings []) openDuringClear
    run (step wideStrings) (Caches.start true wideStrings []) openDuringClear = some final ∧
      ¬ Serialized final) ∧
    (let final :=
      after (step wideStrings) (Caches.start true wideStrings [names 65]) clearDuringOpen
    run (step wideStrings) (Caches.start true wideStrings [names 65]) clearDuringOpen = some final ∧
      ¬ Serialized final) := by
  refine ⟨⟨run_eq_after (by decide +kernel), fun hserialized => ?_⟩,
    ⟨run_eq_after (by decide +kernel), fun hserialized => ?_⟩⟩
  · have hread := hserialized.on_disk (by decide +kernel) (by decide +kernel)
      ⟨List.isEmpty_iff.1 (by decide +kernel), List.isEmpty_iff.1 (by decide +kernel),
        List.isEmpty_iff.1 (by decide +kernel), by decide +kernel⟩ (by decide +kernel)
    exact absurd hread (by decide +kernel)
  · exact absurd hserialized.called_or_held (by decide +kernel)

end PurcFetcher.CachesList
