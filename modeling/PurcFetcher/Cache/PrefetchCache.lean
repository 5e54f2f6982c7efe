import PurcFetcher.Core.HashMap
import PurcFetcher.Core.Machine

/-!
# The cache of prefetched responses

A prefetched response is kept for five seconds.  A list of URLs and times says when each
entry of the map expires, and a timer looks at its front.  An entry that is there is kept
by `store` and replaced by `storeRedirect`, which adds to the list in both cases.
-/

namespace PurcFetcher.Cache

open List Machine

variable {Url Entry : Type} [DecidableEq Url]

/-- The map is created when it is first needed, and is empty before, as the list is.  With
each entry stands the time it was stored at, which the code does not keep. -/
structure PrefetchCache (Url Entry : Type) where
  sessionPrefetches : HashMap Url (Entry × ℚ)
  sessionExpirationList : List (Url × ℚ)
  /-- When the timer fires, if it is active. -/
  expirationTimer : Option ℚ

namespace PrefetchCache

def expirationTimeout : ℚ := 5

def empty : PrefetchCache Url Entry := ⟨∅, [], none⟩

variable (cache : PrefetchCache Url Entry) (url : Url) (entry : Entry) (now : ℚ)

def clear (_ : PrefetchCache Url Entry) : PrefetchCache Url Entry := empty

def take : Option Entry × PrefetchCache Url Entry :=
  ((cache.sessionPrefetches.lookup url).map Prod.fst,
    { cache with
      sessionExpirationList := cache.sessionExpirationList.filter (·.1 ≠ url)
      sessionPrefetches := cache.sessionPrefetches.erase url })

/-- The end of `store` and of `storeRedirect`. -/
def appendExpiration : PrefetchCache Url Entry :=
  { cache with
    sessionExpirationList := cache.sessionExpirationList ++ [(url, now)]
    expirationTimer := cache.expirationTimer.or (some (now + expirationTimeout)) }

def store : PrefetchCache Url Entry :=
  if url ∈ cache.sessionPrefetches then cache
  else
    appendExpiration
      { cache with sessionPrefetches := cache.sessionPrefetches.insert url (entry, now) } url now

def storeRedirect : PrefetchCache Url Entry :=
  appendExpiration
    { cache with sessionPrefetches := cache.sessionPrefetches.insert url (entry, now) } url now

/-- The rounds of `clearExpiredEntries`.  The timer is not active when it has fired. -/
def clearExpiredEntries (resources : HashMap Url (Entry × ℚ)) :
    List (Url × ℚ) → PrefetchCache Url Entry
  | [] => ⟨resources, [], none⟩
  | (requestUrl, timestamp) :: rest =>
    let elapsed := now - timestamp
    if elapsed > expirationTimeout then clearExpiredEntries (resources.erase requestUrl) rest
    else ⟨resources, (requestUrl, timestamp) :: rest, some (now + (expirationTimeout - elapsed))⟩

inductive Action (Url Entry : Type)
  | store (url : Url) (entry : Entry) (now : ℚ)
  | storeRedirect (url : Url) (entry : Entry) (now : ℚ)
  | take (url : Url)
  | clear
  | fire (now : ℚ)

def step : Action Url Entry → Option (PrefetchCache Url Entry)
  | .store url entry now => cache.store url entry now
  | .storeRedirect url entry now => cache.storeRedirect url entry now
  | .take url => (cache.take url).2
  | .clear => cache.clear
  | .fire now =>
    if ∃ due ∈ cache.expirationTimer, due ≤ now then
      clearExpiredEntries now cache.sessionPrefetches cache.sessionExpirationList
    else none

/-- The list has one entry for each URL of the map, with the time its entry was stored at. -/
structure Paired (prefetches : HashMap Url (Entry × ℚ)) (list : List (Url × ℚ)) : Prop where
  distinct : (list.map Prod.fst).Nodup
  mem_iff : ∀ url time,
    (url, time) ∈ list ↔ (prefetches.lookup url).map Prod.snd = some time

/-- Only those entries of the map that are too old are not there afterwards. -/
def ExpiresOld (before after : HashMap Url (Entry × ℚ)) : Prop :=
  ∀ url held, before.lookup url = some held →
    after.lookup url = some held ∨ now - held.2 > expirationTimeout

structure Consistent : Prop where
  paired : Paired cache.sessionPrefetches cache.sessionExpirationList
  active : cache.sessionExpirationList ≠ [] → cache.expirationTimer.isSome
  expires : ∀ now next, cache.step (.fire now) = some next →
    ExpiresOld now cache.sessionPrefetches next.sessionPrefetches

/-- A redirect is stored only for a URL that has no entry. -/
def RedirectsNew : Action Url Entry → Prop
  | .storeRedirect url _ _ => url ∉ cache.sessionPrefetches
  | _ => True

variable {cache url entry now} {prefetches : HashMap Url (Entry × ℚ)} {list : List (Url × ℚ)}

theorem Paired.erase (hpaired : Paired prefetches list) (url : Url) :
    Paired (prefetches.erase url) (list.filter (·.1 ≠ url)) where
  distinct := hpaired.distinct.sublist (filter_sublist.map _)
  mem_iff other time := by
    rw [mem_filter, hpaired.mem_iff, HashMap.lookup_erase_eq_ite]
    by_cases heq : other = url <;> simp [heq]

theorem Paired.insert (hpaired : Paired prefetches list) (hnew : url ∉ prefetches) :
    Paired (prefetches.insert url (entry, now)) (list ++ [(url, now)]) where
  distinct := by
    have hfresh : url ∉ list.map Prod.fst := by
      intro hmem
      obtain ⟨⟨_, time⟩, hlisted, rfl⟩ := mem_map.1 hmem
      have hheld := (hpaired.mem_iff _ _).1 hlisted
      rw [AList.lookup_eq_none.2 hnew] at hheld
      cases hheld
    rw [map_append]
    exact hpaired.distinct.append (nodup_singleton _) (disjoint_singleton.2 hfresh)
  mem_iff other time := by
    rw [mem_append, hpaired.mem_iff, HashMap.lookup_insert_eq_ite, mem_singleton, Prod.mk.injEq]
    by_cases heq : other = url
    · rw [heq, AList.lookup_eq_none.2 hnew]
      simp [eq_comm]
    · simp [heq]

/-- By induction on the list: the entry of the first URL is the one that was stored at its
time, as long as the map and the list are paired. -/
theorem Paired.clearExpiredEntries (hpaired : Paired prefetches list) :
    let next := clearExpiredEntries now prefetches list
    Paired next.sessionPrefetches next.sessionExpirationList ∧
      (next.sessionExpirationList ≠ [] → next.expirationTimer.isSome) ∧
      ExpiresOld now prefetches next.sessionPrefetches := by
  induction list generalizing prefetches with
  | nil => exact ⟨hpaired, fun hne => absurd rfl hne, fun _ _ => .inl⟩
  | cons first rest ih =>
    obtain ⟨requestUrl, timestamp⟩ := first
    rw [PrefetchCache.clearExpiredEntries]
    dsimp only
    split
    · next hold =>
      have hfresh := (nodup_cons.1 hpaired.distinct).1
      have hrest : ((requestUrl, timestamp) :: rest).filter (·.1 ≠ requestUrl) = rest := by
        rw [filter_cons_of_neg (by simp), filter_eq_self]
        intro other hother
        exact decide_eq_true (ne_of_mem_of_not_mem (mem_map_of_mem hother) hfresh)
      obtain ⟨hnext, hactive, hexpires⟩ := ih (hrest ▸ hpaired.erase requestUrl)
      refine ⟨hnext, hactive, fun url held hheld => ?_⟩
      by_cases heq : url = requestUrl
      · have hfirst := (hpaired.mem_iff requestUrl timestamp).1 mem_cons_self
        rw [← heq, hheld] at hfirst
        exact .inr (Option.some.inj hfirst ▸ hold)
      · apply hexpires url held
        rwa [HashMap.lookup_erase_eq_ite, if_neg heq]
    · exact ⟨hpaired, fun _ => rfl, fun _ _ => .inl⟩

omit [DecidableEq Url] in
theorem isSome_expirationTimer : (cache.appendExpiration url now).expirationTimer.isSome := by
  rw [appendExpiration, Option.isSome_or]
  exact Bool.or_true _

theorem Consistent.of_paired
    (hpaired : Paired cache.sessionPrefetches cache.sessionExpirationList)
    (hactive : cache.sessionExpirationList ≠ [] → cache.expirationTimer.isSome) :
    cache.Consistent := by
  refine ⟨hpaired, hactive, fun now next hnext => ?_⟩
  obtain ⟨-, hnext⟩ := Option.ite_none_right_eq_some.1 hnext
  cases hnext
  exact hpaired.clearExpiredEntries.2.2

theorem Consistent.step {next : PrefetchCache Url Entry} {action : Action Url Entry}
    (hcache : cache.Consistent) (hnew : cache.RedirectsNew action)
    (hnext : cache.step action = some next) : next.Consistent := by
  cases action with
  | store url entry now =>
    cases hnext
    rw [store]
    split
    · exact hcache
    · next habsent =>
      exact .of_paired (hcache.paired.insert habsent) fun _ => isSome_expirationTimer
  | storeRedirect url entry now =>
    cases hnext
    exact .of_paired (hcache.paired.insert hnew) fun _ => isSome_expirationTimer
  | take url =>
    cases hnext
    refine .of_paired (hcache.paired.erase url) fun hne => hcache.active fun hnil => hne ?_
    rw [PrefetchCache.take, hnil, filter_nil]
  | clear =>
    cases hnext
    exact .of_paired ⟨nodup_nil, fun _ _ => by simp [clear, empty]⟩ fun hne => absurd rfl hne
  | fire now =>
    obtain ⟨-, hnext⟩ := Option.ite_none_right_eq_some.1 hnext
    cases hnext
    obtain ⟨hpaired, hactive, -⟩ := @Paired.clearExpiredEntries _ _ _ now _ _ hcache.paired
    exact .of_paired hpaired hactive

/-- If no redirect is stored for a URL that has an entry, the list and the map stay paired, the
timer is active while the list is not empty, and only old entries expire. -/
theorem expiration_is_consistent {actions : List (Action Url Entry)}
    (hnew : Meets step RedirectsNew empty actions) :
    Always step Consistent (empty : PrefetchCache Url Entry) actions := by
  refine always_of_step Consistent.step (.of_paired ⟨nodup_nil, ?_⟩ ?_) hnew
  · simp [empty]
  · exact fun hne => absurd rfl hne

theorem expiration_is_consistent_fired :
    Always step Consistent (empty : PrefetchCache ℕ ℕ)
      [.store 1 7 0, .storeRedirect 2 8 3, .fire 6] :=
  expiration_is_consistent (.cons rfl trivial
    (.cons rfl (fun hmem => absurd hmem (by decide)) ⟨trivial, fun _ _ => trivial⟩))

/-- A response is stored, and four seconds later a redirect for the same URL.  When the timer
of the response fires, the redirect expires at the age of two seconds, and the list is left
with a URL that is not in the map. -/
theorem replaced_entry_expires_early :
    let look := fun cache : PrefetchCache ℕ ℕ =>
      (cache.sessionPrefetches.lookup 1, cache.sessionExpirationList)
    (run step empty [.store 1 7 0, .storeRedirect 1 8 4]).map look =
        some (some (8, 4), [(1, 0), (1, 4)]) ∧
      (run step empty [.store 1 7 0, .storeRedirect 1 8 4, .fire 6]).map look =
        some (none, [(1, 4)]) := by
  decide +kernel

end PrefetchCache

end PurcFetcher.Cache
