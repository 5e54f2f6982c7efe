import PurcFetcher.Loader.AccessControl

/-!
# The cache of preflight results

A preflight response that passes is kept for its origin and URL, with its lists of methods
and headers and the time when it expires.  A later request can skip its preflight if the
entry allows it.  Otherwise the entry is dropped.

An entry is replaced by the next response that passes, and kept when the next response is
refused.  The two policies of the stored entry and of the request are compared for one pair
only, so that a response that was checked under the ephemeral policy serves requests with
credentials.

Times are exact numbers of seconds.
-/

namespace PurcFetcher.Loader

open Http Machine Text

/-! ## Numbers -/

/-- The digits of `toIntegralType<unsigned>`, and the characters after them. -/
def unsignedDigits : Str → ℕ → Option (ℕ × Str)
  | [], value => some (value, [])
  | char :: rest, value =>
    if isASCIIDigit char then
      let digitValue := char.toNat - 0x30
      if value > 429496729 || (value == 429496729 && digitValue > 5) then none
      else unsignedDigits rest (10 * value + digitValue)
    else some (value, char :: rest)

/-- `String::toUIntStrict`: the value when `ok` is set. -/
def toUIntStrict (text : Str) : Option ℕ :=
  let trimmed := text.dropWhile isSpaceOrNewline
  let digits := if trimmed.head? = some 0x2B then trimmed.tail else trimmed
  if (digits.head?.map isASCIIDigit).getD false then
    (unsignedDigits digits 0).bind fun (value, trailing) =>
      if (trailing.dropWhile isSpaceOrNewline).isEmpty then some value else none
  else none

/-! ## Entries -/

def defaultPreflightCacheTimeout : ℚ := 5

def maxPreflightCacheTimeout : ℚ := 600

structure CrossOriginPreflightResultCacheItem where
  absoluteExpiryTime : ℚ
  storedCredentialsPolicy : StoredCredentialsPolicy
  methods : List Str
  headers : List Str

/-- The time for which a response can be kept. -/
def expiryDelta (response : ResourceResponse) : ℚ :=
  match (response.httpHeaderField .accessControlMaxAge).bind toUIntStrict with
  | some seconds => min (seconds : ℚ) maxPreflightCacheTimeout
  | none => defaultPreflightCacheTimeout

def allowList (response : ResourceResponse) (name : HTTPHeaderName) : Option (List Str) :=
  parseAccessControlAllowList ((response.httpHeaderField name).getD [])

/-- A wildcard counts only without credentials. -/
def wildcard (list : List Str) (storedCredentialsPolicy : StoredCredentialsPolicy) : Bool :=
  list.contains (lit "*") && storedCredentialsPolicy ≠ .use

namespace CrossOriginPreflightResultCacheItem

def create (now : ℚ) (policy : StoredCredentialsPolicy) (response : ResourceResponse) :
    Except Str CrossOriginPreflightResultCacheItem :=
  match allowList response .accessControlAllowMethods with
  | none =>
    .error (lit "Header Access-Control-Allow-Methods has an invalid value: " ++
      (response.httpHeaderField .accessControlAllowMethods).getD [])
  | some methods =>
    match allowList response .accessControlAllowHeaders with
    | none =>
      .error (lit "Header Access-Control-Allow-Headers has an invalid value: " ++
        (response.httpHeaderField .accessControlAllowHeaders).getD [])
    | some headers =>
      .ok
        { absoluteExpiryTime := now + expiryDelta response
          storedCredentialsPolicy := policy
          methods := methods
          headers := headers }

variable (platform : Platform) (item : CrossOriginPreflightResultCacheItem)

def allowsCrossOriginMethod (method : Str) (storedCredentialsPolicy : StoredCredentialsPolicy) :
    Bool :=
  item.methods.contains method || wildcard item.methods storedCredentialsPolicy ||
    isOnAccessControlSimpleRequestMethodAllowlist method

def validateCrossOriginHeaders (requestHeaders : HTTPHeaderMap)
    (storedCredentialsPolicy : StoredCredentialsPolicy) : Option Str :=
  let validWildcard := wildcard item.headers storedCredentialsPolicy
  ((HTTPHeaderMap.ConstIterator.keyValues requestHeaders).find? fun header =>
    !isSafeEntry platform.parsedMimeType header &&
      !item.headers.any (equalIgnoringASCIICase · (units header.key)) && !validWildcard).map
    fun header => units header.key

def validateMethodAndHeaders (method : Str) (requestHeaders : HTTPHeaderMap) : Option Str :=
  if !item.allowsCrossOriginMethod method item.storedCredentialsPolicy then
    some (lit "Method " ++ method ++ lit " is not allowed by Access-Control-Allow-Methods.")
  else
    (item.validateCrossOriginHeaders platform requestHeaders item.storedCredentialsPolicy).map
      fun badHeader =>
        lit "Request header field " ++ badHeader ++
          lit " is not allowed by Access-Control-Allow-Headers."

def allowsRequest (now : ℚ) (storedCredentialsPolicy : StoredCredentialsPolicy) (method : Str)
    (requestHeaders : HTTPHeaderMap) : Bool :=
  !(item.absoluteExpiryTime < now) &&
    !(storedCredentialsPolicy = .use && item.storedCredentialsPolicy = .doNotUse) &&
    item.allowsCrossOriginMethod method storedCredentialsPolicy &&
    (item.validateCrossOriginHeaders platform requestHeaders storedCredentialsPolicy).isNone

end CrossOriginPreflightResultCacheItem

/-! ## The cache -/

abbrev PreflightKey := Str × Str

/-- A call of `validatePreflightResponse`. -/
structure Validation where
  request : ResourceRequest
  response : ResourceResponse
  policy : StoredCredentialsPolicy
  securityOrigin : SecurityOrigin
  checkDisabled : Bool
  time : ℚ

def Validation.key (validation : Validation) : PreflightKey :=
  (validation.securityOrigin.toString, validation.request.url.string)

/-- The arguments of `canSkipPreflight`. -/
structure PreflightQuery where
  origin : Str
  url : URL
  policy : StoredCredentialsPolicy
  method : Str
  headers : HTTPHeaderMap

def PreflightQuery.key (query : PreflightQuery) : PreflightKey := (query.origin, query.url.string)

structure PreflightCache where
  preflightHashMap : PreflightKey → Option CrossOriginPreflightResultCacheItem
  now : ℚ
  /-- The last response that was validated, for the statements. -/
  latest : PreflightKey → Option Validation

namespace PreflightCache

variable (platform : Platform)

def empty (now : ℚ) : PreflightCache :=
  { preflightHashMap := fun _ => none, now := now, latest := fun _ => none }

/-- `validatePreflightResponse`: the cache and the error, if there is one. -/
def validatePreflightResponse (cache : PreflightCache) (validation : Validation) :
    PreflightCache × Except Str Unit :=
  if !validation.response.isSuccessful then
    (cache, .error (lit "Preflight response is not successful"))
  else
    match passesAccessControlCheck validation.response validation.policy
        validation.securityOrigin validation.checkDisabled with
    | .error description => (cache, .error description)
    | .ok () =>
      match CrossOriginPreflightResultCacheItem.create cache.now validation.policy
          validation.response with
      | .error description => (cache, .error description)
      | .ok entry =>
        ({ cache with
            preflightHashMap :=
              Function.update cache.preflightHashMap validation.key (some entry) },
          match entry.validateMethodAndHeaders platform validation.request.httpMethod
              validation.request.httpHeaderFields with
          | some description => .error description
          | none => .ok ())

def canSkipPreflight (cache : PreflightCache) (query : PreflightQuery) : PreflightCache × Bool :=
  match cache.preflightHashMap query.key with
  | none => (cache, false)
  | some item =>
    if item.allowsRequest platform cache.now query.policy query.method query.headers then
      (cache, true)
    else
      ({ cache with preflightHashMap := Function.update cache.preflightHashMap query.key none },
        false)

inductive Action
  | validate (validation : Validation)
  | query (query : PreflightQuery)
  | clear
  /-- Time passes. -/
  | wait (now : ℚ)

def step (cache : PreflightCache) : Action → Option PreflightCache
  | .validate validation =>
    if validation.time = cache.now then
      some
        { (cache.validatePreflightResponse platform validation).1 with
          latest := Function.update cache.latest validation.key (some validation) }
    else none
  | .query query => some (cache.canSkipPreflight platform query).1
  | .clear => some { cache with preflightHashMap := fun _ => none }
  | .wait now => if cache.now ≤ now then some { cache with now := now } else none

end PreflightCache

/-! ## Policies -/

/-- Access under a stronger policy is harder to get. -/
def StoredCredentialsPolicy.strength : StoredCredentialsPolicy → ℕ
  | .doNotUse => 0
  | .ephemeralStateless => 1
  | .use => 2

/-- A weaker stored policy that is not refused. -/
def Uncompared (stored requested : StoredCredentialsPolicy) : Prop :=
  (stored = .ephemeralStateless ∧ requested = .use) ∨
    (stored = .doNotUse ∧ requested = .ephemeralStateless)

theorem strength_le_of_allowsRequest {platform : Platform} {now : ℚ}
    {item : CrossOriginPreflightResultCacheItem} {query : PreflightQuery}
    (hallows : item.allowsRequest platform now query.policy query.method query.headers = true)
    (hcompared : ¬Uncompared item.storedCredentialsPolicy query.policy) :
    query.policy.strength ≤ item.storedCredentialsPolicy.strength := by
  have hrefused : ¬(query.policy = .use ∧ item.storedCredentialsPolicy = .doNotUse) := by
    rintro ⟨huse, hdoNotUse⟩
    simp [CrossOriginPreflightResultCacheItem.allowsRequest, huse, hdoNotUse] at hallows
  rw [Uncompared] at hcompared
  revert hcompared hrefused
  cases query.policy <;> cases item.storedCredentialsPolicy <;> decide

/-! ## What a response allows -/

/-- The response that was validated allows what is asked for now. -/
structure Justifies (platform : Platform) (validation : Validation) (now : ℚ)
    (query : PreflightQuery) : Prop where
  passed : passesAccessControlCheck validation.response validation.policy
    validation.securityOrigin validation.checkDisabled = .ok ()
  policy : query.policy.strength ≤ validation.policy.strength
  fresh : now ≤ validation.time + expiryDelta validation.response
  method : ∃ methods, allowList validation.response .accessControlAllowMethods = some methods ∧
    (query.method ∈ methods ∨ wildcard methods query.policy = true)
  headers : ∃ headers, allowList validation.response .accessControlAllowHeaders = some headers ∧
    ∀ header ∈ HTTPHeaderMap.ConstIterator.keyValues query.headers,
      isSafeEntry platform.parsedMimeType header = true ∨
        (∃ name ∈ headers, equalIgnoringASCIICase name (units header.key) = true) ∨
        wildcard headers query.policy = true

namespace PreflightCache

variable {platform : Platform} {cache next : PreflightCache}

def Stores (validation : Validation) : Prop :=
  validation.response.isSuccessful = true ∧
    passesAccessControlCheck validation.response validation.policy validation.securityOrigin
      validation.checkDisabled = .ok () ∧
    (allowList validation.response .accessControlAllowMethods).isSome = true ∧
    (allowList validation.response .accessControlAllowHeaders).isSome = true

/-- No refused response leaves the entry of an older one. -/
def Replaces (cache : PreflightCache) : Action → Prop
  | .validate validation => Stores validation ∨ cache.preflightHashMap validation.key = none
  | _ => True

/-- The policies are not one of the two pairs that the code does not compare, and the entry
lists the method if that is a simple one. -/
def Covers (cache : PreflightCache) (query : PreflightQuery) : Prop :=
  ∀ item, cache.preflightHashMap query.key = some item →
    ¬Uncompared item.storedCredentialsPolicy query.policy ∧
      (isOnAccessControlSimpleRequestMethodAllowlist query.method = true →
        query.method ∈ item.methods ∨ wildcard item.methods query.policy = true)

/-- The entry was made from the response. -/
structure MadeFrom (validation : Validation) (item : CrossOriginPreflightResultCacheItem) :
    Prop where
  passed : passesAccessControlCheck validation.response validation.policy
    validation.securityOrigin validation.checkDisabled = .ok ()
  expiry : item.absoluteExpiryTime = validation.time + expiryDelta validation.response
  policy : item.storedCredentialsPolicy = validation.policy
  methods : allowList validation.response .accessControlAllowMethods = some item.methods
  headers : allowList validation.response .accessControlAllowHeaders = some item.headers

/-- Each entry was made from the last response for its origin and URL. -/
def Inv (cache : PreflightCache) : Prop :=
  ∀ key item, cache.preflightHashMap key = some item →
    ∃ validation, cache.latest key = some validation ∧ MadeFrom validation item

theorem inv_empty (now : ℚ) : Inv (empty now) :=
  fun _ _ hitem => absurd hitem (Option.some_ne_none _).symm

/-- The cache changes only if the response is kept. -/
theorem validatePreflightResponse_cases (plat : Platform) (cache : PreflightCache)
    (valid : Validation) (htime : valid.time = cache.now) :
    (∃ item, MadeFrom valid item ∧
      (cache.validatePreflightResponse plat valid).1 =
        { cache with
          preflightHashMap := Function.update cache.preflightHashMap valid.key (some item) }) ∨
      (¬ Stores valid ∧ (cache.validatePreflightResponse plat valid).1 = cache) := by
  rw [validatePreflightResponse]
  split
  · next hstatus =>
    rw [Bool.not_eq_true'] at hstatus
    exact .inr ⟨fun hstores => absurd hstores.1 (by rw [hstatus]; exact Bool.false_ne_true), rfl⟩
  · split
    · next hrefused =>
      exact .inr ⟨fun hstores => absurd (hrefused.symm.trans hstores.2.1) nofun, rfl⟩
    · next hpasses =>
      rw [CrossOriginPreflightResultCacheItem.create]
      cases hmethods : allowList valid.response .accessControlAllowMethods with
      | none =>
        refine .inr ⟨fun hstores => ?_, rfl⟩
        have hsome := hstores.2.2.1
        rw [hmethods] at hsome
        exact absurd hsome Bool.false_ne_true
      | some methods =>
        cases hheaders : allowList valid.response .accessControlAllowHeaders with
        | none =>
          refine .inr ⟨fun hstores => ?_, rfl⟩
          have hsome := hstores.2.2.2
          rw [hheaders] at hsome
          exact absurd hsome Bool.false_ne_true
        | some headers =>
          refine .inl ⟨_, ?_, rfl⟩
          exact { passed := hpasses
                  expiry := by rw [htime]
                  policy := rfl
                  methods := hmethods
                  headers := hheaders }

theorem latest_canSkipPreflight (query : PreflightQuery) :
    (cache.canSkipPreflight platform query).1.latest = cache.latest := by
  rw [canSkipPreflight]
  split
  · rfl
  · split <;> rfl

theorem Inv.step {action : Action} (hinv : Inv cache) (hreplaces : Replaces cache action)
    (hstep : cache.step platform action = some next) : Inv next := by
  cases action with
  | validate valid =>
    obtain ⟨htime, hstep⟩ := Option.ite_none_right_eq_some.1 hstep
    cases hstep
    intro key item hitem
    rcases validatePreflightResponse_cases platform cache valid htime with
      ⟨made, hmade, hcache⟩ | ⟨hrefused, hcache⟩
    · rw [hcache] at hitem
      dsimp only at hitem ⊢
      by_cases hkey : key = valid.key
      · grind
      · rw [Function.update_of_ne hkey] at hitem ⊢
        exact hinv key item hitem
    · rw [hcache] at hitem
      have hkey : key ≠ valid.key := by
        rintro rfl
        rw [hreplaces.resolve_left hrefused] at hitem
        exact absurd hitem (Option.some_ne_none _).symm
      dsimp only
      rw [Function.update_of_ne hkey]
      exact hinv key item hitem
  | query query =>
    cases hstep
    intro key item hitem
    rw [latest_canSkipPreflight]
    apply hinv key item
    rw [canSkipPreflight] at hitem
    split at hitem
    · exact hitem
    · split at hitem
      · exact hitem
      · grind
  | clear =>
    cases hstep
    exact fun _ _ hitem => absurd hitem (Option.some_ne_none _).symm
  | wait =>
    obtain ⟨-, hstep⟩ := Option.ite_none_right_eq_some.1 hstep
    cases hstep
    exact hinv

/-- What an entry allows, the response allows that it was made from. -/
theorem MadeFrom.justifies {valid : Validation} {item : CrossOriginPreflightResultCacheItem}
    (hmade : MadeFrom valid item) {now : ℚ} {query : PreflightQuery}
    (hallows : item.allowsRequest platform now query.policy query.method query.headers = true)
    (hcompared : ¬Uncompared item.storedCredentialsPolicy query.policy)
    (hsimple : isOnAccessControlSimpleRequestMethodAllowlist query.method = true →
      query.method ∈ item.methods ∨ wildcard item.methods query.policy = true) :
    Justifies platform valid now query := by
  have hpol := strength_le_of_allowsRequest hallows hcompared
  simp only [CrossOriginPreflightResultCacheItem.allowsRequest, Bool.and_eq_true,
    Bool.not_eq_true', decide_eq_false_iff_not, not_lt, Option.isNone_iff_eq_none] at hallows
  obtain ⟨⟨⟨hfresh, -⟩, hmethod⟩, hheaders⟩ := hallows
  refine { passed := hmade.passed, policy := hmade.policy ▸ hpol, fresh := hmade.expiry ▸ hfresh,
           method := ⟨_, hmade.methods, ?_⟩, headers := ⟨_, hmade.headers, ?_⟩ }
  · grind [CrossOriginPreflightResultCacheItem.allowsCrossOriginMethod]
  · rw [CrossOriginPreflightResultCacheItem.validateCrossOriginHeaders, Option.map_eq_none_iff,
      List.find?_eq_none] at hheaders
    intro header hheader
    have hallowed := hheaders header hheader
    simp only [Bool.and_eq_true, Bool.not_eq_true', not_and, Bool.not_eq_false,
      List.any_eq_false] at hallowed
    by_cases hsafe : isSafeEntry platform.parsedMimeType header = true
    · exact .inl hsafe
    · grind

/-- The cache does not widen permissions, as long as no refused response leaves an older
entry and the entry covers what is asked for. -/
theorem preflight_cache_never_widens {now : ℚ} {actions : List Action}
    (hreplaces : Meets (step platform) Replaces (empty now) actions)
    (hrun : run (step platform) (empty now) actions = some cache) {query : PreflightQuery}
    (hcovers : Covers cache query) (hskip : (cache.canSkipPreflight platform query).2 = true) :
    ∃ validation, cache.latest query.key = some validation ∧
      Justifies platform validation cache.now query := by
  have hinv := run_of_step Inv.step (inv_empty now) hreplaces hrun
  rw [canSkipPreflight] at hskip
  split at hskip
  · exact absurd hskip Bool.false_ne_true
  · next item hitem =>
    split at hskip
    · next hallows =>
      obtain ⟨validation, hlatest, hmade⟩ := hinv query.key item hitem
      obtain ⟨hcompared, hsimple⟩ := hcovers item hitem
      exact ⟨validation, hlatest, hmade.justifies hallows hcompared hsimple⟩
    · exact absurd hskip Bool.false_ne_true

/-! ## A sample cache -/

/-- The origin may use `PUT`. -/
def allowing (policy : StoredCredentialsPolicy) : Validation :=
  { request := Sample.requestTo Sample.other
    response :=
      { Sample.responseFrom Sample.other .default with
        httpHeaderFields :=
          { commonHeaders :=
              [(.accessControlAllowOrigin, stringOf Sample.origin.toString),
               (.accessControlAllowMethods, stringOf (lit "PUT"))]
            uncommonHeaders := [] } }
    policy := policy
    securityOrigin := Sample.origin
    checkDisabled := false
    time := 0 }

/-- The response does not mention the origin. -/
def refusing : Validation :=
  { allowing .doNotUse with response := Sample.responseFrom Sample.other .default }

def asksForPut (policy : StoredCredentialsPolicy) : PreflightQuery :=
  { origin := Sample.origin.toString
    url := Sample.other
    policy := policy
    method := lit "PUT"
    headers := .empty }

theorem latest_of_step_validate {valid : Validation}
    (hstep : cache.step platform (.validate valid) = some next) :
    next.latest valid.key = some valid := by
  obtain ⟨-, hstep⟩ := Option.ite_none_right_eq_some.1 hstep
  cases hstep
  exact Function.update_self _ _ _

theorem preflight_cache_never_widens_put :
    ∃ cache, run (step Sample.platform) (empty 0) [.validate (allowing .doNotUse)] = some cache ∧
      (cache.canSkipPreflight Sample.platform (asksForPut .doNotUse)).2 = true ∧
      ∃ validation, cache.latest (asksForPut .doNotUse).key = some validation ∧
        Justifies Sample.platform validation cache.now (asksForPut .doNotUse) := by
  have hrun := @run_eq_after _ _ (step Sample.platform) (empty 0)
    [.validate (allowing .doNotUse)] (by decide +kernel)
  have hskip : ((after (step Sample.platform) (empty 0)
      [.validate (allowing .doNotUse)]).canSkipPreflight Sample.platform
        (asksForPut .doNotUse)).2 = true := by
    decide +kernel
  have hcovers : Covers (after (step Sample.platform) (empty 0)
      [.validate (allowing .doNotUse)]) (asksForPut .doNotUse) :=
    fun _ _ => ⟨by rintro (⟨-, ⟨⟩⟩ | ⟨-, ⟨⟩⟩), fun hsimple => absurd hsimple (by decide +kernel)⟩
  have hreplaces : Meets (step Sample.platform) Replaces (empty 0)
      [.validate (allowing .doNotUse)] :=
    ⟨.inr rfl, fun _ _ => trivial⟩
  exact ⟨_, hrun, hskip, preflight_cache_never_widens hreplaces hrun hcovers hskip⟩

/-- The entry of an older response is used after the last response was refused, and the entry
of a response that was checked for the ephemeral policy is used with credentials. -/
theorem preflight_skipped_without_permission :
    (∃ cache, run (step Sample.platform) (empty 0)
        [.validate (allowing .doNotUse), .validate refusing] = some cache ∧
      (cache.canSkipPreflight Sample.platform (asksForPut .doNotUse)).2 = true ∧
      ∀ validation, cache.latest (asksForPut .doNotUse).key = some validation →
        ¬ Justifies Sample.platform validation cache.now (asksForPut .doNotUse)) ∧
    ∃ cache, run (step Sample.platform) (empty 0) [.validate (allowing .ephemeralStateless)] =
        some cache ∧
      (cache.canSkipPreflight Sample.platform (asksForPut .use)).2 = true ∧
      ∀ validation, cache.latest (asksForPut .use).key = some validation →
        ¬ Justifies Sample.platform validation cache.now (asksForPut .use) := by
  constructor
  · have hrun := @run_eq_after _ _ (step Sample.platform) (empty 0)
      [.validate (allowing .doNotUse), .validate refusing] (by decide +kernel)
    refine ⟨_, hrun, by decide +kernel, fun validation hlatest hjustifies => ?_⟩
    obtain ⟨middle, -, hrest⟩ := run_cons_eq_some_iff.1 hrun
    obtain ⟨last, hlast, hend⟩ := run_cons_eq_some_iff.1 hrest
    rw [← Option.some.inj hend] at hlatest
    cases (latest_of_step_validate hlast).symm.trans hlatest
    have hrefused : (passesAccessControlCheck refusing.response refusing.policy
        refusing.securityOrigin refusing.checkDisabled).isOk = false := by decide +kernel
    rw [hjustifies.passed] at hrefused
    exact absurd hrefused.symm Bool.false_ne_true
  · have hrun := @run_eq_after _ _ (step Sample.platform) (empty 0)
      [.validate (allowing .ephemeralStateless)] (by decide +kernel)
    refine ⟨_, hrun, by decide +kernel, fun validation hlatest hjustifies => ?_⟩
    obtain ⟨last, hlast, hend⟩ := run_cons_eq_some_iff.1 hrun
    rw [← Option.some.inj hend] at hlatest
    cases (latest_of_step_validate hlast).symm.trans hlatest
    exact absurd hjustifies.policy (by decide)

end PreflightCache

end PurcFetcher.Loader
