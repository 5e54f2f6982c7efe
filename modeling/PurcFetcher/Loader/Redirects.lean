import PurcFetcher.Loader.Checker

/-!
# Chains of redirects

A load checks its first request and then each redirect, and it issues the requests that
pass.  The flag of the checker is what carries the history of the chain: as long as it is
set, the origin is the one that the load was made for, and all URLs of the chain are of
this origin or have no origin of their own.
-/

namespace PurcFetcher.Loader

/-! ## Loads -/

/-- A request that was handed to the network. -/
structure Issued where
  url : URL
  policy : StoredCredentialsPolicy
  request : ResourceRequest

/-- A response that has passed, with the state of the load at that time. -/
structure Verdict where
  chain : List URL
  policy : StoredCredentialsPolicy
  origin : Option SecurityOrigin
  checkDisabled : Bool
  response : ResourceResponse
  given : Option Tainting

structure Load where
  checker : NetworkLoadChecker
  issued : List Issued
  /-- The URL and the request that a preflight is made for. -/
  pending : Option (URL × ResourceRequest)
  verdicts : List Verdict
  ended : Bool

inductive LoadAction
  | check (request : ResourceRequest) (canSkipPreflight : Bool)
  | redirect (request redirectRequest : ResourceRequest) (redirectResponse : ResourceResponse)
      (canSkipPreflight : Bool)
  | preflightComplete (success : Bool)
  | respond (request : ResourceRequest) (response : ResourceResponse)

def LoadAction.request? : LoadAction → Option ResourceRequest
  | .check request _ => some request
  | .redirect _ redirectRequest _ _ => some redirectRequest
  | _ => none

def LoadAction.response? : LoadAction → Option ResourceResponse
  | .redirect _ _ redirectResponse _ => some redirectResponse
  | .respond _ response => some response
  | _ => none

namespace Load

variable (platform : Platform)

def start (checker : NetworkLoadChecker) : Load :=
  { checker := checker, issued := [], pending := none, verdicts := [], ended := false }

def chain (load : Load) : List URL :=
  load.issued.map Issued.url ++ load.pending.toList.map Prod.fst

def isLoading (load : Load) : Bool :=
  !load.issued.isEmpty && load.pending.isNone && !load.ended

def proceed (load : Load) (url : URL) (checker : NetworkLoadChecker) : Outcome → Load
  | .issue request =>
    { load with
      checker := checker
      issued := load.issued ++
        [{ url := url, policy := checker.storedCredentialsPolicy, request := request }]
      pending := none }
  | .preflight request => { load with checker := checker, pending := some (url, request) }
  | .refuse _ => { load with checker := checker, pending := none, ended := true }
  | .handOver => { load with checker := checker }

def accept (load : Load) (response : ResourceResponse) (accepted : Accepted) : Load :=
  { load with
    verdicts := load.verdicts ++
      [{ chain := load.chain
         policy := load.checker.storedCredentialsPolicy
         origin := load.checker.origin
         checkDisabled := load.checker.checkDisabled
         response := response
         given := accepted.given }] }

def step (load : Load) : LoadAction → Option Load
  | .check request canSkipPreflight =>
    if load.issued.isEmpty && load.pending.isNone && !load.ended then
      (load.checker.check platform request canSkipPreflight).map fun result =>
        load.proceed request.url result.1 result.2
    else none
  | .redirect request redirectRequest redirectResponse canSkipPreflight =>
    if load.isLoading then
      (load.checker.validateResponse platform request redirectResponse).bind fun
        | .error _ => some { load with ended := true }
        | .ok accepted =>
          (load.checker.followRedirection platform request redirectRequest accepted.response
            canSkipPreflight).map fun result =>
              (load.accept redirectResponse accepted).proceed redirectRequest.url result.1 result.2
    else none
  | .preflightComplete success =>
    load.pending.bind fun (url, request) =>
      if success then
        (load.checker.send platform request).map fun result => load.proceed url result.1 result.2
      else some { load with pending := none, ended := true }
  | .respond request response =>
    if load.isLoading then
      (load.checker.validateResponse platform request response).map fun
        | .error _ => { load with ended := true }
        | .ok accepted => load.accept response accepted
    else none

end Load

/-! ## What a check changes -/

namespace NetworkLoadChecker

variable {platform : Platform} {checker before after : NetworkLoadChecker}
variable {request : ResourceRequest} {canSkipPreflight : Bool} {out : Outcome}

/-- The second checker is a later state of the first one, with the same policy. -/
structure Follows (before after : NetworkLoadChecker) : Prop where
  options : after.options = before.options
  policy : after.storedCredentialsPolicy = before.storedCredentialsPolicy
  registry : after.schemeRegistry = before.schemeRegistry
  disabled : after.checkDisabled = before.checkDisabled
  flag : after.isSameOriginRequest = true →
    before.isSameOriginRequest = true ∧ after.origin = before.origin

theorem Follows.refl (checker : NetworkLoadChecker) : Follows checker checker :=
  { options := rfl
    policy := rfl
    registry := rfl
    disabled := rfl
    flag := fun hflag => ⟨hflag, rfl⟩ }

theorem follows_send (hsend : checker.send platform request = some (after, out)) :
    after = checker ∧ ∃ sent, out = .issue sent := by
  obtain ⟨origin, -, heq⟩ := Option.map_eq_some_iff.1 hsend
  cases heq
  exact ⟨rfl, _, rfl⟩

theorem follows_checkCORSRequest
    (hcheck : checker.checkCORSRequest platform request canSkipPreflight =
      some (after, out)) :
    Follows checker after ∧
      ((∃ sent, out = .issue sent) ∨ ∃ waiting, out = .preflight waiting) := by
  have hpreflight : checker.checkCORSRequestWithPreflight platform request canSkipPreflight =
      some (after, out) → Follows checker after ∧
        ((∃ sent, out = .issue sent) ∨ ∃ waiting, out = .preflight waiting) := by
    intro hwith
    rw [checkCORSRequestWithPreflight] at hwith
    split at hwith
    · obtain ⟨rfl, hissue⟩ := follows_send hwith
      exact ⟨{ Follows.refl checker with }, .inl hissue⟩
    · cases hwith
      exact ⟨{ Follows.refl checker with }, .inr ⟨_, rfl⟩⟩
  have hsend : checker.send platform request = some (after, out) → Follows checker after ∧
      ((∃ sent, out = .issue sent) ∨ ∃ waiting, out = .preflight waiting) := by
    intro hissue
    obtain ⟨rfl, hout⟩ := follows_send hissue
    exact ⟨Follows.refl after, .inl hout⟩
  rw [checkCORSRequest] at hcheck
  split at hcheck
  · exact hpreflight hcheck
  · split at hcheck
    · exact hpreflight hcheck
    · exact hsend hcheck
  · exact hsend hcheck

/-- What a check of a request leads to.  In the mode for the same origin the request is
issued as it is or refused. -/
structure Checks (platform : Platform) (classified : NetworkLoadChecker)
    (request : ResourceRequest) (after : NetworkLoadChecker) (outcome : Outcome) : Prop where
  follows : Follows classified after
  passes : outcome ≠ .handOver
  sameOrigin : classified.options.mode = .sameOrigin →
    (∃ error, outcome = .refuse error) ∨
      (outcome = .issue request ∧ classified.doesNotNeedCORSCheck request.url = true)

theorem checks_continueCheckingRequest
    (hcheck : checker.continueCheckingRequest platform request canSkipPreflight =
      some (after, out)) :
    ∃ classified, checker.classify platform request = some classified ∧
      Checks platform classified request after out := by
  obtain ⟨classified, hclassify, hcheck⟩ := Option.bind_eq_some_iff.1 hcheck
  refine ⟨classified, hclassify, ?_⟩
  have hsent : ((∃ sent, out = .issue sent) ∨ ∃ waiting, out = .preflight waiting) →
      out ≠ .handOver := by
    rintro (⟨sent, rfl⟩ | ⟨waiting, rfl⟩) <;> exact nofun
  split at hcheck
  · next hneeds =>
    cases hcheck
    exact { follows := Follows.refl _
            passes := nofun
            sameOrigin := fun _ => .inr ⟨rfl, hneeds⟩ }
  · split at hcheck
    · obtain ⟨origin, -, heq⟩ := Option.map_eq_some_iff.1 hcheck
      cases heq
      exact { follows := Follows.refl _
              passes := nofun
              sameOrigin := fun _ => .inl ⟨_, rfl⟩ }
    · next hmode =>
      split at hcheck
      · obtain ⟨origin, -, hcheck⟩ := Option.bind_eq_some_iff.1 hcheck
        obtain ⟨hfollows, hout⟩ := follows_checkCORSRequest hcheck
        exact { follows :=
                  { options := hfollows.options
                    policy := hfollows.policy
                    registry := hfollows.registry
                    disabled := hfollows.disabled
                    flag := fun hflag => absurd (hfollows.flag hflag).1 Bool.false_ne_true }
                passes := hsent hout
                sameOrigin := fun hsame => absurd hsame hmode }
      · obtain ⟨hfollows, hout⟩ := follows_checkCORSRequest hcheck
        exact { follows := hfollows
                passes := hsent hout
                sameOrigin := fun hsame => absurd hsame hmode }

end NetworkLoadChecker

/-! ## What a step can do -/

namespace Load

open NetworkLoadChecker

variable {platform : Platform} {load next : Load} {action : LoadAction}

/-- The verdicts are the same, or there is one more for the response of the action. -/
def Judged (platform : Platform) (load : Load) (action : LoadAction) (verdicts : List Verdict) :
    Prop :=
  verdicts = load.verdicts ∨
    ∃ request response accepted, action.response? = some response ∧
      load.checker.validateResponse platform request response = some (.ok accepted) ∧
      verdicts = (load.accept response accepted).verdicts

inductive Moves (platform : Platform) (load : Load) (action : LoadAction) : Load → Prop
  | checked {request : ResourceRequest} {base after : NetworkLoadChecker} {outcome : Outcome}
      {verdicts : List Verdict} {canSkipPreflight : Bool}
      (hrequest : action.request? = some request) (hidle : load.pending = none)
      (hbase : Follows load.checker base) (hjudged : Judged platform load action verdicts)
      (hcheck : base.continueCheckingRequest platform request canSkipPreflight =
        some (after, outcome)) :
      Moves platform load action
        (({ load with verdicts := verdicts } : Load).proceed request.url after outcome)
  | stayed {after : NetworkLoadChecker} {verdicts : List Verdict} {ended : Bool}
      {pending : Option (URL × ResourceRequest)} (hafter : Follows load.checker after)
      (hpending : pending = load.pending ∨ pending = none)
      (hjudged : Judged platform load action verdicts) :
      Moves platform load action
        { load with checker := after, pending := pending, verdicts := verdicts, ended := ended }
  | sent {url : URL} {request sent : ResourceRequest}
      (hpending : load.pending = some (url, request)) :
      Moves platform load action (load.proceed url load.checker (.issue sent))

theorem pending_of_isLoading (hloading : load.isLoading = true) : load.pending = none := by
  rw [isLoading, Bool.and_eq_true, Bool.and_eq_true] at hloading
  exact Option.isNone_iff_eq_none.1 hloading.1.2

theorem moves_of_step (hstep : load.step platform action = some next) :
    Moves platform load action next := by
  cases action with
  | check request =>
    obtain ⟨hready, hstep⟩ := Option.ite_none_right_eq_some.1 hstep
    rw [Bool.and_eq_true, Bool.and_eq_true, Option.isNone_iff_eq_none] at hready
    obtain ⟨⟨after, out⟩, hcheck, rfl⟩ := Option.map_eq_some_iff.1 hstep
    have hbase : Follows load.checker
        { load.checker with firstRequestHeaders := request.httpHeaderFields } :=
      { Follows.refl load.checker with }
    exact .checked rfl hready.1.2 hbase (.inl rfl) hcheck
  | redirect request redirectReq redirectResp canSkipPreflight =>
    obtain ⟨hloading, hstep⟩ := Option.ite_none_right_eq_some.1 hstep
    have hidle := pending_of_isLoading hloading
    obtain ⟨res, hvalidate, hstep⟩ := Option.bind_eq_some_iff.1 hstep
    cases res with
    | error =>
      cases hstep
      exact .stayed (Follows.refl _) (.inl rfl) (.inl rfl)
    | ok accepted =>
      obtain ⟨⟨after, out⟩, hfollow, rfl⟩ := Option.map_eq_some_iff.1 hstep
      have hjudged : Judged platform load
          (.redirect request redirectReq redirectResp canSkipPreflight)
          (load.accept redirectResp accepted).verdicts :=
        .inr ⟨request, redirectResp, accepted, rfl, hvalidate, rfl⟩
      revert hfollow
      fun_cases NetworkLoadChecker.followRedirection platform load.checker request redirectReq
        accepted.response canSkipPreflight
      case case5 =>
        refine .checked rfl hidle ?_ hjudged
        exact { Follows.refl load.checker with }
      all_goals
        simp only [Option.some.injEq, Prod.mk.injEq]
        rintro ⟨rfl, rfl⟩
      case case2 => exact .stayed (Follows.refl _) (.inl rfl) hjudged
      all_goals exact .stayed { Follows.refl load.checker with } (.inr rfl) hjudged
  | preflightComplete =>
    obtain ⟨⟨url, request⟩, hpend, hstep⟩ := Option.bind_eq_some_iff.1 hstep
    dsimp only at hstep
    split at hstep
    · obtain ⟨⟨after, out⟩, hsend, rfl⟩ := Option.map_eq_some_iff.1 hstep
      obtain ⟨rfl, sent, rfl⟩ := follows_send hsend
      exact .sent hpend
    · cases hstep
      exact .stayed (Follows.refl _) (.inr rfl) (.inl rfl)
  | respond request response =>
    obtain ⟨hloading, hstep⟩ := Option.ite_none_right_eq_some.1 hstep
    obtain ⟨res, hvalidate, rfl⟩ := Option.map_eq_some_iff.1 hstep
    cases res with
    | error => exact .stayed (Follows.refl _) (.inl rfl) (.inl rfl)
    | ok accepted =>
      exact .stayed (Follows.refl _) (.inl rfl)
        (.inr ⟨request, response, accepted, rfl, hvalidate, rfl⟩)

/-! ## The flag -/

/-- While the flag is set, the origin is the first one and the chain has not left it. -/
def FlagInv (platform : Platform) (source : Option SecurityOrigin) (load : Load) : Prop :=
  load.checker.isSameOriginRequest = true →
    load.checker.origin = source ∧ ∀ url ∈ load.chain, isSameOrigin platform url source = true

theorem mem_chain_proceed {load : Load} {url other : URL} {after : NetworkLoadChecker}
    {out : Outcome} (hother : other ∈ (load.proceed url after out).chain)
    (hidle : load.pending = none) :
    other ∈ load.chain ∨ other = url := by
  cases out <;> simp_all [proceed, chain]

theorem checker_proceed (load : Load) (url : URL) (after : NetworkLoadChecker)
    (out : Outcome) : (load.proceed url after out).checker = after := by
  cases out <;> rfl

variable {source : Option SecurityOrigin}

theorem FlagInv.step (hinv : FlagInv platform source load)
    (hstep : load.step platform action = some next) : FlagInv platform source next := by
  cases moves_of_step hstep with
  | checked hreq hidle hbase hjudged hcheck =>
    obtain ⟨classified, hclassify, hchecks⟩ := checks_continueCheckingRequest hcheck
    obtain ⟨pol, -, rfl⟩ := Option.map_eq_some_iff.1 hclassify
    intro hflag
    rw [checker_proceed] at hflag ⊢
    obtain ⟨hclassified, horigin⟩ := hchecks.follows.flag hflag
    obtain ⟨hflag, hsame⟩ := Bool.and_eq_true_iff.1 hclassified
    obtain ⟨hflag, hbefore⟩ := hbase.flag hflag
    obtain ⟨hsource, hchain⟩ := hinv hflag
    rw [hbefore, hsource] at hsame
    refine ⟨horigin.trans (hbefore.trans hsource), fun url hurl => ?_⟩
    rcases mem_chain_proceed hurl hidle with hold | rfl
    · exact hchain url hold
    · exact hsame
  | stayed hafter hpend =>
    intro hflag
    obtain ⟨hflag, horigin⟩ := hafter.flag hflag
    obtain ⟨hsource, hchain⟩ := hinv hflag
    refine ⟨horigin.trans hsource, fun url hurl => hchain url ?_⟩
    rcases hpend with rfl | rfl
    · exact hurl
    · exact List.mem_append_left _ (by simpa [chain] using hurl)
  | sent hpend =>
    intro hflag
    have hsent := hinv hflag
    simpa [proceed, chain, hpend] using hsent

theorem flagInv_start {checker : NetworkLoadChecker} (horigin : checker.origin = source) :
    FlagInv platform source (start checker) :=
  fun _ => ⟨horigin, fun _ hurl => absurd hurl List.not_mem_nil⟩

end Load

/-! ## A sample load -/

namespace Sample

def load (mode : FetchMode) (schemeRegistry : Option NetworkSchemeRegistry) : Load :=
  .start (.create platform
    { mode := mode, credentials := .sameOrigin, redirect := .follow } .empty site data (some origin)
    .prevent schemeRegistry false)

end Sample

end PurcFetcher.Loader
