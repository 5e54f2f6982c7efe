import PurcFetcher.Loader.Redirects

/-!
# Tainting along a chain of redirects

A response is basic if the flag is set, and has to pass the access control check of the
current origin otherwise.  There are two exceptions.  A response that is already an opaque
redirect passes without a check, and a request whose scheme the registry does not treat as
CORS-enabled is let through even in the mode for the same origin.
-/

namespace PurcFetcher.Loader

open Http Machine Text

namespace Load

open NetworkLoadChecker

variable {platform : Platform} {load next : Load} {action : LoadAction}

variable {source : Option SecurityOrigin}

/-- What the checks of responses and requests let through. -/
structure TaintingSound (platform : Platform) (source : Option SecurityOrigin) (load : Load) :
    Prop where
  basic : ∀ verdict ∈ load.verdicts, verdict.given = some .basic →
    ∀ url ∈ verdict.chain, isSameOrigin platform url source = true
  left : ∀ verdict ∈ load.verdicts,
    (∃ url ∈ verdict.chain, isSameOrigin platform url source = false) →
      (verdict.given = some .cors ∧ ∃ origin, verdict.origin = some origin ∧
        passesAccessControlCheck verdict.response verdict.policy origin verdict.checkDisabled =
          .ok ()) ∨
        verdict.response.httpStatusCode = 304
  requests : load.checker.options.mode = .sameOrigin →
    ∀ entry ∈ load.issued, isSameOrigin platform entry.url source = true

/-- In the mode for the same origin, the scheme of a URL of another origin is one that the
registry treats as CORS-enabled.  A response is not already an opaque redirect if the chain
has left the origin. -/
def Regular (platform : Platform) (source : Option SecurityOrigin) (load : Load)
    (action : LoadAction) : Prop :=
  (∀ request ∈ action.request?, load.checker.options.mode = .sameOrigin →
    isSameOrigin platform request.url source = true ∨
      ∀ registry ∈ load.checker.schemeRegistry,
        registry.shouldTreatURLSchemeAsCORSEnabled request.url.protocol = true) ∧
  ∀ response ∈ action.response?, response.type = .opaqueredirect →
    ∀ url ∈ load.chain, isSameOrigin platform url source = true

instance (load : Load) (action : LoadAction) : Decidable (Regular platform source load action) :=
  inferInstanceAs (Decidable (_ ∧ _))

structure TaintingInv (platform : Platform) (source : Option SecurityOrigin) (load : Load) :
    Prop extends TaintingSound platform source load where
  mode : load.checker.options.mode = .sameOrigin ∨ load.checker.options.mode = .cors
  flag : FlagInv platform source load
  /-- No preflight is made in the mode for the same origin. -/
  preflight : load.checker.options.mode = .sameOrigin → load.pending = none

/-- What a response that passes has been checked for. -/
theorem validateResponse_cases {checker : NetworkLoadChecker} {request : ResourceRequest}
    {response : ResourceResponse} {accepted : Accepted}
    (hmode : checker.options.mode = .sameOrigin ∨ checker.options.mode = .cors)
    (hvalidate : checker.validateResponse platform request response = some (.ok accepted)) :
    (response.type = .opaqueredirect ∧ accepted.given = some .opaqueredirect) ∨
      (checker.isSameOriginRequest = true ∧ accepted.given = some .basic) ∨
      (response.httpStatusCode = 304 ∧ accepted.given = none) ∨
      (accepted.given = some .cors ∧ ∃ origin, checker.origin = some origin ∧
        passesAccessControlCheck response checker.storedCredentialsPolicy origin
          checker.checkDisabled = .ok ()) := by
  have hnavigate : checker.options.mode ≠ .navigate := by
    rcases hmode with hmode | hmode <;> rw [hmode] <;> decide
  have hnoCors : checker.options.mode ≠ .noCors := by
    rcases hmode with hmode | hmode <;> rw [hmode] <;> decide
  rw [validateResponse] at hvalidate
  dsimp only at hvalidate
  split at hvalidate
  · next htype =>
    cases hvalidate
    exact .inl ⟨htype, rfl⟩
  · split at hvalidate
    · next hflag =>
      cases hvalidate
      rw [decide_eq_false hnavigate, Bool.false_or] at hflag
      exact .inr (.inl ⟨hflag, rfl⟩)
    · split at hvalidate
      · grind
      · obtain ⟨origin, horigin, heq⟩ := Option.map_eq_some_iff.1 hvalidate
        split at heq
        · exact absurd heq nofun
        · next hpasses =>
          cases heq
          exact .inr (.inr (.inr ⟨rfl, origin, horigin, hpasses⟩))

theorem TaintingInv.judged (hinv : TaintingInv platform source load)
    (hregular : Regular platform source load action) {verdicts : List Verdict}
    (hjudged : Judged platform load action verdicts) :
    ∀ verdict ∈ verdicts,
      (verdict.given = some .basic →
        ∀ url ∈ verdict.chain, isSameOrigin platform url source = true) ∧
      ((∃ url ∈ verdict.chain, isSameOrigin platform url source = false) →
        (verdict.given = some .cors ∧ ∃ origin, verdict.origin = some origin ∧
          passesAccessControlCheck verdict.response verdict.policy origin
            verdict.checkDisabled = .ok ()) ∨
          verdict.response.httpStatusCode = 304) := by
  intro verdict hverdict
  rcases hjudged with rfl | ⟨request, response, accepted, hresp, hvalidate, rfl⟩
  · exact ⟨hinv.basic verdict hverdict, hinv.left verdict hverdict⟩
  · rw [accept, List.mem_append, List.mem_singleton] at hverdict
    rcases hverdict with hold | rfl
    · exact ⟨hinv.basic verdict hold, hinv.left verdict hold⟩
    · have hstayed : (∀ url ∈ load.chain, isSameOrigin platform url source = true) →
          ¬∃ url ∈ load.chain, isSameOrigin platform url source = false := by
        rintro hall ⟨url, hurl, hleft⟩
        exact absurd (hall url hurl) (by rw [hleft]; exact Bool.false_ne_true)
      rcases validateResponse_cases hinv.mode hvalidate with
        ⟨htype, hgiven⟩ | ⟨hflag, hgiven⟩ | ⟨hstatus, hgiven⟩ | ⟨hgiven, hpasses⟩
      · have hall := hregular.2 response hresp htype
        exact ⟨fun _ => hall, fun hleft => absurd hleft (hstayed hall)⟩
      · have hall := (hinv.flag hflag).2
        exact ⟨fun _ => hall, fun hleft => absurd hleft (hstayed hall)⟩
      · grind
      · grind

/-- A request that is let through in the mode for the same origin is for this origin. -/
theorem TaintingInv.request (hinv : TaintingInv platform source load)
    (hregular : Regular platform source load action) {request : ResourceRequest}
    (hreq : action.request? = some request) {base classified : NetworkLoadChecker}
    (hbase : Follows load.checker base)
    (hclassify : base.classify platform request = some classified)
    (hmode : load.checker.options.mode = .sameOrigin)
    (hneeds : classified.doesNotNeedCORSCheck request.url = true) :
    isSameOrigin platform request.url source = true := by
  obtain ⟨pol, -, rfl⟩ := Option.map_eq_some_iff.1 hclassify
  have hbaseMode : base.options.mode = .sameOrigin := by rw [hbase.options, hmode]
  simp only [doesNotNeedCORSCheck, hbaseMode, hbase.registry, reduceCtorEq, decide_false,
    Bool.false_or, Bool.or_eq_true, Bool.and_eq_true] at hneeds
  rcases hneeds with hscheme | ⟨hflag, hsame⟩
  · rcases hregular.1 request hreq hmode with hsame | henabled
    · exact hsame
    · grind
  · obtain ⟨hflag, horigin⟩ := hbase.flag hflag
    rwa [horigin, (hinv.flag hflag).1] at hsame

theorem TaintingInv.checked (hinv : TaintingInv platform source load)
    (hregular : Regular platform source load action) {request : ResourceRequest}
    {base after : NetworkLoadChecker} {out : Outcome} {verdicts : List Verdict}
    {canSkipPreflight : Bool} (hreq : action.request? = some request)
    (hbase : Follows load.checker base) (hjudged : Judged platform load action verdicts)
    (hcheck : base.continueCheckingRequest platform request canSkipPreflight = some (after, out))
    (hflag : FlagInv platform source
      (({ load with verdicts := verdicts } : Load).proceed request.url after out)) :
    TaintingInv platform source
      (({ load with verdicts := verdicts } : Load).proceed request.url after out) := by
  obtain ⟨hbasic, hleft⟩ := forall₂_and.1 (hinv.judged hregular hjudged)
  obtain ⟨classified, hclassify, hchecks⟩ := checks_continueCheckingRequest hcheck
  have hoptions : after.options = load.checker.options := by
    obtain ⟨pol, -, rfl⟩ := Option.map_eq_some_iff.1 hclassify
    exact hchecks.follows.options.trans hbase.options
  have hsameOrigin : after.options.mode = .sameOrigin → (∃ error, out = .refuse error) ∨
      (out = .issue request ∧ isSameOrigin platform request.url source = true) := by
    intro hmode
    refine (hchecks.sameOrigin (hchecks.follows.options ▸ hmode)).imp_right ?_
    intro ⟨hissue, hneeds⟩
    rw [hoptions] at hmode
    exact ⟨hissue, hinv.request hregular hreq hbase hclassify hmode hneeds⟩
  refine { basic := ?_, left := ?_, requests := ?_, mode := ?_, flag := hflag, preflight := ?_ }
  · cases out <;> exact hbasic
  · cases out <;> exact hleft
  · rw [checker_proceed]
    intro hmode entry hentry
    have hold := hinv.requests (hoptions ▸ hmode) entry
    rcases hsameOrigin hmode with ⟨error, rfl⟩ | ⟨rfl, hurl⟩
    · exact hold hentry
    · rcases List.mem_append.1 hentry with hentry | hnew
      · exact hold hentry
      · rw [List.mem_singleton.1 hnew]
        exact hurl
  · rw [checker_proceed, hoptions]
    exact hinv.mode
  · rw [checker_proceed]
    intro hmode
    rcases hsameOrigin hmode with ⟨error, rfl⟩ | ⟨rfl, -⟩ <;> rfl

theorem TaintingInv.step (hinv : TaintingInv platform source load)
    (hregular : Regular platform source load action)
    (hstep : load.step platform action = some next) : TaintingInv platform source next := by
  have hflag := hinv.flag.step hstep
  cases moves_of_step hstep with
  | checked hreq _ hbase hjudged hcheck =>
    exact hinv.checked hregular hreq hbase hjudged hcheck hflag
  | stayed hafter hpend hjudged =>
    obtain ⟨hbasic, hleft⟩ := forall₂_and.1 (hinv.judged hregular hjudged)
    refine { basic := hbasic,
             left := hleft,
             requests := ?_, mode := ?_, flag := hflag, preflight := ?_ }
    · rw [hafter.options]
      exact hinv.requests
    · rw [hafter.options]
      exact hinv.mode
    · rw [hafter.options]
      intro hmode
      rcases hpend with rfl | rfl
      · exact hinv.preflight hmode
      · rfl
  | sent hpend =>
    have hcors : load.checker.options.mode ≠ .sameOrigin := by
      intro hmode
      rw [hinv.preflight hmode] at hpend
      exact absurd hpend nofun
    exact { hinv with
      requests := fun hmode => absurd hmode hcors
      flag := hflag
      preflight := fun _ => rfl }

/-- In a run in which all steps are regular, a response has the tainting of its chain, and
the mode for the same origin lets no other request through. -/
theorem tainting_follows_chain {options : FetchOptions}
    (hmode : options.mode = .sameOrigin ∨ options.mode = .cors) (headers : HTTPHeaderMap)
    (url nullURL : URL) (source : Option SecurityOrigin) (preflightPolicy : PreflightPolicy)
    (schemeRegistry : Option NetworkSchemeRegistry) (checkDisabled : Bool)
    {actions : List LoadAction}
    (hregular : Meets (step platform) (Regular platform source)
      (start (NetworkLoadChecker.create platform options headers url nullURL source
        preflightPolicy schemeRegistry checkDisabled)) actions)
    (hrun : run (step platform)
      (start (NetworkLoadChecker.create platform options headers url nullURL source
        preflightPolicy schemeRegistry checkDisabled)) actions = some load) :
    TaintingSound platform source load := by
  have hstart : TaintingInv platform source
      (start (NetworkLoadChecker.create platform options headers url nullURL source
        preflightPolicy schemeRegistry checkDisabled)) :=
    { basic := fun _ hverdict => absurd hverdict List.not_mem_nil
      left := fun _ hverdict => absurd hverdict List.not_mem_nil
      requests := fun _ _ hentry => absurd hentry List.not_mem_nil
      mode := hmode
      flag := flagInv_start rfl
      preflight := fun _ => rfl }
  exact (run_of_step TaintingInv.step hstart hregular hrun).toTaintingSound

/-- A redirect to another origin, whose response allows the access. -/
def leavesOrigin : List LoadAction :=
  [.check (Sample.requestTo Sample.site) false,
   .redirect (Sample.requestTo Sample.site) (Sample.requestTo Sample.other)
     (Sample.responseFrom Sample.site .default) false,
   .respond (Sample.requestTo Sample.other)
     { Sample.responseFrom Sample.other .default with
       httpHeaderFields := HTTPHeaderMap.empty.setKnown .accessControlAllowOrigin
         (stringOf (lit "*")) }]

theorem tainting_follows_chain_redirected :
    ∃ load, run (step Sample.platform) (Sample.load .cors (some { corsEnabledSchemes := [] }))
        leavesOrigin = some load ∧
      load.verdicts.map Verdict.given = [some .basic, some .cors] ∧
      TaintingSound Sample.platform (some Sample.origin) load := by
  have hrun := @run_eq_after _ _ (step Sample.platform)
    (Sample.load .cors (some { corsEnabledSchemes := [] })) leavesOrigin (by decide +kernel)
  exact ⟨_, hrun, by decide +kernel,
    tainting_follows_chain (.inr rfl) _ _ _ _ _ _ _ (by decide +kernel) hrun⟩

/-- A URL of another origin, with a scheme that is not registered. -/
def foreign : URL := Sample.urlOf (lit "custom") (lit "b")

/-- In the mode for the same origin, a request to another origin is issued.  In the mode with
CORS, a response from another origin that does not allow the access is accepted. -/
theorem foreign_request_and_response_pass :
    (∃ load, run (step Sample.platform)
        (Sample.load .sameOrigin (some { corsEnabledSchemes := [] }))
        [.check (Sample.requestTo foreign) false] = some load ∧
      load.issued.map (fun entry =>
        isSameOrigin Sample.platform entry.url (some Sample.origin)) = [false]) ∧
    ∃ load, run (step Sample.platform) (Sample.load .cors none)
        [.check (Sample.requestTo Sample.other) false,
         .respond (Sample.requestTo Sample.other)
           (Sample.responseFrom Sample.other .opaqueredirect)] = some load ∧
      load.issued.map (fun entry =>
        isSameOrigin Sample.platform entry.url (some Sample.origin)) = [false] ∧
      load.verdicts.map (fun verdict => (verdict.given,
        (passesAccessControlCheck verdict.response verdict.policy Sample.origin false).isOk)) =
          [(some .opaqueredirect, false)] :=
  ⟨⟨_, run_eq_after (by decide +kernel), by decide +kernel⟩,
    _, run_eq_after (by decide +kernel), by decide +kernel, by decide +kernel⟩

end Load

end PurcFetcher.Loader
