import PurcFetcher.Loader.AccessControl

/-!
# The load checker

A load checker accompanies one load through its redirects.  It keeps a flag that says
whether all requests so far were to the origin of the load, and it may replace the
origin by a unique one half way.  Each request is checked before it is issued, possibly
after a preflight, and each response is checked before it is used.

A function that would follow a null pointer has no result.  Whether a preflight can be
skipped is an input here.
-/

namespace PurcFetcher.Loader

open Http Text

inductive FetchMode
  | navigate
  | sameOrigin
  | noCors
  | cors
deriving DecidableEq

inductive FetchCredentials
  | omitted
  | sameOrigin
  | included
deriving DecidableEq

inductive FetchRedirect
  | follow
  | error
  | manual
deriving DecidableEq

structure FetchOptions where
  mode : FetchMode
  credentials : FetchCredentials
  redirect : FetchRedirect

inductive PreflightPolicy
  | consider
  | force
  | prevent
deriving DecidableEq

structure NetworkSchemeRegistry where
  corsEnabledSchemes : List Str

def NetworkSchemeRegistry.shouldTreatURLSchemeAsCORSEnabled (registry : NetworkSchemeRegistry)
    (scheme : Str) : Bool :=
  if (lit "http").isPrefixOf scheme then
    scheme.length == 4 || (scheme.length == 5 && scheme[4]? == some 0x73)
  else registry.corsEnabledSchemes.any (equalIgnoringASCIICase scheme)

structure NetworkLoadChecker where
  options : FetchOptions
  storedCredentialsPolicy : StoredCredentialsPolicy
  originalRequestHeaders : HTTPHeaderMap
  firstRequestHeaders : HTTPHeaderMap
  url : URL
  origin : Option SecurityOrigin
  isSameOriginRequest : Bool
  isSimpleRequest : Bool
  redirectCount : ℕ
  /-- The null URL before the first redirect. -/
  previousURL : URL
  preflightPolicy : PreflightPolicy
  schemeRegistry : Option NetworkSchemeRegistry
  /-- The loader has disabled the access control check. -/
  checkDisabled : Bool

def isSameOrigin (platform : Platform) (url : URL) (origin : Option SecurityOrigin) : Bool :=
  url.protocolIsData || url.protocolIsBlob ||
    match origin with
    | none => true
    | some origin => origin.canRequest platform url

/-- What a check of a request leads to. -/
inductive Outcome
  | issue (request : ResourceRequest)
  /-- A preflight has been started for the request. -/
  | preflight (request : ResourceRequest)
  | refuse (error : ResourceError)
  /-- The redirect is handed to the caller. -/
  | handOver

/-- A response that has passed, and the tainting that it was given. -/
structure Accepted where
  response : ResourceResponse
  given : Option Tainting

def ResourceResponse.give (response : ResourceResponse) (tainting : Tainting) : Accepted :=
  { response := { response with tainting := tainting }, given := some tainting }

namespace NetworkLoadChecker

variable (platform : Platform) (checker : NetworkLoadChecker)

def create (options : FetchOptions) (originalRequestHeaders : HTTPHeaderMap) (url nullURL : URL)
    (sourceOrigin : Option SecurityOrigin) (preflightPolicy : PreflightPolicy)
    (schemeRegistry : Option NetworkSchemeRegistry) (checkDisabled : Bool) :
    NetworkLoadChecker :=
  let isSameOriginRequest := isSameOrigin platform url sourceOrigin
  { options := options
    storedCredentialsPolicy :=
      match options.credentials with
      | .included => .use
      | .sameOrigin => if isSameOriginRequest then .use else .doNotUse
      | .omitted => .doNotUse
    originalRequestHeaders := originalRequestHeaders
    firstRequestHeaders := HTTPHeaderMap.empty
    url := url
    origin := sourceOrigin
    isSameOriginRequest := isSameOriginRequest
    isSimpleRequest := true
    redirectCount := 0
    previousURL := nullURL
    preflightPolicy := preflightPolicy
    schemeRegistry := schemeRegistry
    checkDisabled := checkDisabled }

/-! ## Responses -/

def validateResponse (request : ResourceRequest) (response : ResourceResponse) :
    Option (Except ResourceError Accepted) :=
  let response := { response with
    isRedirected := response.isRedirected || checker.redirectCount != 0 }
  if response.type = .opaqueredirect then some (.ok (response.give .opaqueredirect))
  else if checker.options.mode = .navigate || checker.isSameOriginRequest then
    some (.ok (response.give .basic))
  else
    let response := { response with
      isRangeRequested :=
        response.isRangeRequested || request.httpHeaderFields.containsKnown .range }
    if checker.options.mode = .noCors then
      checker.origin.map fun origin =>
        match validateCrossOriginResourcePolicy platform origin checker.url response with
        | some error => .error error
        | none => .ok (response.give .opaqueResponse)
    else if response.httpStatusCode = 304 then some (.ok { response := response, given := none })
    else
      checker.origin.map fun origin =>
        match passesAccessControlCheck response checker.storedCredentialsPolicy origin
            checker.checkDisabled with
        | .error description =>
          .error { failingURL := checker.url, localizedDescription := description }
        | .ok () => .ok (response.give .cors)

/-! ## Requests -/

/-- The request is updated and handed to the caller. -/
def send (request : ResourceRequest) : Option (NetworkLoadChecker × Outcome) :=
  checker.origin.map fun origin =>
    (checker, .issue
      (updateRequestForAccessControl platform request origin checker.storedCredentialsPolicy))

def checkCORSRequestWithPreflight (request : ResourceRequest) (canSkipPreflight : Bool) :
    Option (NetworkLoadChecker × Outcome) :=
  let checker := { checker with isSimpleRequest := false }
  if canSkipPreflight then checker.send platform request
  else some (checker, .preflight request)

def checkCORSRequest (request : ResourceRequest) (canSkipPreflight : Bool) :
    Option (NetworkLoadChecker × Outcome) :=
  match checker.preflightPolicy with
  | .force => checker.checkCORSRequestWithPreflight platform request canSkipPreflight
  | .consider =>
    if !checker.isSimpleRequest || !isSimpleCrossOriginAccessRequest platform.parsedMimeType
        request.httpMethod checker.originalRequestHeaders then
      checker.checkCORSRequestWithPreflight platform request canSkipPreflight
    else checker.send platform request
  | .prevent => checker.send platform request

/-- The origin for a redirect that has left the origin twice is a unique one. -/
def originAfterRedirect (origin : SecurityOrigin) (request : ResourceRequest) : SecurityOrigin :=
  if !origin.canRequest platform checker.previousURL &&
      !protocolHostAndPortAreEqual checker.previousURL request.url && !origin.isUnique then
    SecurityOrigin.createUnique
  else origin

def checkCORSRedirectedRequest (request : ResourceRequest) (canSkipPreflight : Bool) :
    Option (NetworkLoadChecker × Outcome) :=
  checker.origin.bind fun origin =>
    let firstRequestHeaders :=
      if request.httpHeaderFields.containsKnown .authorization then checker.firstRequestHeaders
      else checker.firstRequestHeaders.removeKnown .authorization
    let checker := { checker with
      isSameOriginRequest := false
      origin := some (checker.originAfterRedirect platform origin request)
      firstRequestHeaders := firstRequestHeaders }
    checker.checkCORSRequest platform { request with httpHeaderFields := firstRequestHeaders }
      canSkipPreflight

def doesNotNeedCORSCheck (url : URL) : Bool :=
  checker.options.mode = .noCors || checker.options.mode = .navigate ||
    (match checker.schemeRegistry with
      | none => false
      | some registry => !registry.shouldTreatURLSchemeAsCORSEnabled url.protocol) ||
    checker.isSameOriginRequest

/-- The policy for a request, which is computed again if credentials are for the same origin
only. -/
def credentialsFor (request : ResourceRequest) : Option StoredCredentialsPolicy :=
  if checker.options.credentials = .sameOrigin then
    if checker.isSameOriginRequest then
      checker.origin.map fun origin =>
        if origin.canRequest platform request.url then .use else .doNotUse
    else some .doNotUse
  else some checker.storedCredentialsPolicy

/-- The checker after the first two statements of `continueCheckingRequest`. -/
def classify (request : ResourceRequest) : Option NetworkLoadChecker :=
  (checker.credentialsFor platform request).map fun policy =>
    { checker with
      storedCredentialsPolicy := policy
      isSameOriginRequest :=
        checker.isSameOriginRequest && isSameOrigin platform request.url checker.origin }

/-- `continueCheckingRequest`, which is all that `checkRequest` does in a build without content
extensions. -/
def continueCheckingRequest (request : ResourceRequest) (canSkipPreflight : Bool) :
    Option (NetworkLoadChecker × Outcome) :=
  (checker.classify platform request).bind fun checker =>
    if checker.doesNotNeedCORSCheck request.url then some (checker, .issue request)
    else if checker.options.mode = .sameOrigin then
      checker.origin.map fun origin =>
        (checker, .refuse
          { failingURL := checker.url
            localizedDescription :=
              lit "Unsafe attempt to load URL " ++
                request.url.stringCenterEllipsizedToLength 1024 ++ lit " from origin " ++
                origin.toString ++ lit ". Domains, protocols and ports must match.\n" })
    else if checker.redirectCount ≠ 0 then
      checker.checkCORSRedirectedRequest platform request canSkipPreflight
    else checker.checkCORSRequest platform request canSkipPreflight

def check (request : ResourceRequest) (canSkipPreflight : Bool) :
    Option (NetworkLoadChecker × Outcome) :=
  continueCheckingRequest platform
    { checker with firstRequestHeaders := request.httpHeaderFields } request canSkipPreflight

/-! ## Redirects -/

def deniedRedirection (redirectRequest : ResourceRequest) (reason : Str) : Str :=
  lit "Cross-origin redirection to " ++ redirectRequest.url.string ++
    lit " denied by Cross-Origin Resource Sharing policy: " ++ reason

/-- The refusal of a location in a redirect that leaves the origin. -/
def locationError (redirectRequest : ResourceRequest) (location : URL) : Option Str :=
  if (match checker.schemeRegistry with
      | none => false
      | some registry => !registry.shouldTreatURLSchemeAsCORSEnabled location.protocol) then
    some (deniedRedirection redirectRequest (lit ("not allowed to follow a cross-origin CORS " ++
      "redirection with non CORS scheme")))
  else if location.hasCredentials then
    some (deniedRedirection redirectRequest
      (lit "redirection URL " ++ location.string ++ lit " has credentials"))
  else none

/-- What `checkRedirection` does with a redirect response that has passed. -/
def followRedirection (request redirectRequest : ResourceRequest)
    (redirectResponse : ResourceResponse) (canSkipPreflight : Bool) :
    Option (NetworkLoadChecker × Outcome) :=
  let refuse (description : Str) : Outcome :=
    .refuse { failingURL := redirectResponse.url, localizedDescription := description }
  match checker.options.redirect with
  | .error =>
    some (checker, refuse
      (lit "Not allowed to follow a redirection while loading " ++ redirectResponse.url.string))
  | .manual => some (checker, .handOver)
  | .follow =>
    let location := platform.completeURL redirectResponse.url
      (redirectResponse.httpHeaderField .location)
    let leaves := checker.options.mode = .cors &&
      (!checker.isSameOriginRequest || !isSameOrigin platform request.url checker.origin)
    match (if leaves then checker.locationError redirectRequest location else none) with
    | some description => some (checker, refuse description)
    | none =>
      let checker := { checker with redirectCount := checker.redirectCount + 1 }
      if checker.redirectCount > 20 then
        some (checker, refuse (lit "Load cannot follow more than 20 redirections"))
      else
        continueCheckingRequest platform
          { checker with previousURL := checker.url, url := redirectRequest.url }
          redirectRequest canSkipPreflight

end NetworkLoadChecker

end PurcFetcher.Loader
