import PurcFetcher.Http.Parsers
import PurcFetcher.Loader.Origin

/-!
# Access control

Requests and responses as far as access control looks at them, and the checks of a
response against the origin that has made the request.
-/

namespace PurcFetcher.Loader

open Http Ipc Text

inductive StoredCredentialsPolicy
  | doNotUse
  | use
  | ephemeralStateless
deriving DecidableEq

structure ResourceRequest where
  url : URL
  httpMethod : Str
  httpHeaderFields : HTTPHeaderMap
  allowCookies : Bool

inductive ResponseType
  | basic
  | cors
  | default
  | error
  | opaqueResponse
  | opaqueredirect
deriving DecidableEq

inductive Tainting
  | basic
  | cors
  | opaqueResponse
  | opaqueredirect
deriving DecidableEq

structure ResourceResponse where
  url : URL
  httpStatusCode : ℤ
  httpHeaderFields : HTTPHeaderMap
  type : ResponseType
  tainting : Tainting
  isRedirected : Bool
  isRangeRequested : Bool

/-- `ResourceResponseBase::httpHeaderField`. -/
def ResourceResponse.httpHeaderField (response : ResourceResponse) (name : HTTPHeaderName) :
    Option Str :=
  contents (response.httpHeaderFields.getKnown name)

def ResourceResponse.isSuccessful (response : ResourceResponse) : Bool :=
  200 ≤ response.httpStatusCode && response.httpStatusCode < 300

/-- An error of the type `AccessControl`. -/
structure ResourceError where
  failingURL : URL
  localizedDescription : Str

/-- A text as a string.  Every text that the code makes fits. -/
def stringOf (text : Str) : StringValue :=
  if hbounded : text.length ≤ Ipc.maxLength then
    if text.all (· < 256) then
      .characters8 (characters8 text) (by rwa [characters8, List.length_map])
    else if hnonempty : text ≠ [] then .characters16 text hnonempty hbounded
    else .null
  else .null

theorem folded_stringOf {name : Str} (hbounded : name.length ≤ Ipc.maxLength) :
    folded (stringOf name) = some (convertToASCIILowercase name) := by
  rw [stringOf, dif_pos hbounded]
  split
  · next hsmall =>
    have hlatin1 : latin1 (characters8 name) = name := by
      refine latin1_characters8 fun char hchar => ?_
      exact UInt16.lt_iff_toNat_lt.1 (of_decide_eq_true (List.all_eq_true.1 hsmall char hchar))
    rw [folded, hlatin1]
  · grind [folded]

def updateRequestForAccessControl (platform : Platform) (request : ResourceRequest)
    (securityOrigin : SecurityOrigin) (storedCredentialsPolicy : StoredCredentialsPolicy) :
    ResourceRequest :=
  { request with
    url := if request.url.hasCredentials then platform.withoutCredentials request.url
      else request.url
    allowCookies := storedCredentialsPolicy = .use
    httpHeaderFields :=
      request.httpHeaderFields.setKnown .origin (stringOf securityOrigin.toString) }

/-- `passesAccessControlCheck`, where `checkDisabled` says that there is a disabler that has
disabled the check. -/
def passesAccessControlCheck (response : ResourceResponse)
    (storedCredentialsPolicy : StoredCredentialsPolicy) (securityOrigin : SecurityOrigin)
    (checkDisabled : Bool) : Except Str Unit :=
  let accessControlOriginString := response.httpHeaderField .accessControlAllowOrigin
  let starAllowed := storedCredentialsPolicy = .doNotUse || checkDisabled
  if accessControlOriginString = some (lit "*") && starAllowed then .ok ()
  else
    let securityOriginString := securityOrigin.toString
    if accessControlOriginString ≠ some securityOriginString then
      if accessControlOriginString = some (lit "*") then
        .error (lit ("Cannot use wildcard in Access-Control-Allow-Origin when credentials flag " ++
          "is true."))
      else if (accessControlOriginString.getD []).contains 0x2C then
        .error (lit "Access-Control-Allow-Origin cannot contain more than one origin.")
      else
        .error (lit "Origin " ++ securityOriginString ++
          lit " is not allowed by Access-Control-Allow-Origin.")
    else if storedCredentialsPolicy = .use &&
        response.httpHeaderField .accessControlAllowCredentials ≠ some (lit "true") then
      .error (lit ("Credentials flag is true, but Access-Control-Allow-Credentials is not " ++
        "\"true\"."))
    else .ok ()

/-- `shouldCrossOriginResourcePolicyCancelLoad` in a build without a list of public
suffixes. -/
def shouldCrossOriginResourcePolicyCancelLoad (platform : Platform) (origin : SecurityOrigin)
    (response : ResourceResponse) : Bool :=
  if origin.canRequest platform response.url then false
  else
    match parseCrossOriginResourcePolicyHeader
        ((response.httpHeaderField .crossOriginResourcePolicy).getD []) with
    | .sameOrigin => true
    | .sameSite =>
      origin.isUnique ||
        (origin.data.protocol == lit "http" && response.url.protocol == lit "https")
    | _ => false

def validateCrossOriginResourcePolicy (platform : Platform) (origin : SecurityOrigin)
    (requestURL : URL) (response : ResourceResponse) : Option ResourceError :=
  if shouldCrossOriginResourcePolicyCancelLoad platform origin response then
    some
      { failingURL := requestURL
        localizedDescription :=
          lit "Cancelled load to " ++ response.url.stringCenterEllipsizedToLength 1024 ++
            lit (" because it violates the resource's Cross-Origin-Resource-Policy response " ++
              "header.") }
  else none

/-! ## Sample requests and responses -/

namespace Sample

def platform : Platform :=
  { completeURL := fun base _ => base
    withoutCredentials := id
    extractInnerURL := id
    shouldTreatURLSchemeAsNoAccess := fun scheme => scheme == lit "data"
    shouldTreatURLSchemeAsLocal := fun _ => false
    isAccessAllowed := fun _ _ _ => false
    parsedMimeType := fun _ => none }

def urlOf (protocol host : Str) : URL :=
  { string := protocol ++ lit ":" ++ host
    isValid := true
    protocol := protocol
    protocolIsInHTTPFamily := protocol == lit "https"
    host := host
    port := none
    hasCredentials := false }

def site : URL := urlOf (lit "https") (lit "a")

def other : URL := urlOf (lit "https") (lit "b")

def data : URL := urlOf (lit "data") []

def origin : SecurityOrigin := .create platform site

def requestTo (url : URL) : ResourceRequest :=
  { url := url, httpMethod := lit "GET", httpHeaderFields := .empty, allowCookies := false }

def responseFrom (url : URL) (type : ResponseType) : ResourceResponse :=
  { url := url
    httpStatusCode := 200
    httpHeaderFields := .empty
    type := type
    tainting := .basic
    isRedirected := false
    isRangeRequested := false }

end Sample

end PurcFetcher.Loader
