import PurcFetcher.Http.CaseInsensitiveMap
import PurcFetcher.Loader.AccessControl

/-!
# Request headers that a response varies with

The network cache keeps, with a response, the values which the request had for the headers
that `Vary` names, and serves the response to a later request with the same values.  Cookies
are added by the networking layer, and their value is asked from the storage session or from
the cookie jar.

Header fields are found by names without case, but the question whether a name is `Cookie` is
answered with case.  Under another spelling the value is that of the header field of the
request, which the networking layer has not set.
-/

namespace PurcFetcher.Loader.Varying

open Http Text

/-! ## Requests and cookies -/

structure ResourceRequest where
  url : URL
  firstPartyForCookies : URL
  isSameSite : Bool
  isTopSite : Bool
  httpMethod : Str
  httpHeaderFields : HTTPHeaderMap

def ResourceRequest.httpHeaderField (request : ResourceRequest) (name : Str) : Option Str :=
  contents (request.httpHeaderFields.get (stringOf name))

def isSafeMethod (method : Str) : Bool :=
  equalIgnoringASCIICase method (lit "GET") || equalIgnoringASCIICase method (lit "HEAD") ||
    equalIgnoringASCIICase method (lit "OPTIONS") || equalIgnoringASCIICase method (lit "TRACE")

structure SameSiteInfo where
  isSameSite : Bool
  isTopSite : Bool
  isSafeHTTPMethod : Bool

def SameSiteInfo.create (request : ResourceRequest) : SameSiteInfo where
  isSameSite := request.isSameSite
  isTopSite := request.isTopSite
  isSafeHTTPMethod := isSafeMethod request.httpMethod

/-- What a storage session or a cookie jar is asked for. -/
structure CookieQuery where
  firstParty : URL
  sameSiteInfo : SameSiteInfo
  url : URL
  includeSecureCookies : Bool

/-- A storage session or a cookie jar, by the answers that it gives at one time. -/
abbrev Cookies := CookieQuery → Option Str

/-- `cookieRequestHeaderFieldValue` of a storage session. -/
def cookieRequestHeaderFieldValue (session : Cookies) (request : ResourceRequest) : Option Str :=
  session
    { firstParty := request.firstPartyForCookies
      sameSiteInfo := .create request
      url := request.url
      includeSecureCookies := request.url.protocolIs (lit "https") }

/-- `cookieRequestHeaderFieldValue` of a pointer to a cookie jar. -/
def cookieRequestHeaderFieldValueFromJar (cookieJar : Option Cookies)
    (request : ResourceRequest) : Option Str :=
  match cookieJar with
  | none => none
  | some cookieJar => cookieRequestHeaderFieldValue cookieJar request

/-! ## Collecting and verifying -/

def headerValueForVary (request : ResourceRequest) (headerName : Str)
    (cookieRequestHeaderFieldValue : Option Str) : Option Str :=
  if headerName == lit "Cookie" then cookieRequestHeaderFieldValue
  else request.httpHeaderField headerName

/-- The header fields of a response are all that is looked at. -/
def collectVaryingRequestHeadersInternal (response : HTTPHeaderMap)
    (headerValueForVary : Str → Option Str) : List (Str × Option Str) :=
  match contents (response.getKnown .vary) with
  | none => []
  | some varyValue =>
    if varyValue.isEmpty then []
    else
      (split varyValue 0x2C).map fun varyHeaderName =>
        let headerName := stripWhiteSpace varyHeaderName
        (headerName, headerValueForVary headerName)

def collectVaryingRequestHeaders (storageSession : Option Cookies) (request : ResourceRequest)
    (response : HTTPHeaderMap) : List (Str × Option Str) :=
  match storageSession with
  | none => []
  | some storageSession =>
    collectVaryingRequestHeadersInternal response fun headerName =>
      headerValueForVary request headerName (cookieRequestHeaderFieldValue storageSession request)

def collectVaryingRequestHeadersFromJar (cookieJar : Option Cookies) (request : ResourceRequest)
    (response : HTTPHeaderMap) : List (Str × Option Str) :=
  collectVaryingRequestHeadersInternal response fun headerName =>
    headerValueForVary request headerName (cookieRequestHeaderFieldValueFromJar cookieJar request)

def verifyVaryingRequestHeadersInternal (varyingRequestHeaders : List (Str × Option Str))
    (headerValueForVary : Str → Option Str) : Bool :=
  varyingRequestHeaders.all fun varyingRequestHeader =>
    if varyingRequestHeader.1 == lit "*" then false
    else headerValueForVary varyingRequestHeader.1 == varyingRequestHeader.2

def verifyVaryingRequestHeaders (storageSession : Option Cookies)
    (varyingRequestHeaders : List (Str × Option Str)) (request : ResourceRequest) : Bool :=
  match storageSession with
  | none => false
  | some storageSession =>
    verifyVaryingRequestHeadersInternal varyingRequestHeaders fun headerName =>
      headerValueForVary request headerName (cookieRequestHeaderFieldValue storageSession request)

def verifyVaryingRequestHeadersFromJar (cookieJar : Option Cookies)
    (varyingRequestHeaders : List (Str × Option Str)) (request : ResourceRequest) : Bool :=
  verifyVaryingRequestHeadersInternal varyingRequestHeaders fun headerName =>
    headerValueForVary request headerName (cookieRequestHeaderFieldValueFromJar cookieJar request)

/-! ## What a response varies with -/

/-- The names that `Vary` lists. -/
def varyingNames (response : HTTPHeaderMap) : List Str :=
  ((contents (response.getKnown .vary)).elim [] (split · 0x2C)).map stripWhiteSpace

/-- The header `Cookie`, under any spelling. -/
def IsCookie (name : Str) : Prop := equalIgnoringASCIICase name (lit "Cookie") = true

instance (name : Str) : Decidable (IsCookie name) := inferInstanceAs (Decidable (_ = _))

/-- The value that the networking layer sends for a header. -/
def sentValue (cookies : Cookies) (request : ResourceRequest) (name : Str) : Option Str :=
  if IsCookie name then cookieRequestHeaderFieldValue cookies request
  else request.httpHeaderField name

/-- The response to the stored request may be served to the later one. -/
def MayServe (response : HTTPHeaderMap) (storedCookies : Cookies) (stored : ResourceRequest)
    (cookies : Cookies) (request : ResourceRequest) : Prop :=
  ∀ name ∈ varyingNames response,
    name ≠ lit "*" ∧ sentValue cookies request name = sentValue storedCookies stored name

instance (response : HTTPHeaderMap) (storedCookies : Cookies) (stored : ResourceRequest)
    (cookies : Cookies) (request : ResourceRequest) :
    Decidable (MayServe response storedCookies stored cookies request) :=
  inferInstanceAs (Decidable (∀ name ∈ varyingNames response, _ ∧ _))

/-- Collecting and verifying decide whether the response may be served, with a storage session
and with a cookie jar. -/
def VerifiesWhatVaries (response : HTTPHeaderMap) : Prop :=
  ∀ (storedCookies : Cookies) (stored : ResourceRequest) (cookies : Cookies)
    (request : ResourceRequest),
    (verifyVaryingRequestHeaders (some cookies)
          (collectVaryingRequestHeaders (some storedCookies) stored response) request = true ↔
        MayServe response storedCookies stored cookies request) ∧
      (verifyVaryingRequestHeadersFromJar (some cookies)
          (collectVaryingRequestHeadersFromJar (some storedCookies) stored response) request =
            true ↔
        MayServe response storedCookies stored cookies request)

variable (response : HTTPHeaderMap)

theorem collectInternal_eq (headerValueForVary : Str → Option Str) :
    collectVaryingRequestHeadersInternal response headerValueForVary =
      (varyingNames response).map fun name => (name, headerValueForVary name) := by
  rw [collectVaryingRequestHeadersInternal, varyingNames, List.map_map]
  cases contents (response.getKnown .vary) with
  | none => rfl
  | some varyValue => cases varyValue <;> rfl

theorem verify_collect (storedCookies : Cookies) (stored : ResourceRequest) (cookies : Cookies)
    (request : ResourceRequest) :
    verifyVaryingRequestHeaders (some cookies)
        (collectVaryingRequestHeaders (some storedCookies) stored response) request = true ↔
      ∀ name ∈ varyingNames response, name ≠ lit "*" ∧
        headerValueForVary request name (cookieRequestHeaderFieldValue cookies request) =
          headerValueForVary stored name (cookieRequestHeaderFieldValue storedCookies stored) := by
  dsimp only [verifyVaryingRequestHeaders, collectVaryingRequestHeaders]
  rw [collectInternal_eq, verifyVaryingRequestHeadersInternal, List.all_map, List.all_eq_true]
  apply forall₂_congr
  intro name _
  by_cases hstar : name = lit "*" <;> simp [hstar]

variable {name : Str}

theorem headerValueForVary_eq (hspelled : IsCookie name → name = lit "Cookie") (cookies : Cookies)
    (request : ResourceRequest) :
    headerValueForVary request name (cookieRequestHeaderFieldValue cookies request) =
      sentValue cookies request name := by
  rw [headerValueForVary, sentValue]
  by_cases hcookie : IsCookie name
  · rw [if_pos hcookie, hspelled hcookie, beq_self_eq_true, if_pos rfl]
  · have hne : name ≠ lit "Cookie" := by
      rintro rfl
      exact hcookie rfl
    rw [if_neg hcookie, beq_eq_false_iff_ne.2 hne, if_neg Bool.false_ne_true]

theorem length_le_of_mem_varyingNames {response : HTTPHeaderMap}
    (hname : name ∈ varyingNames response) : name.length ≤ Ipc.maxLength := by
  obtain ⟨view, hview, rfl⟩ := List.mem_map.1 hname
  cases hval : contents (response.getKnown .vary) with
  | none =>
    rw [hval] at hview
    exact absurd hview List.not_mem_nil
  | some val =>
    rw [hval] at hview
    calc (stripWhiteSpace view).length
        ≤ view.length := length_stripMatchedCharacters_le _ view
      _ ≤ val.length := length_le_of_mem_split hview
      _ ≤ Ipc.maxLength := length_le_of_contents hval

/-- A request with one header field, which is absent where the value is null. -/
def requestWithField (name : Str) (value : Ipc.StringValue) : ResourceRequest where
  url := ⟨[], false, [], false, [], none, false⟩
  firstPartyForCookies := ⟨[], false, [], false, [], none, false⟩
  isSameSite := false
  isTopSite := false
  httpMethod := lit "GET"
  httpHeaderFields := HTTPHeaderMap.empty.set (stringOf name) value

theorem httpHeaderField_requestWithField (name : Str) (val : Ipc.StringValue) :
    (requestWithField name val).httpHeaderField name = contents val :=
  congrArg contents (HTTPHeaderMap.get_set_self HTTPHeaderMap.empty (stringOf name) val)

theorem httpHeaderField_requestWithField_ne {other : Str} (hname : name.length ≤ Ipc.maxLength)
    (hother : other.length ≤ Ipc.maxLength)
    (hne : convertToASCIILowercase name ≠ convertToASCIILowercase other) (val : Ipc.StringValue) :
    (requestWithField name val).httpHeaderField other =
      contents (HTTPHeaderMap.empty.get (stringOf other)) := by
  apply congrArg contents
  apply HTTPHeaderMap.get_set_ne
  rw [folded_stringOf hname, folded_stringOf hother]
  exact fun hsame => hne (Option.some.inj hsame)

/-- Without cookies the header fields of the two requests count only under other names. -/
theorem mayServe_requestWithField {response : HTTPHeaderMap}
    (hstar : lit "*" ∉ varyingNames response) (hname : name ∈ varyingNames response)
    (hcookie : IsCookie name) (storedVal val : Ipc.StringValue) :
    MayServe response (fun _ => none) (requestWithField name storedVal) (fun _ => none)
      (requestWithField name val) := by
  intro other hother
  have hnotStar : other ≠ lit "*" := fun heq => hstar (heq ▸ hother)
  refine ⟨hnotStar, ?_⟩
  rw [sentValue, sentValue]
  by_cases hotherCookie : IsCookie other
  · rw [if_pos hotherCookie, if_pos hotherCookie]
    rfl
  · have hne : convertToASCIILowercase name ≠ convertToASCIILowercase other := by
      intro hsame
      apply hotherCookie
      rwa [IsCookie, equalIgnoringASCIICase, ← hsame]
    have hbounded := length_le_of_mem_varyingNames hname
    have hotherBounded := length_le_of_mem_varyingNames hother
    rw [if_neg hotherCookie, if_neg hotherCookie,
      httpHeaderField_requestWithField_ne hbounded hotherBounded hne,
      httpHeaderField_requestWithField_ne hbounded hotherBounded hne]

/-- What is verified is what the response varies with, exactly for the responses which are
served to no later request or name cookies in the spelling of the table only. -/
theorem verifiesWhatVaries_iff (response : HTTPHeaderMap) :
    VerifiesWhatVaries response ↔
      lit "*" ∈ varyingNames response ∨
        ∀ name ∈ varyingNames response, IsCookie name → name = lit "Cookie" := by
  constructor
  · intro hverifies
    rw [or_iff_not_imp_left]
    intro hstar name hname hcookie
    by_contra hspelled
    -- One of the requests has a header field under the other spelling.
    let value : Ipc.StringValue := .characters8 [] (Nat.zero_le _)
    have hserved := (hverifies (fun _ => none) (requestWithField name value) (fun _ => none)
      (requestWithField name .null)).1.2 (mayServe_requestWithField hstar hname hcookie _ _)
    have hvalues := ((verify_collect response _ _ _ _).1 hserved name hname).2
    simp only [headerValueForVary, beq_eq_false_iff_ne.2 hspelled, Bool.false_eq_true, if_false,
      httpHeaderField_requestWithField] at hvalues
    exact Option.some_ne_none _ hvalues.symm
  · intro hnames storedCookies stored cookies request
    have hagrees : (∀ name ∈ varyingNames response, name ≠ lit "*" ∧
          headerValueForVary request name (cookieRequestHeaderFieldValue cookies request) =
            headerValueForVary stored name (cookieRequestHeaderFieldValue storedCookies stored)) ↔
        MayServe response storedCookies stored cookies request := by
      rcases hnames with hstar | hspelled
      · exact ⟨fun hall => absurd rfl (hall _ hstar).1, fun hall => absurd rfl (hall _ hstar).1⟩
      · apply forall₂_congr
        intro name hname
        rw [headerValueForVary_eq (hspelled name hname),
          headerValueForVary_eq (hspelled name hname)]
    constructor
    · exact (verify_collect response storedCookies stored cookies request).trans hagrees
    · exact (verify_collect response storedCookies stored cookies request).trans hagrees

def headersVaryingWith (value : Str) : HTTPHeaderMap :=
  { commonHeaders := [(.vary, stringOf value)], uncommonHeaders := [] }

/-- A response to a request with cookies is served, under `Vary: cookie`, to a request with
other cookies. -/
theorem other_cookies_served :
    let response := headersVaryingWith (lit "cookie")
    let request := requestWithField (lit "Accept") .null
    varyingNames response = [lit "cookie"] ∧
      verifyVaryingRequestHeaders (some fun _ => some (lit "user=b"))
        (collectVaryingRequestHeaders (some fun _ => some (lit "user=a")) request response)
        request = true ∧
      ¬ MayServe response (fun _ => some (lit "user=a")) request
        (fun _ => some (lit "user=b")) request := by
  decide +kernel

end PurcFetcher.Loader.Varying
