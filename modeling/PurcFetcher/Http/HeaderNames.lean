import PurcFetcher.Ipc.ArgumentCoders
import PurcFetcher.Wtf.Text

/-!
# Names of HTTP headers

The known headers have an enumeration and a table of names.  A name is looked up in a
perfect hash table that `gperf` has made: the hash of a name adds one number for each of
its characters, which is the same for both cases of a letter, and the name that is found
under the hash is compared without case.

The table is right: a name is found exactly if it is a known name in some mixture of
cases, for strings with 8-bit and with 16-bit characters.
-/

namespace PurcFetcher.Http

open Ipc Text List

inductive HTTPHeaderName
  | accept
  | acceptCharset
  | acceptEncoding
  | acceptLanguage
  | acceptRanges
  | accessControlAllowCredentials
  | accessControlAllowHeaders
  | accessControlAllowMethods
  | accessControlAllowOrigin
  | accessControlExposeHeaders
  | accessControlMaxAge
  | accessControlRequestHeaders
  | accessControlRequestMethod
  | age
  | authorization
  | cacheControl
  | connection
  | contentDisposition
  | contentEncoding
  | contentLanguage
  | contentLength
  | contentLocation
  | contentRange
  | contentSecurityPolicy
  | contentSecurityPolicyReportOnly
  | contentType
  | cookie
  | cookie2
  | crossOriginResourcePolicy
  | dnt
  | date
  | defaultStyle
  | eTag
  | expect
  | expires
  | host
  | icyMetaInt
  | icyMetadata
  | ifMatch
  | ifModifiedSince
  | ifNoneMatch
  | ifRange
  | ifUnmodifiedSince
  | keepAlive
  | lastEventId
  | lastModified
  | link
  | location
  | origin
  | pingFrom
  | pingTo
  | pragma
  | proxyAuthorization
  | purpose
  | range
  | referer
  | referrerPolicy
  | refresh
  | secWebSocketAccept
  | secWebSocketExtensions
  | secWebSocketKey
  | secWebSocketProtocol
  | secWebSocketVersion
  | serverTiming
  | serviceWorker
  | serviceWorkerAllowed
  | setCookie
  | setCookie2
  | sourceMap
  | te
  | timingAllowOrigin
  | trailer
  | transferEncoding
  | upgrade
  | upgradeInsecureRequests
  | userAgent
  | vary
  | via
  | xContentTypeOptions
  | xDnsPrefetchControl
  | xFrameOptions
  | xSourceMap
  | xTempTablet
  | xXssProtection
  deriving DecidableEq

namespace HTTPHeaderName

def all : List HTTPHeaderName :=
  [.accept, .acceptCharset, .acceptEncoding, .acceptLanguage, .acceptRanges,
   .accessControlAllowCredentials, .accessControlAllowHeaders, .accessControlAllowMethods,
   .accessControlAllowOrigin, .accessControlExposeHeaders, .accessControlMaxAge,
   .accessControlRequestHeaders, .accessControlRequestMethod, .age, .authorization,
   .cacheControl, .connection, .contentDisposition, .contentEncoding, .contentLanguage,
   .contentLength, .contentLocation, .contentRange, .contentSecurityPolicy,
   .contentSecurityPolicyReportOnly, .contentType, .cookie, .cookie2,
   .crossOriginResourcePolicy, .dnt, .date, .defaultStyle, .eTag, .expect, .expires, .host,
   .icyMetaInt, .icyMetadata, .ifMatch, .ifModifiedSince, .ifNoneMatch, .ifRange,
   .ifUnmodifiedSince, .keepAlive, .lastEventId, .lastModified, .link, .location, .origin,
   .pingFrom, .pingTo, .pragma, .proxyAuthorization, .purpose, .range, .referer,
   .referrerPolicy, .refresh, .secWebSocketAccept, .secWebSocketExtensions, .secWebSocketKey,
   .secWebSocketProtocol, .secWebSocketVersion, .serverTiming, .serviceWorker,
   .serviceWorkerAllowed, .setCookie, .setCookie2, .sourceMap, .te, .timingAllowOrigin,
   .trailer, .transferEncoding, .upgrade, .upgradeInsecureRequests, .userAgent, .vary, .via,
   .xContentTypeOptions, .xDnsPrefetchControl, .xFrameOptions, .xSourceMap, .xTempTablet,
   .xXssProtection]

def text : HTTPHeaderName → String
  | .accept => "Accept"
  | .acceptCharset => "Accept-Charset"
  | .acceptEncoding => "Accept-Encoding"
  | .acceptLanguage => "Accept-Language"
  | .acceptRanges => "Accept-Ranges"
  | .accessControlAllowCredentials => "Access-Control-Allow-Credentials"
  | .accessControlAllowHeaders => "Access-Control-Allow-Headers"
  | .accessControlAllowMethods => "Access-Control-Allow-Methods"
  | .accessControlAllowOrigin => "Access-Control-Allow-Origin"
  | .accessControlExposeHeaders => "Access-Control-Expose-Headers"
  | .accessControlMaxAge => "Access-Control-Max-Age"
  | .accessControlRequestHeaders => "Access-Control-Request-Headers"
  | .accessControlRequestMethod => "Access-Control-Request-Method"
  | .age => "Age"
  | .authorization => "Authorization"
  | .cacheControl => "Cache-Control"
  | .connection => "Connection"
  | .contentDisposition => "Content-Disposition"
  | .contentEncoding => "Content-Encoding"
  | .contentLanguage => "Content-Language"
  | .contentLength => "Content-Length"
  | .contentLocation => "Content-Location"
  | .contentRange => "Content-Range"
  | .contentSecurityPolicy => "Content-Security-Policy"
  | .contentSecurityPolicyReportOnly => "Content-Security-Policy-Report-Only"
  | .contentType => "Content-Type"
  | .cookie => "Cookie"
  | .cookie2 => "Cookie2"
  | .crossOriginResourcePolicy => "Cross-Origin-Resource-Policy"
  | .dnt => "DNT"
  | .date => "Date"
  | .defaultStyle => "Default-Style"
  | .eTag => "ETag"
  | .expect => "Expect"
  | .expires => "Expires"
  | .host => "Host"
  | .icyMetaInt => "Icy-MetaInt"
  | .icyMetadata => "Icy-Metadata"
  | .ifMatch => "If-Match"
  | .ifModifiedSince => "If-Modified-Since"
  | .ifNoneMatch => "If-None-Match"
  | .ifRange => "If-Range"
  | .ifUnmodifiedSince => "If-Unmodified-Since"
  | .keepAlive => "Keep-Alive"
  | .lastEventId => "Last-Event-ID"
  | .lastModified => "Last-Modified"
  | .link => "Link"
  | .location => "Location"
  | .origin => "Origin"
  | .pingFrom => "Ping-From"
  | .pingTo => "Ping-To"
  | .pragma => "Pragma"
  | .proxyAuthorization => "Proxy-Authorization"
  | .purpose => "Purpose"
  | .range => "Range"
  | .referer => "Referer"
  | .referrerPolicy => "Referrer-Policy"
  | .refresh => "Refresh"
  | .secWebSocketAccept => "Sec-WebSocket-Accept"
  | .secWebSocketExtensions => "Sec-WebSocket-Extensions"
  | .secWebSocketKey => "Sec-WebSocket-Key"
  | .secWebSocketProtocol => "Sec-WebSocket-Protocol"
  | .secWebSocketVersion => "Sec-WebSocket-Version"
  | .serverTiming => "Server-Timing"
  | .serviceWorker => "Service-Worker"
  | .serviceWorkerAllowed => "Service-Worker-Allowed"
  | .setCookie => "Set-Cookie"
  | .setCookie2 => "Set-Cookie2"
  | .sourceMap => "SourceMap"
  | .te => "TE"
  | .timingAllowOrigin => "Timing-Allow-Origin"
  | .trailer => "Trailer"
  | .transferEncoding => "Transfer-Encoding"
  | .upgrade => "Upgrade"
  | .upgradeInsecureRequests => "Upgrade-Insecure-Requests"
  | .userAgent => "User-Agent"
  | .vary => "Vary"
  | .via => "Via"
  | .xContentTypeOptions => "X-Content-Type-Options"
  | .xDnsPrefetchControl => "X-DNS-Prefetch-Control"
  | .xFrameOptions => "X-Frame-Options"
  | .xSourceMap => "X-SourceMap"
  | .xTempTablet => "X-Temp-Tablet"
  | .xXssProtection => "X-XSS-Protection"

def index (header : HTTPHeaderName) : ℕ := all.idxOf header

theorem mem_all (header : HTTPHeaderName) : header ∈ all := by
  cases header <;> decide

end HTTPHeaderName

/-- `httpHeaderNameString`, the characters of a name in `headerNameStrings`. -/
def httpHeaderNameString (header : HTTPHeaderName) : List LChar :=
  characters8 (lit header.text)

/-! ## The hash table -/

/-- The values of the letters in `asso_values`. -/
def letterValues : List ℕ :=
  [10, 0, 5, 10, 20, 70, 0, 4, 0, 511, 4, 55, 80, 5, 0, 50, 10, 5, 0, 5, 55, 165, 20, 135, 40, 0]

/-- `asso_values`: all but the letters, the hyphen and the digit 2 have the value 511. -/
def assoValues : List ℕ :=
  replicate 45 511 ++ 0 :: replicate 4 511 ++ 5 :: replicate 14 511 ++ letterValues ++
    replicate 6 511 ++ letterValues ++ replicate 133 511

/-- `lookup`, whose numbers are a `signed char`: 255 is -1. -/
def lookupTable : List ℕ :=
  [255, 255, 255, 255, 255, 255, 255, 255, 255, 0, 1, 255, 255, 255, 255, 255, 255, 255, 255,
   255, 2, 255, 255, 255, 255, 3, 255, 255, 255, 4, 5, 255, 255, 255, 6, 7, 255, 255, 255,
   255, 8, 255, 255, 255, 255, 9, 255, 255, 255, 255, 10, 255, 255, 255, 11, 255, 255, 255,
   255, 12, 13, 255, 255, 255, 14, 255, 255, 255, 255, 255, 255, 255, 255, 255, 255, 255, 255,
   255, 255, 255, 15, 255, 255, 255, 255, 16, 255, 255, 255, 255, 17, 255, 255, 255, 255, 18,
   255, 255, 255, 19, 20, 255, 255, 255, 255, 255, 255, 255, 255, 255, 21, 255, 255, 255, 255,
   22, 255, 255, 255, 23, 24, 255, 255, 255, 25, 26, 255, 255, 255, 255, 255, 255, 255, 255,
   27, 28, 255, 255, 255, 255, 29, 255, 255, 255, 30, 31, 255, 255, 255, 255, 32, 255, 255,
   255, 255, 33, 255, 255, 255, 255, 34, 255, 255, 35, 255, 36, 255, 255, 255, 255, 37, 255,
   255, 255, 38, 39, 255, 255, 255, 255, 40, 255, 255, 255, 255, 255, 255, 255, 255, 255, 255,
   255, 255, 255, 41, 42, 255, 255, 255, 255, 43, 255, 255, 255, 44, 255, 255, 255, 255, 255,
   45, 255, 255, 255, 255, 255, 255, 255, 255, 46, 47, 255, 255, 255, 255, 48, 255, 255, 255,
   255, 49, 255, 255, 255, 255, 50, 255, 255, 255, 255, 51, 255, 255, 255, 255, 255, 255, 255,
   255, 255, 52, 255, 255, 255, 255, 255, 255, 255, 255, 255, 53, 255, 255, 255, 255, 54, 255,
   255, 255, 55, 255, 255, 255, 255, 255, 255, 255, 255, 255, 255, 56, 255, 255, 255, 255,
   255, 255, 255, 255, 57, 58, 255, 255, 255, 59, 60, 255, 255, 255, 61, 62, 255, 255, 255,
   255, 63, 255, 255, 255, 255, 255, 255, 255, 255, 255, 255, 255, 255, 255, 255, 255, 255,
   255, 255, 64, 65, 255, 255, 255, 66, 255, 255, 255, 255, 255, 255, 255, 255, 255, 255, 255,
   255, 255, 255, 67, 68, 255, 255, 255, 69, 70, 255, 255, 255, 255, 71, 255, 255, 255, 255,
   72, 255, 255, 255, 255, 73, 255, 255, 255, 255, 74, 255, 255, 255, 75, 76, 255, 255, 255,
   255, 77, 255, 255, 255, 255, 78, 255, 255, 255, 255, 79, 255, 255, 255, 255, 255, 255, 255,
   255, 255, 255, 255, 255, 255, 80, 255, 255, 255, 255, 81, 255, 255, 255, 255, 255, 255,
   255, 255, 255, 255, 255, 255, 255, 255, 255, 255, 255, 255, 255, 255, 255, 255, 255, 255,
   255, 255, 255, 255, 255, 82, 255, 255, 255, 255, 255, 255, 255, 255, 255, 255, 255, 255,
   255, 255, 255, 255, 255, 255, 255, 255, 255, 255, 255, 255, 255, 255, 255, 255, 255, 255,
   255, 255, 255, 255, 255, 255, 255, 255, 255, 255, 255, 255, 255, 255, 255, 255, 255, 255,
   255, 255, 255, 255, 255, 255, 255, 255, 255, 255, 255, 255, 255, 255, 255, 255, 255, 255,
   255, 255, 255, 255, 83]

/-- The header names of `header_name_wordlist`. -/
def wordlist : List HTTPHeaderName :=
  [.host, .origin, .dnt, .te, .cookie, .age, .cookie2, .eTag, .range, .date, .connection,
   .setCookie, .setCookie2, .pingTo, .link, .location, .contentRange, .contentEncoding,
   .accept, .authorization, .trailer, .ifRange, .contentDisposition, .cacheControl,
   .userAgent, .refresh, .contentLocation, .contentLength, .acceptRanges, .acceptEncoding,
   .acceptCharset, .referer, .upgrade, .pragma, .contentType, .secWebSocketKey,
   .transferEncoding, .icyMetaInt, .ifMatch, .via, .purpose, .secWebSocketAccept,
   .icyMetadata, .contentLanguage, .ifNoneMatch, .pingFrom, .secWebSocketProtocol, .vary,
   .sourceMap, .expires, .expect, .timingAllowOrigin, .acceptLanguage, .lastModified,
   .accessControlAllowOrigin, .serviceWorker, .crossOriginResourcePolicy,
   .secWebSocketExtensions, .ifModifiedSince, .secWebSocketVersion, .lastEventId,
   .accessControlRequestHeaders, .referrerPolicy, .serverTiming, .accessControlAllowHeaders,
   .contentSecurityPolicy, .proxyAuthorization, .keepAlive, .defaultStyle,
   .accessControlRequestMethod, .ifUnmodifiedSince, .xContentTypeOptions, .xSourceMap,
   .xXssProtection, .accessControlMaxAge, .accessControlAllowMethods,
   .upgradeInsecureRequests, .xFrameOptions, .xTempTablet, .accessControlAllowCredentials,
   .xDnsPrefetchControl, .accessControlExposeHeaders, .serviceWorkerAllowed,
   .contentSecurityPolicyReportOnly]

/-- `gperf_downcase`. -/
def gperfDowncase (char : LChar) : LChar :=
  if 65 ≤ char ∧ char ≤ 90 then char + 32 else char

/-- Whether `gperf_case_strncmp` gives zero for the length of the first string.  A NUL
follows the characters of the second one. -/
def gperfCaseStrncmp : List LChar → List LChar → Bool
  | [], _ => true
  | char :: str, name =>
    let c1 := gperfDowncase char
    let c2 := gperfDowncase (name.headD 0)
    if c1 ≠ 0 ∧ c1 = c2 then gperfCaseStrncmp str name.tail else c1 = c2

/-- `header_name_hash_function`, whose `switch` adds the values of all characters. -/
def headerNameHashFunction (str : List LChar) : ℕ :=
  (str.map fun char => assoValues.getD char.toNat 0).sum

/-- The entry of the word list that a name can be. -/
def candidate (str : List LChar) : Option HTTPHeaderName :=
  if str.length ≤ 35 ∧ 2 ≤ str.length then
    let key := headerNameHashFunction str
    if key ≤ 510 then
      let index := lookupTable.getD key 255
      if index < 128 then wordlist[index]? else none
    else none
  else none

def findHeaderNameImpl (str : List LChar) : Option HTTPHeaderName :=
  match candidate str with
  | none => none
  | some header =>
    let name := httpHeaderNameString header
    if (str.headD 0 ^^^ name.headD 0) &&& ~~~32 = 0 ∧ gperfCaseStrncmp str name ∧
        name.getD str.length 0 = 0 then
      some header
    else none

/-! ## Strings in two widths -/

def units : StringValue → Str
  | .null => []
  | .characters8 characters _ => latin1 characters
  | .characters16 characters _ _ => characters

/-- Two strings are equal ignoring ASCII case if these are equal.  The null string is equal
to itself only. -/
def folded : StringValue → Option Str
  | .null => none
  | .characters8 characters _ => some (convertToASCIILowercase (latin1 characters))
  | .characters16 characters _ _ => some (convertToASCIILowercase characters)

/-- `findHTTPHeaderName`. -/
def findHTTPHeaderName : StringValue → Option HTTPHeaderName
  | .null => none
  | .characters8 characters _ =>
    if characters.length > 35 ∨ characters.length < 2 then none
    else findHeaderNameImpl characters
  | .characters16 characters _ _ =>
    if characters.length > 35 ∨ characters.length < 2 then none
    else if characters.all (· < 128) then findHeaderNameImpl (characters8 characters)
    else none

def knownName (header : HTTPHeaderName) : Option Str :=
  some (convertToASCIILowercase (latin1 (httpHeaderNameString header)))

/-! ## The table is right -/

theorem candidate_httpHeaderNameString (header : HTTPHeaderName) :
    candidate (httpHeaderNameString header) = some header := by
  have hall : ∀ header ∈ HTTPHeaderName.all,
      candidate (httpHeaderNameString header) = some header := by
    decide +kernel
  exact hall header header.mem_all

theorem forall_lchar {property : LChar → Prop}
    (hall : ∀ val < 256, property (.ofNat val)) (char : LChar) : property char := by
  have hchar := hall char.toNat char.toNat_lt
  rwa [UInt8.ofNat_toNat] at hchar

variable (char : LChar)

theorem assoValues_gperfDowncase :
    assoValues.getD (gperfDowncase char).toNat 0 = assoValues.getD char.toNat 0 := by
  have hletters : ∀ idx < 26, assoValues.getD (97 + idx) 0 = assoValues.getD (65 + idx) 0 := by
    decide +kernel
  rw [gperfDowncase]
  split
  · next hupper =>
    have hlow : 65 ≤ char.toNat := UInt8.le_iff_toNat_le.1 hupper.1
    have hhigh : char.toNat ≤ 90 := UInt8.le_iff_toNat_le.1 hupper.2
    have hlower : (char + 32).toNat = char.toNat + 32 := by
      exact Nat.mod_eq_of_lt (by change char.toNat + 32 < 256; omega)
    have hletter := hletters (char.toNat - 65) (by omega)
    rwa [show 97 + (char.toNat - 65) = char.toNat + 32 by omega,
      show 65 + (char.toNat - 65) = char.toNat by omega, ← hlower] at hletter
  · rfl

theorem headerNameHashFunction_gperfDowncase (str : List LChar) :
    headerNameHashFunction (str.map gperfDowncase) = headerNameHashFunction str := by
  rw [headerNameHashFunction, map_map, headerNameHashFunction]
  congr 1
  exact map_congr_left fun char _ => assoValues_gperfDowncase char

theorem candidate_gperfDowncase (str : List LChar) :
    candidate (str.map gperfDowncase) = candidate str := by
  rw [candidate, candidate, headerNameHashFunction_gperfDowncase, length_map]

variable {header : HTTPHeaderName} {str : List LChar}

theorem assoValues_of_candidate (hcandidate : candidate str = some header) :
    ∀ char ∈ str, assoValues.getD char.toNat 0 ≤ 510 := by
  obtain ⟨-, hcandidate⟩ := Option.ite_none_right_eq_some.1 hcandidate
  obtain ⟨hkey, -⟩ := Option.ite_none_right_eq_some.1 hcandidate
  intro char hchar
  have hval : assoValues.getD char.toNat 0 ≤ headerNameHashFunction str :=
    single_le_sum (fun _ _ => Nat.zero_le _) _ (mem_map_of_mem hchar)
  exact hval.trans hkey

theorem gperfDowncase_of_assoValues :
    assoValues.getD char.toNat 0 ≤ 510 → gperfDowncase char ≠ 0 ∧ gperfDowncase char < 128 := by
  revert char
  exact forall_lchar (by decide +kernel)

theorem gperfCaseStrncmp_iff {name : List LChar} (hstr : ∀ char ∈ str, gperfDowncase char ≠ 0)
    (hname : ∀ char ∈ name, gperfDowncase char ≠ 0) :
    (gperfCaseStrncmp str name ∧ name.getD str.length 0 = 0) ↔
      str.map gperfDowncase = name.map gperfDowncase := by
  induction str generalizing name with
  | nil =>
    cases name with
    | nil => simp [gperfCaseStrncmp]
    | cons char =>
      have hchar : char ≠ 0 := by
        rintro rfl
        exact hname 0 mem_cons_self rfl
      simp [gperfCaseStrncmp, hchar]
  | cons char str ih =>
    have hchar := hstr char mem_cons_self
    have hrest : ∀ other ∈ str, gperfDowncase other ≠ 0 :=
      fun other hother => hstr other (mem_cons_of_mem _ hother)
    cases name with
    | nil =>
      have hnul : gperfDowncase 0 = 0 := rfl
      simp [gperfCaseStrncmp, hnul, hchar]
    | cons first =>
      have hothers := ih hrest fun other hother => hname other (mem_cons_of_mem _ hother)
      by_cases hfirst : gperfDowncase char = gperfDowncase first
      · grind [gperfCaseStrncmp]
      · simp [gperfCaseStrncmp, hfirst]

theorem gperfDowncase_and : gperfDowncase char &&& ~~~32 = char &&& ~~~32 := by
  revert char
  exact forall_lchar (by decide +kernel)

theorem xor_and_of_gperfDowncase {left right : LChar}
    (heq : gperfDowncase left = gperfDowncase right) :
    (left ^^^ right) &&& ~~~32 = 0 := by
  have hbits : left &&& ~~~32 = right &&& ~~~32 := by
    rw [← gperfDowncase_and left, heq, gperfDowncase_and]
  rw [← UInt8.toBitVec_inj] at hbits ⊢
  ext index hindex
  have hbit := congrArg (fun bits => bits[index]) hbits
  simp only [UInt8.toBitVec_and, BitVec.getElem_and] at hbit
  simp only [UInt8.toBitVec_and, BitVec.getElem_and, UInt8.toBitVec_xor, BitVec.getElem_xor]
  rw [Bool.and_xor_distrib_right, hbit, Bool.xor_self]
  exact (BitVec.getElem_zero hindex).symm

theorem gperfDowncase_of_candidate (hcandidate : candidate str = some header) :
    ∀ char ∈ str, gperfDowncase char ≠ 0 ∧ gperfDowncase char < 128 :=
  fun char hchar => gperfDowncase_of_assoValues char (assoValues_of_candidate hcandidate char hchar)

theorem gperfCaseStrncmp_of_candidate (hcandidate : candidate str = some header) :
    (gperfCaseStrncmp str (httpHeaderNameString header) ∧
        (httpHeaderNameString header).getD str.length 0 = 0) ↔
      str.map gperfDowncase = (httpHeaderNameString header).map gperfDowncase :=
  gperfCaseStrncmp_iff (fun char hchar => (gperfDowncase_of_candidate hcandidate char hchar).1)
    fun char hchar =>
      (gperfDowncase_of_candidate (candidate_httpHeaderNameString header) char hchar).1

/-- The table finds a name exactly if it is the name of a header, without case. -/
theorem findHeaderNameImpl_eq_some_iff :
    findHeaderNameImpl str = some header ↔
      str.map gperfDowncase = (httpHeaderNameString header).map gperfDowncase := by
  constructor
  · grind [findHeaderNameImpl, gperfCaseStrncmp_of_candidate]
  · intro heq
    have hcandidate : candidate str = some header := by
      rw [← candidate_gperfDowncase, heq, candidate_gperfDowncase, candidate_httpHeaderNameString]
    have hmatch := (gperfCaseStrncmp_of_candidate hcandidate).2 heq
    have hfirst : gperfDowncase (str.headD 0) =
        gperfDowncase ((httpHeaderNameString header).headD 0) := by
      have hhead : ∀ chars : List LChar,
          gperfDowncase (chars.headD 0) = (chars.map gperfDowncase).headD 0 := by
        rintro (_ | ⟨char, chars⟩) <;> rfl
      rw [hhead, heq, ← hhead]
    rw [findHeaderNameImpl, hcandidate]
    exact if_pos ⟨xor_and_of_gperfDowncase hfirst, hmatch⟩

/-! ## Case folding -/

theorem toASCIILower_toUInt16 : toASCIILower char.toUInt16 = (gperfDowncase char).toUInt16 := by
  revert char
  exact forall_lchar (by decide +kernel)

theorem convertToASCIILowercase_latin1 (str : List LChar) :
    convertToASCIILowercase (latin1 str) = latin1 (str.map gperfDowncase) := by
  rw [convertToASCIILowercase, latin1, map_map, latin1, map_map]
  exact map_congr_left fun char _ => toASCIILower_toUInt16 char

theorem findHeaderNameImpl_iff_lowercase :
    findHeaderNameImpl str = some header ↔
      some (convertToASCIILowercase (latin1 str)) = knownName header := by
  rw [findHeaderNameImpl_eq_some_iff, knownName, Option.some_inj,
    convertToASCIILowercase_latin1, convertToASCIILowercase_latin1,
    (Function.LeftInverse.injective characters8_latin1).eq_iff]

theorem length_httpHeaderNameString (header : HTTPHeaderName) :
    2 ≤ (httpHeaderNameString header).length ∧ (httpHeaderNameString header).length ≤ 35 := by
  have hcandidate := candidate_httpHeaderNameString header
  exact (Option.ite_none_right_eq_some.1 hcandidate).1.symm

theorem length_of_lowercase_eq {text : Str}
    (heq : some (convertToASCIILowercase text) = knownName header) :
    ¬(text.length > 35 ∨ text.length < 2) := by
  have hlen := congrArg List.length (Option.some_inj.1 heq)
  simp only [convertToASCIILowercase, latin1, length_map] at hlen
  have hbounds := length_httpHeaderNameString header
  omega

theorem lt_of_toASCIILower_lt {char : UChar} (hlower : toASCIILower char < 128) : char < 128 := by
  grind [toASCIILower, isASCIIUpper]

theorem ascii_of_lowercase_eq {text : Str}
    (heq : some (convertToASCIILowercase text) = knownName header) : ∀ char ∈ text, char < 128 := by
  intro char hchar
  have hlower : toASCIILower char ∈ convertToASCIILowercase text := mem_map_of_mem hchar
  rw [Option.some_inj.1 heq, convertToASCIILowercase_latin1, latin1, map_map] at hlower
  obtain ⟨byte, hbyte, hsame⟩ := mem_map.1 hlower
  have hsmall := (gperfDowncase_of_candidate (candidate_httpHeaderNameString header) byte hbyte).2
  apply lt_of_toASCIILower_lt
  rw [← hsame, UInt16.lt_iff_toNat_lt, Function.comp_apply, UInt8.toNat_toUInt16]
  exact UInt8.lt_iff_toNat_lt.1 hsmall

/-- `findHTTPHeaderName` finds a header exactly for the spellings of its name. -/
theorem findHTTPHeaderName_eq_some_iff {name : StringValue} :
    findHTTPHeaderName name = some header ↔ folded name = knownName header := by
  cases name with
  | null => exact ⟨nofun, nofun⟩
  | characters8 chars =>
    rw [findHTTPHeaderName, folded]
    by_cases hlen : chars.length > 35 ∨ chars.length < 2
    · rw [if_pos hlen]
      have hdifferent : some (convertToASCIILowercase (latin1 chars)) ≠ knownName header := by
        intro heq
        have hbounds := length_of_lowercase_eq heq
        rw [latin1, length_map] at hbounds
        exact hbounds hlen
      exact ⟨fun hfound => absurd hfound.symm (Option.some_ne_none _),
        fun heq => absurd heq hdifferent⟩
    · rw [if_neg hlen]
      exact findHeaderNameImpl_iff_lowercase
  | characters16 chars =>
    rw [findHTTPHeaderName, folded]
    by_cases hlen : chars.length > 35 ∨ chars.length < 2
    · grind [length_of_lowercase_eq]
    · rw [if_neg hlen]
      by_cases hascii : ∀ char ∈ chars, char < 128
      · have hlatin1 : latin1 (characters8 chars) = chars :=
          latin1_characters8 fun char hchar =>
            (UInt16.lt_iff_toNat_lt.1 (hascii char hchar)).trans (by decide)
        rw [if_pos (by simpa using hascii), findHeaderNameImpl_iff_lowercase, hlatin1]
      · grind [ascii_of_lowercase_eq]

theorem knownName_injective : Function.Injective knownName := by
  intro left right heq
  have hleft := findHeaderNameImpl_iff_lowercase.2 (heq : _ = knownName right)
  rw [findHeaderNameImpl_iff_lowercase.2 rfl] at hleft
  exact Option.some_inj.1 hleft

theorem findHTTPHeaderName_eq_none_iff {name : StringValue} :
    findHTTPHeaderName name = none ↔ ∀ header, folded name ≠ knownName header := by
  rw [Option.eq_none_iff_forall_ne_some]
  exact forall_congr' fun header => not_congr findHTTPHeaderName_eq_some_iff

end PurcFetcher.Http
