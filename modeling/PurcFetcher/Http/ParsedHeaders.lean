import PurcFetcher.Http.CaseInsensitiveMap
import PurcFetcher.Loader.AccessControl

/-!
# Parsed headers of a response

A response parses some of its headers when a getter first asks for them, and keeps the result
until one of these headers is set or added.  Whatever replaces all headers at once leaves the
results in place, and so does an age that is no number.
-/

namespace PurcFetcher.Http.ParsedHeaders

open Entries HTTPHeaderMap Ipc Machine Text
open Loader (Tainting stringOf)

/-! ## Sanitized headers -/

inductive SanitizationType
  | redirection
  | removeCookies
  | crossOriginSafe

def isSafeRedirectionResponseHeader (name : HTTPHeaderName) : Bool :=
  [.location, .referrerPolicy, .cacheControl, .date, .expires, .eTag, .lastModified, .age, .pragma,
    .refresh, .vary, .accessControlAllowCredentials, .accessControlAllowHeaders,
    .accessControlAllowMethods, .accessControlAllowOrigin, .accessControlExposeHeaders,
    .accessControlMaxAge, .crossOriginResourcePolicy, .timingAllowOrigin].contains name

def isSafeCrossOriginResponseHeader (name : HTTPHeaderName) : Bool :=
  [.acceptRanges, .accessControlAllowCredentials, .accessControlAllowHeaders,
    .accessControlAllowMethods, .accessControlAllowOrigin, .accessControlExposeHeaders,
    .accessControlMaxAge, .accessControlRequestHeaders, .accessControlRequestMethod, .age,
    .cacheControl, .contentDisposition, .contentEncoding, .contentLanguage, .contentLength,
    .contentRange, .contentSecurityPolicy, .contentSecurityPolicyReportOnly, .contentType,
    .crossOriginResourcePolicy, .date, .eTag, .expires, .icyMetaInt, .icyMetadata, .lastEventId,
    .lastModified, .link, .location, .pragma, .range, .referrerPolicy, .refresh, .serverTiming,
    .sourceMap, .xSourceMap, .timingAllowOrigin, .trailer, .vary, .xContentTypeOptions,
    .xDnsPrefetchControl, .xFrameOptions, .xXssProtection].contains name

/-- The loops over `commonHeaders()`, which add the safe headers to an empty map. -/
def filteredHeaders (isSafe : HTTPHeaderName → Bool) (fields : HTTPHeaderMap) :
    Option HTTPHeaderMap :=
  fields.commonHeaders.foldlM (fun filtered header =>
    if isSafe header.1 then filtered.addKnown header.1 header.2 else some filtered) empty

def exposeHeader (fields filtered : HTTPHeaderMap) (headerName : Str) : Option HTTPHeaderMap :=
  let name := stringOf headerName
  if filtered.contains name || (contents (fields.get name)).isNone then some filtered
  else filtered.add name (fields.get name)

def sanitizeHTTPHeaderFieldsAccordingToTainting (fields : HTTPHeaderMap) :
    Tainting → Option HTTPHeaderMap
  | .basic => some fields
  | .cors =>
    let corsSafeHeaderSet := (parseAccessControlAllowList
      (units (fields.getKnown .accessControlExposeHeaders))).getD []
    if corsSafeHeaderSet.contains (lit "*") then some fields
    else
      (filteredHeaders isSafeCrossOriginResponseHeader fields).bind
        (corsSafeHeaderSet.foldlM (exposeHeader fields))
  | .opaqueResponse | .opaqueredirect => filteredHeaders isSafeCrossOriginResponseHeader fields

def sanitizeHTTPHeaderFields (tainting : Tainting) (fields : HTTPHeaderMap)
    (type : SanitizationType) : Option HTTPHeaderMap :=
  let withoutCookies := (fields.removeKnown .setCookie).removeKnown .setCookie2
  match type with
  | .removeCookies => some withoutCookies
  | .redirection => filteredHeaders isSafeRedirectionResponseHeader withoutCookies
  | .crossOriginSafe => sanitizeHTTPHeaderFieldsAccordingToTainting withoutCookies tainting

/-! ## What was parsed -/

/-- The members of a response that hold what was parsed. -/
inductive Member
  | age
  | cacheControl
  | date
  | expires
  | lastModified
  | contentRange
  deriving DecidableEq, Repr

/-- The headers that the getters of a member parse. -/
def Member.headers : Member → List HTTPHeaderName
  | age => [.age]
  | cacheControl => [.cacheControl, .pragma]
  | date => [.date]
  | expires => [.expires]
  | lastModified => [.lastModified]
  | contentRange => [.contentRange]

/-- The `switch` of `updateHeaderParsedState`. -/
def memberOf : HTTPHeaderName → Option Member
  | .age => some .age
  | .cacheControl | .pragma => some .cacheControl
  | .date => some .date
  | .expires => some .expires
  | .lastModified => some .lastModified
  | .contentRange => some .contentRange
  | _ => none

-- What is parsed from the values of the headers of a member, if they have a meaning.
variable {V : Type} (parser : Member → List (Option Str) → Option V)

def parse (member : Member) (fields : HTTPHeaderMap) : Option V :=
  parser member (member.headers.map fun header => contents (fields.getKnown header))

structure ResourceResponse (V : Type) where
  httpHeaderFields : HTTPHeaderMap
  tainting : Tainting
  haveParsed : Member → Bool
  value : Member → Option V

namespace ResourceResponse

variable (response : ResourceResponse V)

def create (tainting : Tainting) (fields : HTTPHeaderMap) : ResourceResponse V where
  httpHeaderFields := fields
  tainting := tainting
  haveParsed _ := false
  value _ := none

/-- `updateHeaderParsedState` for a name that is known, and new headers. -/
def update (name : StringValue) (fields : HTTPHeaderMap) : ResourceResponse V :=
  { response with
    httpHeaderFields := fields
    haveParsed := fun member =>
      response.haveParsed member && (findHTTPHeaderName name).bind memberOf ≠ some member }

/-- What a getter does before it returns the member.  `m_age` is assigned only if the header is
a number. -/
def parsed (member : Member) : ResourceResponse V :=
  if response.haveParsed member then response
  else
    let result := parse parser member response.httpHeaderFields
    { response with
      haveParsed := Function.update response.haveParsed member true
      value := Function.update response.value member
        (if member = .age then result.or (response.value member) else result) }

def get (member : Member) : Option V := (response.parsed parser member).value member

/-- A header that is given by the enumeration is given by its name here. -/
inductive Action
  | setHTTPHeaderField (name value : StringValue)
  | addHTTPHeaderField (name value : StringValue)
  | setHTTPHeaderFields (fields : HTTPHeaderMap)
  | sanitizeHTTPHeaderFields (type : SanitizationType)
  | setTainting (tainting : Tainting)
  | get (member : Member)

def step : Action → Option (ResourceResponse V)
  | .setHTTPHeaderField name value =>
    some (response.update name (response.httpHeaderFields.set name value))
  | .addHTTPHeaderField name value =>
    (response.httpHeaderFields.add name value).map (response.update name)
  | .setHTTPHeaderFields fields => some { response with httpHeaderFields := fields }
  | .sanitizeHTTPHeaderFields type =>
    (sanitizeHTTPHeaderFields response.tainting response.httpHeaderFields type).map
      fun fields => { response with httpHeaderFields := fields }
  | .setTainting tainting => some { response with tainting := tainting }
  | .get member => some (response.parsed parser member)

/-- The headers agree with what was parsed. -/
def Agree (fields : HTTPHeaderMap) : Prop :=
  ∀ member, response.haveParsed member = true →
    parse parser member fields = parse parser member response.httpHeaderFields

/-- Headers that replace all others agree with what was parsed, and the age is not asked for
when it is no number but was one before. -/
def Spares : Action → Prop
  | .setHTTPHeaderFields fields => response.Agree parser fields
  | .sanitizeHTTPHeaderFields type =>
    ∀ fields ∈ sanitizeHTTPHeaderFields response.tainting response.httpHeaderFields type,
      response.Agree parser fields
  | .get member => member = .age → response.haveParsed member = false →
      response.value member ≠ none → parse parser member response.httpHeaderFields ≠ none
  | _ => True

end ResourceResponse

open ResourceResponse

section Fresh

variable {parser} {response : ResourceResponse V}

variable (parser) in
def Fresh (response : ResourceResponse V) : Prop :=
  ∀ member, response.haveParsed member = true →
    response.value member = parse parser member response.httpHeaderFields

theorem getKnown_setKnown_ne (map : HTTPHeaderMap) {name header : HTTPHeaderName}
    (val : StringValue) (hne : some name ≠ some header) :
    (map.setKnown name val).getKnown header = map.getKnown header := by
  rw [getKnown_eq_lookup, setKnown, lookup_assign, id_eq,
    if_neg (fun heq => hne (congrArg some heq)), ← getKnown_eq_lookup]

variable (hfresh : Fresh parser response)
include hfresh

theorem Fresh.get {member : Member}
    (hspares : response.Spares parser (.get member)) :
    response.get parser member = parse parser member response.httpHeaderFields := by
  rw [ResourceResponse.get, parsed]
  split
  · next hparsed => exact hfresh member hparsed
  · next hparsed =>
    refine (Function.update_self member _ _).trans ?_
    split
    · next hage =>
      have hnumber := hspares hage (Bool.not_eq_true _ ▸ hparsed)
      cases hres : parse parser member response.httpHeaderFields with
      | some => rfl
      | none => exact not_not.1 fun hvalue => hnumber hvalue hres
    · rfl

theorem Fresh.update {name : StringValue} {fields : HTTPHeaderMap}
    (hothers : ∀ header, findHTTPHeaderName name ≠ some header →
      fields.getKnown header = response.httpHeaderFields.getKnown header) :
    Fresh parser (response.update name fields) := by
  have hheaders : ∀ member : Member, ∀ header ∈ member.headers,
      memberOf header = some member := by
    intro member
    cases member <;> decide
  intro member hparsed
  obtain ⟨hbefore, hother⟩ := (Bool.and_eq_true _ _).mp hparsed
  refine (hfresh member hbefore).trans (congrArg (parser member) ?_)
  refine List.map_congr_left fun header hheader => congrArg contents (hothers header ?_).symm
  intro hname
  rw [hname, Option.bind_some, hheaders member header hheader] at hother
  exact of_decide_eq_true hother rfl

theorem Fresh.replace {fields : HTTPHeaderMap} (hagree : response.Agree parser fields) :
    Fresh parser { response with httpHeaderFields := fields } :=
  fun member hparsed => (hfresh member hparsed).trans (hagree member hparsed).symm

theorem Fresh.step {next : ResourceResponse V} {action : Action}
    (hspares : response.Spares parser action) (hstep : response.step parser action = some next) :
    Fresh parser next := by
  cases action with
  | setHTTPHeaderField name val =>
    cases hstep
    refine hfresh.update fun header hne => ?_
    rw [HTTPHeaderMap.set]
    split
    · next hname => exact getKnown_setKnown_ne _ val (hname ▸ hne)
    · rfl
  | addHTTPHeaderField =>
    obtain ⟨fields, hadd, rfl⟩ := Option.map_eq_some_iff.1 hstep
    refine hfresh.update fun header hne => ?_
    rw [HTTPHeaderMap.add] at hadd
    split at hadd
    · next hname =>
      rw [addKnown, alter_eq_assign, Option.map_map] at hadd
      obtain ⟨res, -, rfl⟩ := Option.map_eq_some_iff.1 hadd
      exact getKnown_setKnown_ne _ res (hname ▸ hne)
    · obtain ⟨entries, -, rfl⟩ := Option.map_eq_some_iff.1 hadd
      rfl
  | setHTTPHeaderFields =>
    cases hstep
    exact hfresh.replace hspares
  | sanitizeHTTPHeaderFields =>
    obtain ⟨fields, hfields, rfl⟩ := Option.map_eq_some_iff.1 hstep
    exact hfresh.replace (hspares fields hfields)
  | setTainting =>
    cases hstep
    exact hfresh
  | get member =>
    cases hstep
    intro other hother
    have hget := hfresh.get hspares
    rw [ResourceResponse.get] at hget
    rw [parsed] at hother hget ⊢
    split at hother
    · next hparsed =>
      rw [if_pos hparsed]
      exact hfresh other hother
    · next hparsed =>
      rw [if_neg hparsed] at hget ⊢
      by_cases hsame : other = member
      · exact hsame ▸ hget
      · refine (Function.update_of_ne hsame _ _).trans (hfresh other ?_)
        exact (Function.update_of_ne hsame _ _).symm.trans hother

end Fresh

/-- In every run that spares what was parsed, a getter returns what is parsed from the headers
of the moment. -/
theorem getters_parse_afresh {tainting : Tainting} {fields : HTTPHeaderMap}
    {actions : List Action} {response : ResourceResponse V}
    (hrun : run (step parser) (.create tainting fields) actions = some response)
    (hspares : Meets (step parser) (Spares parser) (.create tainting fields) actions)
    {member : Member}
    (hget : response.Spares parser (.get member)) :
    response.get parser member = parse parser member response.httpHeaderFields :=
  Fresh.get (run_of_step (fun hfresh => hfresh.step)
    (fun _ hparsed => absurd hparsed Bool.false_ne_true) hspares hrun) hget

namespace Sample

def ageParser : Member → List (Option Str) → Option ℤ
  | .age, [some text] => toInt text
  | _, _ => none

def setAge (byte : UInt8) : Action :=
  .setHTTPHeaderField (headerString .age) (.characters8 [byte] (show 1 ≤ Ipc.maxLength by decide))

end Sample

open Sample

theorem getters_parse_afresh_age :
    (after (step ageParser) (.create .cors empty) [setAge 0x35, .get .age,
      .sanitizeHTTPHeaderFields .redirection, setAge 0x36]).get ageParser .age = some 6 := by
  refine (getters_parse_afresh ageParser (run_eq_after (by decide +kernel)) ?_
    fun _ _ _ => by decide +kernel).trans (by decide +kernel)
  exact .cons rfl trivial (.cons rfl (fun _ _ hvalue => absurd rfl hvalue)
    (.cons rfl (fun _ hfields member => by cases hfields; cases member <;> decide +kernel)
      (.cons rfl trivial trivial)))

/-- The age 5 is still returned after the headers were replaced, and after the age became "x". -/
theorem stale_age_is_returned :
    [.setHTTPHeaderFields empty, setAge 0x78].map (fun action =>
      let response := after (step ageParser) (.create .basic empty) [setAge 0x35, .get .age, action]
      (response.get ageParser .age, parse ageParser .age response.httpHeaderFields)) =
        [(some 5, none), (some 5, none)] := by
  decide +kernel

end PurcFetcher.Http.ParsedHeaders
