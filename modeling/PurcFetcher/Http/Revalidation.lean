import PurcFetcher.Http.CaseInsensitiveMap
import PurcFetcher.Http.Parsers

/-!
# Headers after a revalidation

A response with the status 304 confirms a cached response and may bring new values for its
headers.  `updateResponseHeadersAfterRevalidation` takes them over one after the other,
except those with a protected name or a protected start of the name.
-/

namespace PurcFetcher.Http.Revalidation

open Entries Ipc Text HTTPHeaderMap HTTPHeaderMap.ConstIterator

def headersToIgnoreAfterRevalidation : List Str :=
  [lit "allow", lit "connection", lit "etag", lit "keep-alive", lit "last-modified",
    lit "proxy-authenticate", lit "proxy-connection", lit "trailer", lit "transfer-encoding",
    lit "upgrade", lit "www-authenticate", lit "x-frame-options", lit "x-xss-protection"]

def headerPrefixesToIgnoreAfterRevalidation : List Str :=
  [lit "content-", lit "x-content-", lit "x-webkit-"]

/-- A null name is equal to no name and starts with none. -/
def shouldUpdateHeaderAfterRevalidation (header : StringValue) : Bool :=
  match contents header with
  | none => true
  | some text =>
    if headersToIgnoreAfterRevalidation.any (equalIgnoringASCIICase text) then false
    else !headerPrefixesToIgnoreAfterRevalidation.any (startsWithIgnoringASCIICase text)

/-- A response, as far as its header fields go.  They are made with the operations of the
header map, and so are a map from names without case. -/
structure ResourceResponse where
  httpHeaderFields : HTTPHeaderMap
  refines : ∃ reference, httpHeaderFields.Refines reference

namespace ResourceResponse

/-- `setHTTPHeaderField(const String&, const String&)`. -/
def setHTTPHeaderField (response : ResourceResponse) (name value : StringValue) :
    ResourceResponse where
  httpHeaderFields := response.httpHeaderFields.set name value
  refines := by
    obtain ⟨reference, hrefines⟩ := response.refines
    exact ⟨_, hrefines.set name value⟩

end ResourceResponse

/-- The loop visits the headers in the order of `keyValues`. -/
def updateResponseHeadersAfterRevalidation (response validatingResponse : ResourceResponse) :
    ResourceResponse :=
  (keyValues validatingResponse.httpHeaderFields).foldl (fun response header =>
    if shouldUpdateHeaderAfterRevalidation header.key then
      response.setHTTPHeaderField header.key header.value
    else response) response

/-! ## Names that may be updated -/

/-- The folded name is none of the protected ones and starts with none of the protected
beginnings. -/
def mayUpdate : Option Str → Bool
  | none => true
  | some name =>
    name ∉ headersToIgnoreAfterRevalidation ∧
      ∀ start ∈ headerPrefixesToIgnoreAfterRevalidation, ¬ start <+: name

theorem folded_eq (name : StringValue) :
    folded name = (contents name).map convertToASCIILowercase := by
  cases name <;> rfl

theorem lowercase_ignored :
    ∀ name ∈ headersToIgnoreAfterRevalidation ++ headerPrefixesToIgnoreAfterRevalidation,
      convertToASCIILowercase name = name := by
  decide +kernel

/-- Whether a header is updated depends on its name without case. -/
theorem shouldUpdate_eq (header : StringValue) :
    shouldUpdateHeaderAfterRevalidation header = mayUpdate (folded header) := by
  rw [shouldUpdateHeaderAfterRevalidation, folded_eq]
  cases contents header with
  | none => rfl
  | some text =>
    have hname : headersToIgnoreAfterRevalidation.any (equalIgnoringASCIICase text) = true ↔
        convertToASCIILowercase text ∈ headersToIgnoreAfterRevalidation := by
      rw [List.any_eq_true]
      constructor
      · grind [equalIgnoringASCIICase, lowercase_ignored]
      · grind [equalIgnoringASCIICase, lowercase_ignored]
    have hstart : headerPrefixesToIgnoreAfterRevalidation.any
        (startsWithIgnoringASCIICase text) = true ↔
        ∃ start ∈ headerPrefixesToIgnoreAfterRevalidation,
          start <+: convertToASCIILowercase text := by
      rw [List.any_eq_true]
      refine exists_congr fun start => and_congr_right fun hmem => ?_
      have hstart := lowercase_ignored start (List.mem_append_right _ hmem)
      rw [startsWithIgnoringASCIICase, beq_iff_eq, hstart, convertToASCIILowercase, List.map_take,
        List.prefix_iff_eq_take, eq_comm]
      rfl
    rw [Option.map_some, mayUpdate, Bool.eq_iff_iff]
    simp only [hname, decide_eq_true_eq, Bool.if_false_left, Bool.and_eq_true,
      Bool.not_eq_true', Bool.eq_false_iff, ne_eq, hstart, not_exists,
      not_and]

/-! ## The loop -/

/-- The headers of a map in the order of a loop over it. -/
def entries (map : HTTPHeaderMap) : List (StringValue × StringValue) :=
  (keyValues map).map fun header => (header.key, header.value)

theorem names_entries (map : HTTPHeaderMap) : names folded (entries map) = map.entryNames := by
  simp only [names, entries, keyValues, entryNames, List.map_append, List.map_map]
  rfl

theorem lookup_map_headerString (wanted : Option Str)
    (common : List (HTTPHeaderName × StringValue)) :
    lookup folded wanted (common.map fun entry => (headerString entry.1, entry.2)) =
      lookup knownName wanted common := by
  induction common with
  | nil => rfl
  | cons entry common ih =>
    rw [List.map_cons, lookup_cons, lookup_cons, ih]
    rfl

theorem lookup_knownName (header : HTTPHeaderName)
    (common : List (HTTPHeaderName × StringValue)) :
    lookup knownName (knownName header) common = lookup id header common := by
  induction common with
  | nil => rfl
  | cons entry common ih =>
    rw [lookup_cons, lookup_cons, ih]
    simp only [knownName_injective.eq_iff, id_eq]

theorem lookup_entries {map : HTTPHeaderMap} {ref : Reference}
    (hrefines : map.Refines ref) (wanted : Option Str) :
    lookup folded wanted (entries map) = ref wanted := by
  have hentries : entries map =
      map.commonHeaders.map (fun entry => (headerString entry.1, entry.2)) ++
        map.uncommonHeaders := by
    simp only [entries, keyValues, List.map_append, List.map_map]
    congr 1
    exact List.map_id _
  rw [hentries, lookup_append, lookup_map_headerString]
  by_cases hknown : ∃ header, wanted = knownName header
  · obtain ⟨header, rfl⟩ := hknown
    have hnone := lookup_eq_none_iff.2 fun hmem => hrefines.unknown _ hmem header rfl
    rw [lookup_knownName, hrefines.common, hnone, Option.or_none]
  · rw [not_exists] at hknown
    have hnone : lookup knownName wanted map.commonHeaders = none := by
      grind [lookup_eq_none_iff, names]
    rw [hnone, Option.none_or, hrefines.uncommon wanted hknown]

theorem refines_update {response validatingResp : ResourceResponse} {ref : Reference}
    (hrefines : response.httpHeaderFields.Refines ref) :
    (updateResponseHeadersAfterRevalidation response validatingResp).httpHeaderFields.Refines
      (overlay folded mayUpdate (entries validatingResp.httpHeaderFields) ref) := by
  rw [updateResponseHeadersAfterRevalidation, overlay, entries, List.foldl_map]
  induction keyValues validatingResp.httpHeaderFields generalizing response ref with
  | nil => exact hrefines
  | cons header headers ih =>
    rw [List.foldl_cons, List.foldl_cons, shouldUpdate_eq]
    apply ih
    split
    · exact hrefines.set header.key header.value
    · exact hrefines

/-- After a revalidation a header has the value of the validating response if that has the
header and it may be updated, and its own value otherwise, and no other header is added or
removed. -/
theorem headers_after_revalidation (response validatingResponse : ResourceResponse)
    (name : StringValue) :
    (updateResponseHeadersAfterRevalidation response
        validatingResponse).httpHeaderFields.get name =
      (if validatingResponse.httpHeaderFields.contains name && mayUpdate (folded name) then
        validatingResponse.httpHeaderFields.get name
      else response.httpHeaderFields.get name) ∧
    (updateResponseHeadersAfterRevalidation response
        validatingResponse).httpHeaderFields.contains name =
      (response.httpHeaderFields.contains name ||
        validatingResponse.httpHeaderFields.contains name && mayUpdate (folded name)) := by
  obtain ⟨reference, hrefines⟩ := response.refines
  obtain ⟨validating, hvalidating⟩ := validatingResponse.refines
  have hupdated := @refines_update response validatingResponse reference hrefines
  have hnodup : (names folded (entries validatingResponse.httpHeaderFields)).Nodup := by
    rw [names_entries]
    exact hvalidating.entryNames_nodup
  rw [hupdated.get_eq, hupdated.contains_eq, hvalidating.get_eq, hvalidating.contains_eq,
    hrefines.get_eq, hrefines.contains_eq, Reference.get, Reference.get, Reference.get,
    overlay_apply hnodup, lookup_entries hvalidating]
  cases mayUpdate (folded name) with
  | false => simp
  | true => cases validating (folded name) <;> simp

end PurcFetcher.Http.Revalidation
