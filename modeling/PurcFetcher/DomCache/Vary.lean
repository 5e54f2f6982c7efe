import PurcFetcher.DomCache.Caches
import PurcFetcher.Http.CaseInsensitiveMap

/-!
# The index and the Vary header

A record may be served to a request which agrees with the request of the record in the headers
that the Vary header of the response names.  The index keeps the names and the values of the
request.  A record is updated with other responses to the same request, and its entry in the
index is then changed in place.

The names of the Vary header are stripped of spaces where a record is compared, but not where it
is put into the index.  An update adds to the names in the index, and a star stays, until a
response without a Vary header comes or the index is read again.
-/

namespace PurcFetcher.DomCache

open Http Text List

/-! ## Comparing a record -/

/-- The function that the Vary header is split with. -/
def updateIsVarying (cachedRequest request : ResourceRequest) (isVarying : Bool) (view : Str) :
    Bool :=
  if isVarying then true
  else
    let name := stripMatchedCharacters isHTTPSpace view
    if name == lit "*" then true
    else cachedRequest.httpHeaderField name != request.httpHeaderField name

def varyValue (response : ResourceResponse) : Option Str :=
  contents (response.httpHeaderFields.getKnown .vary)

/-- `queryCacheMatch` for a request and a response that are cached. -/
def queryCacheMatchRecord (parse : Str → URL) (request : ResourceRequest)
    (options : CacheQueryOptions) (cachedRequest : ResourceRequest)
    (cachedResponse : ResourceResponse) : Bool :=
  if !matchURLs parse request options cachedRequest.url then false
  else if options.ignoreVary then true
  else
    match varyValue cachedResponse with
    | none => true
    | some varyValue => !(split varyValue 0x2C).foldl (updateIsVarying cachedRequest request) false

/-! ## The history of a record -/

/-- A record and the information that the index has about it. -/
structure IndexedRecord where
  information : RecordInformation
  record : Record

inductive RecordEvent
  /-- The record is replaced by another one, whose request is not kept. -/
  | update (record : Record)
  /-- The index is read from the disk again, which has the latest record. -/
  | reopen

namespace IndexedRecord

def create (key : Key) (insertionTime identifier : ℕ) (record : Record) : IndexedRecord :=
  ⟨.ofRecord key insertionTime identifier record, record⟩

def step (indexed : IndexedRecord) : RecordEvent → IndexedRecord
  | .update record =>
    let record := { record with request := indexed.record.request }
    ⟨Caches.replaceInformation record indexed.information, record⟩
  | .reopen => create indexed.information.key indexed.information.insertionTime 0 indexed.record

end IndexedRecord

/-- The Vary headers since a response had none, with that of another response. -/
def gather (values : List Str) (response : ResourceResponse) : List Str :=
  (varyValue response).elim [] fun value => values ++ [value]

def varyStep (values : List Str) : RecordEvent → List Str
  | .update record => gather values record.response
  | .reopen => values.getLast?.toList

/-- The Vary headers since a response had none or the index was read. -/
def varyHistory (record : Record) (events : List RecordEvent) : List Str :=
  events.foldl varyStep (gather [] record.response)

def strippedNames (value : Str) : List Str :=
  (split value 0x2C).map (stripMatchedCharacters isHTTPSpace)

def hasStar (value : Str) : Bool :=
  (split value 0x2C).any fun view => stripMatchedCharacters isHTTPSpace view == lit "*"

def SameNames (first second : List Str) : Prop :=
  first.map convertToASCIILowercase ⊆ second.map convertToASCIILowercase ∧
    second.map convertToASCIILowercase ⊆ first.map convertToASCIILowercase

/-- If the latest response has a Vary header, then it has a star if one of the Vary headers has,
and otherwise their views are its names. -/
def Plain (values : List Str) : Prop :=
  ∀ value ∈ values.getLast?,
    values.any hasStar = hasStar value ∧
      (hasStar value = false → SameNames (values.flatMap (split · 0x2C)) (strippedNames value))

/-! ## Header fields -/

def Bounded (names : List Str) : Prop := ∀ name ∈ names, name.length ≤ Ipc.maxLength

theorem httpHeaderField_congr (request : ResourceRequest) {name other : Str}
    (hname : name.length ≤ Ipc.maxLength) (hother : other.length ≤ Ipc.maxLength)
    (hsame : convertToASCIILowercase name = convertToASCIILowercase other) :
    request.httpHeaderField name = request.httpHeaderField other := by
  refine congrArg contents (request.httpHeaderFields.get_congr ?_)
  rw [Loader.folded_stringOf hname, Loader.folded_stringOf hother, hsame]

/-- A request that differs in one header field. -/
theorem exists_request_differs (request : ResourceRequest) {name : Str}
    (hname : name.length ≤ Ipc.maxLength) :
    ∃ other : ResourceRequest, request.httpHeaderField name ≠ other.httpHeaderField name ∧
      ∀ different : Str, different.length ≤ Ipc.maxLength →
        convertToASCIILowercase different ≠ convertToASCIILowercase name →
        request.httpHeaderField different = other.httpHeaderField different := by
  obtain ⟨val, hval⟩ : ∃ val, request.httpHeaderField name ≠ contents val := by
    by_cases hempty : request.httpHeaderField name = some []
    · refine ⟨.characters8 [120] (by decide), ?_⟩
      rw [hempty]
      decide
    · exact ⟨.characters8 [] (by decide), hempty⟩
  refine ⟨{ request with
    httpHeaderFields := request.httpHeaderFields.set (Loader.stringOf name) val }, ?_, ?_⟩
  · intro hsame
    have hset := HTTPHeaderMap.get_set_self request.httpHeaderFields (Loader.stringOf name) val
    exact hval (hsame.trans (congrArg contents hset))
  · intro different hdifferent hne
    refine congrArg contents (HTTPHeaderMap.get_set_ne _ val ?_).symm
    rw [Loader.folded_stringOf hname, Loader.folded_stringOf hdifferent]
    exact fun hsame => hne (Option.some.inj hsame).symm

def AgreeOn (names : List Str) (cachedRequest request : ResourceRequest) : Prop :=
  ∀ name ∈ names, cachedRequest.httpHeaderField name = request.httpHeaderField name

theorem AgreeOn.refl (names : List Str) (request : ResourceRequest) :
    AgreeOn names request request :=
  fun _ _ => rfl

theorem AgreeOn.of_subset {names others : List Str} {cachedReq request : ResourceRequest}
    (hagree : AgreeOn others cachedReq request) (hnames : Bounded names)
    (hothers : Bounded others)
    (hsubset : names.map convertToASCIILowercase ⊆ others.map convertToASCIILowercase) :
    AgreeOn names cachedReq request := by
  intro name hname
  obtain ⟨other, hother, hsame⟩ := mem_map.1 (hsubset (mem_map_of_mem hname))
  have hlen := hothers other hother
  rw [← httpHeaderField_congr cachedReq hlen (hnames name hname) hsame,
    ← httpHeaderField_congr request hlen (hnames name hname) hsame]
  exact hagree other hother

theorem subset_of_agreeOn {names others : List Str} {cachedReq : ResourceRequest}
    (hnames : Bounded names) (hothers : Bounded others)
    (hagree : ∀ request, AgreeOn others cachedReq request →
      AgreeOn names cachedReq request) :
    names.map convertToASCIILowercase ⊆ others.map convertToASCIILowercase := by
  intro lower hlower
  obtain ⟨name, hname, rfl⟩ := mem_map.1 hlower
  by_contra hmissing
  obtain ⟨request, hdiffers, hsame⟩ := exists_request_differs cachedReq (hnames name hname)
  refine hdiffers (hagree request (fun other hother => ?_) name hname)
  refine hsame other (hothers other hother) fun heq => hmissing ?_
  exact heq ▸ mem_map_of_mem hother

/-! ## What the index has -/

section Index

variable {request : ResourceRequest} {information : RecordInformation}

theorem hasVaryStar_foldl_addVaryHeader (views : List Str) :
    (views.foldl (RecordInformation.addVaryHeader request) information).hasVaryStar =
      (information.hasVaryStar ||
        views.any fun view => stripMatchedCharacters isHTTPSpace view == lit "*") := by
  induction views generalizing information with
  | nil => exact (Bool.or_false _).symm
  | cons view views ih =>
    rw [foldl_cons, ih, RecordInformation.addVaryHeader, any_cons, Bool.or_assoc]

theorem lookup_foldl_addVaryHeader (views : List Str) (name : Str) :
    (views.foldl (RecordInformation.addVaryHeader request) information).varyHeaders.lookup name =
      (information.varyHeaders.lookup name).or
        (if name ∈ views then some (request.httpHeaderField name) else none) := by
  induction views generalizing information with
  | nil => exact Option.or_none.symm
  | cons view views ih => grind [RecordInformation.addVaryHeader, HashMap.lookup_add]

theorem url_foldl_addVaryHeader (views : List Str) :
    (views.foldl (RecordInformation.addVaryHeader request) information).url = information.url := by
  induction views generalizing information with
  | nil => rfl
  | cons view views ih => exact ih

/-- The index has a star or the views with the fields of the request. -/
structure Holds (request : ResourceRequest) (values : List Str) (information : RecordInformation) :
    Prop where
  url : information.url = request.url
  star : information.hasVaryStar = values.any hasStar
  headers : information.hasVaryStar = false → ∀ name, information.varyHeaders.lookup name =
    if name ∈ values.flatMap (split · 0x2C) then some (request.httpHeaderField name) else none

/-- The headers of one more response. -/
theorem Holds.update {values : List Str} (hholds : Holds request values information)
    (response : ResourceResponse) :
    Holds request (gather values response)
      (information.updateVaryInformation request response) := by
  rw [RecordInformation.updateVaryInformation, gather, varyValue]
  cases contents (response.httpHeaderFields.getKnown .vary) with
  | none => exact ⟨hholds.url, rfl, fun _ _ => rfl⟩
  | some val =>
    have hstar : ((split val 0x2C).foldl (RecordInformation.addVaryHeader request)
        information).hasVaryStar = (values ++ [val]).any hasStar := by
      rw [hasVaryStar_foldl_addVaryHeader, hholds.star, any_append, any_cons,
        any_nil, Bool.or_false]
      rfl
    have hurl : ((split val 0x2C).foldl (RecordInformation.addVaryHeader request)
        information).url = request.url :=
      (url_foldl_addVaryHeader _).trans hholds.url
    dsimp only [Option.elim_some]
    split
    · next hvarying =>
      exact ⟨hurl, hstar, fun hfalse => absurd (hvarying.symm.trans hfalse) Bool.false_ne_true.symm⟩
    · refine ⟨hurl, hstar, fun hfalse name => ?_⟩
      rw [hasVaryStar_foldl_addVaryHeader, Bool.or_eq_false_iff] at hfalse
      rw [lookup_foldl_addVaryHeader, hholds.headers hfalse.1]
      simp only [flatMap_append, flatMap_singleton, mem_append]
      by_cases hbefore : name ∈ values.flatMap (split · 0x2C)
      · rw [if_pos hbefore, Option.some_or]
        exact (if_pos (.inl hbefore)).symm
      · rw [if_neg hbefore, Option.none_or]
        simp only [hbefore, false_or]

end Index

/-! ## Histories -/

/-- What an entry of the index has to do with the Vary headers of its record. -/
structure Follows (indexed : IndexedRecord) (values : List Str) : Prop where
  holds : Holds indexed.record.request values indexed.information
  latest : varyValue indexed.record.response = values.getLast?
  bounded : Bounded values

theorem getLast?_gather (values : List Str) (response : ResourceResponse) :
    varyValue response = (gather values response).getLast? := by
  rw [gather]
  cases varyValue response with
  | none => rfl
  | some => exact getLast?_concat.symm

variable {values : List Str} {indexed : IndexedRecord}

theorem Bounded.gather (hbounded : Bounded values) (response : ResourceResponse) :
    Bounded (gather values response) := by
  intro val hval
  rw [DomCache.gather] at hval
  cases hvary : varyValue response with
  | none =>
    rw [hvary] at hval
    exact absurd hval not_mem_nil
  | some =>
    rw [hvary] at hval
    rcases mem_append.1 hval with hval | hval
    · exact hbounded val hval
    · rw [mem_singleton.1 hval]
      exact length_le_of_contents hvary

theorem follows_create (key : Key) (time ident : ℕ) (record : Record) :
    Follows (.create key time ident record) (gather [] record.response) where
  holds := Holds.update ⟨rfl, rfl, fun _ _ => rfl⟩ record.response
  latest := getLast?_gather [] record.response
  bounded := Bounded.gather (fun _ hval => absurd hval not_mem_nil) record.response

theorem Follows.step (hfollows : Follows indexed values) (event : RecordEvent) :
    Follows (indexed.step event) (varyStep values event) := by
  cases event with
  | update =>
    refine ⟨Holds.update ?_ _, getLast?_gather _ _, hfollows.bounded.gather _⟩
    exact { hfollows.holds with }
  | reopen =>
    have hsame : varyStep values .reopen = gather [] indexed.record.response := by
      rw [gather, hfollows.latest, varyStep]
      cases values.getLast? <;> rfl
    rw [hsame]
    exact follows_create _ _ _ _

/-- The index follows the values of all responses. -/
theorem Follows.run (hfollows : Follows indexed values) (events : List RecordEvent) :
    Follows (events.foldl IndexedRecord.step indexed) (events.foldl varyStep values) := by
  induction events generalizing indexed values with
  | nil => exact hfollows
  | cons event events ih => exact ih (hfollows.step event)

/-! ## The answers -/

section Answers

variable {parse : Str → URL} {request : ResourceRequest} {options : CacheQueryOptions}

variable {cachedReq : ResourceRequest}

theorem Holds.queryCacheMatch_iff {values : List Str} {info : RecordInformation}
    (hholds : Holds cachedReq values info) :
    queryCacheMatch parse request options info = true ↔
      matchURLs parse request options cachedReq.url = true ∧
        (options.ignoreVary = true ∨ (values.any hasStar = false ∧
          AgreeOn (values.flatMap (split · 0x2C)) cachedReq request)) := by
  rw [queryCacheMatch, hholds.url, Bool.and_eq_true, Bool.or_eq_true, Bool.and_eq_true,
    Bool.not_eq_true', hholds.star]
  refine and_congr_right fun _ => or_congr_right (and_congr_right fun hstar => ?_)
  have hheaders := hholds.headers (hholds.star.trans hstar)
  rw [all_eq_true]
  constructor
  · intro hall name hname
    have hlookup := hheaders name
    rw [if_pos hname] at hlookup
    exact beq_iff_eq.1 (hall ⟨name, _⟩ (AList.mem_lookup_iff.1 hlookup))
  · rintro hagree ⟨name, val⟩ hentry
    have hlookup := AList.mem_lookup_iff.2 hentry
    rw [hheaders, Option.mem_def, Option.ite_none_right_eq_some] at hlookup
    rw [← Option.some.inj hlookup.2]
    exact beq_iff_eq.2 (hagree name hlookup.1)

theorem foldl_updateIsVarying (views : List Str) (isVarying : Bool) :
    views.foldl (updateIsVarying cachedReq request) isVarying =
      (isVarying || views.any (updateIsVarying cachedReq request false)) := by
  induction views generalizing isVarying with
  | nil => exact (Bool.or_false _).symm
  | cons view views ih =>
    rw [foldl_cons, ih, any_cons, ← Bool.or_assoc]
    cases isVarying <;> rfl

theorem isVarying_eq_false_iff {val : Str} :
    (split val 0x2C).foldl (updateIsVarying cachedReq request) false = false ↔
      hasStar val = false ∧ AgreeOn (strippedNames val) cachedReq request := by
  rw [foldl_updateIsVarying, Bool.false_or, any_eq_false, hasStar, any_eq_false,
    AgreeOn, strippedNames, forall_mem_map, ← forall₂_and]
  simp only [Bool.not_eq_true]
  refine forall₂_congr fun view _ => ?_
  rw [updateIsVarying, if_neg Bool.false_ne_true]
  dsimp only
  cases stripMatchedCharacters isHTTPSpace view == lit "*" with
  | true => exact iff_of_false nofun fun hname => absurd hname.1 nofun
  | false => exact bne_eq_false_iff_eq.trans (and_iff_right rfl).symm

theorem queryCacheMatchRecord_iff {cachedResp : ResourceResponse} :
    queryCacheMatchRecord parse request options cachedReq cachedResp = true ↔
      matchURLs parse request options cachedReq.url = true ∧
        (options.ignoreVary = true ∨ ∀ val ∈ varyValue cachedResp,
          hasStar val = false ∧ AgreeOn (strippedNames val) cachedReq request) := by
  rw [queryCacheMatchRecord]
  cases matchURLs parse request options cachedReq.url with
  | false => exact ⟨nofun, nofun⟩
  | true =>
    refine Iff.trans ?_ (and_iff_right rfl).symm
    cases options.ignoreVary with
    | true => exact iff_of_true rfl (.inl rfl)
    | false =>
      refine Iff.trans ?_ (or_iff_right Bool.false_ne_true).symm
      cases varyValue cachedResp with
      | none => exact iff_of_true rfl nofun
      | some => simp [isVarying_eq_false_iff]

end Answers

/-- The index gives the answers of the record, and a record that is served agrees with the request
in the fields that its Vary header names. -/
structure Consistent (indexed : IndexedRecord) : Prop where
  same_answer : ∀ parse request options,
    queryCacheMatch parse request options indexed.information =
      queryCacheMatchRecord parse request options indexed.record.request indexed.record.response
  served : ∀ parse request options,
    queryCacheMatch parse request options indexed.information = true →
    options.ignoreVary = false → ∀ value ∈ varyValue indexed.record.response,
    AgreeOn (strippedNames value) indexed.record.request request

theorem bounded_views (hbounded : Bounded values) : Bounded (values.flatMap (split · 0x2C)) := by
  intro view hview
  obtain ⟨val, hval, hview⟩ := mem_flatMap.1 hview
  exact (length_le_of_mem_split hview).trans (hbounded val hval)

theorem bounded_strippedNames {val : Str} (hbounded : val.length ≤ Ipc.maxLength) :
    Bounded (strippedNames val) := by
  intro name hname
  obtain ⟨view, hview, rfl⟩ := mem_map.1 hname
  exact (length_stripMatchedCharacters_le isHTTPSpace view).trans
    ((length_le_of_mem_split hview).trans hbounded)

/-- The answers are the same exactly if the two conditions on the Vary headers are. -/
theorem Follows.same_answer_iff (hfollows : Follows indexed values) :
    (∀ parse request options,
      queryCacheMatch parse request options indexed.information =
        queryCacheMatchRecord parse request options indexed.record.request
          indexed.record.response) ↔
      ∀ request, (values.any hasStar = false ∧
          AgreeOn (values.flatMap (split · 0x2C)) indexed.record.request request) ↔
        ∀ val ∈ values.getLast?,
          hasStar val = false ∧ AgreeOn (strippedNames val) indexed.record.request request := by
  constructor
  · intro hsame request
    -- Only the header fields count, so the URL may be the cached one.
    have hanswer := Bool.eq_iff_iff.1 (hsame (fun text => ⟨text, false, 0, 0⟩)
      { request with url := indexed.record.request.url } { ignoreVary := false })
    rw [hfollows.holds.queryCacheMatch_iff, queryCacheMatchRecord_iff, hfollows.latest,
      and_congr_right_iff] at hanswer
    have hvary := hanswer (by rw [matchURLs]; split <;> exact beq_self_eq_true _)
    rw [or_iff_right Bool.false_ne_true, or_iff_right Bool.false_ne_true] at hvary
    exact hvary
  · intro hsame parse request options
    rw [Bool.eq_iff_iff, hfollows.holds.queryCacheMatch_iff, queryCacheMatchRecord_iff,
      hfollows.latest]
    exact and_congr_right fun _ => or_congr_right (hsame request)

theorem plain_iff (hbounded : Bounded values) (cachedReq : ResourceRequest) :
    Plain values ↔
      ∀ request, (values.any hasStar = false ∧
          AgreeOn (values.flatMap (split · 0x2C)) cachedReq request) ↔
        ∀ val ∈ values.getLast?,
          hasStar val = false ∧ AgreeOn (strippedNames val) cachedReq request := by
  rw [Plain]
  cases hlast : values.getLast? with
  | none =>
    rw [getLast?_eq_none_iff] at hlast
    subst hlast
    exact iff_of_true nofun fun request => iff_of_true ⟨rfl, nofun⟩ nofun
  | some val =>
    have hval : val.length ≤ Ipc.maxLength := hbounded val (mem_of_getLast? hlast)
    have hviews := bounded_views hbounded
    have hstripped := bounded_strippedNames hval
    simp only [Option.mem_some_iff, forall_eq']
    constructor
    · rintro ⟨hstar, hnames⟩ request
      rw [hstar]
      refine and_congr_right fun hfalse => ?_
      obtain ⟨hleft, hright⟩ := hnames hfalse
      exact ⟨fun hagree => hagree.of_subset hstripped hviews hright,
        fun hagree => hagree.of_subset hviews hstripped hleft⟩
    · intro hanswers
      have hstar : values.any hasStar = hasStar val := by
        have hself := hanswers cachedReq
        rw [and_iff_left (AgreeOn.refl _ _), and_iff_left (AgreeOn.refl _ _)] at hself
        rw [Bool.eq_iff_iff, ← not_iff_not, Bool.not_eq_true, Bool.not_eq_true]
        exact hself
      refine ⟨hstar, fun hfalse => ?_⟩
      simp only [hstar, hfalse, true_and] at hanswers
      exact ⟨subset_of_agreeOn hviews hstripped fun request => (hanswers request).2,
        subset_of_agreeOn hstripped hviews fun request => (hanswers request).1⟩

theorem Follows.consistent_iff (hfollows : Follows indexed values) :
    Consistent indexed ↔ Plain values := by
  rw [plain_iff hfollows.bounded indexed.record.request, ← hfollows.same_answer_iff]
  refine ⟨fun hconsistent => hconsistent.same_answer, fun hsame => ⟨hsame, ?_⟩⟩
  intro parse request options hserved hvary val hval
  rw [hsame, queryCacheMatchRecord_iff] at hserved
  rcases hserved.2 with hignore | hnames
  · exact absurd (hignore.symm.trans hvary) nofun
  · exact (hnames val hval).2

/-- The index of a record that was updated and read any number of times is consistent with it
exactly if its Vary headers are plain. -/
theorem index_consistent_iff (key : Key) (insertionTime identifier : ℕ) (record : Record)
    (events : List RecordEvent) :
    Consistent (events.foldl IndexedRecord.step (.create key insertionTime identifier record)) ↔
      Plain (varyHistory record events) :=
  ((follows_create key insertionTime identifier record).run events).consistent_iff

namespace Sample

def varying (vary : String) : Record where
  request := request
  response := ⟨HTTPHeaderMap.empty.setKnown .vary (Loader.stringOf (lit vary))⟩
  responseBodySize := 0

/-- The first name of the Vary header is followed by a space and another name. -/
def spaced : IndexedRecord := .create ⟨0, 0⟩ 0 1 (varying "Accept, Accept-Language")

/-- A response with a star is followed by one without. -/
def starred : IndexedRecord :=
  [.update (varying "Accept")].foldl IndexedRecord.step (.create ⟨0, 0⟩ 0 1 (varying "*"))

def inFrench : ResourceRequest :=
  { request with
    httpHeaderFields := request.httpHeaderFields.setKnown .acceptLanguage
      (Loader.stringOf (lit "fr")) }

end Sample

open Sample

/-- The index serves a record to a request that differs in a field which the Vary header names,
and it withholds a record from a request that is the cached one. -/
theorem index_differs_from_record :
    (queryCacheMatch parse inFrench {} spaced.information = true ∧
      queryCacheMatchRecord parse inFrench {} spaced.record.request spaced.record.response =
        false) ∧
    queryCacheMatch parse request {} starred.information = false ∧
      queryCacheMatchRecord parse request {} starred.record.request starred.record.response =
        true := by
  decide +kernel

end PurcFetcher.DomCache
