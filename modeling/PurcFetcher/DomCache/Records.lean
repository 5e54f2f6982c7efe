import PurcFetcher.Core.HashMap
import PurcFetcher.Loader.AccessControl

/-!
# Records of the DOM cache

A record is a request with its response.  A cache keeps an index of its records, and finds the
records that match a request in it.  The record itself is stored under a key which has the
unique name of the cache as its type.
-/

namespace PurcFetcher.DomCache

open Http Text

/-! ## URLs -/

/-- A URL with the ends of its path and its query. -/
structure URL where
  string : Str
  isValid : Bool
  pathEnd : ℕ
  queryEnd : ℕ
deriving DecidableEq

namespace URL

def removeQueryAndFragmentIdentifier (url : URL) : URL :=
  if url.isValid then
    { url with string := url.string.take url.pathEnd, queryEnd := url.pathEnd }
  else url

def stringWithoutFragmentIdentifier (url : URL) : Str :=
  if url.isValid then url.string.take url.queryEnd else url.string

/-- `setQuery({ })`, which parses what is left. -/
def withoutQuery (parse : Str → URL) (url : URL) : URL :=
  if url.isValid then parse (url.string.take url.pathEnd ++ url.string.drop url.queryEnd)
  else url

def equalIgnoringFragmentIdentifier (first second : URL) : Bool :=
  first.stringWithoutFragmentIdentifier == second.stringWithoutFragmentIdentifier

end URL

def computeKeyURL (url : URL) : Str := url.removeQueryAndFragmentIdentifier.string

/-! ## Records -/

structure ResourceRequest where
  url : URL
  httpMethod : Str
  httpHeaderFields : HTTPHeaderMap

def ResourceRequest.httpHeaderField (request : ResourceRequest) (name : Str) : Option Str :=
  contents (request.httpHeaderFields.get (Loader.stringOf name))

structure ResourceResponse where
  httpHeaderFields : HTTPHeaderMap

/-- `DOMCacheEngine::Record`. -/
structure Record where
  request : ResourceRequest
  response : ResourceResponse
  responseBodySize : UInt64

/-- The key of a record.  Unique names of caches and identifiers of records are UUIDs, which
are numbered in the order in which they are created. -/
structure Key where
  type : ℕ
  identifier : ℕ
deriving DecidableEq

/-- A record as it is written to the disk.  The size is written twice. -/
structure StoredRecord where
  insertionTime : ℕ
  size : UInt64
  record : Record
  size_eq : size = record.responseBodySize

structure RecordInformation where
  key : Key
  insertionTime : ℕ
  identifier : ℕ
  updateResponseCounter : ℕ
  size : UInt64
  url : URL
  hasVaryStar : Bool
  varyHeaders : HashMap Str (Option Str)

namespace RecordInformation

def addVaryHeader (request : ResourceRequest) (information : RecordInformation) (view : Str) :
    RecordInformation :=
  { information with
    hasVaryStar := information.hasVaryStar || stripMatchedCharacters isHTTPSpace view == lit "*"
    varyHeaders := information.varyHeaders.add view (request.httpHeaderField view) }

def updateVaryInformation (information : RecordInformation) (request : ResourceRequest)
    (response : ResourceResponse) : RecordInformation :=
  match contents (response.httpHeaderFields.getKnown .vary) with
  | none => { information with hasVaryStar := false, varyHeaders := ∅ }
  | some varyValue =>
    let information := (split varyValue 0x2C).foldl (addVaryHeader request) information
    if information.hasVaryStar then { information with varyHeaders := ∅ } else information

/-- The information about a record that has the key. -/
def ofRecord (key : Key) (insertionTime identifier : ℕ) (record : Record) :
    RecordInformation :=
  updateVaryInformation
    { key := key
      insertionTime := insertionTime
      identifier := identifier
      updateResponseCounter := 0
      size := record.responseBodySize
      url := record.request.url
      hasVaryStar := false
      varyHeaders := ∅ }
    record.request record.response

def recorded (information : RecordInformation) : Key × UInt64 :=
  (information.key, information.size)

theorem recorded_foldl_addVaryHeader (request : ResourceRequest) (views : List Str)
    (info : RecordInformation) :
    (views.foldl (addVaryHeader request) info).recorded = info.recorded := by
  induction views generalizing info with
  | nil => rfl
  | cons view views ih => exact ih (addVaryHeader request info view)

@[simp]
theorem recorded_updateVaryInformation (info : RecordInformation)
    (request : ResourceRequest) (response : ResourceResponse) :
    (updateVaryInformation info request response).recorded = info.recorded := by
  rw [updateVaryInformation]
  split
  · rfl
  · next varyValue _ =>
    dsimp only
    split
    · exact recorded_foldl_addVaryHeader request (split varyValue 0x2C) info
    · exact recorded_foldl_addVaryHeader request (split varyValue 0x2C) info

@[simp]
theorem recorded_ofRecord (key : Key) (time ident : ℕ) (record : Record) :
    (ofRecord key time ident record).recorded = (key, record.responseBodySize) :=
  recorded_updateVaryInformation _ record.request record.response

end RecordInformation

/-! ## Queries -/

structure CacheQueryOptions where
  ignoreSearch : Bool := false
  ignoreMethod : Bool := false
  ignoreVary : Bool := false
deriving DecidableEq

section Queries

variable (parse : Str → URL) (request : ResourceRequest) (options : CacheQueryOptions)

def matchURLs (cachedURL : URL) : Bool :=
  if options.ignoreSearch then
    (request.url.withoutQuery parse).equalIgnoringFragmentIdentifier (cachedURL.withoutQuery parse)
  else request.url.equalIgnoringFragmentIdentifier cachedURL

def queryCacheMatch (information : RecordInformation) : Bool :=
  matchURLs parse request options information.url &&
    (options.ignoreVary ||
      (!information.hasVaryStar &&
        information.varyHeaders.entries.all fun pair => pair.2 == request.httpHeaderField pair.1))

/-- The identifiers of the records that match. -/
def queryCache (records : List RecordInformation) : List ℕ :=
  if !options.ignoreMethod && request.httpMethod != lit "GET" then []
  else (records.filter (queryCacheMatch parse request options)).map RecordInformation.identifier

end Queries

/-- `recordsFromURL`. -/
def recordsFromURL (url : URL) (records : List RecordInformation) : List RecordInformation :=
  records.filter fun information => computeKeyURL information.url == computeKeyURL url

namespace Sample

def parse (text : Str) : URL := ⟨text, true, text.length, text.length⟩

def request : ResourceRequest := ⟨parse (lit "https://a/"), lit "GET", .empty⟩

def record (size : UInt64) : Record := ⟨request, ⟨.empty⟩, size⟩

end Sample

end PurcFetcher.DomCache
