import PurcFetcher.Core.Entries
import PurcFetcher.Core.Machine
import PurcFetcher.Http.HeaderNames
import PurcFetcher.Ipc.RoundTrip

/-!
# The header map

Headers with a known name are kept in one vector under the enumeration, all others in a
second vector under their names.  Every operation that takes a string looks for a known
name first.

As long as no two entries have the same name and no entry of the second vector has a
known name, the two vectors are one finite map from names without case to values.  Every
operation keeps this, and so does a copy that is encoded and decoded in another process.
-/

namespace PurcFetcher.Http

open Entries Ipc PurcFetcher.Ipc.Decoder List PurcFetcher.Text

/-! ## Strings -/

def is8Bit : StringValue → Bool
  | .characters16 _ _ _ => false
  | _ => true

/-- `makeString` of a value, a separator and another value.  The process ends if the result
cannot be allocated. -/
def makeString (first : StringValue) (separator : Str) (second : StringValue) :
    Option StringValue :=
  let characters := units first ++ separator ++ units second
  if is8Bit first && is8Bit second then
    if hlength : characters.length ≤ maxInternalLength 1 then
      some (.characters8 (Text.characters8 characters) (by
        rw [Text.characters8, List.length_map]
        exact hlength.trans (min_le_left _ _)))
    else none
  else if hlength : characters ≠ [] ∧ characters.length ≤ maxInternalLength 2 then
    some (.characters16 characters hlength.1 (hlength.2.trans (min_le_left _ _)))
  else none

/-- `String::isolatedCopy`. -/
def isolatedCopyString : StringValue → StringValue
  | .null => .null
  | .characters8 characters hbounded => .characters8 characters hbounded
  | .characters16 characters hnonempty hbounded => .characters16 characters hnonempty hbounded

theorem isolatedCopyString_eq (string : StringValue) : isolatedCopyString string = string := by
  cases string <;> rfl

def headerString (header : HTTPHeaderName) : StringValue :=
  .characters8 (httpHeaderNameString header)
    ((length_httpHeaderNameString header).2.trans (by decide))

theorem findHTTPHeaderName_headerString (header : HTTPHeaderName) :
    findHTTPHeaderName (headerString header) = some header :=
  findHTTPHeaderName_eq_some_iff.2 rfl

/-- A string is read back unless it is too long to be allocated. -/
def allocates : StringValue → Bool
  | .characters16 characters _ _ => characters.length ≤ maxInternalLength 2
  | _ => true

/-! ## The map -/

structure HTTPHeaderMap where
  commonHeaders : List (HTTPHeaderName × StringValue)
  uncommonHeaders : List (StringValue × StringValue)

namespace HTTPHeaderMap

def empty : HTTPHeaderMap := { commonHeaders := [], uncommonHeaders := [] }

def isolatedCopy (map : HTTPHeaderMap) : HTTPHeaderMap :=
  { commonHeaders := map.commonHeaders.map fun entry => (entry.1, isolatedCopyString entry.2)
    uncommonHeaders := map.uncommonHeaders.map fun entry =>
      (isolatedCopyString entry.1, isolatedCopyString entry.2) }

section Known

variable (map : HTTPHeaderMap) (name : HTTPHeaderName) (value : StringValue)

/-- `get(HTTPHeaderName)`. -/
def getKnown : StringValue :=
  ((findMatching id name map.commonHeaders).bind fun index =>
    map.commonHeaders[index]?.map Prod.snd).getD .null

/-- `set(HTTPHeaderName, const String&)`. -/
def setKnown : HTTPHeaderMap :=
  { map with commonHeaders := assign id name value map.commonHeaders }

/-- `contains(HTTPHeaderName)`. -/
def containsKnown : Bool := (findMatching id name map.commonHeaders).isSome

/-- `remove(HTTPHeaderName)`. -/
def removeKnown : HTTPHeaderMap :=
  { map with commonHeaders := removeFirstMatching id name map.commonHeaders }

/-- `add(HTTPHeaderName, const String&)`. -/
def addKnown : Option HTTPHeaderMap :=
  (alter id name value (makeString · (lit ", ") value) map.commonHeaders).map fun entries =>
    { map with commonHeaders := entries }

def addIfNotPresent : HTTPHeaderMap :=
  if containsKnown map name then map
  else { map with commonHeaders := map.commonHeaders ++ [(name, value)] }

end Known

section Spelled

variable (map : HTTPHeaderMap) (name value : StringValue)

def getUncommonHeader : StringValue :=
  ((findMatching folded (folded name) map.uncommonHeaders).bind fun index =>
    map.uncommonHeaders[index]?.map Prod.snd).getD .null

def get : StringValue :=
  match findHTTPHeaderName name with
  | some header => getKnown map header
  | none => getUncommonHeader map name

def setUncommonHeader : HTTPHeaderMap :=
  { map with uncommonHeaders := assign folded name value map.uncommonHeaders }

def set : HTTPHeaderMap :=
  match findHTTPHeaderName name with
  | some header => setKnown map header value
  | none => setUncommonHeader map name value

def add : Option HTTPHeaderMap :=
  match findHTTPHeaderName name with
  | some header => addKnown map header value
  | none =>
    (alter folded name value (makeString · (lit ", ") value) map.uncommonHeaders).map
      fun entries => { map with uncommonHeaders := entries }

/-- The name must not be in the map, which is asserted only. -/
def append : HTTPHeaderMap :=
  match findHTTPHeaderName name with
  | some header => { map with commonHeaders := map.commonHeaders ++ [(header, value)] }
  | none => { map with uncommonHeaders := map.uncommonHeaders ++ [(name, value)] }

def contains : Bool :=
  match findHTTPHeaderName name with
  | some header => containsKnown map header
  | none => (findMatching folded (folded name) map.uncommonHeaders).isSome

def remove : HTTPHeaderMap :=
  match findHTTPHeaderName name with
  | some header => removeKnown map header
  | none =>
    { map with
      uncommonHeaders := removeFirstMatching folded (folded name) map.uncommonHeaders }

end Spelled

/-! ## Encoding and decoding -/

/-- The underlying type of the enumeration is `int`. -/
def headerNameLayout : Layout := .word

/-- `isValidEnum<HTTPHeaderName>`. -/
def isValidHeaderName (value : Block 4) : Bool :=
  Bytes.ofLittleEndian value.1 < HTTPHeaderName.all.length

abbrev HeaderNameValue := { value : Block 4 // isValidHeaderName value = true }

theorem index_lt (header : HTTPHeaderName) : header.index < HTTPHeaderName.all.length :=
  idxOf_lt_length_of_mem header.mem_all

theorem ofLittleEndian_index (header : HTTPHeaderName) :
    Bytes.ofLittleEndian (Bytes.littleEndian 4 header.index) = header.index :=
  Bytes.ofLittleEndian_littleEndian ((index_lt header).trans (by decide))

def toValue (header : HTTPHeaderName) : HeaderNameValue :=
  ⟨⟨Bytes.littleEndian 4 header.index, Bytes.length_littleEndian 4 _⟩, by
    rw [isValidHeaderName, decide_eq_true_eq, ofLittleEndian_index]
    exact index_lt header⟩

def ofValue (value : HeaderNameValue) : HTTPHeaderName :=
  HTTPHeaderName.all.get ⟨Bytes.ofLittleEndian value.1.1, of_decide_eq_true value.2⟩

theorem ofValue_toValue (header : HTTPHeaderName) : ofValue (toValue header) = header := by
  simp only [ofValue, toValue, get_eq_getElem, ofLittleEndian_index]
  exact getElem_idxOf (index_lt header)

abbrev Vectors := List (HeaderNameValue × StringValue) × List (StringValue × StringValue)

def toVectors (map : HTTPHeaderMap) : Vectors :=
  (map.commonHeaders.map fun entry => (toValue entry.1, entry.2), map.uncommonHeaders)

def ofVectors (vectors : Vectors) : HTTPHeaderMap :=
  { commonHeaders := vectors.1.map fun entry => (ofValue entry.1, entry.2)
    uncommonHeaders := vectors.2 }

/-- `CommonHeadersVector`. -/
def commonTraits : VectorTraits := { elementSize := 16, minCapacity := 6 }

/-- `UncommonHeadersVector`. -/
def uncommonTraits : VectorTraits := { elementSize := 16, minCapacity := 0 }

def coder : Coder Vectors :=
  .pair (.vector commonTraits (.pair (.enumeration headerNameLayout isValidHeaderName) .string))
    (.vector uncommonTraits (.pair .string .string))

def encode (map : HTTPHeaderMap) (buffer : Buffer) : Buffer :=
  coder.encode (toVectors map) buffer

def decode : Decode HTTPHeaderMap := do
  let vectors ← coder.decode
  pure (ofVectors vectors)

/-- The sizes that vectors and strings can have in the process that decodes the map. -/
def fits (map : HTTPHeaderMap) : Bool :=
  map.commonHeaders.length < 2 ^ 32 && map.uncommonHeaders.length < 2 ^ 32 &&
    (commonTraits.capacityAfter map.commonHeaders.length).isSome &&
    (uncommonTraits.capacityAfter map.uncommonHeaders.length).isSome &&
    map.commonHeaders.all (fun entry => allocates entry.2) &&
    map.uncommonHeaders.all (fun entry => allocates entry.1 && allocates entry.2)

theorem coder_fits {map : HTTPHeaderMap} (hfits : map.fits = true) :
    coder.Fits (toVectors map) := by
  have hstring : ∀ string, allocates string = true → Coder.string.Fits string := by
    rintro (_ | _ | chars) hallocates
    · trivial
    · trivial
    · rwa [allocates, decide_eq_true_eq] at hallocates
  simp only [fits, Bool.and_eq_true, decide_eq_true_eq, all_eq_true] at hfits
  obtain ⟨⟨⟨⟨⟨hcommon, huncommon⟩, hgrows⟩, hgrows'⟩, hvals⟩, hentries⟩ := hfits
  rw [← length_map (f := fun entry => (toValue entry.1, entry.2))] at hcommon hgrows
  refine ⟨⟨hcommon, hgrows, ?_⟩, huncommon, hgrows', fun entry hentry => ?_⟩
  · intro value hval
    obtain ⟨entry, hentry, rfl⟩ := mem_map.1 hval
    exact ⟨trivial, hstring _ (hvals entry hentry)⟩
  · exact ⟨hstring _ (hentries entry hentry).1, hstring _ (hentries entry hentry).2⟩

theorem reads_map {start : ℕ} (hstart : 8 ∣ start) {map : HTTPHeaderMap}
    (hfits : map.fits = true) (buf : Buffer) :
    Reads start decode map buf (map.encode buf) := by
  have hsupported : coder.Supported start :=
    ⟨⟨(by decide : 4 ∣ 8).trans hstart, trivial⟩, trivial, trivial⟩
  have hvectors := coder.reads hstart hsupported _ (coder_fits hfits) buf
  have hmap : Reads start (pure (ofVectors (toVectors map))) map (map.encode buf)
      (map.encode buf) := by
    simp only [ofVectors, toVectors, map_map, Function.comp_def, ofValue_toValue, Prod.mk.eta,
      map_id']
    exact Reads.pure map _
  exact Reads.bind hvectors hmap

/-! ## Iteration -/

structure KeyValue where
  key : StringValue
  keyAsHTTPHeaderName : Option HTTPHeaderName
  value : StringValue

/-- `HTTPHeaderMapConstIterator`, with the indices that its two iterators stand at. -/
structure ConstIterator where
  commonHeadersIt : ℕ
  uncommonHeadersIt : ℕ
  keyValue : KeyValue

namespace ConstIterator

variable (map : HTTPHeaderMap) (iterator : ConstIterator)

def commonKeyValue (entry : HTTPHeaderName × StringValue) : KeyValue :=
  { key := headerString entry.1, keyAsHTTPHeaderName := some entry.1, value := entry.2 }

def uncommonKeyValue (entry : StringValue × StringValue) : KeyValue :=
  { key := entry.1, keyAsHTTPHeaderName := none, value := entry.2 }

/-- All entries in the order of a loop over the map. -/
def keyValues : List KeyValue :=
  map.commonHeaders.map commonKeyValue ++ map.uncommonHeaders.map uncommonKeyValue

/-- `updateKeyValue` for an iterator of uncommon headers. -/
def updateUncommon : ConstIterator :=
  match map.uncommonHeaders[iterator.uncommonHeadersIt]? with
  | some entry => { iterator with keyValue := uncommonKeyValue entry }
  | none => iterator

/-- `updateKeyValue` for an iterator of common headers, and then for one of uncommon headers
if it has no entry. -/
def update : ConstIterator :=
  match map.commonHeaders[iterator.commonHeadersIt]? with
  | some entry => { iterator with keyValue := commonKeyValue entry }
  | none => updateUncommon map iterator

/-- `begin`. -/
def first : ConstIterator :=
  update map
    { commonHeadersIt := 0
      uncommonHeadersIt := 0
      keyValue := { key := .null, keyAsHTTPHeaderName := none, value := .null } }

/-- `operator++`. -/
def next : ConstIterator :=
  if iterator.commonHeadersIt ≠ map.commonHeaders.length then
    update map { iterator with commonHeadersIt := iterator.commonHeadersIt + 1 }
  else updateUncommon map { iterator with uncommonHeadersIt := iterator.uncommonHeadersIt + 1 }

/-- `operator==` with `end`. -/
def isEnd : Bool :=
  iterator.commonHeadersIt = map.commonHeaders.length &&
    iterator.uncommonHeadersIt = map.uncommonHeaders.length

/-- What a loop over the map visits, if it ends within the fuel. -/
def visit : ℕ → ConstIterator → Option (List KeyValue)
  | 0, _ => none
  | fuel + 1, iterator =>
    if isEnd map iterator then some []
    else (visit fuel (next map iterator)).map (iterator.keyValue :: ·)

variable {map} {iterator}

theorem visit_updateUncommon {visited rest : List (StringValue × StringValue)}
    (hentries : map.uncommonHeaders = visited ++ rest) {fuel : ℕ} (hfuel : rest.length < fuel)
    (hcommon : iterator.commonHeadersIt = map.commonHeaders.length)
    (huncommon : iterator.uncommonHeadersIt = visited.length) :
    visit map fuel (updateUncommon map iterator) = some (rest.map uncommonKeyValue) := by
  induction rest generalizing visited fuel iterator with
  | nil =>
    obtain ⟨fuel, rfl⟩ := Nat.exists_eq_add_of_lt hfuel
    have hend : updateUncommon map iterator = iterator := by
      simp [updateUncommon, huncommon, hentries]
    have hlast : isEnd map iterator = true := by simp [isEnd, hcommon, huncommon, hentries]
    rw [hend, visit, if_pos hlast, map_nil]
  | cons entry rest ih =>
    obtain ⟨fuel, rfl⟩ := Nat.exists_eq_add_of_lt hfuel
    have hentry : updateUncommon map iterator =
        { iterator with keyValue := uncommonKeyValue entry } := by
      simp [updateUncommon, huncommon, hentries]
    have hmore : isEnd map { iterator with keyValue := uncommonKeyValue entry } = false := by
      simp [isEnd, huncommon, hentries]
    have hrest := @ih
      { iterator with
        uncommonHeadersIt := iterator.uncommonHeadersIt + 1
        keyValue := uncommonKeyValue entry }
      (visited ++ [entry]) (hentries.trans (append_cons _ _ _))
      ((entry :: rest).length + fuel) (by rw [length_cons]; omega) hcommon
      (by simp [huncommon])
    rw [hentry, visit, hmore, next, if_neg (not_not.2 hcommon)]
    exact congrArg (Option.map (uncommonKeyValue entry :: ·)) hrest

theorem visit_update {visited rest : List (HTTPHeaderName × StringValue)}
    (hentries : map.commonHeaders = visited ++ rest) {fuel : ℕ}
    (hfuel : rest.length + map.uncommonHeaders.length < fuel)
    (hcommon : iterator.commonHeadersIt = visited.length)
    (huncommon : iterator.uncommonHeadersIt = 0) :
    visit map fuel (update map iterator) =
      some (rest.map commonKeyValue ++ map.uncommonHeaders.map uncommonKeyValue) := by
  induction rest generalizing visited fuel iterator with
  | nil =>
    have hend : update map iterator = updateUncommon map iterator := by
      simp [update, hcommon, hentries]
    rw [hend]
    exact visit_updateUncommon (nil_append _).symm (by simpa using hfuel)
      (by simp [hcommon, hentries]) huncommon
  | cons entry rest ih =>
    obtain ⟨fuel, rfl⟩ := Nat.exists_eq_add_of_lt hfuel
    have hentry : update map iterator = { iterator with keyValue := commonKeyValue entry } := by
      simp [update, hcommon, hentries]
    have hmore : iterator.commonHeadersIt ≠ map.commonHeaders.length := by simp [hcommon, hentries]
    have hrest := @ih
      { iterator with
        commonHeadersIt := iterator.commonHeadersIt + 1
        keyValue := commonKeyValue entry }
      (visited ++ [entry]) (hentries.trans (append_cons _ _ _))
      ((entry :: rest).length + map.uncommonHeaders.length + fuel)
      (by rw [length_cons]; omega) (by simp [hcommon]) huncommon
    rw [hentry, visit, isEnd, decide_eq_false hmore, next, if_pos hmore]
    exact congrArg (Option.map (commonKeyValue entry :: ·)) hrest

end ConstIterator

end HTTPHeaderMap

end PurcFetcher.Http
