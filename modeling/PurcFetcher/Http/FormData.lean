import PurcFetcher.Wtf.Text

/-!
# Form data

A form is a list of byte strings, files and blobs, and it keeps its length until the next append.
An element that is asked for its length without a way to find the size of a blob answers 0, so
every form has the length 0.
-/

namespace PurcFetcher.Http

open List Text

inductive FormDataElement
  | bytes (data : List UInt8)
  | file (filename : Str) (fileStart fileLength : ℤ) (expectedFileModificationTime : Option ℚ)
  | blob (url : Str)
  deriving DecidableEq

namespace FormDataElement

/-- `lengthInBytes(blobSize)`.  A file whose size cannot be found counts as empty. -/
def lengthInBytesWith (fileSize : Str → Option ℤ) (blobSize : Str → UInt64) :
    FormDataElement → UInt64
  | bytes data => .ofNat data.length
  | file filename _ fileLength _ =>
    if fileLength ≠ -1 then .ofInt fileLength else ((fileSize filename).map .ofInt).getD 0
  | blob url => blobSize url

def lengthInBytes (_ : FormDataElement) : UInt64 := 0

/-- The copy of a string has the same characters. -/
def isolatedCopy : FormDataElement → FormDataElement
  | bytes data => bytes ([] ++ data)
  | file filename fileStart fileLength time => file filename fileStart fileLength time
  | blob url => blob url

/-- What `flatten` takes from an element. -/
def contents : FormDataElement → List UInt8
  | bytes data => data
  | _ => []

end FormDataElement

structure FormData where
  elements : List FormDataElement
  identifier : ℤ
  alwaysStream : Bool
  boundary : List UInt8
  containsPasswordData : Bool
  cachedLength : Option UInt64

namespace FormData

def create : FormData := ⟨[], 0, false, [], false, none⟩

variable (form : FormData)

/-- The copy constructor. -/
def copy : FormData :=
  ⟨form.elements, form.identifier, false, [], form.containsPasswordData, none⟩

def isolatedCopy : FormData :=
  { create with
    alwaysStream := form.alwaysStream
    elements := form.elements.map (·.isolatedCopy) }

def append (element : FormDataElement) : FormData :=
  { form with elements := form.elements ++ [element], cachedLength := none }

def appendData (data : List UInt8) : FormData :=
  match form.elements.getLast? with
  | some (.bytes last) =>
    { form with
      elements := form.elements.dropLast ++ [.bytes (last ++ data)]
      cachedLength := none }
  | _ => form.append (.bytes ([] ++ data))

def flatten : List UInt8 := form.elements.flatMap (·.contents)

def lengthInBytes : UInt64 :=
  form.cachedLength.getD (form.elements.map (·.lengthInBytes)).sum

inductive Operation
  | appendData (data : List UInt8)
  | appendFile (filename : Str)
  | appendFileRange (filename : Str) (start length : ℤ) (modificationTime : Option ℚ)
  | appendBlob (url : Str)
  | copy
  | isolatedCopy
  | lengthInBytes

/-- The form after an operation; for a copy it is the copy. -/
def apply (form : FormData) : Operation → FormData
  | .appendData data => form.appendData data
  | .appendFile filename => form.append (.file filename 0 (-1) none)
  | .appendFileRange filename start length time => form.append (.file filename start length time)
  | .appendBlob url => form.append (.blob url)
  | .copy => form.copy
  | .isolatedCopy => form.isolatedCopy
  | .lengthInBytes => { form with cachedLength := some form.lengthInBytes }

def Operation.data : Operation → List UInt8
  | .appendData data => data
  | _ => []

/-- The sum of the sizes that the elements have. -/
def size (fileSize : Str → Option ℤ) (blobSize : Str → UInt64) : UInt64 :=
  (form.elements.map (·.lengthInBytesWith fileSize blobSize)).sum

theorem flatten_append (element : FormDataElement) :
    (form.append element).flatten = form.flatten ++ element.contents := by
  rw [append, flatten, flatMap_append, flatMap_singleton, ← flatten]

theorem flatten_apply (op : Operation) : (form.apply op).flatten = form.flatten ++ op.data := by
  cases op with
  | appendData data =>
    rw [apply, appendData]
    split
    · next last hlast =>
      rw [flatten, flatten, ← dropLast_append_getLast? _ hlast]
      simp [FormDataElement.contents, Operation.data]
    · exact form.flatten_append _
  | appendFile | appendFileRange | appendBlob => exact form.flatten_append _
  | copy | lengthInBytes => exact (append_nil _).symm
  | isolatedCopy =>
    refine Eq.trans ?_ (append_nil _).symm
    rw [apply, isolatedCopy, flatten, flatMap_map, flatten]
    congr 1
    funext element
    cases element <;> rfl

theorem sum_lengthInBytes (elements : List FormDataElement) :
    (elements.map (·.lengthInBytes)).sum = 0 := by
  induction elements with
  | nil => rfl
  | cons element elements ih => rw [map_cons, sum_cons, ih, FormDataElement.lengthInBytes, add_zero]

theorem lengthInBytes_apply (hzero : form.lengthInBytes = 0) (op : Operation) :
    (form.apply op).lengthInBytes = 0 := by
  cases op with
  | appendData =>
    rw [apply, appendData]
    split <;> exact sum_lengthInBytes _
  | lengthInBytes => exact hzero
  | _ => exact sum_lengthInBytes _

theorem sum_of_bytes (fileSize : Str → Option ℤ) (blobSize : Str → UInt64)
    {elements : List FormDataElement}
    (hbytes : ∀ element ∈ elements, element = .bytes element.contents) :
    (elements.map (·.lengthInBytesWith fileSize blobSize)).sum =
      .ofNat (elements.flatMap (·.contents)).length := by
  induction elements with
  | nil => rfl
  | cons element elements ih =>
    obtain ⟨hfirst, hrest⟩ := forall_mem_cons.1 hbytes
    rw [map_cons, sum_cons, ih hrest, hfirst, flatMap_cons, length_append, UInt64.ofNat_add]
    rfl

/-- A form holds the bytes that were appended to it and to the forms that it is a copy of.  Its
length is the sum of the sizes just when that is 0. -/
theorem lengthInBytes_eq_size_iff (fileSize : Str → Option ℤ) (blobSize : Str → UInt64)
    (operations : List Operation) :
    let form := operations.foldl apply create
    form.flatten = operations.flatMap Operation.data ∧
      (form.lengthInBytes = form.size fileSize blobSize ↔ form.size fileSize blobSize = 0) ∧
      ((∀ element ∈ form.elements, element = .bytes element.contents) →
        form.size fileSize blobSize = .ofNat form.flatten.length) := by
  have hform : ∀ form : FormData, form.lengthInBytes = 0 →
      (operations.foldl apply form).flatten = form.flatten ++ operations.flatMap Operation.data ∧
        (operations.foldl apply form).lengthInBytes = 0 := by
    induction operations with
    | nil => exact fun form hzero => ⟨(append_nil _).symm, hzero⟩
    | cons op operations ih =>
      intro form hzero
      obtain ⟨hflatten, hlen⟩ := ih _ (form.lengthInBytes_apply hzero op)
      rw [foldl_cons, hflatten, flatten_apply, flatMap_cons, append_assoc]
      exact ⟨rfl, hlen⟩
  obtain ⟨hflatten, hlen⟩ := hform create rfl
  refine ⟨hflatten, ?_, sum_of_bytes fileSize blobSize⟩
  rw [hlen, eq_comm]

/-- The length of a form with one byte is 0. -/
theorem one_byte_has_no_length :
    let form := [.appendData [0x61]].foldl apply create
    form.lengthInBytes = 0 ∧ form.size (fun _ => none) (fun _ => 0) = 1 ∧
      form.flatten.length = 1 := by
  decide

end FormData

end PurcFetcher.Http
