import PurcFetcher.Http.HeaderMap

/-!
# Header values

The parsers of header values that decide whether a request is a simple one, and which
methods and headers a server allows.
-/

namespace PurcFetcher.Http

open Ipc Text

/-- The characters of a string that is not null. -/
def contents : StringValue → Option Str
  | .null => none
  | .characters8 characters _ => some (latin1 characters)
  | .characters16 characters _ _ => some characters

theorem length_le_of_contents {string : StringValue} {text : Str}
    (hcontents : contents string = some text) : text.length ≤ Ipc.maxLength := by
  cases string with
  | null => exact absurd hcontents nofun
  | characters8 chars hbounded =>
    rw [← Option.some.inj hcontents, latin1, List.length_map]
    exact hbounded
  | characters16 chars hnonempty hbounded => exact Option.some.inj hcontents ▸ hbounded

def isHTTPSpace (char : UChar) : Bool :=
  char ≤ 0x20 && (char == 0x20 || char == 0xA || char == 0x9 || char == 0xD)

def isASCIIAlpha (char : UChar) : Bool :=
  isASCIIUpper char || (0x61 ≤ char && char ≤ 0x7A)

def isASCIIAlphanumeric (char : UChar) : Bool := isASCIIAlpha char || isASCIIDigit char

/-- `RFC7230::isTokenCharacter`. -/
def isTokenCharacter (char : UChar) : Bool :=
  isASCIIAlpha char || isASCIIDigit char || (lit "!#$%&'*+-.^_\x60|~").contains char

/-- `RFC7230::isDelimiter`. -/
def isDelimiter (char : UChar) : Bool := (lit "(),/:;<=>?@[\\]\x7b\x7d\"").contains char

def isValidHTTPToken (value : Str) : Bool := !value.isEmpty && value.all isTokenCharacter

/-! ## Safe request headers -/

def isValidAcceptHeaderValue (value : Str) : Bool :=
  value.all fun char =>
    isASCIIAlphanumeric char || (lit ",/;=").contains char ||
      !(char == 0x7F || (char < 0x20 && char != 0x9) || isDelimiter char)

def isValidLanguageHeaderValue (value : Str) : Bool :=
  value.all fun char => isASCIIAlphanumeric char || (lit " *,-.;=").contains char

def containsCORSUnsafeRequestHeaderBytes (value : Str) : Bool :=
  value.any fun char =>
    (char < 0x20 && char != 0x9) || (lit "\"():<>?@[\\]\x7b\x7d\x7f").contains char

/-- `isCrossOriginSafeRequestHeader`, where `parsedMimeType` is the MIME type of the
`ParsedContentType`, if there is one. -/
def isCrossOriginSafeRequestHeader (parsedMimeType : Str → Option Str) (name : HTTPHeaderName)
    (value : Str) : Bool :=
  let accepted : Bool :=
    match name with
    | .accept => isValidAcceptHeaderValue value
    | .acceptLanguage => isValidLanguageHeaderValue value
    | .contentLanguage => isValidLanguageHeaderValue value
    | .contentType =>
      !containsCORSUnsafeRequestHeaderBytes value &&
        match parsedMimeType value with
        | none => false
        | some mimeType =>
          equalIgnoringASCIICase mimeType (lit "application/x-www-form-urlencoded") ||
            equalIgnoringASCIICase mimeType (lit "multipart/form-data") ||
            equalIgnoringASCIICase mimeType (lit "text/plain")
    | _ => false
  accepted && value.length ≤ 128

/-- An entry of a header map that a request can have without asking the server. -/
def isSafeEntry (parsedMimeType : Str → Option Str) (header : HTTPHeaderMap.KeyValue) : Bool :=
  match header.keyAsHTTPHeaderName with
  | none => false
  | some name => isCrossOriginSafeRequestHeader parsedMimeType name (units header.value)

def isOnAccessControlSimpleRequestMethodAllowlist (method : Str) : Bool :=
  method == lit "GET" || method == lit "HEAD" || method == lit "POST"

def isSimpleCrossOriginAccessRequest (parsedMimeType : Str → Option Str) (method : Str)
    (headerMap : HTTPHeaderMap) : Bool :=
  isOnAccessControlSimpleRequestMethodAllowlist method &&
    (HTTPHeaderMap.ConstIterator.keyValues headerMap).all (isSafeEntry parsedMimeType)

/-! ## Lists of methods and headers -/

/-- `addToAccessControlAllowList` for the text between two commas, which is not empty. -/
def addToAccessControlAllowList (text : Str) (set : List Str) : Option (List Str) :=
  let token := stripMatchedCharacters isHTTPSpace text
  if token.isEmpty then some set
  else if isValidHTTPToken token then some (set ++ [token])
  else none

/-- `parseAccessControlAllowList`.  Texts between two commas that are empty are skipped. -/
def parseAccessControlAllowList (text : Str) : Option (List Str) :=
  (split text 0x2C).foldlM (fun set piece => addToAccessControlAllowList piece set) []

inductive CrossOriginResourcePolicy
  | none
  | sameOrigin
  | sameSite
  | invalid
deriving DecidableEq

def parseCrossOriginResourcePolicyHeader (header : Str) : CrossOriginResourcePolicy :=
  let strippedHeader := stripMatchedCharacters isHTTPSpace header
  if strippedHeader.isEmpty then .none
  else if strippedHeader == lit "same-origin" then .sameOrigin
  else if strippedHeader == lit "same-site" then .sameSite
  else .invalid

end PurcFetcher.Http
