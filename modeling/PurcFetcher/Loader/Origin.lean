import PurcFetcher.Wtf.Text

/-!
# Security origins

A URL is given by the parts that its parser has found.  An origin can request a URL if
it has the scheme, host and port of the URL's own origin, or if it has been granted
access.  A unique origin can request nothing.
-/

namespace PurcFetcher.Loader

open Text

structure URL where
  string : Str
  isValid : Bool
  protocol : Str
  protocolIsInHTTPFamily : Bool
  host : Str
  port : Option UInt16
  hasCredentials : Bool
deriving DecidableEq

namespace URL

variable (url : URL)

def protocolIs (text : Str) : Bool := url.isValid && equalIgnoringASCIICase url.protocol text

def protocolIsBlob : Bool := url.protocolIs (lit "blob")

def protocolIsData : Bool := url.protocolIs (lit "data")

def stringCenterEllipsizedToLength (length : ℕ) : Str :=
  if url.string.length ≤ length then url.string
  else
    url.string.take (length / 2 - 1) ++ lit "..." ++
      url.string.drop (url.string.length - (length / 2 - 2))

end URL

def protocolHostAndPortAreEqual (first second : URL) : Bool :=
  first.protocol == second.protocol && first.host == second.host && first.port == second.port

/-- `URLParser::defaultPortForProtocol`.  A scheme that starts with `w` and has neither two
nor three letters gets the port zero, which is what `false` is converted to. -/
def defaultPortForProtocol (scheme : Str) : Option UInt16 :=
  if scheme.head? = some 0x77 then
    if scheme.length = 2 then if scheme = lit "ws" then some 80 else none
    else if scheme.length = 3 then if scheme = lit "wss" then some 443 else none
    else some 0
  else if scheme = lit "http" then some 80
  else if scheme = lit "https" then some 443
  else if scheme = lit "ftp" then some 21
  else none

structure SecurityOriginData where
  protocol : Str
  host : Str
  port : Option UInt16
deriving DecidableEq

/-- `SecurityOriginData::fromURL`. -/
def SecurityOriginData.fromURL (url : URL) : SecurityOriginData :=
  { protocol := convertToASCIILowercase url.protocol
    host := convertToASCIILowercase url.host
    port := url.port }

def SecurityOriginData.toString (data : SecurityOriginData) : Str :=
  if data.protocol = lit "file" then lit "file://"
  else
    match data.port with
    | none => data.protocol ++ lit "://" ++ data.host
    | some port =>
      data.protocol ++ lit "://" ++ data.host ++ lit ":" ++
        (Nat.toDigits 10 port.toNat).map fun digit => UInt16.ofNat digit.toNat

structure SecurityOrigin where
  data : SecurityOriginData
  isUnique : Bool
  universalAccess : Bool
  isLocal : Bool
  enforcesFilePathSeparation : Bool
deriving DecidableEq

/-- What the process has registered about schemes and origins, and the parser of URLs. -/
structure Platform where
  /-- `URL(base, relative)`. -/
  completeURL : URL → Option Str → URL
  /-- The URL without user and password. -/
  withoutCredentials : URL → URL
  /-- `SecurityOrigin::extractInnerURL`. -/
  extractInnerURL : URL → URL
  shouldTreatURLSchemeAsNoAccess : Str → Bool
  shouldTreatURLSchemeAsLocal : Str → Bool
  /-- `SecurityPolicy::isAccessAllowed`. -/
  isAccessAllowed : SecurityOrigin → SecurityOrigin → URL → Bool
  /-- The MIME type of a `ParsedContentType`. -/
  parsedMimeType : Str → Option Str

variable (platform : Platform)

def schemeRequiresHost (url : URL) : Bool :=
  url.protocolIsInHTTPFamily || url.protocolIs (lit "ftp")

def shouldTreatAsUniqueOrigin (url : URL) : Bool :=
  if !url.isValid then true
  else
    let innerURL := if url.protocolIsBlob then platform.extractInnerURL url else url
    (schemeRequiresHost innerURL && innerURL.host.isEmpty) ||
      platform.shouldTreatURLSchemeAsNoAccess innerURL.protocol

namespace SecurityOrigin

def createUnique : SecurityOrigin :=
  { data := { protocol := [], host := [], port := none }
    isUnique := true
    universalAccess := false
    isLocal := false
    enforcesFilePathSeparation := false }

def ofURL (url : URL) : SecurityOrigin :=
  let data := SecurityOriginData.fromURL url
  { data :=
      if data.port.isSome && data.port == defaultPortForProtocol data.protocol then
        { data with port := none }
      else data
    isUnique := false
    universalAccess := false
    isLocal := platform.shouldTreatURLSchemeAsLocal data.protocol
    enforcesFilePathSeparation := false }

def create (url : URL) : SecurityOrigin :=
  if shouldTreatAsUniqueOrigin platform url then createUnique
  else if url.protocolIsBlob then ofURL platform (platform.extractInnerURL url)
  else ofURL platform url

def isSameSchemeHostPort (origin other : SecurityOrigin) : Bool :=
  origin.data == other.data &&
    !(origin.isLocal && (origin.enforcesFilePathSeparation || other.enforcesFilePathSeparation))

def canRequest (origin : SecurityOrigin) (url : URL) : Bool :=
  if origin.universalAccess then true
  else if origin.isUnique then false
  else
    let targetOrigin := create platform url
    if targetOrigin.isUnique then false
    else
      origin.isSameSchemeHostPort targetOrigin || platform.isAccessAllowed origin targetOrigin url

def toString (origin : SecurityOrigin) : Str :=
  if origin.isUnique then lit "null"
  else if origin.data.protocol = lit "file" && origin.enforcesFilePathSeparation then lit "null"
  else origin.data.toString

end SecurityOrigin

end PurcFetcher.Loader
