import PurcFetcher.Core.HashMap
import PurcFetcher.Loader.Origin

/-!
# The credentials of an origin

Credentials are kept for a partition and a protection space, which has a server type and a
port.  An origin has a scheme and perhaps a port.  Origins are listed for every server that
is no proxy, but only those of HTTP and HTTPS servers are removed, and a missing port is
taken to be 80 for both.
-/

namespace PurcFetcher.Loader

open Text

/-- `ProtectionSpaceServerType`. -/
inductive ServerType
  | http | https | ftp | ftps | proxyHTTP | proxyHTTPS | proxyFTP | proxySOCKS
deriving DecidableEq

/-- The protocol of a listed origin. -/
def ServerType.protocol : ServerType → Option Str
  | .http => lit "http"
  | .https => lit "https"
  | .ftp => lit "ftp"
  | .ftps => lit "ftps"
  | _ => none

/-- `ProtectionSpaceAuthenticationScheme`. -/
inductive AuthenticationScheme
  | default | httpBasic | httpDigest | htmlForm | ntlm | negotiate
  | clientCertificateRequested | serverTrustEvaluationRequested | oauth | unknown
deriving DecidableEq

structure ProtectionSpace where
  host : Str
  port : ℤ
  serverType : ServerType
  realm : Str
  authenticationScheme : AuthenticationScheme
deriving DecidableEq

namespace ProtectionSpace

variable (space other : ProtectionSpace)

def isProxy : Bool :=
  space.serverType == .proxyHTTP || space.serverType == .proxyHTTPS ||
    space.serverType == .proxyFTP || space.serverType == .proxySOCKS

/-- `ProtectionSpaceBase::compare`. -/
def compare : Bool :=
  if space.host != other.host then false
  else if space.port != other.port then false
  else if space.serverType != other.serverType then false
  else if !space.isProxy && space.realm != other.realm then false
  else space.authenticationScheme == other.authenticationScheme

/-- What two spaces that compare equal have in common. -/
def key : ProtectionSpace := if space.isProxy then { space with realm := [] } else space

theorem compare_iff_key_eq : space.compare other = true ↔ space.key = other.key := by
  obtain ⟨host, port, serverType, realm, scheme⟩ := space
  obtain ⟨host', port', serverType', realm', scheme'⟩ := other
  cases serverType <;> cases serverType' <;> simp [compare, key, isProxy]

/-- The test of `removeCredentialsWithOrigin`. -/
def hasOrigin (origin : SecurityOriginData) : Bool :=
  space.host == origin.host &&
    (match origin.port with
      | some port => space.port == port.toNat
      | none => space.port == 80) &&
    ((space.serverType == .http && origin.protocol == lit "http") ||
      (space.serverType == .https && origin.protocol == lit "https"))

/-- The server type, host and effective port are those of the URL. -/
def IsOf (url : URL) : Prop :=
  (space.serverType = .http ∧ convertToASCIILowercase url.protocol = lit "http" ∧
      space.port = (url.port.getD 80).toNat ∨
    space.serverType = .https ∧ convertToASCIILowercase url.protocol = lit "https" ∧
      space.port = (url.port.getD 443).toNat) ∧
    space.host = convertToASCIILowercase url.host

instance (url : URL) : Decidable (space.IsOf url) := inferInstanceAs (Decidable (_ ∧ _))

/-- The space is of an HTTPS server of the host at its default port or at that of HTTP. -/
def AtDefaultPort (url : URL) : Prop :=
  space.serverType = .https ∧ space.host = convertToASCIILowercase url.host ∧
    (space.port = 443 ∨ space.port = 80)

variable {space} {origin : SecurityOriginData} {url : URL}

theorem hasOrigin_key : space.key.hasOrigin origin = space.hasOrigin origin := by
  rw [key]
  split <;> rfl

theorem key_of_hasOrigin (horigin : space.hasOrigin origin = true) : space.key = space := by
  have htype := (Bool.and_eq_true_iff.1 horigin).2
  rw [key, if_neg]
  intro hproxy
  simp only [isProxy, Bool.or_eq_true, beq_iff_eq] at hproxy
  obtain ((hproxy | hproxy) | hproxy) | hproxy := hproxy <;> simp [hproxy] at htype

/-- The test agrees with the servers of the URL but for HTTPS without a port. -/
theorem hasOrigin_iff_isOf_iff (hfamily : convertToASCIILowercase url.protocol = lit "http" ∨
      convertToASCIILowercase url.protocol = lit "https") :
    (space.hasOrigin (.fromURL url) = true ↔ space.IsOf url) ↔
      convertToASCIILowercase url.protocol = lit "http" ∨ url.port.isSome = true ∨
        ¬space.AtDefaultPort url := by
  have hdistinct : lit "http" ≠ lit "https" := by decide
  cases hport : url.port <;> obtain hprotocol | hprotocol := hfamily <;>
    simp [hasOrigin, IsOf, SecurityOriginData.fromURL, AtDefaultPort, hport, hprotocol,
      hdistinct, hdistinct.symm] <;>
    grind

end ProtectionSpace

abbrev CredentialStorage (Credential : Type*) := HashMap (Str × ProtectionSpace) Credential

namespace CredentialStorage

variable {Credential : Type*} (partitionName : Str) (space : ProtectionSpace)
  (origin : SecurityOriginData) (storage : CredentialStorage Credential)

def get : Option Credential := storage.lookup (partitionName, space.key)

def remove : CredentialStorage Credential := storage.erase (partitionName, space.key)

def removeCredentialsWithOrigin : CredentialStorage Credential :=
  let keysToRemove := storage.keys.filter fun key => key.2.hasOrigin origin
  keysToRemove.foldl (fun storage key => remove key.1 key.2 storage) storage

def originsWithCredentials : List SecurityOriginData :=
  storage.keys.filterMap fun ⟨_, space⟩ =>
    if space.isProxy then none
    else
      space.serverType.protocol.map fun protocol =>
        { protocol, host := space.host, port := some (.ofInt space.port) }

def removeCredentialsWithOrigins (origins : List SecurityOriginData) :
    CredentialStorage Credential :=
  origins.foldl (fun storage origin => removeCredentialsWithOrigin origin storage) storage

variable {partitionName space origin storage}

theorem get_removeCredentialsWithOrigin :
    get partitionName space (removeCredentialsWithOrigin origin storage) =
      if space.hasOrigin origin then none else get partitionName space storage := by
  have hkeys : removeCredentialsWithOrigin origin storage = HashMap.eraseAll
      ((storage.keys.filter fun key => key.2.hasOrigin origin).map
        fun key => (key.1, key.2.key)) storage := by
    rw [HashMap.eraseAll, List.foldl_map]
    rfl
  rw [hkeys, get, HashMap.lookup_eraseAll, get]
  split
  · next hmem =>
    obtain ⟨key, hkey, heq⟩ := List.mem_map.1 hmem
    have hsame : key.2.key = space.key := congrArg Prod.snd heq
    rw [← ProtectionSpace.hasOrigin_key, ← hsame, ProtectionSpace.hasOrigin_key,
      if_pos (List.mem_filter.1 hkey).2]
  · next hkept =>
    split
    · next horigin =>
      apply AList.lookup_eq_none.2
      intro hmem
      rw [ProtectionSpace.key_of_hasOrigin horigin] at hmem
      exact hkept (List.mem_map_of_mem (List.mem_filter.2 ⟨hmem, horigin⟩))
    · rfl

/-- Removing a list of origins only ever takes credentials away, and those of each origin. -/
theorem get_removeCredentialsWithOrigins {origins : List SecurityOriginData} :
    get partitionName space (removeCredentialsWithOrigins storage origins) =
      if origins.any space.hasOrigin then none else get partitionName space storage := by
  induction origins generalizing storage with
  | nil => rfl
  | cons first origins ih =>
    refine ih.trans ?_
    rw [get_removeCredentialsWithOrigin, List.any_cons]
    cases space.hasOrigin first <;> simp

/-- A space that origins can stand for. -/
def Nameable (space : ProtectionSpace) : Prop :=
  (space.serverType = .http ∨ space.serverType = .https) ∧ 0 ≤ space.port ∧ space.port < 2 ^ 16

theorem any_originsWithCredentials_iff (hserver : space.isProxy = false)
    (hheld : get partitionName space storage ≠ none) :
    (originsWithCredentials storage).any space.hasOrigin = true ↔ Nameable space := by
  rw [List.any_eq_true]
  constructor
  · rintro ⟨origin, horigin, hspace⟩
    obtain ⟨key, -, hlisted⟩ := List.mem_filterMap.1 horigin
    obtain ⟨-, hlisted⟩ := Option.ite_none_left_eq_some.1 hlisted
    obtain ⟨protocol, -, rfl⟩ := Option.map_eq_some_iff.1 hlisted
    have hport := (UInt16.ofInt key.2.port).toNat_lt
    simp only [ProtectionSpace.hasOrigin, Bool.and_eq_true, Bool.or_eq_true, beq_iff_eq] at hspace
    exact ⟨hspace.2.imp And.left And.left, by omega, by omega⟩
  · rintro ⟨htype, hlow, hhigh⟩
    rw [get, ProtectionSpace.key, hserver, if_neg Bool.false_ne_true] at hheld
    have hmem := AList.lookup_isSome.1 (Option.isSome_iff_ne_none.2 hheld)
    have hport : space.port = (UInt16.ofInt space.port).toNat := by
      simp only [UInt16.ofInt, UInt16.toNat_ofNat']
      omega
    have hlisted : ∀ protocol, space.serverType.protocol = some protocol →
        ⟨protocol, space.host, some (.ofInt space.port)⟩ ∈ originsWithCredentials storage := by
      intro protocol hprotocol
      refine List.mem_filterMap.2 ⟨_, hmem, ?_⟩
      simp [hserver, hprotocol]
    obtain htype | htype := htype
    all_goals
      refine ⟨_, hlisted _ (by rw [htype]; rfl), ?_⟩
      simp [ProtectionSpace.hasOrigin, htype, ← hport]

/-- Removing the origin of a URL removes the credentials of its servers in every partition and
no others just if it is an HTTP URL, has a port, or no credential is for the host over HTTPS at
one of the default ports.  Removing every listed origin leaves only the credentials of proxies
just if the other ones are for HTTP and HTTPS servers at ports that an origin can have. -/
theorem origins_are_removed (storage : CredentialStorage Credential) (url : URL)
    (hfamily : convertToASCIILowercase url.protocol = lit "http" ∨
      convertToASCIILowercase url.protocol = lit "https") :
    ((∀ partitionName space,
      get partitionName space (removeCredentialsWithOrigin (.fromURL url) storage) =
        if space.IsOf url then none else get partitionName space storage) ↔
      convertToASCIILowercase url.protocol = lit "http" ∨ url.port.isSome = true ∨
        ∀ partitionName space, space.AtDefaultPort url →
          get partitionName space storage = none) ∧
    ((∀ partitionName space, space.isProxy = false →
      get partitionName space (removeCredentialsWithOrigins storage
        (originsWithCredentials storage)) = none) ↔
      ∀ partitionName space, space.isProxy = false →
        get partitionName space storage ≠ none → Nameable space) := by
  constructor
  · grind [get_removeCredentialsWithOrigin, ProtectionSpace.hasOrigin_iff_isOf_iff]
  · refine forall₃_congr fun partitionName space hserver => ?_
    rw [get_removeCredentialsWithOrigins, ite_eq_left_iff, ← not_imp_comm]
    exact forall_congr' fun hheld => any_originsWithCredentials_iff hserver hheld

def secureURL : URL :=
  { string := lit "https://h:8443/", isValid := true, protocol := lit "https"
    protocolIsInHTTPFamily := true, host := lit "h", port := some 8443, hasCredentials := false }

def secureSpace (port : ℤ) : ProtectionSpace :=
  { host := lit "h", port, serverType := .https, realm := [], authenticationScheme := .httpBasic }

theorem origins_are_removed_port :
    get [] (secureSpace 8443) (removeCredentialsWithOrigin (.fromURL secureURL)
      ((∅ : CredentialStorage ℕ).insert ([], secureSpace 8443) 7)) = none := by
  rw [((origins_are_removed _ secureURL (.inr rfl)).1.2 (.inr (.inl rfl)) [] (secureSpace 8443))]
  exact if_pos (by decide)

/-- The credential for `https://h/` is kept when the origin of that URL is removed, and the
one for `https://h:80/` is not.  An FTP server's is kept when all listed origins are removed. -/
theorem default_https_port_is_kept :
    let url := { secureURL with port := none }
    let ftpSpace := { secureSpace 21 with serverType := .ftp }
    let storage := (((∅ : CredentialStorage ℕ).insert ([], secureSpace 443) 7).insert
      ([], secureSpace 80) 8).insert ([], ftpSpace) 9
    let removed := removeCredentialsWithOrigin (.fromURL url) storage
    (secureSpace 443).IsOf url ∧ get [] (secureSpace 443) removed = some 7 ∧
      ¬(secureSpace 80).IsOf url ∧ get [] (secureSpace 80) removed = none ∧
      get [] ftpSpace (removeCredentialsWithOrigins storage (originsWithCredentials storage)) =
        some 9 := by
  decide

end CredentialStorage

end PurcFetcher.Loader
