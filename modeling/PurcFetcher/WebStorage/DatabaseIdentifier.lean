import PurcFetcher.Loader.Origin
import PurcFetcher.Task.SqlValues

/-!
# The names of database files

The file of an origin is named after its scheme, its host and its port, with the characters
of the host escaped that not every file system allows.  Reading an origin back from a name
does not undo the escaping.  So it gives the origin of the same file exactly for hosts
without such characters.
-/

namespace PurcFetcher.WebStorage

open Loader List Text

/-! ## Escaping -/

def needsEscaping (char : UChar) : Bool :=
  char ≤ 0x20 || char ∈ [0x22, 0x25, 0x2A, 0x2F, 0x3A, 0x3C, 0x3E, 0x3F, 0x5C, 0x7C, 0x7F]

def isLead (char : UChar) : Bool := 0xD800 ≤ char && char ≤ 0xDBFF

def isTrail (char : UChar) : Bool := 0xDC00 ≤ char && char ≤ 0xDFFF

def shouldEscapeUChar (char previous next : UChar) : Bool :=
  if char ≤ 127 then needsEscaping char
  else (isLead char && !isTrail next) || (isTrail char && !isLead previous)

/-- `hex(number, 2)` for a byte. -/
def hex2 (byte : ℕ) : Str :=
  [byte / 16, byte % 16].map fun digit => .ofNat (if digit < 10 then 48 + digit else 55 + digit)

def escapeUChar (char : UChar) : Str :=
  if char ≤ 255 then 0x25 :: hex2 char.toNat
  else 0x25 :: 0x2B :: (hex2 (char.toNat / 256) ++ hex2 (char.toNat % 256))

/-- The loop of `encodeForFileName` after a character. -/
def encodeAfter (previous : UChar) : Str → Str
  | [] => []
  | char :: rest =>
    (if shouldEscapeUChar char previous (rest.headD 0) then escapeUChar char else [char]) ++
      encodeAfter char rest

def encodeForFileName (text : Str) : Str := encodeAfter 0 text

/-- No character of the text is escaped: none that not every file system allows, and no half of
a surrogate pair without the other one. -/
def EscapesNone (text : Str) : Prop :=
  ∀ before char rest, text = before ++ char :: rest →
    shouldEscapeUChar char (before.getLastD 0) (rest.headD 0) = false

theorem length_le_encodeAfter (previous : UChar) (text : Str) :
    text.length ≤ (encodeAfter previous text).length := by
  induction text generalizing previous with
  | nil => exact le_rfl
  | cons char text ih => grind [encodeAfter, escapeUChar]

theorem encodeAfter_eq_self_iff (previous : UChar) (text : Str) :
    encodeAfter previous text = text ↔ ∀ before char rest, text = before ++ char :: rest →
      shouldEscapeUChar char (before.getLastD previous) (rest.headD 0) = false := by
  induction text generalizing previous with
  | nil => simp [encodeAfter]
  | cons char text ih =>
    rw [encodeAfter]
    split
    · next hescape =>
      refine iff_of_false (fun heq => ?_) fun hnone => ?_
      · -- What is written for the character is longer than one character.
        have hlength := congrArg length heq
        have hrest := length_le_encodeAfter char text
        grind [escapeUChar, hex2]
      · exact Bool.false_ne_true ((hnone [] char text rfl).symm.trans hescape)
    · next hplain =>
      rw [singleton_append, cons_inj_right, ih]
      constructor
      · rintro hrest (_ | ⟨first, before⟩) other rest heq
        · cases heq
          exact Bool.eq_false_of_not_eq_true hplain
        · cases heq
          rw [getLastD_cons]
          exact hrest before other rest rfl
      · grind

theorem encodeForFileName_eq_self_iff (text : Str) :
    encodeForFileName text = text ↔ EscapesNone text :=
  encodeAfter_eq_self_iff 0 text

/-! ## Identifiers -/

def separatorCharacter : UChar := 0x5F

/-- `StringBuilder::appendNumber`. -/
def decimal (number : ℕ) : Str := Sql.widen (Nat.toDigits 10 number)

/-- `SecurityOriginData::databaseIdentifier`. -/
def databaseIdentifier (origin : SecurityOriginData) : Str :=
  if equalIgnoringASCIICase origin.protocol (lit "file") then lit "file__0"
  else
    origin.protocol ++ separatorCharacter :: (encodeForFileName origin.host ++
      separatorCharacter :: decimal (origin.port.getD 0).toNat)

/-- `StringImpl::reverseFind`: the last index that holds `char`. -/
def reverseFind (text : Str) (char : UChar) : Option ℕ :=
  (text.reverse.findIdx? (· == char)).map fun index => text.length - 1 - index

/-- `SecurityOriginData::fromDatabaseIdentifier`. -/
def fromDatabaseIdentifier (identifier : Str) : Option SecurityOriginData :=
  match find identifier separatorCharacter 0, reverseFind identifier separatorCharacter with
  | some separator1, some separator2 =>
    if separator1 = separator2 then none
    else
      let portValue := toInt (substringFrom identifier (separator2 + 1))
      let port := portValue.getD 0
      let portAbsent := separator2 = identifier.length - 1
      if ¬ (portValue.isSome ∨ portAbsent) then none
      else if port < 0 ∨ port > 65535 then none
      else
        some
          { protocol := substring identifier 0 separator1
            host := substring identifier (separator1 + 1) (separator2 - separator1 - 1)
            port := if port = 0 then none else some (.ofNat port.toNat) }
  | _, _ => none

/-! ## File names -/

def databaseFileName (origin : SecurityOriginData) : Str :=
  databaseIdentifier origin ++ lit ".localstorage"

/-- The origin of a file that matches `*.localstorage`. -/
def originOfFileName (name : Str) : Option SecurityOriginData :=
  let length := (lit ".localstorage").length
  if lit ".localstorage" <:+ name then
    fromDatabaseIdentifier (substring name 0 (name.length - length))
  else none

/-! ## Reading identifiers back -/

theorem mem_decimal {num : ℕ} {char : UChar} (hmem : char ∈ decimal num) :
    ∃ digit < 10, char = .ofNat (48 + digit) := by
  induction num using Nat.strong_induction_on with
  | _ num ih =>
    rw [decimal] at hmem
    by_cases hsmall : num < 10
    · rw [Nat.toDigits_of_lt_base hsmall] at hmem
      refine ⟨num, hsmall, ?_⟩
      interval_cases num <;> exact mem_singleton.1 hmem
    · rw [Nat.toDigits_of_base_le (by decide) (not_lt.1 hsmall), Sql.widen_append,
        mem_append] at hmem
      rcases hmem with hmem | hmem
      · exact ih (num / 10) (by omega) hmem
      · have hlast : num % 10 < 10 := Nat.mod_lt _ (by decide)
        refine ⟨num % 10, hlast, ?_⟩
        generalize num % 10 = digit at hmem hlast
        interval_cases digit <;> exact mem_singleton.1 hmem

theorem separatorCharacter_not_mem_decimal (num : ℕ) : separatorCharacter ∉ decimal num := by
  intro hmem
  obtain ⟨digit, hdigit, heq⟩ := mem_decimal hmem
  interval_cases digit <;> exact absurd heq (by decide)

theorem toInt_decimal {num : ℕ} (hbound : num < 2 ^ 31) : toInt (decimal num) = some (num : ℤ) := by
  have htext : JsonValues.integerText (num : ℤ) = Nat.toDigits 10 num := by rfl
  have hval := @Sql.toInt_integerText (num : ℤ) (by omega)
  rw [htext, if_pos (by omega)] at hval
  exact hval

theorem reverseFind_append_cons {before rest : Str} {char : UChar} (hfree : char ∉ rest) :
    reverseFind (before ++ char :: rest) char = some before.length := by
  have hnone : rest.reverse.findIdx? (· == char) = none := by grind
  rw [reverseFind, reverse_append, reverse_cons, append_assoc, findIdx?_append, hnone]
  simp [findIdx?_cons]

/-- The parts between the first and the last separator. -/
theorem fromDatabaseIdentifier_join {protocol : Str} (hprotocol : separatorCharacter ∉ protocol)
    (host : Str) (port : UInt16) :
    fromDatabaseIdentifier
        (protocol ++ separatorCharacter :: (host ++ separatorCharacter :: decimal port.toNat)) =
      some
        { protocol := protocol
          host := host
          port := if port = 0 then none else some port } := by
  obtain ⟨ident, hident⟩ : ∃ ident, ident =
      protocol ++ separatorCharacter :: (host ++ separatorCharacter :: decimal port.toNat) :=
    ⟨_, rfl⟩
  have hregroup : ident = (protocol ++ separatorCharacter :: host) ++
      separatorCharacter :: decimal port.toNat := by
    rw [hident, append_assoc, cons_append]
  have hfirst : find ident separatorCharacter 0 = some protocol.length := by
    have hfind := find_append_cons [] protocol (host ++ separatorCharacter :: decimal port.toNat)
      separatorCharacter hprotocol
    rwa [nil_append, ← hident, length_nil, Nat.zero_add] at hfind
  have hlast : reverseFind ident separatorCharacter =
      some (protocol.length + (host.length + 1)) := by
    rw [hregroup, reverseFind_append_cons (separatorCharacter_not_mem_decimal _),
      length_append, length_cons]
  have hport : substringFrom ident (protocol.length + (host.length + 1) + 1) =
      decimal port.toNat := by
    have hsplit : ident = (protocol ++ separatorCharacter :: host ++ [separatorCharacter]) ++
        decimal port.toNat := by
      rw [hregroup, append_assoc _ [separatorCharacter]]
      rfl
    rw [substringFrom, hsplit]
    exact drop_left' (by simp [Nat.add_assoc])
  have hhost : substring ident (protocol.length + 1)
      (protocol.length + (host.length + 1) - protocol.length - 1) = host := by
    have hsplit : ident = (protocol ++ [separatorCharacter]) ++
        (host ++ separatorCharacter :: decimal port.toNat) := by
      rw [hident, append_assoc _ [separatorCharacter]]
      rfl
    have hlen : protocol.length + (host.length + 1) - protocol.length - 1 = host.length := by omega
    rw [substring, hsplit, hlen, drop_left' (by simp)]
    exact take_left' rfl
  have hscheme : substring ident 0 protocol.length = protocol := by
    rw [substring, drop_zero, hident, take_left']
    rfl
  have hbound := port.toNat_lt
  rw [← hident, fromDatabaseIdentifier, hfirst, hlast]
  dsimp only
  rw [if_neg (by omega), hport, toInt_decimal (by omega), hhost, hscheme]
  dsimp only [Option.getD_some]
  rw [if_neg (by simp), if_neg (by omega)]
  have hzero : (port.toNat : ℤ) = 0 ↔ port = 0 := by
    rw [Int.natCast_eq_zero, ← UInt16.toNat_inj]
    rfl
  have hsame : UInt16.ofNat (port.toNat : ℤ).toNat = port := UInt16.ofNat_toNat
  simp only [hzero, hsame]

theorem originOfFileName_databaseFileName (origin : SecurityOriginData) :
    originOfFileName (databaseFileName origin) =
      fromDatabaseIdentifier (databaseIdentifier origin) := by
  rw [originOfFileName, databaseFileName, if_pos (suffix_append _ _), substring,
    drop_zero, length_append, Nat.add_sub_cancel, take_left' rfl]

/-- An origin whose host needs no escaping is read back from its file name, except for what
its identifier does not tell. -/
theorem originOfFileName_of_plain {origin : SecurityOriginData}
    (hprotocol : separatorCharacter ∉ origin.protocol)
    (hhost : encodeForFileName origin.host = origin.host) :
    ∃ reread, originOfFileName (databaseFileName origin) = some reread ∧
      databaseFileName reread = databaseFileName origin := by
  rw [originOfFileName_databaseFileName]
  by_cases hfile : equalIgnoringASCIICase origin.protocol (lit "file") = true
  · have hident : databaseIdentifier origin = lit "file__0" := by
      rw [databaseIdentifier, if_pos hfile]
    refine ⟨⟨lit "file", [], none⟩, ?_, ?_⟩
    · rw [hident]
      decide +kernel
    · rw [databaseFileName, databaseFileName, hident]
      decide +kernel
  · grind [databaseIdentifier, databaseFileName, fromDatabaseIdentifier_join]

/-- An origin that a URL can have: no scheme has a separator in it, files have neither host nor
port, and an explicit port is not 0. -/
structure IsOfURL (origin : SecurityOriginData) : Prop where
  scheme : separatorCharacter ∉ origin.protocol
  file : equalIgnoringASCIICase origin.protocol (lit "file") = true →
    origin = ⟨lit "file", [], none⟩
  port : origin.port ≠ some 0

/-- The origin is read back from its identifier exactly if its host needs no escaping, and so
two such origins have different identifiers. -/
theorem fromDatabaseIdentifier_databaseIdentifier_iff {origin : SecurityOriginData}
    (horigin : IsOfURL origin) :
    (fromDatabaseIdentifier (databaseIdentifier origin) = some origin ↔
      EscapesNone origin.host) ∧
    ∀ other, EscapesNone origin.host →
      fromDatabaseIdentifier (databaseIdentifier other) = some other →
      databaseIdentifier other = databaseIdentifier origin → other = origin := by
  rw [← encodeForFileName_eq_self_iff]
  have hiff : fromDatabaseIdentifier (databaseIdentifier origin) = some origin ↔
      encodeForFileName origin.host = origin.host := by
    by_cases hfile : equalIgnoringASCIICase origin.protocol (lit "file") = true
    · rw [horigin.file hfile]
      exact iff_of_true (by decide +kernel) rfl
    · have hport : (if origin.port.getD 0 = 0 then none else some (origin.port.getD 0)) =
          origin.port := by
        cases hcase : origin.port with
        | none => rfl
        | some port => exact if_neg fun hzero => horigin.port (hcase.trans (congrArg some hzero))
      rw [databaseIdentifier, if_neg hfile, fromDatabaseIdentifier_join horigin.scheme, hport]
      exact ⟨fun heq => congrArg SecurityOriginData.host (Option.some.inj heq),
        fun hhost => by rw [hhost]⟩
  refine ⟨hiff, fun other hhost hother hsame => ?_⟩
  rw [hsame, hiff.2 hhost] at hother
  exact (Option.some.inj hother).symm

theorem fromDatabaseIdentifier_databaseIdentifier_domain :
    fromDatabaseIdentifier (databaseIdentifier ⟨lit "http", lit "a_b.c", some 81⟩) =
      some ⟨lit "http", lit "a_b.c", some 81⟩ :=
  (fromDatabaseIdentifier_databaseIdentifier_iff
    ⟨by decide, fun hfile => absurd hfile (by decide), by decide⟩).1.2
      ((encodeForFileName_eq_self_iff _).1 (by decide))

theorem bracketed_host_is_not_read_back :
    fromDatabaseIdentifier (databaseIdentifier ⟨lit "http", lit "[::1]", none⟩) =
      some ⟨lit "http", lit "[%3A%3A1]", none⟩ := by
  decide +kernel

end PurcFetcher.WebStorage
