import PurcFetcher.Wtf.Text

/-!
# The charset of a media type

The search for a parameter `charset` goes on after each match that is no parameter.  Reading a
character beyond the end gives zero, which is no sign of equality.
-/

namespace PurcFetcher.Http.MediaType

open List Text

/-- `String::operator[]`. -/
def characterAt (text : Str) (pos : ℕ) : UChar := text.getD pos 0

def findIgnoringASCIICase (text wanted : Str) (start : ℕ) : Option ℕ :=
  (range' start (text.length + 1 - wanted.length - start)).find? fun pos =>
    startsWithIgnoringASCIICase (text.drop pos) wanted

def isBlank (character : UChar) : Bool := character ≤ 0x20

def isBlankOrQuote (character : UChar) : Bool :=
  isBlank character || character == 0x22 || character == 0x27

def isCharsetCharacter (character : UChar) : Bool :=
  !isBlankOrQuote character && character != 0x3B

variable (mediaType : Str)

/-- The loop `while (pos != length && skips(mediaType[pos])) ++pos`, or `none` if it takes more
rounds than `fuel`. -/
def skip (skips : UChar → Bool) : ℕ → ℕ → Option ℕ
  | 0, _ => none
  | fuel + 1, pos =>
    if pos ≠ mediaType.length ∧ skips (characterAt mediaType pos) then skip skips fuel (pos + 1)
    else some pos

/-- The loop over the charset tests `pos`, which does not move, against the length: it is the
zero beyond the end that stops it. -/
def skipCharset (pos : ℕ) : ℕ → ℕ → Option ℕ
  | 0, _ => none
  | fuel + 1, endpos =>
    if pos ≠ mediaType.length ∧ isCharsetCharacter (characterAt mediaType endpos) then
      skipCharset pos fuel (endpos + 1)
    else some endpos

/-- The rounds from `pos` on: the position and the length, or `none` if `fuel` runs out. -/
def findCharset (start : ℕ) : ℕ → ℕ → Option (ℕ × ℕ)
  | 0, _ => none
  | fuel + 1, pos =>
    if mediaType.length ≤ pos then some (start, 0)
    else
      match findIgnoringASCIICase mediaType (lit "charset") pos with
      | none | some 0 => some (start, 0)
      | some (before + 1) =>
        -- Is what was found a beginning of a word?
        if !isBlank (characterAt mediaType before) && characterAt mediaType before != 0x3B then
          findCharset start fuel (before + 8)
        else
          (skip mediaType isBlank (mediaType.length + 1) (before + 8)).bind fun pos =>
            if characterAt mediaType pos ≠ 0x3D then findCharset start fuel (pos + 1)
            else
              (skip mediaType isBlankOrQuote (mediaType.length + 1) (pos + 1)).bind fun pos =>
                (skipCharset mediaType pos (mediaType.length + 1) pos).map fun endpos =>
                  (pos, endpos - pos)

def findCharsetInMediaType (start : ℕ) : Option (ℕ × ℕ) :=
  findCharset mediaType start (mediaType.length + 1) start

def extractCharsetFromMediaType : Option Str :=
  (findCharsetInMediaType mediaType 0).map fun range => substring mediaType range.1 range.2

/-- The range lies in the string and holds the value of a parameter: before it stand the name, at
`name`, blanks, the sign of equality, at `sign`, and blanks or quotes. -/
structure IsCharset (range : ℕ × ℕ) (name sign : ℕ) : Prop where
  inside : range.1 + range.2 ≤ mediaType.length
  named : startsWithIgnoringASCIICase (mediaType.drop name) (lit "charset") = true
  order : name + 7 ≤ sign ∧ sign < range.1
  blanks : ∀ pos, name + 7 ≤ pos → pos < sign → isBlank (characterAt mediaType pos) = true
  equals : characterAt mediaType sign = 0x3D
  quotes : ∀ pos, sign + 1 ≤ pos → pos < range.1 → isBlankOrQuote (characterAt mediaType pos) = true
  charset : ∀ pos, range.1 ≤ pos → pos < range.1 + range.2 →
    isCharsetCharacter (characterAt mediaType pos) = true

variable {mediaType : Str}

theorem skip_spec (skips : UChar → Bool) {fuel pos : ℕ} (hpos : pos ≤ mediaType.length)
    (hfuel : mediaType.length < fuel + pos) :
    ∃ next, skip mediaType skips fuel pos = some next ∧ pos ≤ next ∧ next ≤ mediaType.length ∧
      ∀ other, pos ≤ other → other < next → skips (characterAt mediaType other) = true := by
  induction fuel generalizing pos with
  | zero => omega
  | succ fuel ih =>
    rw [skip]
    split
    · next hround =>
      obtain ⟨next, hskip, hle, hnext, hall⟩ := @ih (pos + 1) (by omega) (by omega)
      refine ⟨next, hskip, by omega, hnext, fun other hother hlt => ?_⟩
      obtain rfl | hlater := hother.eq_or_lt
      · exact hround.2
      · exact hall other hlater hlt
    · exact ⟨pos, rfl, le_rfl, hpos, fun other hle hlt => absurd hlt (not_lt.2 hle)⟩

theorem lt_length_of_isCharsetCharacter {pos : ℕ}
    (hcharset : isCharsetCharacter (characterAt mediaType pos) = true) :
    pos < mediaType.length := by
  by_contra hend
  rw [characterAt, getD_eq_default _ _ (not_lt.1 hend)] at hcharset
  exact absurd hcharset (by decide)

/-- No character of a charset stands at the end, so that the missing test is not missed. -/
theorem skipCharset_eq_skip {pos endpos : ℕ} (fuel : ℕ)
    (hpos : pos = mediaType.length → endpos = mediaType.length) :
    skipCharset mediaType pos fuel endpos = skip mediaType isCharsetCharacter fuel endpos := by
  induction fuel generalizing endpos with
  | zero => rfl
  | succ fuel ih =>
    rw [skipCharset, skip]
    by_cases hround : isCharsetCharacter (characterAt mediaType endpos) = true
    · have hlt := lt_length_of_isCharsetCharacter hround
      have hne : pos ≠ mediaType.length := fun hend => hlt.ne (hpos hend)
      rw [if_pos ⟨hne, hround⟩, if_pos ⟨hlt.ne, hround⟩, ih fun hend => absurd hend hne]
    · rw [if_neg fun hboth => hround hboth.2, if_neg fun hboth => hround hboth.2]

/-- By induction on the fuel: a round that finds no parameter goes on further to the right. -/
theorem findCharset_spec (start : ℕ) {fuel pos : ℕ} (hfuel : mediaType.length - pos < fuel) :
    ∃ range, findCharset mediaType start fuel pos = some range ∧
      (range = (start, 0) ∨ ∃ name sign, IsCharset mediaType range name sign) := by
  induction fuel generalizing pos with
  | zero => exact absurd hfuel (Nat.not_lt_zero _)
  | succ fuel ih =>
    rw [findCharset]
    split
    · exact ⟨_, rfl, .inl rfl⟩
    · next hpos =>
      split
      · exact ⟨_, rfl, .inl rfl⟩
      · exact ⟨_, rfl, .inl rfl⟩
      · next before hfind =>
        obtain ⟨hlater, hend⟩ := mem_range'_1.1 (mem_of_find?_eq_some hfind)
        rw [show (lit "charset").length = 7 from rfl] at hend
        split
        · exact ih (by omega)
        · have hname : before + 8 ≤ mediaType.length := by omega
          have hrounds (pos : ℕ) : mediaType.length < mediaType.length + 1 + pos := by omega
          obtain ⟨sign, hskip, hsign, hle, hblanks⟩ := skip_spec isBlank hname (hrounds _)
          rw [hskip, Option.bind_some]
          split
          · exact ih (by omega)
          · next hequals =>
            have hlt : sign < mediaType.length := by
              refine hle.lt_of_ne fun hend => hequals ?_
              simp [characterAt, hend]
            obtain ⟨first, hskip, hfirst, hle, hquotes⟩ :=
              skip_spec isBlankOrQuote hlt (hrounds _)
            rw [hskip, Option.bind_some, skipCharset_eq_skip _ id]
            obtain ⟨last, hskip, hlast, hle, hcharset⟩ :=
              skip_spec isCharsetCharacter hle (hrounds _)
            rw [hskip, Option.map_some]
            have hnamed := find?_some hfind
            rw [← Nat.add_sub_of_le hlast] at hle hcharset
            exact ⟨_, rfl, .inr ⟨before + 1, sign, hle, hnamed, ⟨hsign, hfirst⟩, hblanks,
              not_not.1 hequals, hquotes, hcharset⟩⟩

/-- The search ends with a length of zero or with the value of a parameter, which lies in the
string. -/
theorem charset_lies_in_mediaType (mediaType : Str) (start : ℕ) :
    (∃ range, findCharsetInMediaType mediaType start = some range ∧
      (range.2 = 0 ∨ ∃ name sign, IsCharset mediaType range name sign)) ∧
    ∃ range, findCharsetInMediaType mediaType 0 = some range ∧
      extractCharsetFromMediaType mediaType = some (substring mediaType range.1 range.2) ∧
      range.1 + range.2 ≤ mediaType.length := by
  constructor
  · obtain ⟨range, hfind, hrange⟩ := @findCharset_spec mediaType start _ start
      (Nat.lt_succ_of_le (Nat.sub_le _ _))
    exact ⟨range, hfind, hrange.imp_left (congrArg Prod.snd)⟩
  · obtain ⟨range, hfind, hrange⟩ := @findCharset_spec mediaType 0 _ 0
      (Nat.lt_succ_self _)
    refine ⟨range, hfind, congrArg (Option.map _) hfind, ?_⟩
    obtain rfl | ⟨name, sign, hcharset⟩ := hrange
    · exact Nat.zero_le _
    · exact hcharset.inside

end PurcFetcher.Http.MediaType
