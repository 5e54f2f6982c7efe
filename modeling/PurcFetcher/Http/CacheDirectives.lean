import PurcFetcher.Http.CacheControl

/-!
# Cache-Control directives

What a cache is told by the directives of a response, and which directives are found in a header
that lists them.  The names and the values of a list come back from the parser, except that the
spaces in values in quotes are lost.
-/

namespace PurcFetcher.Http.CacheControl

open Text List

/-! ## What the directives say -/

/-- `equalLettersIgnoringASCIICase`, which compares the characters with the bit of lower case
set in each of them. -/
def equalLettersIgnoringASCIICase (text lowercaseLetters : Str) : Bool :=
  text.map (· ||| 0x20) == lowercaseLetters

/-- `String::containsIgnoringASCIICase`. -/
def containsIgnoringASCIICase (text infixText : Str) : Bool :=
  text.tails.any (startsWithIgnoringASCIICase · infixText)

structure CacheControlDirectives (Seconds : Type) where
  noCache : Bool
  noStore : Bool
  mustRevalidate : Bool
  immutable : Bool
  maxAge : Option Seconds
  maxStale : Option Seconds
  staleWhileRevalidate : Option Seconds

def CacheControlDirectives.initial {Seconds : Type} : CacheControlDirectives Seconds where
  noCache := false
  noStore := false
  mustRevalidate := false
  immutable := false
  maxAge := none
  maxStale := none
  staleWhileRevalidate := none

section

-- `String::toDouble`, and the time without an end.
variable {Seconds : Type} (toDouble : Str → Option Seconds) (infinity : Seconds)

/-- The body of the loop over the directives.  The first of several times is kept. -/
def applyDirective (result : CacheControlDirectives Seconds) (directive : Str × Str) :
    CacheControlDirectives Seconds :=
  if equalLettersIgnoringASCIICase directive.1 (lit "no-cache") && directive.2.isEmpty then
    { result with noCache := true }
  else if equalLettersIgnoringASCIICase directive.1 (lit "no-store") then
    { result with noStore := true }
  else if equalLettersIgnoringASCIICase directive.1 (lit "must-revalidate") then
    { result with mustRevalidate := true }
  else if equalLettersIgnoringASCIICase directive.1 (lit "max-age") then
    { result with maxAge := result.maxAge.or (toDouble directive.2) }
  else if equalLettersIgnoringASCIICase directive.1 (lit "max-stale") then
    { result with
      maxStale := result.maxStale.or
        (if directive.2.isEmpty then some infinity else toDouble directive.2) }
  else if equalLettersIgnoringASCIICase directive.1 (lit "immutable") then
    { result with immutable := true }
  else if equalLettersIgnoringASCIICase directive.1 (lit "stale-while-revalidate") then
    { result with
      staleWhileRevalidate := result.staleWhileRevalidate.or (toDouble directive.2) }
  else result

def applyDirectives (directives : List (Str × Str)) : CacheControlDirectives Seconds :=
  directives.foldl (applyDirective toDouble infinity) .initial

def pragmaNoCache (headers : HTTPHeaderMap) : Bool :=
  (contents (headers.getKnown .pragma)).any (containsIgnoringASCIICase · (lit "no-cache"))

/-- There is no result if the parser reads outside of a view. -/
def parseCacheControlDirectives (headers : HTTPHeaderMap) :
    Option (CacheControlDirectives Seconds) :=
  let parsed : Option (CacheControlDirectives Seconds) :=
    match contents (headers.getKnown .cacheControl) with
    | none => some .initial
    | some cacheControlValue =>
      if cacheControlValue.isEmpty then some .initial
      else
        match parseCacheHeader cacheControlValue with
        | .parsed directives => some (applyDirectives toDouble infinity directives)
        | _ => none
  parsed.map fun result =>
    if result.noCache then result else { result with noCache := pragmaNoCache headers }

end

/-! ## Lists of directives -/

def IsToken (text : Str) : Prop :=
  text ≠ [] ∧ ∀ char ∈ text,
    isCacheHeaderSeparator char = false ∧ isControlCharacterOrSpace char = false

instance (text : Str) : Decidable (IsToken text) :=
  @instDecidableAnd _ _ _ (List.decidableBAll _ text)

/-- A text without quotes and control characters. -/
def IsQuotable (text : Str) : Prop :=
  ∀ char ∈ text, char ≠ 0x22 ∧ 0x20 ≤ char ∧ char ≠ 127

instance (text : Str) : Decidable (IsQuotable text) := List.decidableBAll _ text

inductive DirectiveValue
  | absent
  | token (text : Str) (isToken : IsToken text)
  | quoted (text : Str) (isQuotable : IsQuotable text)

structure Directive where
  name : Str
  isToken : IsToken name
  value : DirectiveValue

def DirectiveValue.contents : DirectiveValue → Str
  | absent => []
  | token text _ => text
  | quoted text _ => text

namespace Directive

variable (directive : Directive)

def text : Str :=
  match directive.value with
  | .absent => directive.name
  | .token text _ => directive.name ++ 0x3D :: text
  | .quoted text _ => directive.name ++ 0x3D :: 0x22 :: (text ++ [0x22])

/-- The name and the value that the list has. -/
def nameAndValue : Str × Str := (directive.name, directive.value.contents)

def isNamed (name : Str) : Bool := equalIgnoringASCIICase directive.name name

end Directive

def render (directives : List Directive) : Str :=
  (lit ", ").intercalate (directives.map Directive.text)

/-! ## Reading a list back -/

def withoutSpaces (text : Str) : Str := text.filter (· != 0x20)

/-- The item that the parser finds for a directive. -/
def Directive.item (directive : Directive) : Item :=
  match directive.value with
  | .absent => .bare directive.name
  | .token text _ => .token directive.name text
  | .quoted text _ => .quoted directive.name (withoutSpaces text) []

theorem safeHeaderString_append (left right : Str) :
    safeHeaderString (left ++ right) = safeHeaderString left ++ safeHeaderString right :=
  filter_append left right

variable {text letters : Str}

section

variable (htoken : IsToken text)
include htoken

theorem IsToken.safe : safeHeaderString text = text := by
  apply filter_eq_self.2
  intro char hchar
  rw [(htoken.2 char hchar).2]
  rfl

theorem IsToken.trim : trimToNextSeparator text = text := by
  apply takeWhile_eq_self_iff.2
  intro char hchar
  rw [(htoken.2 char hchar).1]
  rfl

theorem IsToken.notMem {char : UChar}
    (hchar : isCacheHeaderSeparator char = true) : char ∉ text := by
  intro hmem
  rw [(htoken.2 char hmem).1] at hchar
  exact Bool.false_ne_true hchar

theorem IsToken.nameFree : NameFree text := ⟨htoken.notMem (by decide), htoken.notMem (by decide)⟩

end

theorem IsQuotable.safe (hquotable : IsQuotable text) :
    safeHeaderString text = withoutSpaces text := by
  apply filter_congr
  intro char hchar
  obtain ⟨-, hle, hdelete⟩ := hquotable char hchar
  have hspace : decide (char ≤ 0x20) = (char == 0x20) := by grind
  rw [isControlCharacterOrSpace, hspace, beq_eq_false_iff_ne.2 hdelete, Bool.or_false]
  rfl

variable (directive : Directive)

theorem Directive.wellFormed_item : directive.item.WellFormed := by
  obtain ⟨name, hname, val⟩ := directive
  cases val with
  | absent => exact hname.nameFree
  | token text htoken =>
    refine ⟨hname.nameFree, htoken.notMem (by decide), fun hhead => ?_⟩
    exact htoken.notMem (by decide) (mem_of_head? hhead)
  | quoted text hquotable =>
    refine ⟨hname.nameFree, fun hmem => ?_, not_mem_nil⟩
    exact (hquotable 0x22 (mem_filter.1 hmem).1).1 rfl

theorem Directive.safe_text : safeHeaderString directive.text = directive.item.text := by
  obtain ⟨name, hname, val⟩ := directive
  cases val with
  | absent => exact hname.safe
  | token text htoken =>
    calc safeHeaderString (name ++ ([0x3D] ++ text))
        = safeHeaderString name ++ (safeHeaderString [0x3D] ++ safeHeaderString text) := by
          rw [safeHeaderString_append, safeHeaderString_append]
      _ = name ++ ([0x3D] ++ text) := by
          rw [hname.safe, htoken.safe]
          rfl
  | quoted text hquotable =>
    calc safeHeaderString (name ++ ([0x3D, 0x22] ++ (text ++ [0x22])))
        = safeHeaderString name ++ (safeHeaderString [0x3D, 0x22] ++
            (safeHeaderString text ++ safeHeaderString [0x22])) := by
          rw [safeHeaderString_append, safeHeaderString_append, safeHeaderString_append]
      _ = name ++ ([0x3D, 0x22] ++ (withoutSpaces text ++ [0x22])) := by
          rw [hname.safe, hquotable.safe]
          rfl

theorem safe_render (dirs : List Directive) (last : Directive) :
    safeHeaderString (render (dirs ++ [last])) =
      textOf (dirs.map Directive.item) ++ last.item.text := by
  induction dirs with
  | nil =>
    rw [nil_append, render, map_singleton, intercalate_singleton, last.safe_text]
    rfl
  | cons dir dirs ih =>
    have hne : (dirs ++ [last]).map Directive.text ≠ [] := by
      rw [map_append]
      exact append_ne_nil_of_right_ne_nil _ (cons_ne_nil _ _)
    calc safeHeaderString (render (dir :: (dirs ++ [last])))
        = safeHeaderString (dir.text ++ lit ", " ++ render (dirs ++ [last])) := by
          rw [render, map_cons, intercalate_cons_of_ne_nil hne, render]
      _ = dir.item.text ++ [0x2C] ++ (textOf (dirs.map Directive.item) ++ last.item.text) := by
          rw [safeHeaderString_append, safeHeaderString_append, dir.safe_text, ih]
          rfl
      _ = textOf ((dir :: dirs).map Directive.item) ++ last.item.text := by
          rw [map_cons, textOf_cons, append_assoc, append_assoc]
          rfl

theorem Directive.parse_item (res : List (Str × Str)) :
    (Ending.complete directive.item).parse res = .parsed (res ++ [directive.item.directive]) := by
  obtain ⟨name, hname, val⟩ := directive
  cases val with
  | absent =>
    obtain ⟨first, tail, rfl⟩ := exists_cons_of_ne_nil hname.1
    rfl
  | token text htoken =>
    obtain ⟨first, tail, rfl⟩ := exists_cons_of_ne_nil htoken.1
    rfl
  | quoted => rfl

theorem Directive.item_directive :
    directive.item.directive = (directive.name, withoutSpaces directive.value.contents) := by
  obtain ⟨name, hname, val⟩ := directive
  cases val with
  | absent | quoted => exact Prod.ext hname.trim rfl
  | token text htoken =>
    have hspaces : withoutSpaces text = text := by
      apply filter_eq_self.2
      intro char hchar
      exact bne_iff_ne.2 fun heq => htoken.notMem (by decide) (heq ▸ hchar)
    exact Prod.ext hname.trim (htoken.trim.trans hspaces.symm)

theorem parse_render (dirs : List Directive) :
    parseCacheHeader (render dirs) = .parsed (dirs.map fun directive =>
      (directive.name, withoutSpaces directive.value.contents)) := by
  rcases eq_nil_or_concat dirs with rfl | ⟨dirs, last, rfl⟩
  · rfl
  have hitems : ∀ item ∈ dirs.map Directive.item, item.WellFormed := by
    intro item hitem
    obtain ⟨directive, -, rfl⟩ := mem_map.1 hitem
    exact directive.wellFormed_item
  have hlast : (Ending.complete last.item).WellFormed := last.wellFormed_item
  rw [concat_eq_append, parseCacheHeader, safe_render]
  calc _ = (Ending.complete last.item).parse ((dirs.map Directive.item).map Item.directive) :=
        parseRounds_eq hitems hlast (Nat.le_refl _)
    _ = .parsed ((dirs ++ [last]).map fun directive => directive.item.directive) := by
        rw [last.parse_item, map_append, map_map]
        rfl
    _ = _ := by simp only [Directive.item_directive]

/-! ## Directives at any position -/

theorem foldl_flag {State A : Type*} {step : State → A → State} (flag : State → Bool)
    (sets : A → Bool) (hstep : ∀ s val, flag (step s val) = (flag s || sets val))
    (s : State) (values : List A) :
    flag (values.foldl step s) = (flag s || values.any sets) := by
  induction values generalizing s with
  | nil => exact (Bool.or_false _).symm
  | cons val values ih => rw [foldl_cons, ih, hstep, any_cons, Bool.or_assoc]

/-- The characters of the names that the source compares with. -/
def isLowerOrHyphen (char : UChar) : Bool := char == 0x2D || (0x61 ≤ char && char ≤ 0x7A)

theorem or_eq_iff_of_lt : ∀ char : Fin 128, ∀ letter : Fin 128,
    isControlCharacterOrSpace (UInt16.ofNat char) = false →
      isLowerOrHyphen (UInt16.ofNat letter) = true →
        (UInt16.ofNat char ||| 0x20 = UInt16.ofNat letter ↔
          toASCIILower (UInt16.ofNat char) = UInt16.ofNat letter) := by
  decide +kernel

theorem toNat_lt_of_isLowerOrHyphen {letter : UChar} (hletter : isLowerOrHyphen letter = true) :
    letter.toNat < 128 := by
  rw [isLowerOrHyphen, Bool.or_eq_true, beq_iff_eq, Bool.and_eq_true, decide_eq_true_iff,
    decide_eq_true_iff] at hletter
  rcases hletter with rfl | ⟨-, hle⟩
  · decide
  · exact Nat.lt_of_le_of_lt (UInt16.le_iff_toNat_le.1 hle) (by decide)

/-- The bit of lower case makes a difference in control characters and in capitals only. -/
theorem or_eq_iff_toASCIILower_eq {char letter : UChar}
    (hchar : isControlCharacterOrSpace char = false) (hletter : isLowerOrHyphen letter = true) :
    char ||| 0x20 = letter ↔ toASCIILower char = letter := by
  have hlt := toNat_lt_of_isLowerOrHyphen hletter
  by_cases hsmall : char.toNat < 128
  · have hcases := or_eq_iff_of_lt ⟨char.toNat, hsmall⟩ ⟨letter.toNat, hlt⟩
    rw [UInt16.ofNat_toNat, UInt16.ofNat_toNat] at hcases
    exact hcases hchar hletter
  · have hlower : toASCIILower char = char := by
      have hnot : isASCIIUpper char = false := by
        rw [isASCIIUpper, Bool.and_eq_false_iff]
        refine Or.inr (decide_eq_false fun hle => hsmall ?_)
        exact Nat.lt_of_le_of_lt (UInt16.le_iff_toNat_le.1 hle) (by decide)
      rw [toASCIILower, hnot, if_neg Bool.false_ne_true]
    have hor : char.toNat ≤ (char ||| 0x20).toNat := by exact Nat.left_le_or
    constructor
    · rintro rfl
      exact absurd (Nat.lt_of_le_of_lt hor hlt) hsmall
    · rintro rfl
      rw [hlower] at hlt
      exact absurd hlt hsmall

theorem map_beq_congr {f g : UChar → UChar}
    (hsame : ∀ char ∈ text, ∀ letter ∈ letters, (f char = letter ↔ g char = letter)) :
    (text.map f == letters) = (text.map g == letters) := by
  induction text generalizing letters with
  | nil => rfl
  | cons char text ih =>
    cases letters with
    | nil => rfl
    | cons letter =>
      have hhead := hsame char mem_cons_self letter mem_cons_self
      have htail := ih fun char hchar letter hletter =>
        hsame char (mem_cons_of_mem _ hchar) letter (mem_cons_of_mem _ hletter)
      rw [map_cons, map_cons, cons_beq_cons, cons_beq_cons, htail,
        Bool.eq_iff_iff.2 (beq_iff_eq.trans (hhead.trans beq_iff_eq.symm))]

theorem IsToken.equalLetters_eq {name : Str} (htoken : IsToken name)
    (hletters : letters.all isLowerOrHyphen = true)
    (hlower : convertToASCIILowercase letters = letters) :
    equalLettersIgnoringASCIICase name letters = equalIgnoringASCIICase name letters := by
  rw [equalLettersIgnoringASCIICase, equalIgnoringASCIICase, hlower, convertToASCIILowercase]
  apply map_beq_congr
  intro char hchar letter hletter
  exact or_eq_iff_toASCIILower_eq (htoken.2 char hchar).2 (all_eq_true.1 hletters _ hletter)

theorem equalLetters_of_ne {name others : Str}
    (hname : equalLettersIgnoringASCIICase name letters = true) (hne : letters ≠ others) :
    equalLettersIgnoringASCIICase name others = false := by
  apply beq_eq_false_iff_ne.2
  rw [beq_iff_eq.1 hname]
  exact hne

section

variable {Seconds : Type} (toDouble : Str → Option Seconds) (infinity : Seconds)
  (result : CacheControlDirectives Seconds)

theorem noStore_applyDirective (dir : Str × Str) :
    (applyDirective toDouble infinity result dir).noStore =
      (result.noStore || equalLettersIgnoringASCIICase dir.1 (lit "no-store")) := by
  rw [applyDirective]
  by_cases hstore : equalLettersIgnoringASCIICase dir.1 (lit "no-store") = true
  · rw [equalLetters_of_ne hstore (show lit "no-store" ≠ lit "no-cache" by decide), hstore]
    simp
  · grind

theorem mustRevalidate_applyDirective (dir : Str × Str) :
    (applyDirective toDouble infinity result dir).mustRevalidate =
      (result.mustRevalidate || equalLettersIgnoringASCIICase dir.1 (lit "must-revalidate")) := by
  rw [applyDirective]
  by_cases hmust : equalLettersIgnoringASCIICase dir.1 (lit "must-revalidate") = true
  · rw [equalLetters_of_ne hmust (show lit "must-revalidate" ≠ lit "no-cache" by decide),
      equalLetters_of_ne hmust (show lit "must-revalidate" ≠ lit "no-store" by decide), hmust]
    simp
  · grind

theorem noCache_applyDirective (dir : Str × Str) :
    (applyDirective toDouble infinity result dir).noCache =
      (result.noCache || (equalLettersIgnoringASCIICase dir.1 (lit "no-cache") &&
        dir.2.isEmpty)) := by
  rw [applyDirective]
  split
  · next hcache => rw [hcache, Bool.or_true]
  · grind

/-- The result for a header which lists the directives. -/
structure Sees (headers : HTTPHeaderMap) (directives : List Directive)
    (result : CacheControlDirectives Seconds) : Prop where
  noStore : result.noStore = directives.any (·.isNamed (lit "no-store"))
  mustRevalidate : result.mustRevalidate = directives.any (·.isNamed (lit "must-revalidate"))
  noCache : result.noCache = (directives.any (fun directive =>
    directive.isNamed (lit "no-cache") && directive.value.contents.all (· == 0x20)) ||
      pragmaNoCache headers)

/-- The directives are seen wherever they stand in the list. -/
def SeenInHeaders (directives : List Directive) : Prop :=
  ∀ headers : HTTPHeaderMap,
    contents (headers.getKnown .cacheControl) = some (render directives) →
      ∃ result, parseCacheControlDirectives toDouble infinity headers = some result ∧
        Sees headers directives result

/-- What the parser finds for the directives of a list. -/
abbrev parsedDirectives (directives : List Directive) : List (Str × Str) :=
  directives.map fun directive => (directive.name, withoutSpaces directive.value.contents)

theorem isEmpty_withoutSpaces (text : Str) :
    (withoutSpaces text).isEmpty = text.all (· == 0x20) := by
  rw [Bool.eq_iff_iff, List.isEmpty_iff, withoutSpaces, filter_eq_nil_iff, all_eq_true]
  apply forall₂_congr
  intro char _
  rw [bne_iff_ne, not_not, beq_iff_eq]

theorem any_parsedDirectives {letters : Str} (hletters : letters.all isLowerOrHyphen = true)
    (hlower : convertToASCIILowercase letters = letters) (dirs : List Directive) :
    (parsedDirectives dirs).any (fun directive =>
        equalLettersIgnoringASCIICase directive.1 letters) =
      dirs.any (·.isNamed letters) := by
  rw [any_map]
  congr 1
  funext directive
  exact directive.isToken.equalLetters_eq hletters hlower

/-- The flags after all directives, before Pragma is looked at. -/
theorem flags_applyDirectives (dirs : List Directive) :
    let result := applyDirectives toDouble infinity (parsedDirectives dirs)
    result.noStore = dirs.any (·.isNamed (lit "no-store")) ∧
      result.mustRevalidate = dirs.any (·.isNamed (lit "must-revalidate")) ∧
      result.noCache = dirs.any fun directive =>
        directive.isNamed (lit "no-cache") && directive.value.contents.all (· == 0x20) := by
  refine ⟨?_, ?_, ?_⟩
  · apply (foldl_flag CacheControlDirectives.noStore _
      (noStore_applyDirective toDouble infinity) .initial _).trans
    exact any_parsedDirectives (by decide) (by decide) dirs
  · apply (foldl_flag CacheControlDirectives.mustRevalidate _
      (mustRevalidate_applyDirective toDouble infinity) .initial _).trans
    exact any_parsedDirectives (by decide) (by decide) dirs
  · apply (foldl_flag CacheControlDirectives.noCache _
      (noCache_applyDirective toDouble infinity) .initial _).trans
    apply any_map.trans
    apply congrArg dirs.any
    funext directive
    rw [Function.comp_apply, directive.isToken.equalLetters_eq (by decide) (by decide),
      isEmpty_withoutSpaces]
    rfl

theorem parseCacheControlDirectives_render {headers : HTTPHeaderMap} {dirs : List Directive}
    (hheader : contents (headers.getKnown .cacheControl) = some (render dirs)) :
    parseCacheControlDirectives toDouble infinity headers =
      some (let result := applyDirectives toDouble infinity (parsedDirectives dirs)
        if result.noCache then result else { result with noCache := pragmaNoCache headers }) := by
  rw [parseCacheControlDirectives, hheader]
  by_cases hempty : render dirs = []
  · have hnone : parsedDirectives dirs = [] := by
      have hparse := parse_render dirs
      rw [hempty] at hparse
      exact (Parse.parsed.inj hparse).symm
    rw [hnone, hempty]
    rfl
  · grind [parse_render]

theorem seenInHeaders (dirs : List Directive) :
    SeenInHeaders toDouble infinity dirs := by
  intro headers hheader
  obtain ⟨hstore, hmust, hcache⟩ := flags_applyDirectives toDouble infinity dirs
  refine ⟨_, parseCacheControlDirectives_render toDouble infinity hheader, ?_⟩
  dsimp only
  split
  · next hset =>
    rw [hset] at hcache
    exact ⟨hstore, hmust, by rw [hset, ← hcache, Bool.true_or]⟩
  · next hset =>
    rw [Bool.not_eq_true] at hset
    rw [hset] at hcache
    exact ⟨hstore, hmust, by rw [← hcache, Bool.false_or]⟩

/-- A list of directives comes back exactly if no value has a space, and the directives that a
cache actions on are seen in every list. -/
theorem parse_render_iff (directives : List Directive) :
    (parseCacheHeader (render directives) = .parsed (directives.map Directive.nameAndValue) ↔
      ∀ directive ∈ directives, 0x20 ∉ directive.value.contents) ∧
    SeenInHeaders toDouble infinity directives := by
  refine ⟨?_, seenInHeaders toDouble infinity directives⟩
  rw [parse_render, Parse.parsed.injEq, map_inj_left]
  apply forall₂_congr
  intro directive _
  rw [Directive.nameAndValue, Prod.mk.injEq, withoutSpaces, filter_eq_self]
  constructor
  · rintro ⟨-, hkept⟩ hmem
    exact absurd (hkept _ hmem) (by decide)
  · grind

end

theorem isToken_private : IsToken (lit "private") := by
  decide

theorem isQuotable_withSpace : IsQuotable (lit "a, b") := by
  decide

def privateFields : Directive where
  name := lit "private"
  isToken := isToken_private
  value := .quoted (lit "a, b") isQuotable_withSpace

theorem space_in_quotes_lost :
    render [privateFields] = lit "private=\"a, b\"" ∧
      parseCacheHeader (render [privateFields]) = .parsed [(lit "private", lit "a,b")] ∧
      [privateFields].map Directive.nameAndValue = [(lit "private", lit "a, b")] := by
  decide +kernel

end PurcFetcher.Http.CacheControl
