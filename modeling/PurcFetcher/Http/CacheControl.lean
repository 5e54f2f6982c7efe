import PurcFetcher.Http.Parsers

/-!
# Cache-Control

`parseCacheHeader` reads a list of directives, each a name with no value, with a value up to the
next comma or with a value in quotes.  Spaces and control characters are removed from the whole
header before it is read, also from the values in quotes.

The first character of a value is read without a test whether there is one.
-/

namespace PurcFetcher.Http.CacheControl

open Pieces Text List

/-! ## The parser -/

def isCacheHeaderSeparator (char : UChar) : Bool :=
  (lit "()<>@,;:\\\"/[]?=\x7b\x7d \t").contains char

def isControlCharacterOrSpace (char : UChar) : Bool :=
  char ≤ 0x20 || char == 127

/-- `string.substring(0, string.find(isCacheHeaderSeparator))`. -/
def trimToNextSeparator (view : Str) : Str :=
  view.takeWhile fun char => !isCacheHeaderSeparator char

/-- What one round of the loop does. -/
inductive Round
  | outside
  | last (directive : Str × Str)
  | next (directive : Str × Str) (pos : ℕ)
deriving DecidableEq

/-- The right hand side of an equal sign, which begins at `pos`. -/
def parseValue (safeHeader directive : Str) (pos : ℕ) : Round :=
  let value := substring safeHeader pos (safeHeader.length - pos)
  match value with
  | [] => .outside
  | first :: _ =>
    if first == 0x22 then
      match find value 0x22 1 with
      | none => .last (directive, trimToNextSeparator (substringFrom value 1))
      | some nextDoubleQuotePosition =>
        let quoted := (directive, substring value 1 (nextDoubleQuotePosition - 1))
        let pos := (find safeHeader 0x22 pos).getD pos + nextDoubleQuotePosition + 1
        match find safeHeader 0x2C pos with
        | none => .last quoted
        | some nextCommaPosition => .next quoted (nextCommaPosition + 1)
    else
      match find value 0x2C 0 with
      | none => .last (directive, trimToNextSeparator value)
      | some nextCommaPosition =>
        .next (directive, trimToNextSeparator (substring value 0 nextCommaPosition))
          ((find safeHeader 0x2C pos).getD pos + 1)

def parseDirective (safeHeader : Str) (pos : ℕ) : Round :=
  let directiveUpTo (length : ℕ) := trimToNextSeparator (substring safeHeader pos length)
  match find safeHeader 0x2C pos, find safeHeader 0x3D pos with
  | none, none => .last (directiveUpTo (safeHeader.length - pos), [])
  | some nextCommaPosition, none =>
    .next (directiveUpTo (nextCommaPosition - pos), []) (nextCommaPosition + 1)
  | none, some nextEqualSignPosition =>
    parseValue safeHeader (directiveUpTo (nextEqualSignPosition - pos)) (nextEqualSignPosition + 1)
  | some nextCommaPosition, some nextEqualSignPosition =>
    if nextCommaPosition < nextEqualSignPosition then
      .next (directiveUpTo (nextCommaPosition - pos), []) (nextCommaPosition + 1)
    else
      parseValue safeHeader (directiveUpTo (nextEqualSignPosition - pos))
        (nextEqualSignPosition + 1)

/-- How the parser ends, or that it has not ended yet. -/
inductive Parse
  | running
  | outside
  | parsed (result : List (Str × Str))
deriving DecidableEq

/-- At most `rounds` rounds of the loop. -/
def parseRounds (safeHeader : Str) : ℕ → ℕ → List (Str × Str) → Parse
  | 0, pos, result => if pos < safeHeader.length then .running else .parsed result
  | rounds + 1, pos, result =>
    if pos < safeHeader.length then
      match parseDirective safeHeader pos with
      | .outside => .outside
      | .last directive => .parsed (result ++ [directive])
      | .next directive pos => parseRounds safeHeader rounds pos (result ++ [directive])
    else .parsed result

def safeHeaderString (header : Str) : Str :=
  header.filter fun char => !isControlCharacterOrSpace char

/-- `parseCacheHeader`, with a round for each character that is left. -/
def parseCacheHeader (header : Str) : Parse :=
  parseRounds (safeHeaderString header) (safeHeaderString header).length 0 []

/-! ## Directives in a header -/

/-- A directive as it stands in a header.  After a value in quotes everything is skipped up to
the next comma. -/
inductive Item
  | bare (name : Str)
  | token (name value : Str)
  | quoted (name value skipped : Str)

namespace Item

def text : Item → Str
  | bare name => name
  | token name value => name ++ 0x3D :: value
  | quoted name value skipped => name ++ 0x3D :: 0x22 :: (value ++ 0x22 :: skipped)

def directive : Item → Str × Str
  | bare name => (trimToNextSeparator name, [])
  | token name value => (trimToNextSeparator name, trimToNextSeparator value)
  | quoted name value _ => (trimToNextSeparator name, value)

end Item

/-- A name ends at the first comma or equal sign. -/
def NameFree (name : Str) : Prop := 0x2C ∉ name ∧ 0x3D ∉ name

/-- The item ends where the parser takes it to end. -/
def Item.WellFormed : Item → Prop
  | .bare name => NameFree name
  | .token name value => NameFree name ∧ 0x2C ∉ value ∧ value.head? ≠ some 0x22
  | .quoted name value skipped => NameFree name ∧ 0x22 ∉ value ∧ 0x2C ∉ skipped

def textOf (items : List Item) : Str := items.flatMap fun item => item.text ++ [0x2C]

/-- What stands after the last comma between items. -/
inductive Ending
  | complete (item : Item)
  | unterminated (name rest : Str)

namespace Ending

def text : Ending → Str
  | complete item => item.text
  | unterminated name rest => name ++ 0x3D :: 0x22 :: rest

def WellFormed : Ending → Prop
  | complete item => item.WellFormed
  | unterminated name rest => NameFree name ∧ 0x22 ∉ rest

def parse (result : List (Str × Str)) : Ending → Parse
  | complete (.bare []) => .parsed result
  | complete (.token _ []) => .outside
  | complete item => .parsed (result ++ [item.directive])
  | unterminated name rest =>
    .parsed (result ++ [(trimToNextSeparator name, trimToNextSeparator rest)])

end Ending

theorem substring_append (before run rest : Str) :
    substring (before ++ run ++ rest) before.length run.length = run := by
  rw [substring, append_assoc, drop_left, take_left]

theorem substring_to_end (before rest : Str) :
    substring (before ++ rest) before.length ((before ++ rest).length - before.length) = rest := by
  rw [substring, drop_left, length_append, Nat.add_sub_cancel_left, take_length]

theorem find_append_of_notMem {before rest : Str} {char : UChar} (hfree : char ∉ rest) :
    find (before ++ rest) char before.length = none := by
  rwa [find_eq_none_iff, drop_left]

theorem le_of_find_append {before run rest : Str} {char : UChar} {pos : ℕ} (hfree : char ∉ run)
    (hfind : find (before ++ run ++ rest) char before.length = some pos) :
    before.length + run.length ≤ pos := by
  have hrun : run.findIdx? (· == char) = none := by grind
  rw [find, append_assoc, drop_left, findIdx?_append, hrun, Option.none_or,
    Option.map_map, Option.map_eq_some_iff] at hfind
  obtain ⟨offset, -, rfl⟩ := hfind
  simp only [Function.comp_apply]
  omega

/-! ## One round -/

section Rounds

variable {before name value skipped rest : Str} (directive : Str)

theorem parseValue_token (hfree : 0x2C ∉ value) (hhead : value.head? ≠ some 0x22) :
    parseValue (before ++ value ++ 0x2C :: rest) directive before.length =
      .next (directive, trimToNextSeparator value) (before.length + value.length + 1) := by
  have hview := substring_to_end before (value ++ 0x2C :: rest)
  rw [← append_assoc] at hview
  have hcomma : find (value ++ 0x2C :: rest) 0x2C 0 = some value.length := by
    have hfound := find_append_cons [] value rest 0x2C hfree
    rwa [nil_append, length_nil, Nat.zero_add] at hfound
  have htoken : substring (value ++ 0x2C :: rest) 0 value.length = value :=
    substring_append [] value _
  obtain ⟨first, tail, hsplit, hfirst⟩ : ∃ first tail,
      value ++ 0x2C :: rest = first :: tail ∧ first ≠ 0x22 := by
    cases value with
    | nil => exact ⟨0x2C, rest, rfl, by decide⟩
    | cons first tail => exact ⟨first, tail ++ 0x2C :: rest, rfl, fun heq => hhead (heq ▸ rfl)⟩
  rw [parseValue]
  simp only [hview, hsplit, beq_eq_false_iff_ne.2 hfirst, Bool.false_eq_true, if_false]
  rw [← hsplit, hcomma]
  simp only [htoken, find_append_cons before value rest 0x2C hfree, Option.getD_some]

theorem parseValue_unterminated (hfree : 0x22 ∉ rest) :
    parseValue (before ++ 0x22 :: rest) directive before.length =
      .last (directive, trimToNextSeparator rest) := by
  have hquote : find (0x22 :: rest) 0x22 1 = none := (find_eq_none_iff _ _ _).2 hfree
  rw [parseValue]
  simp only [substring_to_end, beq_self_eq_true, if_true, hquote]
  rfl

theorem parseValue_quoted (hfree : 0x22 ∉ value) :
    parseValue (before ++ 0x22 :: (value ++ 0x22 :: rest)) directive before.length =
      match find (before ++ 0x22 :: (value ++ 0x22 :: rest)) 0x2C
          (before.length + value.length + 2) with
      | none => .last (directive, value)
      | some nextCommaPos => .next (directive, value) (nextCommaPos + 1) := by
  have hquote : find (0x22 :: (value ++ 0x22 :: rest)) 0x22 1 = some (1 + value.length) :=
    find_append_cons [0x22] value rest 0x22 hfree
  have hfirst : find (before ++ 0x22 :: (value ++ 0x22 :: rest)) 0x22 before.length =
      some before.length := by
    have hfound := find_append_cons before [] (value ++ 0x22 :: rest) 0x22 not_mem_nil
    rwa [append_nil, length_nil, Nat.add_zero] at hfound
  have hval : substring (0x22 :: (value ++ 0x22 :: rest)) 1 (1 + value.length - 1) = value := by
    rw [Nat.add_sub_cancel_left]
    exact substring_append [0x22] value (0x22 :: rest)
  have hpos : before.length + (1 + value.length) + 1 = before.length + value.length + 2 := by omega
  rw [parseValue]
  simp only [substring_to_end, beq_self_eq_true, if_true, hquote, hfirst, hval,
    Option.getD_some, hpos]

theorem append_quoted (before val rest : Str) :
    before ++ 0x22 :: (val ++ 0x22 :: rest) = before ++ 0x22 :: (val ++ [0x22]) ++ rest := by
  simp only [append_assoc, cons_append, nil_append]

theorem length_append_quoted (before val : Str) :
    (before ++ 0x22 :: (val ++ [0x22])).length = before.length + val.length + 2 := by
  simp only [length_append, length_cons, length_nil]
  omega

variable (hname : NameFree name)
include hname

theorem parseDirective_equal :
    parseDirective (before ++ name ++ 0x3D :: rest) before.length =
      parseValue (before ++ name ++ 0x3D :: rest) (trimToNextSeparator name)
        (before ++ name ++ [0x3D]).length := by
  have hequal := find_append_cons before name rest 0x3D hname.2
  have hdir : substring (before ++ name ++ 0x3D :: rest) before.length
      (before.length + name.length - before.length) = name := by
    rw [Nat.add_sub_cancel_left]
    exact substring_append before name _
  have hpos : before.length + name.length + 1 = (before ++ name ++ [0x3D]).length := by
    simp only [length_append, length_cons, length_nil]
  rw [parseDirective, hequal]
  cases hcomma : find (before ++ name ++ 0x3D :: rest) 0x2C before.length with
  | none => simp only [hdir, hpos]
  | some =>
    have hle := le_of_find_append hname.1 hcomma
    simp only [if_neg (Nat.not_lt.2 hle), hdir, hpos]

theorem parseDirective_comma :
    parseDirective (before ++ name ++ 0x2C :: rest) before.length =
      .next (trimToNextSeparator name, []) (before.length + name.length + 1) := by
  have hcomma := find_append_cons before name rest 0x2C hname.1
  have hdir : substring (before ++ name ++ 0x2C :: rest) before.length
      (before.length + name.length - before.length) = name := by
    rw [Nat.add_sub_cancel_left]
    exact substring_append before name _
  rw [parseDirective, hcomma]
  cases hequal : find (before ++ name ++ 0x2C :: rest) 0x3D before.length with
  | none => simp only [hdir]
  | some pos =>
    have hfree : 0x3D ∉ name ++ [0x2C] := by
      rw [mem_append, mem_singleton]
      exact fun hmem => hmem.elim hname.2 (by decide)
    rw [append_cons (before ++ name), append_assoc before name] at hequal
    have hle := le_of_find_append hfree hequal
    rw [length_append, length_singleton] at hle
    simp only [if_pos (show before.length + name.length < pos by omega), hdir]

end Rounds

theorem parseDirective_item {item : Item} (hitem : item.WellFormed) (before rest : Str) :
    parseDirective (before ++ item.text ++ 0x2C :: rest) before.length =
      .next item.directive (before.length + item.text.length + 1) := by
  cases item with
  | bare => exact parseDirective_comma hitem
  | token name value =>
    obtain ⟨hname, hfree, hhead⟩ := hitem
    have htext : before ++ (Item.token name value).text ++ 0x2C :: rest =
        before ++ name ++ 0x3D :: (value ++ 0x2C :: rest) := by
      simp only [Item.text, append_assoc, cons_append]
    have hval : before ++ name ++ 0x3D :: (value ++ 0x2C :: rest) =
        before ++ name ++ [0x3D] ++ value ++ 0x2C :: rest := by
      simp only [append_assoc, cons_append, nil_append]
    rw [htext, parseDirective_equal hname, hval, parseValue_token _ hfree hhead]
    simp only [Item.directive, Item.text, length_append, length_cons, length_nil]
    congr 1
    omega
  | quoted name value skipped =>
    obtain ⟨hname, hfree, hskipped⟩ := hitem
    have htext : before ++ (Item.quoted name value skipped).text ++ 0x2C :: rest =
        before ++ name ++ 0x3D :: 0x22 :: (value ++ 0x22 :: (skipped ++ 0x2C :: rest)) := by
      simp only [Item.text, append_assoc, cons_append]
    rw [htext, parseDirective_equal hname, append_cons (before ++ name),
      parseValue_quoted _ hfree, append_quoted, ← length_append_quoted, ← append_assoc,
      find_append_cons _ skipped rest 0x2C hskipped]
    simp only [Item.directive, Item.text, length_append, length_cons, length_nil]
    congr 1
    omega

variable {ending : Ending}

/-- The last round, which ends in the middle of an item or with it. -/
theorem parseRounds_ending (hending : ending.WellFormed) (hne : ending.text ≠ []) (before : Str)
    (rounds : ℕ) (res : List (Str × Str)) :
    parseRounds (before ++ ending.text) (rounds + 1) before.length res =
      ending.parse res := by
  have hpos : before.length < (before ++ ending.text).length := by
    rw [length_append]
    exact Nat.lt_add_of_pos_right (length_pos_of_ne_nil hne)
  rw [parseRounds, if_pos hpos]
  cases ending with
  | unterminated name =>
    obtain ⟨hname, hfree⟩ := hending
    rw [Ending.text, ← append_assoc, parseDirective_equal hname,
      append_cons (before ++ name), parseValue_unterminated _ hfree]
    rfl
  | complete item =>
    rw [Ending.text]
    cases item with
    | bare =>
      obtain ⟨first, tail, rfl⟩ := exists_cons_of_ne_nil hne
      rw [Item.text, parseDirective, find_append_of_notMem hending.1,
        find_append_of_notMem hending.2]
      simp only [substring_to_end]
      rfl
    | token name value =>
      obtain ⟨hname, hfree, hhead⟩ := hending
      rw [Item.text, ← append_assoc, parseDirective_equal hname, append_cons (before ++ name)]
      cases value with
      | nil =>
        rw [append_nil, parseValue, substring, drop_length, take_nil]
        rfl
      | cons first tail =>
        have hfirst : first ≠ 0x22 := fun heq => hhead (heq ▸ rfl)
        have hcomma : find (first :: tail) 0x2C 0 = none := (find_eq_none_iff _ _ _).2 hfree
        rw [parseValue]
        simp only [substring_to_end, beq_eq_false_iff_ne.2 hfirst, Bool.false_eq_true, if_false,
          hcomma]
        rfl
    | quoted name =>
      obtain ⟨hname, hfree, hskipped⟩ := hending
      rw [Item.text, ← append_assoc, parseDirective_equal hname,
        append_cons (before ++ name), parseValue_quoted _ hfree, append_quoted,
        ← length_append_quoted, find_append_of_notMem hskipped]
      rfl

/-! ## All rounds -/

theorem textOf_cons (item : Item) (items : List Item) :
    textOf (item :: items) = item.text ++ 0x2C :: textOf items := by
  rw [textOf, flatMap_cons, append_assoc]
  rfl

theorem length_le_length_textOf (items : List Item) : items.length ≤ (textOf items).length := by
  induction items with
  | nil => exact Nat.le_refl 0
  | cons =>
    rw [textOf_cons, length_append, length_cons, length_cons]
    omega

/-- Each item takes a round. -/
theorem parseRounds_items {items : List Item} (hitems : ∀ item ∈ items, item.WellFormed)
    (before rest : Str) (rounds : ℕ) (res : List (Str × Str)) :
    parseRounds (before ++ (textOf items ++ rest)) (rounds + items.length) before.length res =
      parseRounds (before ++ textOf items ++ rest) rounds (before ++ textOf items).length
        (res ++ items.map Item.directive) := by
  induction items generalizing before res with
  | nil => simp only [textOf, flatMap_nil, append_nil, nil_append, length_nil,
      Nat.add_zero, map_nil]
  | cons item items ih =>
    obtain ⟨hitem, hrest⟩ := forall_mem_cons.1 hitems
    have htext : before ++ (textOf (item :: items) ++ rest) =
        before ++ item.text ++ 0x2C :: (textOf items ++ rest) := by
      simp only [textOf_cons, append_assoc, cons_append]
    have hnext : before ++ item.text ++ 0x2C :: (textOf items ++ rest) =
        before ++ item.text ++ [0x2C] ++ (textOf items ++ rest) := append_cons _ _ _
    have hlen : before.length + item.text.length + 1 = (before ++ item.text ++ [0x2C]).length := by
      simp only [length_append, length_singleton]
    have hpos : before.length < (before ++ item.text ++ 0x2C :: (textOf items ++ rest)).length := by
      simp only [length_append, length_cons]
      omega
    rw [htext, length_cons, ← Nat.add_assoc, parseRounds, if_pos hpos, parseDirective_item hitem]
    dsimp only
    rw [hnext, hlen, ih hrest]
    simp only [textOf_cons, append_assoc, cons_append, nil_append, map_cons]

theorem parse_of_text_nil (htext : ending.text = []) (res : List (Str × Str)) :
    ending.parse res = .parsed res := by
  cases ending with
  | unterminated name => exact absurd htext (append_ne_nil_of_right_ne_nil name
      (cons_ne_nil _ _))
  | complete item =>
    cases item with
    | bare name =>
      obtain rfl : name = [] := htext
      rfl
    | token name | quoted name =>
      exact absurd htext (append_ne_nil_of_right_ne_nil name (cons_ne_nil _ _))

theorem parseRounds_eq {items : List Item} (hitems : ∀ item ∈ items, item.WellFormed)
    (hending : ending.WellFormed) {rounds : ℕ}
    (hrounds : (textOf items ++ ending.text).length ≤ rounds) :
    parseRounds (textOf items ++ ending.text) rounds 0 [] =
      ending.parse (items.map Item.directive) := by
  have hitemsLen := length_le_length_textOf items
  rw [length_append] at hrounds
  obtain ⟨left, rfl⟩ := Nat.exists_eq_add_of_le' (show items.length ≤ rounds by omega)
  have hread := parseRounds_items hitems [] ending.text left []
  rw [nil_append, nil_append, nil_append, length_nil] at hread
  rw [hread]
  by_cases hne : ending.text = []
  · rw [parse_of_text_nil hne, hne, append_nil]
    cases left <;> rw [parseRounds, if_neg (Nat.lt_irrefl _)]
  · have hpos := length_pos_of_ne_nil hne
    obtain ⟨rounds, rfl⟩ := Nat.exists_eq_add_of_le' (show 1 ≤ left by omega)
    exact parseRounds_ending hending hne (textOf items) rounds _

theorem notMem_or_exists_cut (char : UChar) (text : Str) :
    char ∉ text ∨ ∃ run rest, text = run ++ char :: rest ∧ char ∉ run := by
  by_cases hmem : char ∈ text
  · exact Or.inr (eq_append_cons_of_mem hmem)
  · exact Or.inl hmem

/-- Every text begins with an item and a comma, or is an ending. -/
theorem exists_item_or_ending (text : Str) :
    (∃ item rest, Item.WellFormed item ∧ text = item.text ++ 0x2C :: rest) ∨
      ∃ ending, Ending.WellFormed ending ∧ text = ending.text := by
  rcases exists_first_separator (fun char => char == 0x2C || char == 0x3D) text with
    hfree | ⟨name, char, rest, rfl, hchar, hfree⟩
  · refine Or.inr ⟨.complete (.bare text), ⟨?_, ?_⟩, rfl⟩
    · exact fun hmem => absurd (hfree _ hmem) (by decide)
    · exact fun hmem => absurd (hfree _ hmem) (by decide)
  have hname : NameFree name :=
    ⟨fun hmem => absurd (hfree _ hmem) (by decide), fun hmem => absurd (hfree _ hmem) (by decide)⟩
  rw [Bool.or_eq_true, beq_iff_eq, beq_iff_eq] at hchar
  rcases hchar with rfl | rfl
  · exact Or.inl ⟨.bare name, rest, hname, rfl⟩
  by_cases hquote : rest.head? = some 0x22
  · obtain ⟨inner, rfl⟩ := head?_eq_some_iff.1 hquote
    rcases notMem_or_exists_cut 0x22 inner with hopen | ⟨value, after, rfl, hval⟩
    · exact Or.inr ⟨.unterminated name inner, ⟨hname, hopen⟩, rfl⟩
    rcases notMem_or_exists_cut 0x2C after with hlast | ⟨skipped, next, rfl, hskipped⟩
    · exact Or.inr ⟨.complete (.quoted name value after), ⟨hname, hval, hlast⟩, rfl⟩
    · refine Or.inl ⟨.quoted name value skipped, next, ⟨hname, hval, hskipped⟩, ?_⟩
      simp only [Item.text, append_assoc, cons_append]
  · rcases notMem_or_exists_cut 0x2C rest with hlast | ⟨value, next, rfl, hval⟩
    · exact Or.inr ⟨.complete (.token name rest), ⟨hname, hlast, hquote⟩, rfl⟩
    · refine Or.inl ⟨.token name value, next, ⟨hname, hval, ?_⟩, ?_⟩
      · grind
      · simp only [Item.text, append_assoc, cons_append]

theorem exists_items_ending (text : Str) :
    ∃ items ending, (∀ item ∈ items, Item.WellFormed item) ∧ Ending.WellFormed ending ∧
      text = textOf items ++ ending.text := by
  -- By induction on the length, an item at a time.
  induction hlen : text.length using Nat.strong_induction_on generalizing text with
  | _ len ih =>
    rcases exists_item_or_ending text with ⟨item, rest, hitem, rfl⟩ | ⟨ending, hending, rfl⟩
    · have hless : rest.length < len := by
        rw [← hlen, length_append, length_cons]
        omega
      obtain ⟨items, ending, hitems, hending, hrest⟩ := ih _ hless rest rfl
      refine ⟨item :: items, ending, forall_mem_cons.2 ⟨hitem, hitems⟩, hending, ?_⟩
      rw [textOf_cons, append_assoc, cons_append, ← hrest]
    · exact ⟨[], ending, fun _ hmem => absurd hmem not_mem_nil, hending, rfl⟩

/-! ## Ending, and reading outside of a view -/

theorem parse_eq_outside_iff (ending : Ending) (res : List (Str × Str)) :
    ending.parse res = .outside ↔ ∃ name, ending = .complete (.token name []) := by
  constructor
  · fun_cases Ending.parse with
    | case2 name => exact fun _ => ⟨name, rfl⟩
    | case1 | case3 | case4 => exact fun houtside => Parse.noConfusion houtside
  · rintro ⟨name, rfl⟩
    rfl

/-- The parser ends after at most as many rounds as the header has characters.  It reads a
character outside of a view exactly if the header ends with the equal sign of a directive. -/
theorem parseCacheHeader_ends_outside_iff (header : Str) :
    (∀ rounds, (safeHeaderString header).length ≤ rounds →
      parseRounds (safeHeaderString header) rounds 0 [] = parseCacheHeader header) ∧
    parseCacheHeader header ≠ .running ∧
    (parseCacheHeader header = .outside ↔
      ∃ items name, (∀ item ∈ items, Item.WellFormed item) ∧ NameFree name ∧
        safeHeaderString header = textOf items ++ name ++ [0x3D]) := by
  obtain ⟨items, ending, hitems, hending, htext⟩ := exists_items_ending (safeHeaderString header)
  have hends : ∀ rounds, (safeHeaderString header).length ≤ rounds →
      parseRounds (safeHeaderString header) rounds 0 [] =
        ending.parse (items.map Item.directive) := by
    intro rounds hrounds
    rw [htext] at hrounds ⊢
    exact parseRounds_eq hitems hending hrounds
  have hparse : parseCacheHeader header = ending.parse (items.map Item.directive) :=
    hends _ (Nat.le_refl _)
  refine ⟨fun rounds hrounds => (hends rounds hrounds).trans hparse.symm, ?_, ?_, ?_⟩
  · rw [hparse]
    fun_cases Ending.parse <;> exact Parse.noConfusion
  · intro houtside
    rw [hparse, parse_eq_outside_iff] at houtside
    obtain ⟨name, rfl⟩ := houtside
    refine ⟨items, name, hitems, hending.1, ?_⟩
    rw [htext, append_assoc]
    rfl
  · rintro ⟨others, name, hothers, hname, hothersText⟩
    have hlast : (Ending.complete (.token name [])).WellFormed :=
      ⟨hname, not_mem_nil, fun hnone => Option.some_ne_none _ hnone.symm⟩
    rw [parseCacheHeader, hothersText, append_assoc]
    exact parseRounds_eq hothers hlast (Nat.le_refl _)

theorem empty_value_read : parseCacheHeader (lit "max-age=") = .outside := by
  decide +kernel

end PurcFetcher.Http.CacheControl
