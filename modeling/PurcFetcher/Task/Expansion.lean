import PurcFetcher.Core.Template
import PurcFetcher.Wtf.Text

/-!
# Parameter expansion

`NetworkDataTaskLcmd::parseCmdLine` and the two copies of `parseSqlQuery`
replace `$name` by the value of a request parameter.  The three share one loop,
which keeps the position of a `$` in `start` and that of the character after it
in `end`.

The loop is compared with a template: the constants and the names found by one
pass from left to right over the text.
-/

namespace PurcFetcher.Expansion

open Pieces List Templates Text

def dollar : UChar := 0x24

def semicolon : UChar := 0x3B

/-- `[A-Za-z]`. -/
def isLetter (char : UChar) : Bool :=
  (0x61 ≤ char && char ≤ 0x7A) || (0x41 ≤ char && char ≤ 0x5A)

/-- `[0-9A-Za-z_]`. -/
def isNameChar (char : UChar) : Bool :=
  (0x30 ≤ char && char ≤ 0x39) || isLetter char || char == 0x5F

/-- `m_paramMap`. -/
abbrev ParamMap := Str → Option Str

def valueOf (paramMap : ParamMap) (name : Str) : Str :=
  (paramMap name).getD []

/-! ## The loop -/

/-- The text from `position` up to the next `$`, or to the end. -/
def gap (text : Str) (position : ℕ) : Option ℕ → Str
  | some start => substring text position (start - position)
  | none => substringFrom text position

/-- `end = start + 1`; `notFound + 1` wraps to zero. -/
def endAfter : Option ℕ → ℕ
  | some start => start + 1
  | none => 0

/-- The `while` loop.  `none` means that it was cut off after `fuel` rounds. -/
def expandLoop (paramMap : ParamMap) (text : Str) :
    ℕ → Option ℕ → ℕ → Str → Option Str
  | 0, _, _, _ => none
  | _ + 1, none, _, sb => some sb
  | fuel + 1, some start, endPos, sb =>
    match text[endPos]? with
    | none => some sb
    | some char =>
      if char = dollar then
        let next := find text dollar (endPos + 1)
        expandLoop paramMap text fuel next (endAfter next)
          (sb ++ [dollar] ++ gap text (endPos + 1) next)
      else if !isLetter char then
        let next := find text dollar (endPos + 1)
        expandLoop paramMap text fuel next (endAfter next)
          (sb ++ substring text start 2 ++ gap text (endPos + 1) next)
      else
        let name := (text.drop endPos).takeWhile isNameChar
        let nameEnd := endPos + name.length
        if nameEnd < text.length then
          let next := find text dollar nameEnd
          expandLoop paramMap text fuel next (endAfter next)
            (sb ++ valueOf paramMap name ++ gap text nameEnd next)
        else
          expandLoop paramMap text fuel (some start) nameEnd (sb ++ valueOf paramMap name)

/-- The loop with the statements before it, on a text that has a `$`. -/
def expandFirst (paramMap : ParamMap) (text : Str) (start : ℕ) : Option Str :=
  expandLoop paramMap text (text.length + 2) (some start) (start + 1) (substring text 0 start)

def NetworkDataTaskLcmd.parseCmdLine (paramMap : ParamMap) (cmdLine : Str) : Option Str :=
  if cmdLine.isEmpty then some cmdLine
  else
    match find cmdLine dollar 0 with
    | none => some cmdLine
    | some start => expandFirst paramMap cmdLine start

/-- One round of the loop over the statements of a query: what it appends to
`m_sqlVec`. -/
def parseStatement (paramMap : ParamMap) (statement : Str) : Option (List Str) :=
  let param := stripWhiteSpace statement
  match find param dollar 0 with
  | none => some [param]
  | some start =>
    (expandFirst paramMap param start).map fun sqlSb => if sqlSb.isEmpty then [] else [sqlSb]

/-- The body of both `parseSqlQuery` functions. -/
def parseQuery (paramMap : ParamMap) (sqlQuery : Str) : Option (List Str) :=
  if sqlQuery.isEmpty then some []
  else
    ((split sqlQuery semicolon).mapM (parseStatement paramMap)).map List.flatten

def NetworkDataTaskLsql.parseSqlQuery (paramMap : ParamMap) (sqlQuery : Str) :
    Option (List Str) :=
  parseQuery paramMap sqlQuery

def NetworkDataTaskRsql.parseSqlQuery (paramMap : ParamMap) (sqlQuery : Str) :
    Option (List Str) :=
  parseQuery paramMap sqlQuery

/-! ## The template of a text -/

/-- One pass over a text.  `$$` stands for `$`, and `$` before a letter begins
the longest name it can.  `final` is what a `$` stands for that ends the text. -/
def parseTemplate (final : Str) : Str → Template UChar
  | [] => .empty
  | char :: rest =>
    if char ≠ dollar then .literal [char] (parseTemplate final rest)
    else
      match rest with
      | [] => .literal final .empty
      | next :: tail =>
        if next = dollar then .literal [dollar] (parseTemplate final tail)
        else if isLetter next then
          .hole (next :: tail.takeWhile isNameChar)
            (parseTemplate final (tail.dropWhile isNameChar))
        else .literal [dollar] (parseTemplate final (next :: tail))
  termination_by text => text.length
  decreasing_by
    all_goals simp_wf
    all_goals grind [List.length_dropWhile_le]

/-- The expansion the loop is meant to compute: all characters that are not part
of `$$` or of a `$name` stand for themselves. -/
def expansion (paramMap : ParamMap) (text : Str) : Str :=
  (parseTemplate [dollar] text).render (valueOf paramMap)

section Template

variable (final : Str)

@[simp]
theorem parseTemplate_nil : parseTemplate final [] = .empty := by
  rw [parseTemplate]

theorem parseTemplate_cons_of_ne {char : UChar} (rest : Str) (hne : char ≠ dollar) :
    parseTemplate final (char :: rest) = .literal [char] (parseTemplate final rest) := by
  cases rest <;> simp [parseTemplate, hne]

theorem parseTemplate_dollar_nil : parseTemplate final [dollar] = .literal final .empty := by
  simp [parseTemplate]

theorem parseTemplate_dollar_dollar (tail : Str) :
    parseTemplate final (dollar :: dollar :: tail) =
      .literal [dollar] (parseTemplate final tail) := by
  rw [parseTemplate]
  simp

theorem parseTemplate_dollar_letter {char : UChar} (tail : Str)
    (hne : char ≠ dollar) (hletter : isLetter char = true) :
    parseTemplate final (dollar :: char :: tail) = .hole (char :: tail.takeWhile isNameChar)
        (parseTemplate final (tail.dropWhile isNameChar)) := by
  rw [parseTemplate]
  simp [hne, hletter]

theorem parseTemplate_dollar_other {char : UChar} (tail : Str)
    (hne : char ≠ dollar) (hletter : isLetter char = false) :
    parseTemplate final (dollar :: char :: tail) =
      .literal [dollar, char] (parseTemplate final tail) := by
  rw [parseTemplate]
  simp [hne, hletter, parseTemplate_cons_of_ne final tail hne]

/-- A text without `$` stands for itself. -/
theorem parseTemplate_append_of_free (run rest : Str)
    (hfree : ∀ char ∈ run, (char == dollar) = false) :
    parseTemplate final (run ++ rest) = .literal run (parseTemplate final rest) := by
  induction run with
  | nil => rfl
  | cons char run ih =>
    have hchar : char ≠ dollar := by simpa using hfree char mem_cons_self
    rw [cons_append, parseTemplate_cons_of_ne final _ hchar,
      ih fun other hother => hfree other (mem_cons_of_mem char hother),
      Template.literal_literal, singleton_append]

theorem parseTemplate_of_free (text : Str)
    (hfree : ∀ char ∈ text, (char == dollar) = false) :
    parseTemplate final text = .literal text .empty := by
  have happend := parseTemplate_append_of_free final text [] hfree
  rwa [append_nil, parseTemplate_nil] at happend

end Template

/-! ## The loop renders the template -/

section Loop

variable (paramMap : ParamMap) (text : Str)

/-- What the loop makes of the rest of a text that begins with a `$`: it renders
the template, except that a `$` at the very end stands for nothing. -/
def LoopRenders (fuel : ℕ) : Prop :=
  ∀ before rest sb, text = before ++ dollar :: rest → rest.length < fuel →
    expandLoop paramMap text fuel (some before.length) (before.length + 1) sb =
      some (sb ++ (parseTemplate [] (dollar :: rest)).render (valueOf paramMap))

/-- All branches of the loop end in the same way: they copy the text up to the
next `$` and go on there. -/
theorem expandLoop_resume {fuel : ℕ} (hloop : LoopRenders paramMap text fuel)
    (before tail sb : Str) (htext : text = before ++ tail) (hpos : 0 < fuel)
    (hfuel : tail.length ≤ fuel) :
    expandLoop paramMap text fuel (find text dollar before.length)
        (endAfter (find text dollar before.length))
        (sb ++ gap text before.length (find text dollar before.length)) =
      some (sb ++ (parseTemplate [] tail).render (valueOf paramMap)) := by
  obtain hfree | ⟨run, val, rest, rfl, hsep, hfree⟩ := exists_first_separator (· == dollar) tail
  · have hnone : find text dollar before.length = none := by
      rw [find_eq_none_iff, htext, drop_left]
      intro hmem
      simpa using hfree dollar hmem
    obtain ⟨fuel, rfl⟩ := Nat.exists_eq_succ_of_ne_zero hpos.ne'
    rw [hnone, parseTemplate_of_free [] tail hfree, expandLoop, gap, substringFrom, htext,
      drop_left]
    simp
  · obtain rfl : val = dollar := by simpa using hsep
    have hnotMem : dollar ∉ run := fun hmem => by simpa using hfree dollar hmem
    have hassoc : text = before ++ run ++ dollar :: rest := by rw [htext, append_assoc]
    have hfind : find text dollar before.length = some (before ++ run).length := by
      rw [hassoc, length_append]
      exact find_append_cons before run rest dollar hnotMem
    have hgap : gap text before.length (some (before ++ run).length) = run := by
      rw [gap, substring, htext, drop_left, length_append, Nat.add_sub_cancel_left, take_left]
    have hrest : rest.length < fuel := by
      rw [length_append, length_cons] at hfuel
      omega
    rw [hfind, hgap, endAfter, hloop (before ++ run) rest (sb ++ run) hassoc hrest,
      parseTemplate_append_of_free [] run _ hfree]
    simp

/-- The branch of a name, which may end the text. -/
theorem expandLoop_name {fuel : ℕ} (hloop : LoopRenders paramMap text fuel)
    {char : UChar} (before tail sb : Str) (htext : text = before ++ dollar :: char :: tail)
    (hpos : 0 < fuel) (htail : tail.length ≤ fuel) (hdollar : char ≠ dollar)
    (hletter : isLetter char = true) :
    expandLoop paramMap text (fuel + 1) (some before.length) (before.length + 1) sb =
      some (sb ++ (parseTemplate [] (dollar :: char :: tail)).render (valueOf paramMap)) := by
  have hnameChar : isNameChar char = true := by simp [isNameChar, hletter]
  have hdrop : text.drop (before.length + 1) = char :: tail := by
    rw [htext, ← drop_drop, drop_left]
    rfl
  have hget : text[before.length + 1]? = some char := by rw [← head?_drop, hdrop, head?_cons]
  have hname : (text.drop (before.length + 1)).takeWhile isNameChar =
      char :: tail.takeWhile isNameChar := by
    rw [hdrop, takeWhile_cons_of_pos hnameChar]
  rw [expandLoop, hget, parseTemplate_dollar_letter [] tail hdollar hletter]
  dsimp only
  rw [if_neg hdollar, hletter, Bool.not_true, if_neg Bool.false_ne_true, hname]
  -- The name and the rest of the text after it.
  have hsplit : text = (before ++ dollar :: char :: tail.takeWhile isNameChar) ++
      tail.dropWhile isNameChar := by
    rw [htext, append_assoc]
    simp [takeWhile_append_dropWhile]
  have hlen : (before ++ dollar :: char :: tail.takeWhile isNameChar).length =
      before.length + 1 + (char :: tail.takeWhile isNameChar).length := by
    simp
    omega
  split_ifs with hmore
  · grind [Template.render_hole, expandLoop_resume]
  · have hend : tail.dropWhile isNameChar = [] := by
      rw [← length_eq_zero_iff]
      have htotal := congrArg List.length hsplit
      rw [length_append, hlen] at htotal
      omega
    obtain ⟨fuel, rfl⟩ := Nat.exists_eq_succ_of_ne_zero hpos.ne'
    rw [expandLoop, getElem?_eq_none (not_lt.1 hmore), hend]
    simp

/-- By induction on the rounds: `before` is what has been scanned. -/
theorem loopRenders (fuel : ℕ) : LoopRenders paramMap text fuel := by
  induction fuel with
  | zero =>
    intro before rest sb htext hfuel
    exact absurd hfuel (Nat.not_lt_zero _)
  | succ fuel ih =>
    intro before rest sb htext hfuel
    have hend : ∀ offset, text[before.length + 1 + offset]? = rest[offset]? := by grind
    cases rest with
    | nil =>
      rw [expandLoop, hend 0, parseTemplate_dollar_nil]
      simp
    | cons char tail =>
      have hpos : 0 < fuel := by
        rw [length_cons] at hfuel
        omega
      have htail : tail.length ≤ fuel := by
        rw [length_cons] at hfuel
        omega
      -- The text after the two characters that every branch has looked at.
      have hafter : text = (before ++ [dollar, char]) ++ tail := by
        rw [htext, append_assoc]
        rfl
      have hlen : (before ++ [dollar, char]).length = before.length + 1 + 1 := by simp
      have hresume := fun sb' => expandLoop_resume paramMap text ih
        (before ++ [dollar, char]) tail sb' hafter hpos htail
      rw [hlen] at hresume
      by_cases hdollar : char = dollar
      · subst hdollar
        rw [expandLoop, hend 0, getElem?_cons_zero]
        dsimp only
        rw [if_pos rfl, hresume, parseTemplate_dollar_dollar]
        simp
      · by_cases hletter : isLetter char = true
        · exact expandLoop_name paramMap text ih before tail sb htext hpos htail hdollar hletter
        · have hother : isLetter char = false := by simpa using hletter
          have hpair : substring text before.length 2 = [dollar, char] := by
            rw [substring, htext, drop_left]
            rfl
          rw [expandLoop, hend 0, getElem?_cons_zero]
          dsimp only
          rw [if_neg hdollar, hother, Bool.not_false, if_pos rfl, hpair, hresume,
            parseTemplate_dollar_other [] tail hdollar hother]
          simp

end Loop

section Results

variable (paramMap : ParamMap)

/-- The text the loop makes, starting at the first `$`. -/
theorem expandFirst_eq {text : Str} {start : ℕ} (hstart : find text dollar 0 = some start) :
    expandFirst paramMap text start = some ((parseTemplate [] text).render (valueOf paramMap)) := by
  have hresume := expandLoop_resume paramMap text (loopRenders paramMap text _) [] text []
    rfl (Nat.succ_pos (text.length + 1)) (Nat.le_add_right text.length 2)
  rw [length_nil, hstart] at hresume
  exact hresume

theorem parseTemplate_of_find_eq_none (final : Str) {text : Str}
    (hnone : find text dollar 0 = none) :
    parseTemplate final text = .literal text .empty := by
  apply parseTemplate_of_free
  intro char hchar
  rw [find_eq_none_iff, drop_zero] at hnone
  exact beq_eq_false_iff_ne.2 fun heq => hnone (heq ▸ hchar)

theorem parseCmdLine_eq (cmdLine : Str) :
    NetworkDataTaskLcmd.parseCmdLine paramMap cmdLine =
      some ((parseTemplate [] cmdLine).render (valueOf paramMap)) := by
  rw [NetworkDataTaskLcmd.parseCmdLine]
  split_ifs with hempty
  · obtain rfl : cmdLine = [] := by simpa using hempty
    simp
  · cases hfind : find cmdLine dollar 0 with
    | none => simp [parseTemplate_of_find_eq_none [] hfind]
    | some => exact expandFirst_eq paramMap hfind

/-- A statement of a query: its template, and whether it is kept when it expands
to nothing, as a statement without `$` is. -/
structure Statement where
  template : Template UChar
  keptEmpty : Bool
  deriving DecidableEq, Repr

def statementOf (text : Str) : Statement :=
  { template := parseTemplate [] (stripWhiteSpace text)
    keptEmpty := (find (stripWhiteSpace text) dollar 0).isNone }

/-- The texts that a list of statements stands for. -/
def instantiate (statements : List Statement) : List Str :=
  (statements.map fun statement =>
    let result := statement.template.render (valueOf paramMap)
    if !statement.keptEmpty && result.isEmpty then [] else [result]).flatten

theorem parseStatement_eq (text : Str) :
    parseStatement paramMap text = some (instantiate paramMap [statementOf text]) := by
  rw [parseStatement]
  cases hfind : find (stripWhiteSpace text) dollar 0 with
  | none => simp [instantiate, statementOf, hfind, parseTemplate_of_find_eq_none [] hfind]
  | some => simp [instantiate, statementOf, hfind, expandFirst_eq paramMap hfind]

theorem mapM_parseStatement (texts : List Str) :
    (texts.mapM (parseStatement paramMap)).map List.flatten =
      some (instantiate paramMap (texts.map statementOf)) := by
  induction texts with
  | nil => rfl
  | cons text texts ih =>
    rw [Option.map_eq_some_iff] at ih
    obtain ⟨parts, hparts, hflatten⟩ := ih
    rw [mapM_cons, parseStatement_eq, hparts]
    simp only [instantiate, map_cons, map_nil, flatten_cons, flatten_nil, append_nil] at hflatten ⊢
    rw [← hflatten]
    rfl

def statementsOf (sqlQuery : Str) : List Statement :=
  (split sqlQuery semicolon).map statementOf

theorem parseQuery_eq (sqlQuery : Str) :
    parseQuery paramMap sqlQuery = some (instantiate paramMap (statementsOf sqlQuery)) := by
  rw [parseQuery]
  split_ifs with hempty
  · obtain rfl : sqlQuery = [] := by simpa using hempty
    rfl
  · exact mapM_parseStatement paramMap (split sqlQuery semicolon)

end Results

/-- The text ends in an odd number of `$`, so that the last one has no partner. -/
def unpairedEnd (text : Str) : Bool :=
  (text.reverse.takeWhile (· == dollar)).length % 2 = 1

theorem unpairedEnd_append_cons (left right : Str) {char : UChar} (hne : char ≠ dollar) :
    unpairedEnd (left ++ char :: right) = unpairedEnd right := by
  have hstop : (char == dollar) = false := beq_eq_false_iff_ne.2 hne
  have hreverse : (left ++ char :: right).reverse =
      right.reverse ++ char :: left.reverse := by
    simp
  rw [unpairedEnd, hreverse, takeWhile_append, unpairedEnd]
  split_ifs with hall
  · rw [takeWhile_cons_of_neg (by simp [hstop]), append_nil, hall]
  · rfl

theorem unpairedEnd_append_of_free (run rest : Str)
    (hfree : ∀ char ∈ run, char ≠ dollar) :
    unpairedEnd (run ++ rest) = unpairedEnd rest := by
  induction run with
  | nil => rfl
  | cons char run ih =>
    have hhead := unpairedEnd_append_cons [] (run ++ rest) (hfree char mem_cons_self)
    rw [nil_append] at hhead
    rw [cons_append, hhead, ih fun other hother => hfree other (mem_cons_of_mem char hother)]

theorem unpairedEnd_dollar_dollar (tail : Str) :
    unpairedEnd (dollar :: dollar :: tail) = unpairedEnd tail := by
  have hreverse : (dollar :: dollar :: tail).reverse = tail.reverse ++ [dollar, dollar] := by simp
  rw [unpairedEnd, hreverse, takeWhile_append, unpairedEnd]
  split_ifs with hall
  · simp_all
  · rfl

/-- What ends a text decides about its last `$` only. -/
theorem render_parseTemplate (final text : Str) (val : Str → Str) :
    (parseTemplate final text).render val =
      (parseTemplate [] text).render val ++ if unpairedEnd text then final else [] := by
  induction text using parseTemplate.induct with
  | case1 => simp [unpairedEnd]
  | case2 char rest hne ih =>
    have hend := unpairedEnd_append_cons [] rest hne
    rw [nil_append] at hend
    rw [parseTemplate_cons_of_ne _ rest hne, parseTemplate_cons_of_ne _ rest hne, hend,
      Template.render_literal, Template.render_literal, ih, append_assoc]
  | case3 char hdollar =>
    obtain rfl : char = dollar := by simpa using hdollar
    rw [parseTemplate_dollar_nil, parseTemplate_dollar_nil]
    simp [unpairedEnd]
  | case4 char hdollar tail ih =>
    grind [parseTemplate_dollar_dollar, unpairedEnd_dollar_dollar, Template.render_literal]
  | case5 char hdollar next tail hne hletter ih =>
    obtain rfl : char = dollar := by simpa using hdollar
    have hname : ∀ other ∈ tail.takeWhile isNameChar, other ≠ dollar := by
      intro other hother heq
      have hall := mem_takeWhile_imp hother
      rw [heq] at hall
      exact absurd hall (by decide)
    have hend : unpairedEnd (dollar :: next :: tail) = unpairedEnd (tail.dropWhile isNameChar) := by
      calc
        unpairedEnd (dollar :: next :: tail) = unpairedEnd tail :=
          unpairedEnd_append_cons [dollar] tail hne
        _ = unpairedEnd (tail.takeWhile isNameChar ++ tail.dropWhile isNameChar) := by
          rw [takeWhile_append_dropWhile]
        _ = unpairedEnd (tail.dropWhile isNameChar) := unpairedEnd_append_of_free _ _ hname
    rw [parseTemplate_dollar_letter _ tail hne hletter,
      parseTemplate_dollar_letter _ tail hne hletter, hend, Template.render_hole,
      Template.render_hole, ih, append_assoc]
  | case6 char hdollar next tail hne hletter ih =>
    obtain rfl : char = dollar := by simpa using hdollar
    have hother : isLetter next = false := by simpa using hletter
    have hend : unpairedEnd (dollar :: next :: tail) = unpairedEnd (next :: tail) := by
      calc
        unpairedEnd (dollar :: next :: tail) = unpairedEnd tail :=
          unpairedEnd_append_cons [dollar] tail hne
        _ = unpairedEnd (next :: tail) := (unpairedEnd_append_cons [] tail hne).symm
    have hparse : ∀ last, parseTemplate last (dollar :: next :: tail) =
        .literal [dollar] (parseTemplate last (next :: tail)) := by
      intro last
      rw [parseTemplate_dollar_other last tail hne hother,
        parseTemplate_cons_of_ne last tail hne, Template.literal_literal]
      rfl
    rw [hparse, hparse, hend, Template.render_literal, Template.render_literal, ih, append_assoc]

theorem render_eq_expansion_iff (paramMap : ParamMap) (text : Str) :
    (parseTemplate [] text).render (valueOf paramMap) = expansion paramMap text ↔
      unpairedEnd text = false := by
  rw [expansion, render_parseTemplate [dollar] text]
  cases hend : unpairedEnd text <;> simp

/-- A query without `;` is one statement. -/
theorem statementsOf_of_free {text : Str} (hne : text ≠ [])
    (hfree : semicolon ∉ text) : statementsOf text = [statementOf text] := by
  have hpieces : split text semicolon = [text] := by
    grind [split_eq_pieces, pieces_of_free, emit_of_ne_nil]
  rw [statementsOf, hpieces]
  rfl

/-- A nonempty expansion is the only statement, unless the last `$` is lost. -/
theorem parseQuery_expands_iff (paramMap : ParamMap) {text : Str}
    (hfree : semicolon ∉ text) :
    (expansion paramMap (stripWhiteSpace text) ≠ [] →
        parseQuery paramMap text = some [expansion paramMap (stripWhiteSpace text)]) ↔
      unpairedEnd (stripWhiteSpace text) = false := by
  by_cases hempty : text = []
  · subst hempty
    refine iff_of_true ?_ rfl
    intro hne
    exact absurd (by simp [expansion, stripWhiteSpace, stripMatchedCharacters]) hne
  · rw [parseQuery_eq, statementsOf_of_free hempty hfree,
      ← render_eq_expansion_iff paramMap (stripWhiteSpace text)]
    simp only [instantiate, statementOf, map_cons, map_nil, flatten_cons,
      flatten_nil, append_nil, Option.some.injEq]
    constructor
    · intro hexpands
      by_contra hlost
      have hunpaired : unpairedEnd (stripWhiteSpace text) = true := by
        rw [render_eq_expansion_iff] at hlost
        simpa using hlost
      have hval := render_parseTemplate [dollar] (stripWhiteSpace text) (valueOf paramMap)
      rw [if_pos hunpaired, ← expansion] at hval
      have hone := hexpands (by rw [hval]; simp)
      split_ifs at hone
      exact hlost (singleton_inj.1 hone)
    · intro heq hne
      rw [heq, if_neg]
      simp [hne]

end PurcFetcher.Expansion
