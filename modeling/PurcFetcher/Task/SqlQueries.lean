import PurcFetcher.Task.Expansion

/-!
# Queries of several statements

Both copies of `parseSqlQuery` split a query at every semicolon, and so also at those that
stand in a string literal of a statement.  Statements that are joined by semicolons are
found again exactly when none of their string literals has a semicolon.
-/

namespace PurcFetcher.SqlQueries

open Expansion List Pieces Text

def apostrophe : UChar := 0x27

/-! ## String literals -/

/-- The characters of a text outside its string literals, and those of its literals.  The
first argument is what was read of a literal that is open; it is no literal if the text
ends before it is closed.  A doubled quote closes a literal and opens the next one, so
that what is around it stays inside. -/
def scan : Option Str → Str → Str × Str
  | none, [] => ([], [])
  | some opened, [] => (opened, [])
  | none, char :: rest =>
    if char = apostrophe then scan (some [char]) rest
    else (char :: (scan none rest).1, (scan none rest).2)
  | some opened, char :: rest =>
    if char = apostrophe then
      ((scan none rest).1, opened ++ char :: (scan none rest).2)
    else scan (some (opened ++ [char])) rest

def outsideLiterals (text : Str) : Str :=
  (scan none text).1

def insideLiterals (text : Str) : Str :=
  (scan none text).2

theorem mem_scan (char : UChar) (opened : Option Str) (text : Str) :
    char ∈ (scan opened text).1 ∨ char ∈ (scan opened text).2 ↔
      char ∈ opened.getD [] ∨ char ∈ text := by
  fun_induction scan opened text with
  | case1 => simp
  | case2 opened => simp
  | case3 rest ih =>
    rw [ih]
    simp
  | case4 other rest hquote ih => grind
  | case5 opened rest ih => grind
  | case6 opened other rest hquote ih =>
    rw [ih]
    simp only [Option.getD_some, mem_append, mem_cons, not_mem_nil, or_false, or_assoc]

theorem mem_outside_or_inside (char : UChar) (text : Str) :
    char ∈ outsideLiterals text ∨ char ∈ insideLiterals text ↔ char ∈ text := by
  rw [outsideLiterals, insideLiterals, mem_scan, Option.getD_none]
  simp

/-! ## Statements -/

/-- A statement that can be joined to others with semicolons. -/
structure IsStatement (text : Str) : Prop where
  nonempty : text ≠ []
  noParameter : dollar ∉ text
  noLeadingSpace : ∀ char ∈ text.head?, isSpaceOrNewline char = false
  noTrailingSpace : ∀ char ∈ text.getLast?, isSpaceOrNewline char = false
  oneStatement : semicolon ∉ outsideLiterals text

def joinStatements (statements : List Str) : Str :=
  [semicolon].intercalate statements

theorem mem_of_mem_stripWhiteSpace {char : UChar} {text : Str}
    (hmem : char ∈ stripWhiteSpace text) : char ∈ text := by
  rw [stripWhiteSpace, stripMatchedCharacters, mem_reverse] at hmem
  have hmiddle := (dropWhile_sublist _).subset hmem
  rw [mem_reverse] at hmiddle
  exact (dropWhile_sublist _).subset hmiddle

/-! ## Parsing -/

/-- Without parameters the statements of a query are its stripped pieces. -/
theorem parseQuery_of_free (paramMap : ParamMap) {sqlQuery : Str}
    (hfree : dollar ∉ sqlQuery) :
    parseQuery paramMap sqlQuery = some ((split sqlQuery semicolon).map stripWhiteSpace) := by
  have hpiece : ∀ piece ∈ split sqlQuery semicolon,
      instantiate paramMap [statementOf piece] = [stripWhiteSpace piece] := by
    intro piece hpiece
    have hnone : find (stripWhiteSpace piece) dollar 0 = none := by
      rw [find_eq_none_iff, drop_zero]
      intro hmem
      have hflatten := mem_flatten.2
        ⟨piece, split_eq_pieces _ _ ▸ hpiece, mem_of_mem_stripWhiteSpace hmem⟩
      rw [flatten_pieces] at hflatten
      exact hfree (mem_of_mem_filter hflatten)
    have hparsed := parseStatement_eq paramMap piece
    rw [parseStatement, hnone, Option.some.injEq] at hparsed
    exact hparsed.symm
  rw [parseQuery_eq, statementsOf]
  generalize split sqlQuery semicolon = parts at hpiece
  congr 1
  induction parts with
  | nil => rfl
  | cons piece parts ih => grind [instantiate]

section Statements

variable {stmts : List Str} (hstatements : ∀ text ∈ stmts, IsStatement text)

include hstatements

theorem dollar_not_mem_joinStatements : dollar ∉ joinStatements stmts := by
  have hfree : ∀ unit ∈ joinStatements stmts, unit ≠ dollar := by
    refine (forall_mem_intercalate_iff (forall_mem_singleton.2 (by decide)) stmts).2 ?_
    intro text htext _ hmem
    exact ne_of_mem_of_not_mem hmem (hstatements text htext).noParameter
  exact fun hmem => hfree dollar hmem rfl

theorem parseQuery_joinStatements_iff (paramMap : ParamMap) :
    parseQuery paramMap (joinStatements stmts) = some stmts ↔
      ∀ text ∈ stmts, semicolon ∉ insideLiterals text := by
  rw [parseQuery_of_free paramMap (dollar_not_mem_joinStatements hstatements), Option.some.injEq]
  constructor
  · intro hparsed text htext hinside
    have hsemicolon : semicolon ∈ text := (mem_outside_or_inside _ _).1 (Or.inr hinside)
    rw [← hparsed, mem_map] at htext
    obtain ⟨piece, hpiece, rfl⟩ := htext
    have hflatten := mem_flatten.2
      ⟨piece, split_eq_pieces _ _ ▸ hpiece, mem_of_mem_stripWhiteSpace hsemicolon⟩
    rw [flatten_pieces, mem_filter] at hflatten
    simp at hflatten
  · intro hliterals
    have hsplit : split (joinStatements stmts) semicolon = stmts := by
      apply split_intercalate fun text htext => (hstatements text htext).nonempty
      intro text htext hmem
      obtain houtside | hinside := (mem_outside_or_inside _ _).2 hmem
      · exact (hstatements text htext).oneStatement houtside
      · exact hliterals text htext hinside
    rw [hsplit]
    have hstripped : ∀ text ∈ stmts, stripWhiteSpace text = id text := fun text htext =>
      stripMatchedCharacters_eq_self (hstatements text htext).noLeadingSpace
        (hstatements text htext).noTrailingSpace
    rw [map_congr_left hstripped, map_id]

end Statements

/-- Both tasks run the statements that were joined exactly when no string literal of them
has a semicolon. -/
theorem parseSqlQuery_joinStatements_iff (paramMap : ParamMap) (statements : List Str)
    (hstatements : ∀ text ∈ statements, IsStatement text) :
    (NetworkDataTaskLsql.parseSqlQuery paramMap (joinStatements statements) =
        some statements ∧
      NetworkDataTaskRsql.parseSqlQuery paramMap (joinStatements statements) =
        some statements) ↔
      ∀ text ∈ statements, semicolon ∉ insideLiterals text := by
  rw [NetworkDataTaskLsql.parseSqlQuery, NetworkDataTaskRsql.parseSqlQuery, and_self_iff]
  exact parseQuery_joinStatements_iff hstatements paramMap

theorem parseSqlQuery_joinStatements_two :
    (∀ text ∈ [lit "select ''", lit "delete"], IsStatement text) ∧
      NetworkDataTaskLsql.parseSqlQuery (fun _ => none)
        (joinStatements [lit "select ''", lit "delete"]) =
          some [lit "select ''", lit "delete"] := by
  have hselect : IsStatement (lit "select ''") :=
    ⟨by decide, by decide, fun _ hchar => Option.some.inj hchar ▸ rfl,
      fun _ hchar => Option.some.inj hchar ▸ rfl, by decide⟩
  have hdelete : IsStatement (lit "delete") :=
    ⟨by decide, by decide, fun _ hchar => Option.some.inj hchar ▸ rfl,
      fun _ hchar => Option.some.inj hchar ▸ rfl, by decide⟩
  have hstatements := forall_mem_cons.2 ⟨hselect, forall_mem_singleton.2 hdelete⟩
  exact ⟨hstatements, ((parseSqlQuery_joinStatements_iff (fun _ => none)
    [lit "select ''", lit "delete"] hstatements).2 (by decide)).1⟩

/-- A semicolon in a literal cuts the statement. -/
theorem parseSqlQuery_cuts_literal :
    IsStatement (lit "select ';'") ∧ NetworkDataTaskLsql.parseSqlQuery (fun _ => none)
        (joinStatements [lit "select ';'"]) = some [lit "select '", lit "'"] ∧
      NetworkDataTaskRsql.parseSqlQuery (fun _ => none)
        (joinStatements [lit "select ';'"]) = some [lit "select '", lit "'"] := by
  refine ⟨⟨by decide, by decide, ?_, ?_, by decide⟩, by decide, by decide⟩
  · exact fun _ hchar => Option.some.inj hchar ▸ rfl
  · exact fun _ hchar => Option.some.inj hchar ▸ rfl

end PurcFetcher.SqlQueries
