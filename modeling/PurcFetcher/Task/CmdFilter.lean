import PurcFetcher.Filter.Format
import PurcFetcher.Task.Expansion

/-!
# The filter of a command

`NetworkDataTaskLcmd::parseCmdFilter` reads a text such as `split(' ');chead('2')`: calls
of filters, separated by semicolons, each with one parameter that may stand in single
quotes.  The calls go to the filter manager in order.

A call that is written in this form and parsed is found again with its own filter and its
own parameter, so the manager runs the filters of the text from left to right.
-/

namespace PurcFetcher.CmdFilter

open CmdFilterManager List Expansion PurcFetcher.Filter PurcFetcher.Format JsonValues Text TextSplit
open PurcFetcher.Vector

def leftParenthesis : UChar := 0x28

def rightParenthesis : UChar := 0x29

/-! ## Parsing -/

def parseCall (text : Str) : Str × Str :=
  let index := (find text leftParenthesis 0).getD text.length
  let value := substringFrom text (index + 1)
  let value :=
    if value.isEmpty then value
    else
      match reverseFind value rightParenthesis with
      | some idx => substring value 0 idx
      | none => value
  (substring text 0 index, stripMatchedCharacters isSingleQuotes value)

/-- `NetworkDataTaskLcmd::parseCmdFilter` on the manager of the task. -/
def parseCmdFilter (manager : State) (cmdFilter : Str) : State :=
  if cmdFilter.isEmpty then manager
  else
    (split cmdFilter semicolon).foldl (fun state entry =>
      (addFilter state (parseCall entry).1 (parseCall entry).2).1) manager

/-! ## Calls -/

/-- A call of a filter: its name in any letter case, and a parameter that can stand
between quotes. -/
structure Call where
  kind : FilterKind
  name : Str
  param : Str
  registered : equalIgnoringASCIICase name kind.name = true
  whole : semicolon ∉ param
  opened : ∀ char ∈ param.head?, isSingleQuotes char = false
  closed : ∀ char ∈ param.getLast?, isSingleQuotes char = false

/-- `name('parameter')`. -/
def Call.render (call : Call) : Str :=
  call.name ++ lit "('" ++ call.param ++ lit "')"

def renderCalls (calls : List Call) : Str :=
  [semicolon].intercalate (calls.map Call.render)

/-- A format makes a value of each row; the others change the rows. -/
def Call.isFormat (call : Call) : Bool :=
  call.kind.type = .format

def lastFormat (calls : List Call) : FilterKind × Str :=
  ((calls.filter Call.isFormat).getLast?.map fun call => (call.kind, call.param)).getD
    (.formatKeys, [])

def formatRow (format : FilterKind × Str) (row : Row) : Checked Value :=
  match format.1 with
  | .formatKeys => pure (FormatKeys.doFormat row format.2)
  | .formatArray => FormatArray.doFormat row format.2
  | _ => pure .null

/-- The filters of the calls one after the other, from rows of one line each, and the last
format on every row. -/
def applyCalls (unicharType : Char → GUnicodeType) (fuel : ℕ) (calls : List Call)
    (lines : List Str) : Checked (List Value) := do
  let rows ← (calls.filter fun call => !call.isFormat).foldlM
    (fun rows call => call.kind.doFilter unicharType fuel rows call.param)
    (lines.map fun line => [line])
  rows.mapM (formatRow (lastFormat calls))

/-! ## The names of the filters -/

namespace Names

variable (kind : FilterKind)

theorem findFilter_name : findFilter kind.name = some kind := by
  cases kind <;> decide

theorem name_ne_nil : kind.name ≠ [] := by
  cases kind <;> decide

theorem stripWhiteSpace_name : stripWhiteSpace kind.name = kind.name := by
  cases kind <;> decide

theorem convertToASCIILowercase_name : convertToASCIILowercase kind.name = kind.name := by
  cases kind <;> decide

theorem leftParenthesis_not_mem_name : leftParenthesis ∉ kind.name := by
  cases kind <;> decide

theorem semicolon_not_mem_name : semicolon ∉ kind.name := by
  cases kind <;> decide

end Names

open Names

namespace Call

variable (call : Call)

theorem lowercase_name : convertToASCIILowercase call.name = call.kind.name := by
  have hregistered := call.registered
  rw [equalIgnoringASCIICase, beq_iff_eq, convertToASCIILowercase_name] at hregistered
  exact hregistered

theorem not_mem_name {char : UChar} (hlower : toASCIILower char = char)
    (hfree : char ∉ call.kind.name) : char ∉ call.name := by
  intro hmem
  apply hfree
  rw [← call.lowercase_name, convertToASCIILowercase, mem_map]
  exact ⟨char, hmem, hlower⟩

theorem name_ne_nil : call.name ≠ [] := by
  intro hempty
  apply Names.name_ne_nil call.kind
  rw [← call.lowercase_name, hempty]
  rfl

theorem render_ne_nil : call.render ≠ [] := by
  simp [render, call.name_ne_nil]

theorem semicolon_not_mem_render : semicolon ∉ call.render := by
  have hname := call.not_mem_name (by decide) (semicolon_not_mem_name call.kind)
  have hopen : semicolon ∉ lit "('" := by decide
  have hclose : semicolon ∉ lit "')" := by decide
  simp [render, hname, hopen, hclose, call.whole]

theorem find_render : find call.render leftParenthesis 0 = some call.name.length := by
  have hname := call.not_mem_name (by decide) (leftParenthesis_not_mem_name call.kind)
  have hfind := find_append_cons [] call.name (lit "'" ++ call.param ++ lit "')")
    leftParenthesis hname
  rw [nil_append, length_nil, Nat.zero_add] at hfind
  have htext : call.render =
      call.name ++ leftParenthesis :: (lit "'" ++ call.param ++ lit "')") := by
    simp [render, lit, leftParenthesis]
  rw [htext, hfind]

theorem parseCall_render : parseCall call.render = (call.name, call.param) := by
  have hval : substringFrom call.render (call.name.length + 1) =
      (lit "'" ++ call.param ++ lit "'") ++ [rightParenthesis] := by
    have htext : call.render = (call.name ++ [leftParenthesis]) ++
        ((lit "'" ++ call.param ++ lit "'") ++ [rightParenthesis]) := by
      simp [render, lit, leftParenthesis, rightParenthesis]
    have hlen : call.name.length + 1 = (call.name ++ [leftParenthesis]).length := by simp
    rw [substringFrom, htext, hlen, drop_left]
  have hquote : ∀ char ∈ lit "'", isSingleQuotes char = true := forall_mem_singleton.2 rfl
  have hstrip := stripMatchedCharacters_append hquote hquote call.opened call.closed
  have hname : substring call.render 0 call.name.length = call.name := by
    rw [substring, render, drop_zero, append_assoc, append_assoc, take_left]
  rw [parseCall, call.find_render, Option.getD_some, hval, hname,
    reverseFind_append_singleton, if_neg (by simp)]
  simp only [substring, drop_zero, take_left, hstrip]

theorem addFilter_call (s : State) :
    (addFilter s call.name call.param).1 =
      if call.isFormat then
        { s with formats := s.formats ++ [(call.kind.name, call.param)] }
      else { s with filters := s.filters ++ [(call.kind.name, call.param)] } := by
  rw [addFilter, if_neg (mt List.isEmpty_iff.1 call.name_ne_nil), call.lowercase_name,
    stripWhiteSpace_name]
  obtain ⟨kind, name, param, hregistered, hwhole, hopened, hclosed⟩ := call
  cases kind <;> rfl

end Call

/-! ## What the manager runs -/

def entries (calls : List Call) : List (Str × Str) :=
  calls.map fun call => (call.kind.name, call.param)

theorem parseCmdFilter_renderCalls (calls : List Call) :
    parseCmdFilter initial (renderCalls calls) =
      { filters := entries (calls.filter fun call => !call.isFormat)
        formats := entries (calls.filter Call.isFormat) } := by
  have hsplit : split (renderCalls calls) semicolon = calls.map Call.render := by
    apply split_intercalate
    · rw [forall_mem_map]
      exact fun call _ => call.render_ne_nil
    · rw [forall_mem_map]
      exact fun call _ => call.semicolon_not_mem_render
  -- the fold over the calls, from any state of the manager
  have hfold : ∀ s : State, (calls.map Call.render).foldl (fun s entry =>
      (addFilter s (parseCall entry).1 (parseCall entry).2).1) s =
        { filters := s.filters ++ entries (calls.filter fun call => !call.isFormat)
          formats := s.formats ++ entries (calls.filter Call.isFormat) } := by
    clear hsplit
    induction calls with
    | nil => simp [entries]
    | cons call calls ih => grind [entries, call.parseCall_render, call.addFilter_call]
  rw [parseCmdFilter, hsplit]
  split_ifs with hempty
  · have hnone : calls.map Call.render = [] := by
      rw [← hsplit, List.isEmpty_iff.1 hempty]
      rfl
    rw [map_eq_nil_iff.1 hnone]
    rfl
  · exact hfold initial

section Run

variable (unicharType : Char → GUnicodeType) (fuel : ℕ)

theorem runFilters_entries (calls : List Call) (rows : List Row) :
    runFilters unicharType fuel (entries calls) rows =
      calls.foldlM (fun rows call => call.kind.doFilter unicharType fuel rows call.param)
        rows := by
  rw [runFilters, entries, foldlM_map]
  congr
  funext rows call
  rw [doFilterInner, findFilter_name]

theorem doFormat_entries (s : State) (calls : List Call)
    (hformats : s.formats = entries (calls.filter Call.isFormat)) :
    Format.doFormat s = formatRow (lastFormat calls) := by
  funext row
  rw [Format.doFormat, hformats, lastFormat]
  rcases eq_nil_or_concat (calls.filter Call.isFormat) with hnone | ⟨others, call, hlast⟩
  · rw [hnone]
    have hkeys : findFilter (lit "keys") = some .formatKeys := by decide
    rfl
  · grind [entries, findFilter_name, formatRow]

/-- Calls that are written as a text and parsed run as the composition of their filters,
followed by the last format. -/
theorem doFilter_renderCalls (calls : List Call) (lines : List Str) :
    Format.doFilter unicharType fuel (parseCmdFilter initial (renderCalls calls)) lines =
      applyCalls unicharType fuel calls lines := by
  rw [Format.doFilter, filterRows, parseCmdFilter_renderCalls, runFilters_entries, applyCalls,
    doFormat_entries _ calls rfl]

end Run

/-- The parameters have parentheses, quotes and blanks in them. -/
def quotedCalls : List Call :=
  [{ kind := .columnDelimiter, name := lit "Delimiter", param := lit ") (",
     registered := by decide, whole := by decide, opened := by rintro _ ⟨⟩; rfl,
     closed := by rintro _ ⟨⟩; rfl },
   { kind := .formatKeys, name := lit "KEYS", param := lit "a('b'),c",
     registered := by decide, whole := by decide, opened := by rintro _ ⟨⟩; rfl,
     closed := by rintro _ ⟨⟩; rfl }]

theorem doFilter_renderCalls_quoted :
    renderCalls quotedCalls = lit "Delimiter(') (');KEYS('a('b'),c')" ∧
      Format.doFilter (fun _ => .control) 9 (parseCmdFilter initial (renderCalls quotedCalls))
          [lit "1) (2"] =
        .ok [.object [(lit "a('b')", .string (lit "1")), (lit "c", .string (lit "2"))]] := by
  rw [doFilter_renderCalls]
  exact ⟨by decide, rfl⟩

end PurcFetcher.CmdFilter
