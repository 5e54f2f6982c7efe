import PurcFetcher.Filter.Format

/-!
# Running a local command

`NetworkDataTaskLcmd` reads the output of a command through a pipe in chunks of
a fixed buffer, takes the bytes for Latin-1 text, splits it into lines, filters
them and writes the response as JSON.

The module follows the output through all these representations and compares
the response, as a JSON reader sees it, with the text that the command wrote.
-/

namespace PurcFetcher.Lcmd

open CmdFilterManager List PurcFetcher.Format JsonText JsonValues Pieces Text TextSplit
open PurcFetcher.Vector

/-! ## Reading the pipe -/

/-- `DEFAULT_READBUFFER_SIZE`. -/
def readBufferSize : ℕ := 8192

def newline : LChar := 0x0A

/-- The number of bytes one `fgets` takes: up to the first newline, and one less
than the buffer holds. -/
def chunkLength (input : List LChar) : ℕ :=
  min (readBufferSize - 1) ((input.takeWhile (· != newline)).length + 1)

/-- `fgets(data, sizeof(data), fp)` with the rest of the input. -/
def fgets (input : List LChar) : Option (List LChar × List LChar) :=
  if input.isEmpty then none
  else some (input.take (chunkLength input), input.drop (chunkLength input))

/-- `strlen` ends a chunk at its first zero byte. -/
def cString (data : List LChar) : List LChar :=
  data.takeWhile (· != 0)

/-- How the reading loop ended. -/
inductive ReadEnd
  | endOfFile (readBuffer : List LChar)
  | canceled
  deriving DecidableEq, Repr

/-- The `fgets` loop.  `canceling` tells in which rounds the state is found to be
`Canceling`.  Every round takes a byte, so the length of the output bounds the
rounds. -/
def readLoop (canceling : ℕ → Bool) : ℕ → ℕ → List LChar → List LChar → ReadEnd
  | 0, _, _, readBuffer => .endOfFile readBuffer
  | fuel + 1, round, input, readBuffer =>
    match fgets input with
    | none => .endOfFile readBuffer
    | some (data, rest) =>
      if canceling round then .canceled
      else readLoop canceling fuel (round + 1) rest (readBuffer ++ cString data)

/-- What `popen` gives: an error, or the output and the exit status of the
command. -/
inductive Pipe
  | failed (errno : Str)
  | opened (output : List LChar) (exitStatus : UInt8)
  deriving DecidableEq, Repr

/-- The members that `runCmdInner` sets. -/
structure Result where
  statusCode : ℤ
  errorMsg : Str
  exitCode : ℤ
  readLines : List Str
  deriving DecidableEq, Repr

/-- `NetworkDataTaskLcmd::runCmdInner` from `popen` on.  `none` is the crash of
`String(const char*, unsigned)` on more characters than a string can have;
`errno` is the message of a cancelled read. -/
def runCmdInner (canceling : ℕ → Bool) (errno : Str) : Pipe → Option Result
  | .failed message =>
    some { statusCode := 500, errorMsg := message, exitCode := 0, readLines := [] }
  | .opened output exitStatus =>
    match readLoop canceling (output.length + 1) 0 output [] with
    | .canceled => some { statusCode := 503, errorMsg := errno, exitCode := 0, readLines := [] }
    | .endOfFile readBuffer =>
      if readBuffer.length ≤ maxLength then
        let readLines := split (latin1 readBuffer) 0x0A
        if exitStatus = 127 then
          some { statusCode := 404, errorMsg := lit "Not Found", exitCode := 127, readLines }
        else
          some { statusCode := 200, errorMsg := [], exitCode := exitStatus.toNat, readLines }
      else none

/-! ## The response -/

def errorValue (errorMsg : Str) : Value :=
  if errorMsg.isEmpty then .null else .string errorMsg

def exitValue (result : Result) : Value :=
  if result.statusCode = 200 ∨ result.statusCode = 404 then .integer result.exitCode
  else .null

/-- The elements of the `lines` member.  A manager without lines is not asked. -/
def lineValues (unicharType : Char → GUnicodeType) (fuel : ℕ) (filters : State)
    (readLines : List Str) : Checked (List Value) :=
  if readLines.isEmpty then pure []
  else Format.doFilter unicharType fuel filters readLines

/-- The object that `buildResponse` makes. -/
def responseObject (result : Result) (lines : List Value) : Value :=
  let members := setValue [] (lit "statusCode") (.integer result.statusCode)
  let members := setValue members (lit "errorMsg") (errorValue result.errorMsg)
  let members := setValue members (lit "exitCode") (exitValue result)
  .object (setValue members (lit "lines") (.array lines))

/-- `m_responseBuffer`.  `none` is a crash: of the builder on more characters
than a string can have, or of a filter. -/
def buildResponse (unicharType : Char → GUnicodeType) (fuel : ℕ) (filters : State)
    (result : Result) : Option (List LChar) :=
  match lineValues unicharType fuel filters result.readLines with
  | .error _ => none
  | .ok lines =>
    let value := responseObject result lines
    if (writeJSON value).length ≤ maxLength then some (jsonBytes value) else none

/-- A request without filters that is not cancelled. -/
def plainRequest (unicharType : Char → GUnicodeType) (output : List LChar)
    (exitStatus : UInt8) : Option (List LChar) :=
  (runCmdInner (fun _ => false) [] (.opened output exitStatus)).bind
    (buildResponse unicharType 0 initial)

/-! ## The bytes that are read -/

theorem chunkLength_pos (input : List LChar) : 0 < chunkLength input := by
  rw [chunkLength, readBufferSize]
  omega

theorem cString_of_free {data : List LChar} (hfree : (0 : LChar) ∉ data) : cString data = data := by
  rw [cString, takeWhile_eq_self_iff]
  intro byte hbyte
  simp only [bne_iff_ne]
  rintro rfl
  exact hfree hbyte

/-- However the output falls into chunks, all of it is read. -/
theorem readLoop_eq (fuel round : ℕ) (input readBuf : List LChar)
    (hfree : (0 : LChar) ∉ input) (hfuel : input.length < fuel) :
    readLoop (fun _ => false) fuel round input readBuf = .endOfFile (readBuf ++ input) := by
  induction fuel generalizing round input readBuf with
  | zero => exact absurd hfuel (Nat.not_lt_zero _)
  | succ fuel ih =>
    by_cases hempty : input = []
    · subst hempty
      rw [readLoop, append_nil]
      rfl
    · have hpos := chunkLength_pos input
      have hlen : input.length ≠ 0 := by simpa using hempty
      have hdata : cString (input.take (chunkLength input)) = input.take (chunkLength input) :=
        cString_of_free fun hmem => hfree (mem_of_mem_take hmem)
      have hrest : (input.drop (chunkLength input)).length < fuel := by
        rw [length_drop]
        omega
      have hnext := ih (round + 1) _ (readBuf ++ input.take (chunkLength input))
        (fun hmem => hfree (mem_of_mem_drop hmem)) hrest
      rw [append_assoc, take_append_drop] at hnext
      rw [readLoop, fgets, if_neg (by simpa using hempty)]
      dsimp only
      rw [if_neg Bool.false_ne_true, hdata, hnext]

/-! ## The lines -/

def textLines (text : List Char) : List (List Char) :=
  pieces (· == '\n') text

variable (text : List Char)

theorem columnOf_eq_flatMap :
    columnOf text = text.flatMap fun char => latin1 (String.utf8EncodeChar char) := by
  rw [columnOf, latin1, Utf8.encode, map_flatMap]
  rfl

theorem newline_encoded (char : Char) (hchar : (char == '\n') = true) :
    ∃ unit, latin1 (String.utf8EncodeChar char) = [unit] ∧ (unit == (0x0A : UChar)) = true := by
  obtain rfl : char = '\n' := by simpa using hchar
  exact ⟨0x0A, by decide, rfl⟩

theorem other_encoded (char : Char) (hchar : (char == '\n') = false) :
    latin1 (String.utf8EncodeChar char) ≠ [] ∧
      ∀ unit ∈ latin1 (String.utf8EncodeChar char), (unit == (0x0A : UChar)) = false := by
  refine ⟨by simp [latin1, String.utf8EncodeChar_ne_nil], ?_⟩
  intro unit hunit
  rw [latin1, mem_map] at hunit
  obtain ⟨byte, hbyte, rfl⟩ := hunit
  rw [beq_eq_false_iff_ne] at hchar ⊢
  intro hnewline
  have hval : byte.toNat = 0x0A := congrArg UInt16.toNat hnewline
  have heq := Utf8.toNat_eq_of_mem_encodeChar hbyte (by omega)
  apply hchar
  apply Char.toNat_inj.1
  rw [heq, hval]
  rfl

theorem split_columnOf : split (columnOf text) 0x0A = (textLines text).map columnOf := by
  have hpieces : pieces (· == (0x0A : UChar))
      (text.flatMap fun char => latin1 (String.utf8EncodeChar char)) =
        (textLines text).map fun line =>
          line.flatMap fun char => latin1 (String.utf8EncodeChar char) := by
    exact piecesFrom_flatMap newline_encoded other_encoded [] _ (by simp)
  rw [split_eq_pieces, columnOf_eq_flatMap, hpieces]
  apply map_congr_left
  intro line _
  exact (columnOf_eq_flatMap line).symm

theorem isASCII_iff_textLines :
    Utf16.IsASCII text ↔ ∀ line ∈ textLines text, Utf16.IsASCII line := by
  have hflatten : (textLines text).flatten = text.filter fun char => !(char == '\n') :=
    flatten_pieces _ _
  constructor
  · intro hascii line hline char hchar
    have hmem : char ∈ (textLines text).flatten := mem_flatten.2 ⟨line, hline, hchar⟩
    rw [hflatten] at hmem
    exact hascii char (mem_of_mem_filter hmem)
  · intro hlines char hchar
    by_cases hnewline : char = '\n'
    · rw [hnewline]
      decide
    · have hmem : char ∈ (textLines text).flatten := by
        rw [hflatten, mem_filter]
        exact ⟨hchar, by simpa using hnewline⟩
      obtain ⟨line, hline, hinside⟩ := mem_flatten.1 hmem
      exact hlines line hline char hinside

/-! ## The response to a request without filters -/

def plainValue (exitStatus : UInt8) (lines : List Str) : Value :=
  .object
    [(lit "statusCode", .integer (if exitStatus = 127 then 404 else 200)),
      (lit "errorMsg", if exitStatus = 127 then .string (lit "Not Found") else .null),
      (lit "exitCode", .integer exitStatus.toNat),
      (lit "lines", .array (lines.map fun line => .object [(lit "C0", .string line)]))]

theorem lineValues_initial (utype : Char → GUnicodeType) (readLines : List Str) :
    lineValues utype 0 initial readLines =
      .ok (readLines.map fun line => .object [(lit "C0", .string line)]) := by
  rw [lineValues]
  split_ifs with hempty
  · rw [List.isEmpty_iff.1 hempty]
    rfl
  · exact doFilter_initial utype 0 readLines

/-- A request without filters answers with the lines, unless a string would get
too long. -/
theorem plainRequest_eq (utype : Char → GUnicodeType) (text : List Char)
    (exitStatus : UInt8) (hfree : '\x00' ∉ text) :
    plainRequest utype (Utf8.encode text) exitStatus =
      if (Utf8.encode text).length ≤ maxLength ∧
          (writeJSON (plainValue exitStatus ((textLines text).map columnOf))).length ≤
            maxLength then
        some (jsonBytes (plainValue exitStatus ((textLines text).map columnOf)))
      else none := by
  have hzero : (0 : LChar) ∉ Utf8.encode text := Utf8.not_mem_encode (by decide) hfree
  have hread := readLoop_eq ((Utf8.encode text).length + 1) 0 (Utf8.encode text) [] hzero
    (Nat.lt_succ_self _)
  rw [plainRequest, runCmdInner, hread, nil_append]
  by_cases hlen : (Utf8.encode text).length ≤ maxLength
  · simp only [hlen, if_true, true_and]
    rw [← columnOf, split_columnOf]
    by_cases hstatus : exitStatus = 127
    · subst hstatus
      simp only [if_true, Option.bind_some, buildResponse, lineValues_initial]
      rfl
    · simp only [hstatus, if_false, Option.bind_some, buildResponse, lineValues_initial, plainValue]
      rfl
  · simp only [hlen, if_false, false_and]
    rfl

/-! ## The length of the response -/

/-- The number of characters a code unit takes in a JSON string. -/
def unitLength (unit : UChar) : ℕ :=
  if unit ∈ [0x08, 0x09, 0x0A, 0x0C, 0x0D, 0x22, 0x5C] then 2
  else if 32 ≤ unit ∧ unit < 127 ∧ unit ≠ 0x3C ∧ unit ≠ 0x3E then 1
  else 6

def stringLength (line : Str) : ℕ :=
  (line.map unitLength).sum

/-- Nine characters around each line and a comma between two. -/
def linesLength (lines : List Str) : ℕ :=
  (lines.map fun line => 9 + stringLength line).sum + (lines.length - 1)

/-- The length of the response to a request without filters. -/
def responseLength (exitStatus : UInt8) (lines : List Str) : ℕ :=
  (if exitStatus = 127 then 67 else 57 + (Nat.toDigits 10 exitStatus.toNat).length) +
    linesLength lines

theorem length_escapeString (line : Str) : (escapeString line).length = stringLength line := by
  rw [escapeString, length_flatMap, stringLength]
  congr 1
  apply map_congr_left
  intro unit _
  rw [escapeUnit, unitLength]
  split_ifs <;> simp_all

theorem length_writeElements_lines (lines : List Str) :
    (writeElements (lines.map fun line =>
      (.object [(lit "C0", .string line)] : Value))).length = linesLength lines := by
  have hname : stringLength (lit "C0") = 2 := by decide
  have hline : ∀ line, (writeJSON (.object [(lit "C0", .string line)])).length =
      9 + stringLength line := by
    intro line
    simp only [writeJSON, writeMembers, length_append, length_cons,
      appendDoubleQuotedString, length_escapeString, hname, length_nil]
    omega
  induction lines with
  | nil => rfl
  | cons line lines ih =>
    cases lines with
    | nil =>
      rw [map_singleton, writeElements, hline]
      simp [linesLength]
    | cons => grind [writeElements, linesLength]

theorem length_writeJSON_plainValue (exitStatus : UInt8) (lines : List Str) :
    (writeJSON (plainValue exitStatus lines)).length = responseLength exitStatus lines := by
  have hstatusCode : (appendDoubleQuotedString (lit "statusCode")).length = 12 := by decide
  have herrorMsg : (appendDoubleQuotedString (lit "errorMsg")).length = 10 := by decide
  have hexitCode : (appendDoubleQuotedString (lit "exitCode")).length = 10 := by decide
  have hlinesName : (appendDoubleQuotedString (lit "lines")).length = 7 := by decide
  have hnotFound : (appendDoubleQuotedString (lit "Not Found")).length = 11 := by decide
  have hfound : (integerText 200).length = 3 := by decide
  have hmissing : (integerText 404).length = 3 := by decide
  have hexit : (integerText exitStatus.toNat).length =
      (Nat.toDigits 10 exitStatus.toNat).length := by
    rw [integerText, if_neg (by omega), Int.natAbs_natCast]
  have hlines := length_writeElements_lines lines
  rw [plainValue, responseLength]
  by_cases hstatus : exitStatus = 127
  · have hdigits : (integerText exitStatus.toNat).length = 3 := by
      rw [hstatus]
      decide
    simp only [hstatus, if_true] at hdigits ⊢
    simp only [writeJSON, writeMembers, length_append, length_cons,
      length_nil, hstatusCode, herrorMsg, hexitCode, hlinesName, hnotFound, hmissing,
      hdigits, hlines]
    omega
  · simp only [hstatus, if_false]
    simp only [writeJSON, writeMembers, length_append, length_cons,
      length_nil, hstatusCode, herrorMsg, hexitCode, hlinesName, hfound, hexit, hlines]
    omega

/-! ## What a reader finds in the response -/

theorem member?_lines_plainValue (exitStatus : UInt8) (lines : List Str) :
    (toJson (plainValue exitStatus lines)).member? (lit "lines") =
      some (.array (elementsToJson (lines.map fun line =>
        .object [(lit "C0", .string line)]))) := by
  rfl

theorem map_member?_lines (lines : List Str) :
    (elementsToJson (lines.map fun line => .object [(lit "C0", .string line)])).map
        (Json.member? (lit "C0")) =
      lines.map fun line => some (.string line) := by
  induction lines with
  | nil => rfl
  | cons line lines ih =>
    rw [map_cons, elementsToJson, map_cons, ih]
    rfl

/-- The response has, for every nonempty line of the text in order, an object
whose member `C0` is the text of the line. -/
def ShowsLines (text : List Char) (response : Option (List LChar)) : Prop :=
  ∃ bytes json elements, response = some bytes ∧ parseUtf8 bytes = some json ∧
    json.member? (lit "lines") = some (.array elements) ∧
    elements.map (Json.member? (lit "C0")) =
      (textLines text).map fun line => some (.string (Utf16.encode line))

/-- The lines arrive exactly when the output is ASCII and no string gets too
long. -/
theorem plainRequest_showsLines_iff (unicharType : Char → GUnicodeType) (text : List Char)
    (exitStatus : UInt8) (hfree : '\x00' ∉ text) :
    ShowsLines text (plainRequest unicharType (Utf8.encode text) exitStatus) ↔
      Utf16.IsASCII text ∧ (Utf8.encode text).length ≤ maxLength ∧
        responseLength exitStatus ((textLines text).map columnOf) ≤ maxLength := by
  have hsame : ((textLines text).map columnOf).map (fun line => some (Json.string line)) =
      (textLines text).map (fun line => some (.string (Utf16.encode line))) ↔
        Utf16.IsASCII text := by
    rw [map_map, map_inj_left, isASCII_iff_textLines]
    apply forall₂_congr
    intro line _
    rw [← Utf16.widen_utf8_eq_encode_iff]
    simp [columnOf, latin1]
  rw [plainRequest_eq unicharType text exitStatus hfree, length_writeJSON_plainValue, ShowsLines]
  constructor
  · grind [parseUtf8_jsonBytes, member?_lines_plainValue, map_member?_lines]
  · rintro ⟨hascii, hlength⟩
    rw [if_pos hlength]
    refine ⟨_, _, _, rfl, parseUtf8_jsonBytes _, member?_lines_plainValue _ _, ?_⟩
    rw [map_member?_lines]
    exact hsame.2 hascii

theorem plainRequest_showsLines_two :
    '\x00' ∉ ['a', '\n', '\n', '<'] ∧ ShowsLines ['a', '\n', '\n', '<']
        (plainRequest (fun _ => .control) (Utf8.encode ['a', '\n', '\n', '<']) 0) :=
  ⟨by decide, (plainRequest_showsLines_iff (fun _ => .control) ['a', '\n', '\n', '<'] 0
    (by decide)).2 (by decide)⟩

/-- A character outside ASCII arrives as the Latin-1 reading of its bytes. -/
theorem plainRequest_garbles :
    ∃ bytes json, plainRequest (fun _ => .control) (Utf8.encode ['é']) 0 = some bytes ∧
      parseUtf8 bytes = some json ∧
      json.member? (lit "lines") =
        some (.array [.object [(lit "C0", .string [0xC3, 0xA9])]]) ∧
      textLines ['é'] = [['é']] ∧ Utf16.encode ['é'] = [0xE9] := by
  have hlines : (textLines ['é']).map columnOf = [[0xC3, 0xA9]] := by decide
  have hresponse := plainRequest_eq (fun _ => .control) ['é'] 0 (by decide)
  rw [hlines, if_pos (by decide)] at hresponse
  exact ⟨_, _, hresponse, parseUtf8_jsonBytes _, member?_lines_plainValue _ _, by decide, by decide⟩

end PurcFetcher.Lcmd
