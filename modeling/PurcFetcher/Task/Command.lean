import PurcFetcher.Core.Shell
import PurcFetcher.Task.Lcmd
import PurcFetcher.Task.QueryString
import PurcFetcher.Wtf.Utf8Conversion

/-!
# The command of a request

`runCmdInner` makes a command of the path of the URL and of the expanded command line, and
`popen` gives it to a shell.  Where the path is itself a shell, the command line goes
between double quotes, and nothing in it is escaped.  The outer shell takes it as it is
exactly when it has no double quote, dollar sign or backquote, and no backslash before a
backslash or a newline.

The URL parser leaves only ASCII characters in a path.  The buffer of the converted command
is released before `popen` reads it, and what it holds then is a parameter.  Limits of the
system on the length of an argument are not modelled.
-/

namespace PurcFetcher.Lcmd

open Expansion List QueryString Shell Text

/-! ## Assembling the command -/

/-- The command line of a request: the first part of `runCmdInner`.  The filter that it also
reads does not change the command. -/
def expandedCmdLine : Option Str → Option Str
  | none => some []
  | some query =>
    (NetworkDataTaskLcmd.parseQueryString .initial query).bind fun task =>
      if task.cmdLine.isEmpty then some []
      else NetworkDataTaskLcmd.parseCmdLine task.paramMap task.cmdLine

def programPrefix (path : Str) : Str :=
  match reverseFind path 0x2F with
  | none => path ++ lit " "
  | some position => substringFrom path (position + 1) ++ lit " "

/-- What the string builder holds for a command line that is not empty. -/
def commandText (path cmdLine : Str) : Str :=
  if (lit "sh").isSuffixOf path then path ++ lit " -c \"" ++ cmdLine ++ lit " \""
  else if (programPrefix path).isPrefixOf cmdLine then
    path ++ lit " " ++ substringFrom cmdLine (programPrefix path).length
  else path ++ lit " " ++ cmdLine

/-- What `popen` finds where `command` points. -/
structure Memory where
  /-- What follows the characters of a string, which have no zero byte after them. -/
  following : List LChar
  /-- What is left of the bytes of a `CString` that its block has released. -/
  released : List LChar → List LChar

/-- The bytes at `command`, up to the zero byte that ends a `CString`. -/
def command (memory : Memory) (urlPath : Str) (query : Option Str) : Option (List LChar) :=
  (expandedCmdLine query).bind fun cmdLine =>
    let path := stripWhiteSpace urlPath
    if cmdLine.isEmpty then some (characters8 path ++ memory.following)
    else (utf8 (commandText path cmdLine)).map memory.released

/-- The words of the command that the shell of `popen` runs. -/
def popenWords (memory : Memory) (urlPath : Str) (query : Option Str) : Option (List Word) :=
  (command memory urlPath query).bind fun bytes => words (cString bytes)

/-! ## Command lines as bytes -/

theorem alike_appendUnit {unit : UChar} {bytes : List LChar} {text : Str}
    (hrest : Alike UInt8.toNat UInt16.toNat bytes text) :
    Alike UInt8.toNat UInt16.toNat (appendUnit unit ++ bytes) (unit :: text) := by
  by_cases hascii : unit.toNat < 128
  · rw [appendUnit_of_ascii hascii]
    apply Alike.same _ hrest
    rw [UInt16.toNat_toUInt8]
    omega
  · rw [← singleton_append]
    exact .high (appendCodePoint_ne_nil _) (cons_ne_nil _ _)
      (fun _ hbyte => le_of_mem_appendUnit (not_lt.1 hascii) hbyte)
      (forall_mem_singleton.2 (not_lt.1 hascii)) hrest

theorem alike_convert (text : Str) :
    Alike UInt8.toNat UInt16.toNat (convertUTF16ToUTF8 appendUnit text) text := by
  induction text using twoStepInduction with
  | nil => exact .nil
  | singleton unit =>
    have hunit : Alike UInt8.toNat UInt16.toNat (appendUnit unit ++ []) [unit] :=
      alike_appendUnit .nil
    rw [append_nil] at hunit
    rwa [convertUTF16ToUTF8, ite_self]
  | cons_cons first second text ih ihNext =>
    rw [convertUTF16ToUTF8]
    split_ifs with hpair
    · simp only [isSurrogateLead, isSurrogateTrail, Bool.and_eq_true, decide_eq_true_eq] at hpair
      have hhigh : ∀ unit ∈ [first, second], 128 ≤ unit.toNat := by
        simp only [forall_mem_cons, not_mem_nil, false_implies, implies_true, and_true]
        omega
      refine .high (appendCodePoint_ne_nil _) (cons_ne_nil first [second]) (fun _ hbyte => ?_)
        hhigh ih
      refine le_of_mem_appendCodePoint ?_ ?_ hbyte <;>
        rw [supplementary, surrogateOffset_eq] <;> omega
    · exact alike_appendUnit (ihNext second)

/-! ## What the shell invokes -/

/-- A character of a path that the shell does not interpret. -/
def isPathChar (char : UChar) : Bool :=
  decide (0x21 ≤ char.toNat) && decide (char.toNat ≤ 0x7E) && !isMetacharacter char.toUInt8

theorem toNat_lt_of_isPathChar {char : UChar} (hchar : isPathChar char = true) :
    char.toNat < 128 := by
  simp only [isPathChar, Bool.and_eq_true, decide_eq_true_eq] at hchar
  omega

theorem isSpaceOrNewline_of_isPathChar {char : UChar} (hchar : isPathChar char = true) :
    isSpaceOrNewline char = false := by
  rw [← Bool.not_eq_true, isSpaceOrNewline_iff]
  simp only [isPathChar, Bool.and_eq_true, decide_eq_true_eq] at hchar
  omega

section Words

variable {path : Str} (hpath : ∀ char ∈ path, isPathChar char = true)

include hpath

theorem stripWhiteSpace_path : stripWhiteSpace path = path := by
  apply stripMatchedCharacters_eq_self
  · exact fun char hhead => isSpaceOrNewline_of_isPathChar (hpath char (mem_of_mem_head? hhead))
  · exact fun char hlast => isSpaceOrNewline_of_isPathChar (hpath char (mem_of_getLast? hlast))

theorem utf8Impl_commandText (hend : lit "sh" <:+ path) (cmdLine : Str) :
    utf8Impl (commandText path cmdLine) =
      characters8 path ++ characters8 (lit " -c \"") ++
        (convertUTF16ToUTF8 appendUnit cmdLine ++ [space, doubleQuote]) := by
  have hascii : ∀ unit ∈ path, unit.toNat < 128 :=
    fun unit hunit => toNat_lt_of_isPathChar (hpath unit hunit)
  have hoption : ∀ unit ∈ lit " -c \"", unit.toNat < 128 := by simp [lit]
  rw [commandText, if_pos (isSuffixOf_iff_suffix.2 hend), utf8Impl, append_assoc,
    append_assoc, convert_append_of_ascii _ hascii, convert_append_of_ascii _ hoption,
    append_assoc]
  congr 2
  exact convert_append_cons_of_ascii _ cmdLine (show (0x20 : UChar).toNat < 128 by decide) _

theorem run_path (hne : path ≠ []) :
    Machine.run step .start (characters8 path ++ characters8 (lit " -c \"")) =
      some (quoted [characters8 path, characters8 (lit "-c")] []) := by
  have hword : ∀ byte ∈ characters8 path, isMetacharacter byte = false := by
    intro byte hbyte
    obtain ⟨char, hchar, rfl⟩ := mem_map.1 hbyte
    have hplain := hpath char hchar
    simp only [isPathChar, Bool.and_eq_true, Bool.not_eq_true'] at hplain
    exact hplain.2
  rw [Machine.run_append, run_word rfl (by simpa [characters8] using hne) hword, Option.bind_some]
  rfl

theorem cString_commandText {cmdLine : Str} (hfree : 0 ∉ cmdLine) :
    cString (characters8 path ++ characters8 (lit " -c \"") ++
        (convertUTF16ToUTF8 appendUnit cmdLine ++ [space, doubleQuote])) =
      characters8 path ++ characters8 (lit " -c \"") ++
        (convertUTF16ToUTF8 appendUnit cmdLine ++ [space, doubleQuote]) := by
  apply cString_of_free
  simp only [mem_append, not_or]
  refine ⟨⟨?_, by decide⟩, ?_, by decide⟩
  · intro hmem
    obtain ⟨char, hchar, hzero⟩ := mem_map.1 hmem
    have hplain := hpath char hchar
    simp only [isPathChar, Bool.and_eq_true, decide_eq_true_eq] at hplain
    have hval := congrArg UInt8.toNat hzero
    rw [UInt16.toNat_toUInt8, UInt8.toNat_zero] at hval
    omega
  · intro hmem
    obtain ⟨unit, hunit, hzero⟩ := (alike_convert cmdLine).exists_mem hmem (by decide)
    have hunitZero : unit.toNat = (0 : UChar).toNat := hzero
    exact hfree (UInt16.toNat_inj.1 hunitZero ▸ hunit)

theorem utf8Impl_path : utf8Impl path = characters8 path := by
  have hconvert := convert_append_of_ascii putUTF8Triple
    (fun unit hunit => toNat_lt_of_isPathChar (hpath unit hunit)) []
  rwa [append_nil, convertUTF16ToUTF8, append_nil] at hconvert

end Words

theorem length_commandText {path : Str} (hend : lit "sh" <:+ path) (cmdLine : Str) :
    (commandText path cmdLine).length = path.length + cmdLine.length + 7 := by
  have hoption : (lit " -c \"").length = 5 := rfl
  have hquote : (lit " \"").length = 2 := rfl
  rw [commandText, if_pos (isSuffixOf_iff_suffix.2 hend)]
  simp only [length_append, hoption, hquote]
  omega

/-- A command line is handed to the path of a shell as one argument exactly when every
character of it stands for itself in double quotes, and the command fits into the buffer of
the conversion, provided that the released buffer keeps its bytes. -/
theorem popenWords_shell_iff {path cmdLine : Str} {query : Option Str} {memory : Memory}
    (hkept : ∀ bytes ∈ utf8 (commandText path cmdLine), memory.released bytes = bytes)
    (hpath : ∀ char ∈ path, isPathChar char = true) (hend : lit "sh" <:+ path)
    (hcmdLine : expandedCmdLine query = some cmdLine) (hne : cmdLine ≠ []) (hfree : 0 ∉ cmdLine) :
    popenWords memory path query =
        some [utf8Impl path, utf8Impl (lit "-c"), utf8Impl (cmdLine ++ [0x20])] ↔
      standsForItself UInt16.toNat cmdLine = true ∧
        path.length + cmdLine.length + 7 ≤ maxLength / 3 := by
  have hpathNe : path ≠ [] := by
    rintro rfl
    exact absurd (suffix_nil.1 hend) (by decide)
  have hcommand : command memory path query = utf8 (commandText path cmdLine) := by
    rw [command, hcmdLine, Option.bind_some, stripWhiteSpace_path hpath]
    exact (if_neg (by simpa using hne)).trans ((Option.map_congr hkept).trans Option.map_id')
  have hargument : utf8Impl (cmdLine ++ [0x20]) =
      convertUTF16ToUTF8 appendUnit cmdLine ++ [space] :=
    convert_append_cons_of_ascii _ cmdLine (show (0x20 : UChar).toNat < 128 by decide) []
  rw [popenWords, hcommand, utf8, length_commandText hend]
  by_cases hlength : path.length + cmdLine.length + 7 ≤ maxLength / 3
  · rw [if_neg (not_lt.2 hlength), Option.bind_some, utf8Impl_commandText hpath hend,
      cString_commandText hpath hfree, words, Machine.run_append, run_path hpath hpathNe,
      Option.bind_some, utf8Impl_path hpath, hargument,
      ← (alike_convert cmdLine).standsForItself_eq, and_iff_left hlength]
    exact run_quoted_iff [characters8 path, characters8 (lit "-c")] [] _
  · grind

/-- The buffer is not used again before `popen` has read it. -/
def undisturbed : Memory := ⟨[], id⟩

theorem popenWords_shell_iff_ls :
    popenWords undisturbed (lit "/bin/sh") (some (lit "cmdLine=ls%20-l")) =
      some [utf8Impl (lit "/bin/sh"), utf8Impl (lit "-c"), utf8Impl (lit "ls -l" ++ [0x20])] := by
  have hcmdLine : expandedCmdLine (some (lit "cmdLine=ls%20-l")) = some (lit "ls -l") := by
    decide +kernel
  have hpath : ∀ char ∈ lit "/bin/sh", isPathChar char = true := all_eq_true.1 rfl
  exact (popenWords_shell_iff (fun _ _ => rfl) hpath (by decide) hcmdLine (by decide) (by decide)).2
    (by decide +kernel)

/-- The quotes of the command line end and begin those around it, and the blanks between
them separate words. -/
theorem popenWords_shell_splits :
    popenWords undisturbed (lit "/bin/sh") (some (lit "cmdLine=echo%20%22a%20%20b%22")) =
      some [characters8 (lit "/bin/sh"), characters8 (lit "-c"), characters8 (lit "echo a"),
        characters8 (lit "b ")] := by
  decide +kernel

end PurcFetcher.Lcmd
