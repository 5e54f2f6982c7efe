import Mathlib
import PurcFetcher.Core.Machine

/-!
# Words of a shell command

The part of the POSIX shell language that a command without expansions needs: blanks
separate words, and quotes and backslashes take the meaning of other characters away.
The reader stops at everything else that the shell would interpret: an expansion, an
operator, a comment, an assignment or a pattern.  Reserved words and aliases are not
recognised.

Text in double quotes is read as it is exactly when it has no double quote, dollar sign or
backquote, and no backslash before a backslash or a newline.
-/

namespace PurcFetcher.Shell

open Machine List

abbrev Word := List UInt8

def tab : UInt8 := 0x09

def newline : UInt8 := 0x0A

def space : UInt8 := 0x20

def doubleQuote : UInt8 := 0x22

def dollar : UInt8 := 0x24

def singleQuote : UInt8 := 0x27

def backslash : UInt8 := 0x5C

def backquote : UInt8 := 0x60

/-- What has been opened. -/
inductive Mode
  | plain
  /-- After a backslash. -/
  | escaped
  | single
  | double
  /-- After a backslash in double quotes. -/
  | doubleEscaped
  deriving DecidableEq, Repr

/-- The words read so far, and the one under construction. -/
structure Reader where
  mode : Mode
  done : List Word
  current : Option Word
  deriving DecidableEq, Repr

def Reader.start : Reader :=
  { mode := .plain, done := [], current := none }

def Reader.append (reader : Reader) (bytes : List UInt8) : Reader :=
  { reader with current := some (reader.current.getD [] ++ bytes) }

def Reader.enter (reader : Reader) (mode : Mode) : Reader :=
  { reader with mode }

/-- The characters `|&;<>()$*?[`, the backquote and the newline. -/
def interpreted : List UInt8 :=
  [0x7C, 0x26, 0x3B, 0x3C, 0x3E, 0x28, 0x29, 0x24, 0x2A, 0x3F, 0x5B, 0x60, 0x0A]

/-- The shell gives an unquoted character a meaning: `#` and `~` at the start of a word and
`=` in the first one, and the others everywhere. -/
def Reader.interprets (reader : Reader) (byte : UInt8) : Bool :=
  decide (byte ∈ interpreted) || (reader.current.isNone && (byte == 0x23 || byte == 0x7E)) ||
    (reader.done.isEmpty && byte == 0x3D)

/-- A backslash in double quotes takes the meaning of these away, and is kept before all
others. -/
def escapable (byte : UInt8) : Bool :=
  byte == doubleQuote || byte == dollar || byte == backquote || byte == backslash

def step (reader : Reader) (byte : UInt8) : Option Reader :=
  match reader.mode with
  | .plain =>
    if byte = space ∨ byte = tab then
      some { reader with done := reader.done ++ reader.current.toList, current := none }
    else if byte = backslash then some (reader.enter .escaped)
    else if byte = singleQuote then some ((reader.append []).enter .single)
    else if byte = doubleQuote then some ((reader.append []).enter .double)
    else if reader.interprets byte then none
    else some (reader.append [byte])
  | .escaped =>
    if byte = newline then some (reader.enter .plain)
    else some ((reader.append [byte]).enter .plain)
  | .single =>
    if byte = singleQuote then some (reader.enter .plain) else some (reader.append [byte])
  | .double =>
    if byte = doubleQuote then some (reader.enter .plain)
    else if byte = backslash then some (reader.enter .doubleEscaped)
    else if byte = dollar ∨ byte = backquote then none
    else some (reader.append [byte])
  | .doubleEscaped =>
    if byte = newline then some (reader.enter .double)
    else if escapable byte then some ((reader.append [byte]).enter .double)
    else some ((reader.append [backslash, byte]).enter .double)

/-- A quote that is not closed and a backslash at the end leave the command incomplete. -/
def finish (reader : Reader) : Option (List Word) :=
  if reader.mode = .plain then some (reader.done ++ reader.current.toList) else none

/-- The words of a command, if the shell only separates and unquotes them. -/
def words (command : List UInt8) : Option (List Word) :=
  (run step .start command).bind finish

/-- The characters that must be quoted to stand for themselves, wherever they are. -/
def isMetacharacter (byte : UInt8) : Bool :=
  decide (byte ∈ interpreted) || byte == space || byte == tab || byte == backslash ||
    byte == singleQuote || byte == doubleQuote || byte == 0x23 || byte == 0x7E || byte == 0x3D

/-! ## Plain words -/

variable {reader : Reader}

theorem step_of_not_isMetacharacter (hmode : reader.mode = .plain) {byte : UInt8}
    (hbyte : isMetacharacter byte = false) : step reader byte = some (reader.append [byte]) := by
  simp only [isMetacharacter, Bool.or_eq_false_iff, beq_eq_false_iff_ne,
    decide_eq_false_iff_not] at hbyte
  obtain ⟨⟨⟨⟨⟨⟨⟨⟨hin, hspace⟩, htab⟩, hbackslash⟩, hsingle⟩, hdouble⟩, hhash⟩, htilde⟩, heq⟩ :=
    hbyte
  have hplain : reader.interprets byte = false := by
    simp [Reader.interprets, hin, hhash, htilde, heq]
  simp [step, hmode, hspace, htab, hbackslash, hsingle, hdouble, hplain]

/-- A word without metacharacters is read as it stands. -/
theorem run_word (hmode : reader.mode = .plain) {word : Word} (hne : word ≠ [])
    (hword : ∀ byte ∈ word, isMetacharacter byte = false) :
    run step reader word = some (reader.append word) := by
  induction word generalizing reader with
  | nil => exact absurd rfl hne
  | cons byte word ih =>
    obtain ⟨hbyte, hrest⟩ := forall_mem_cons.1 hword
    rw [run, step_of_not_isMetacharacter hmode hbyte, Option.bind_some]
    by_cases hend : word = []
    · rw [hend]
      rfl
    · grind [Reader.append]

/-! ## Text in double quotes -/

section Literal

variable {A : Type*} (code : A → ℕ)

/-- Every character of the text stands for itself in double quotes. -/
def standsForItself : List A → Bool
  | [] => true
  | char :: rest =>
    !(code char == 0x22 || code char == 0x24 || code char == 0x60) &&
      !(code char == 0x5C && rest.head?.any fun next => code next == 0x5C || code next == 0x0A) &&
      standsForItself rest

theorem standsForItself_cons_iff (char : A) (rest : List A) :
    standsForItself code (char :: rest) = true ↔
      (code char ≠ 0x22 ∧ code char ≠ 0x24 ∧ code char ≠ 0x60) ∧
        (code char = 0x5C → ∀ next ∈ rest.head?, code next ≠ 0x5C ∧ code next ≠ 0x0A) ∧
        standsForItself code rest = true := by
  cases rest <;> simp [standsForItself] <;> tauto

/-- The first character is one that a backslash before it would escape. -/
def startsEscapable (text : List A) : Bool :=
  text.head?.any fun next => code next == 0x5C || code next == 0x0A

variable {code}

theorem standsForItself_append_of_high {high : List A} (hhigh : ∀ char ∈ high, 128 ≤ code char)
    (rest : List A) : standsForItself code (high ++ rest) = standsForItself code rest := by
  induction high with
  | nil => rfl
  | cons char high ih => grind [standsForItself_cons_iff]

theorem startsEscapable_append_of_high {high : List A} (hne : high ≠ [])
    (hhigh : ∀ char ∈ high, 128 ≤ code char) (rest : List A) :
    startsEscapable code (high ++ rest) = false := by
  obtain ⟨first, others, rfl⟩ := exists_cons_of_ne_nil hne
  have hfirst := hhigh first mem_cons_self
  simp only [startsEscapable, cons_append, head?_cons, Option.any_some,
    Bool.or_eq_false_iff, beq_eq_false_iff_ne]
  omega

variable (code) {B : Type*} (otherCode : B → ℕ)

/-- Two texts that differ in how they write the characters from 128 on. -/
inductive Alike : List A → List B → Prop
  | nil : Alike [] []
  | same {char : A} {other : B} {text : List A} {others : List B}
      (hsame : code char = otherCode other) (hrest : Alike text others) :
      Alike (char :: text) (other :: others)
  | high {chars : List A} {replacement : List B} {text : List A} {others : List B}
      (hchars : chars ≠ []) (hreplacement : replacement ≠ [])
      (hcharsHigh : ∀ char ∈ chars, 128 ≤ code char)
      (hreplacementHigh : ∀ other ∈ replacement, 128 ≤ otherCode other)
      (hrest : Alike text others) : Alike (chars ++ text) (replacement ++ others)

variable {code otherCode}

variable {text : List A} {others : List B}

variable (halike : Alike code otherCode text others)
include halike

theorem Alike.startsEscapable_eq :
    startsEscapable code text = startsEscapable otherCode others := by
  cases halike with
  | nil => rfl
  | same hsame => simp [startsEscapable, hsame]
  | high hchars hreplacement hcharsHigh hreplacementHigh => grind [startsEscapable_append_of_high]

/-- The two texts need the same quoting. -/
theorem Alike.standsForItself_eq :
    standsForItself code text = standsForItself otherCode others := by
  induction halike with
  | nil => rfl
  | same hsame hrest ih =>
    have hnext := hrest.startsEscapable_eq
    rw [startsEscapable, startsEscapable] at hnext
    rw [standsForItself, standsForItself, hsame, hnext, ih]
  | high hchars hreplacement hcharsHigh hreplacementHigh hrest ih =>
    grind [standsForItself_append_of_high]

theorem Alike.exists_mem {char : A}
    (hchar : char ∈ text) (hlow : code char < 128) :
    ∃ other ∈ others, otherCode other = code char := by
  induction halike with
  | nil => exact absurd hchar not_mem_nil
  | same hsame hrest ih => grind
  | high hchars hreplacement hcharsHigh hreplacementHigh hrest ih => grind

end Literal

/-! ### Bytes that are lost -/

def Reader.kept (reader : Reader) : ℕ :=
  (reader.done.map List.length).sum + (reader.current.getD []).length

/-- A backslash in double quotes may still be kept. -/
def Reader.size (reader : Reader) : ℕ :=
  reader.kept + if reader.mode = .doubleEscaped then 1 else 0

@[simp]
theorem kept_append (reader : Reader) (bytes : List UInt8) :
    (reader.append bytes).kept = reader.kept + bytes.length := by
  simp [Reader.kept, Reader.append, Nat.add_assoc]

@[simp]
theorem kept_enter (reader : Reader) (mode : Mode) : (reader.enter mode).kept = reader.kept := rfl

@[simp]
theorem mode_append (reader : Reader) (bytes : List UInt8) :
    (reader.append bytes).mode = reader.mode := rfl

@[simp]
theorem mode_enter (reader : Reader) (mode : Mode) : (reader.enter mode).mode = mode := rfl

theorem kept_blank (reader : Reader) (mode : Mode) :
    Reader.kept { mode, done := reader.done ++ reader.current.toList, current := none } =
      reader.kept := by
  cases hcur : reader.current <;> simp [Reader.kept, hcur]

theorem size_step_le {next : Reader} {byte : UInt8} (hstep : step reader byte = some next) :
    next.size ≤ reader.size + 1 := by
  rw [step] at hstep
  split at hstep <;> next hmode =>
    split_ifs at hstep <;> obtain rfl := Option.some.inj hstep <;>
      simp [Reader.size, kept_blank, hmode] <;> omega

/-- A byte adds at most one byte to what was read. -/
theorem size_run_le {reader next : Reader} {bytes : List UInt8}
    (hrun : run step reader bytes = some next) : next.size ≤ reader.size + bytes.length := by
  induction bytes generalizing reader with
  | nil =>
    obtain rfl := Option.some.inj hrun
    exact Nat.le_add_right _ _
  | cons byte bytes ih =>
    obtain ⟨middle, hstep, hrest⟩ := run_cons_eq_some_iff.1 hrun
    have hfirst := size_step_le hstep
    have hothers := ih hrest
    rw [length_cons]
    omega

/-! ### Reading quoted text -/

/-- In double quotes, with the word as far as it has been read. -/
def quoted (done : List Word) (word : Word) : Reader :=
  { mode := .double, done, current := some word }

section Quoted

variable (done : List Word) (word : Word)

variable {byte : UInt8}

theorem step_quoted (hquote : byte ≠ doubleQuote) (hbackslash : byte ≠ backslash)
    (hdollar : byte ≠ dollar) (hbackquote : byte ≠ backquote) :
    step (quoted done word) byte = some (quoted done (word ++ [byte])) := by
  simp [step, quoted, hquote, hbackslash, hdollar, hbackquote, Reader.append]

theorem step_backslash :
    step (quoted done word) backslash = some ((quoted done word).enter .doubleEscaped) := rfl

theorem step_after_backslash (hnewline : byte ≠ newline) (hescapable : escapable byte = false) :
    step ((quoted done word).enter .doubleEscaped) byte =
      some (quoted done (word ++ [backslash, byte])) := by
  simp [step, quoted, Reader.enter, hnewline, hescapable, Reader.append]

/-- Of a backslash and what it escapes one byte is lost. -/
theorem size_step_after_backslash {next : Reader} (hlost : byte = newline ∨ escapable byte = true)
    (hstep : step ((quoted done word).enter .doubleEscaped) byte = some next) :
    next.size ≤ (quoted done word).size + 1 := by
  rw [step] at hstep
  simp only [mode_enter] at hstep
  split_ifs at hstep with hnewline hescapable
  · obtain rfl := Option.some.inj hstep
    simp [Reader.size, quoted]
  · obtain rfl := Option.some.inj hstep
    simp [Reader.size, quoted]
  · exact absurd hlost (by simp [hnewline, hescapable])

/-- What a byte does between double quotes. -/
theorem step_quoted_cases {next : Reader} (hstep : step (quoted done word) byte = some next) :
    (byte = doubleQuote ∧ next.size = (quoted done word).size) ∨
      (byte = backslash ∧ next = (quoted done word).enter .doubleEscaped) ∨
      (byte ≠ doubleQuote ∧ byte ≠ backslash ∧ byte ≠ dollar ∧ byte ≠ backquote) ∧
        next = quoted done (word ++ [byte]) := by
  by_cases hquote : byte = doubleQuote
  · subst hquote
    obtain rfl := Option.some.inj hstep
    exact Or.inl ⟨rfl, rfl⟩
  · by_cases hbackslash : byte = backslash
    · subst hbackslash
      exact Or.inr (Or.inl ⟨rfl, (Option.some.inj hstep).symm⟩)
    · by_cases hexpands : byte = dollar ∨ byte = backquote
      · simp [step, quoted, hquote, hbackslash, hexpands] at hstep
      · grind [step_quoted]

theorem size_quoted_append (bytes : List UInt8) :
    (quoted done (word ++ bytes)).size = (quoted done word).size + bytes.length := by
  simp [Reader.size, Reader.kept, quoted, Nat.add_assoc]

end Quoted

theorem standsForItself_byte_iff (byte : UInt8) (rest : List UInt8) :
    standsForItself UInt8.toNat (byte :: rest) = true ↔
      (byte ≠ doubleQuote ∧ byte ≠ dollar ∧ byte ≠ backquote) ∧
        (byte = backslash → ∀ next ∈ rest.head?, next ≠ backslash ∧ next ≠ newline) ∧
        standsForItself UInt8.toNat rest = true := by
  simp only [standsForItself_cons_iff, Ne, ← UInt8.toNat_inj]
  rfl

/-- Between double quotes such a text stands for itself. -/
theorem run_quoted_of_standsForItself (done : List Word) (word : Word) {text : List UInt8}
    (htext : standsForItself UInt8.toNat text = true) :
    run step (quoted done word) (text ++ [space]) =
      some (quoted done (word ++ text ++ [space])) := by
  have hspace : ∀ word, run step (quoted done word) [space] =
      some (quoted done (word ++ [space])) := fun _ => rfl
  -- two characters at a time, since a backslash waits for the next one
  induction text using twoStepInduction generalizing word with
  | nil => rw [nil_append, hspace, append_nil]
  | singleton byte =>
    obtain ⟨⟨hquote, hdollar, hbackquote⟩, -, -⟩ := (standsForItself_byte_iff _ _).1 htext
    by_cases hbackslash : byte = backslash
    · rw [hbackslash]
      simp [run, step_backslash, step_after_backslash done word
        (show space ≠ newline by decide) (show escapable space = false by decide)]
    · grind [run, step_quoted]
  | cons_cons byte next rest ih ihNext =>
    obtain ⟨⟨hquote, hdollar, hbackquote⟩, hescape, hrest⟩ := (standsForItself_byte_iff _ _).1 htext
    by_cases hbackslash : byte = backslash
    · obtain ⟨hnextBackslash, hnewline⟩ := hescape hbackslash next rfl
      obtain ⟨⟨hnextQuote, hnextDollar, hnextBackquote⟩, -, htail⟩ :=
        (standsForItself_byte_iff _ _).1 hrest
      have hescapable : escapable next = false := by
        simp [escapable, hnextQuote, hnextDollar, hnextBackquote, hnextBackslash]
      rw [hbackslash, cons_append, cons_append, run, step_backslash,
        Option.bind_some, run, step_after_backslash done word hnewline hescapable,
        Option.bind_some, ih _ htail]
      simp
    · rw [cons_append, run, step_quoted done word hquote hbackslash hdollar
        hbackquote, Option.bind_some, ihNext next _ hrest]
      simp

/-- Text of which nothing is lost stands for itself. -/
theorem standsForItself_of_run {done : List Word} {word : Word} {text : List UInt8}
    {final : Reader} (hrun : run step (quoted done word) text = some final)
    (hsize : final.size = (quoted done word).size + text.length) :
    standsForItself UInt8.toNat text = true := by
  induction text using twoStepInduction generalizing word with
  | nil => rfl
  | singleton =>
    obtain ⟨next, hstep, hend⟩ := run_cons_eq_some_iff.1 hrun
    obtain rfl := Option.some.inj hend
    rw [standsForItself_byte_iff]
    obtain ⟨-, hlost⟩ | ⟨rfl, -⟩ | ⟨⟨hquote, hbackslash, hdollar, hbackquote⟩, -⟩ :=
      step_quoted_cases done word hstep
    · rw [hlost, length_singleton] at hsize
      omega
    · exact ⟨by decide, fun _ _ hnext => absurd hnext nofun, rfl⟩
    · exact ⟨⟨hquote, hdollar, hbackquote⟩, fun heq => absurd heq hbackslash, rfl⟩
  | cons_cons byte second rest ih ihNext =>
    obtain ⟨next, hstep, hrest⟩ := run_cons_eq_some_iff.1 hrun
    rw [standsForItself_byte_iff]
    simp only [length_cons] at hsize
    obtain ⟨-, hlost⟩ | ⟨rfl, rfl⟩ | ⟨⟨hquote, hbackslash, hdollar, hbackquote⟩, rfl⟩ :=
      step_quoted_cases done word hstep
    · have hbound := size_run_le hrest
      rw [hlost, length_cons] at hbound
      omega
    · obtain ⟨after, hsecond, htail⟩ := run_cons_eq_some_iff.1 hrest
      by_cases hlost : second = newline ∨ escapable second = true
      · have hshort := size_step_after_backslash done word hlost hsecond
        have hbound := size_run_le htail
        omega
      · obtain ⟨hnewline, hkept⟩ := not_or.1 hlost
        rw [Bool.not_eq_true] at hkept
        rw [step_after_backslash done word hnewline hkept] at hsecond
        obtain rfl := Option.some.inj hsecond
        have hstands := ih htail (by
          rw [size_quoted_append, hsize]
          simp
          omega)
        simp only [escapable, Bool.or_eq_false_iff, beq_eq_false_iff_ne] at hkept
        obtain ⟨⟨⟨hquote, hdollar⟩, hbackquote⟩, hbackslash⟩ := hkept
        refine ⟨by decide, fun _ _ hnext => ?_, (standsForItself_byte_iff _ _).2
          ⟨⟨hquote, hdollar, hbackquote⟩, fun heq => absurd heq hbackslash, hstands⟩⟩
        obtain rfl := Option.some.inj hnext
        exact ⟨hbackslash, hnewline⟩
    · grind [size_quoted_append]

/-! ### The words of a command -/

theorem size_of_finish {res : List Word}
    (hfinish : (run step reader [space, doubleQuote]).bind finish = some res) :
    (res.map List.length).sum = reader.size + 1 := by
  obtain ⟨final, hrun, hfinal⟩ := Option.bind_eq_some_iff.1 hfinish
  rw [finish] at hfinal
  split_ifs at hfinal with hplain
  obtain rfl := Option.some.inj hfinal
  have hsum : ((final.done ++ final.current.toList).map List.length).sum = final.kept := by
    cases hcur : final.current <;> simp [Reader.kept, hcur]
  obtain ⟨mode, done, cur⟩ := reader
  rw [hsum]
  -- outside double quotes the last quote opens a word or is one of its characters
  cases mode with
  | plain | escaped | single =>
    obtain rfl := Option.some.inj hrun
    exact absurd hplain nofun
  | double | doubleEscaped =>
    obtain rfl := Option.some.inj hrun
    simp [Reader.size, Reader.kept, Reader.enter, Reader.append, Nat.add_assoc]

/-- Between double quotes a text comes out unchanged only if it stands for itself. -/
theorem run_quoted_iff (done : List Word) (word : Word) (text : List UInt8) :
    (run step (quoted done word) (text ++ [space, doubleQuote])).bind finish =
        some (done ++ [word ++ text ++ [space]]) ↔
      standsForItself UInt8.toNat text = true := by
  constructor
  · intro hfinish
    rw [run_append, Option.bind_assoc] at hfinish
    obtain ⟨middle, htext, hend⟩ := Option.bind_eq_some_iff.1 hfinish
    apply standsForItself_of_run htext
    have hsize := size_of_finish hend
    simp only [map_append, sum_append, map_singleton, sum_singleton,
      length_append, length_singleton] at hsize
    have hstart : (quoted done word).size = (done.map List.length).sum + word.length := rfl
    omega
  · intro htext
    have hsplit : text ++ [space, doubleQuote] = (text ++ [space]) ++ [doubleQuote] := by simp
    rw [hsplit, run_append, run_quoted_of_standsForItself done word htext, Option.bind_some]
    rfl

end PurcFetcher.Shell
