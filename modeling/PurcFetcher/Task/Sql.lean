import PurcFetcher.Wtf.JsonValues
import PurcFetcher.Wtf.Vector

/-!
# Running SQL statements

`NetworkDataTaskLsql` runs the statements of a request on an SQLite database and
`NetworkDataTaskRsql` on a MySQL server.  Both collect the column names of all
result sets in one vector of the task, and format the rows of all results when
the last statement has been run.

What the database does is given with each statement: the reply of SQLite or
MySQL, in the representation the client library hands out.
-/

namespace PurcFetcher.Sql

open JsonValues List Text PurcFetcher.Vector

/-- `SQLValueH`. -/
inductive SQLValueH
  | null
  | string (value : Str)
  | double (value : Option FiniteDouble)
  | int (value : ℤ)

/-- `SqlResult`.  `rowsAffected` has no initial value. -/
structure SqlResult where
  statusCode : ℤ
  errorMsg : Str
  rowsAffected : Option ℤ
  rowsVec : List (List SQLValueH)

/-- The members of a task that its statements change. -/
structure Task where
  sqlResultColumnNames : List Str
  sqlResults : List SqlResult

def Task.initial : Task :=
  { sqlResultColumnNames := [], sqlResults := [] }

/-- `m_sqlResults.append`. -/
def Task.append (task : Task) (result : SqlResult) : Task :=
  { task with sqlResults := task.sqlResults ++ [result] }

/-! ## Formatting -/

/-- The tests of both formatters on the alternative a value holds. -/
def elementOf : SQLValueH → Value
  | .string value => .string value
  | .double value => .double value
  | .int value => .integer value
  | .null => .null

/-- `formatAsArray` of both tasks. -/
def formatAsArray (lineColumns : List SQLValueH) : Value :=
  .array (lineColumns.map elementOf)

/-- The loop body of `formatAsDict`, which reads a name for each column. -/
def setColumn (names : List Str) (members : List (Str × Value)) (column : SQLValueH × ℕ) :
    Checked (List (Str × Value)) := do
  let name ← elementAt names column.2
  pure (setValue members name (elementOf column.1))

/-- `formatAsDict` of both tasks. -/
def formatAsDict (names : List Str) (lineColumns : List SQLValueH) : Checked Value := do
  let members ← lineColumns.zipIdx.foldlM (setColumn names) []
  pure (.object members)

/-- One element of a `rows` array. -/
def formatRow (formatArray : Bool) (task : Task) (lineColumns : List SQLValueH) :
    Checked Value :=
  if formatArray then pure (formatAsArray lineColumns)
  else formatAsDict task.sqlResultColumnNames lineColumns

def errorValue (errorMsg : Str) : Value :=
  if errorMsg.isEmpty then .null else .string errorMsg

/-- `rowsAffected` as it is written; `indeterminate` is what an uninitialised
member holds. -/
def rowsAffectedValue (indeterminate : ℤ) (result : SqlResult) : Value :=
  .integer (result.rowsAffected.getD indeterminate)

/-- The object of `buildResponse` in both tasks: one for the request if there is
at most one result, and otherwise one for each.  `statusCode` and `errorMsg` are
those of the task, and no line was read into `m_readLines`. -/
def responseObject (indeterminate : ℤ) (formatArray : Bool) (statusCode : ℤ)
    (errorMsg : Str) (task : Task) : Checked Value :=
  match task.sqlResults with
  | [] =>
    pure (.object
      [(lit "statusCode", .integer statusCode), (lit "errorMsg", errorValue errorMsg),
        (lit "rowsAffected", .integer 0), (lit "rows", .array [])])
  | [result] => do
    let rows ← result.rowsVec.mapM (formatRow formatArray task)
    pure (.object
      [(lit "statusCode", .integer result.statusCode),
        (lit "errorMsg", errorValue result.errorMsg),
        (lit "rowsAffected", rowsAffectedValue indeterminate result),
        (lit "rows", .array rows)])
  | results => do
    let objects ← results.mapM fun result => do
      let rows ← result.rowsVec.mapM (formatRow formatArray task)
      pure (Value.object
        [(lit "errorMsg", errorValue result.errorMsg),
          (lit "rowsAffected", rowsAffectedValue indeterminate result),
          (lit "rows", .array rows)])
    pure (.object [(lit "statusCode", .integer 200), (lit "result", .array objects)])

/-! ## The members of a row -/

theorem setColumn_loop (names : List Str) (lineCols : List SQLValueH) (start : ℕ)
    (members : List (Str × Value)) (hlen : start + lineCols.length ≤ names.length) :
    (lineCols.zipIdx start).foldlM (setColumn names) members =
      .ok (setValues members ((names.drop start).zip (lineCols.map elementOf))) := by
  induction lineCols generalizing start members with
  | nil => simp; rfl
  | cons col rest ih =>
    rw [length_cons] at hlen
    have hstart : start < names.length := by omega
    have hfirst : setColumn names members (col, start) =
        .ok (setValue members names[start] (elementOf col)) := by
      rw [setColumn, elementAt_of_lt names hstart]
      rfl
    rw [zipIdx_cons, foldlM_cons, hfirst]
    change (rest.zipIdx (start + 1)).foldlM (setColumn names) _ = _
    rw [ih (start + 1) _ (by omega), drop_eq_getElem_cons hstart, map_cons,
      zip_cons_cons, setValues_cons]

variable {names : List Str} {lineCols : List SQLValueH}

theorem length_le_of_setColumn_loop {start : ℕ} {members res : List (Str × Value)}
    (hstart : start ≤ names.length)
    (hok : (lineCols.zipIdx start).foldlM (setColumn names) members = .ok res) :
    start + lineCols.length ≤ names.length := by
  induction lineCols generalizing start members with
  | nil => simpa using hstart
  | cons col rest ih =>
    obtain ⟨next, hnext, hrest⟩ := bind_eq_ok_iff.1 hok
    obtain ⟨name, hname, -⟩ := bind_eq_ok_iff.1 hnext
    rw [elementAt_eq_ok_iff] at hname
    have hlt := (List.getElem?_eq_some_iff.1 hname).1
    have hall := ih (by omega) hrest
    rw [length_cons]
    omega

/-- `formatAsDict` succeeds if and only if every column has a name. -/
theorem formatAsDict_eq_ok_iff {val : Value} :
    formatAsDict names lineCols = .ok val ↔
      lineCols.length ≤ names.length ∧
        val = .object (setValues [] (names.zip (lineCols.map elementOf))) := by
  have hloop := setColumn_loop names lineCols 0 []
  rw [Nat.zero_add, drop_zero] at hloop
  rw [formatAsDict, bind_eq_ok_iff]
  constructor
  · rintro ⟨members, hmembers, hval⟩
    have hlen := length_le_of_setColumn_loop (Nat.zero_le _) hmembers
    rw [Nat.zero_add] at hlen
    rw [hloop hlen] at hmembers
    cases hmembers
    cases hval
    exact ⟨hlen, rfl⟩
  · rintro ⟨hlen, rfl⟩
    exact ⟨_, hloop hlen, rfl⟩

/-- Distinct names of the right number become the keys of a row if and only if the
names the formatter reads begin with them. -/
theorem formatAsDict_keys_iff {own : List Str} (hwidth : lineCols.length = own.length)
    (hdistinct : own.Nodup) :
    (∃ members, formatAsDict names lineCols = .ok (.object members) ∧
      members.map Prod.fst = own) ↔ own <+: names := by
  have hkeys : (names.zip (lineCols.map elementOf)).map Prod.fst = names.take own.length := by
    rw [zip_eq_zip_take_min, map_fst_zip (by simp), length_map, hwidth, take_eq_take_iff]
    omega
  constructor
  · rintro ⟨members, hmembers, hown⟩
    obtain ⟨hlen, hval⟩ := formatAsDict_eq_ok_iff.1 hmembers
    cases hval
    have hall := map_fst_setValues_of_length [] (names.zip (lineCols.map elementOf)) (by
      have hsame := congrArg List.length hown
      rw [length_map] at hsame
      rw [hsame, length_zip, length_map, length_nil]
      omega)
    rw [hown, hkeys, map_nil, nil_append] at hall
    exact hall ▸ take_prefix _ _
  · intro hleads
    have htake : names.take own.length = own := (prefix_iff_eq_take.1 hleads).symm
    refine ⟨_, formatAsDict_eq_ok_iff.2 ⟨hwidth ▸ hleads.length_le, rfl⟩, ?_⟩
    rw [setValues_of_nodup, nil_append, hkeys, htake]
    rw [nil_append, hkeys, htake]
    exact hdistinct

/-! ## SQLite -/

namespace Lsql

/-- An SQLite value, which has its type with it.  A blob is read through
`sqlite3_value_text16`, whose text it carries. -/
inductive SqliteValue
  | null
  | integer (value : ℤ)
  | float (value : Option FiniteDouble)
  | text (value : List Char)
  | blob (text16 : Str)

/-- What SQLite does with a statement: whether it is prepared, the rows and
column names it returns, whether the step after the last row is `SQLITE_DONE`,
and the number of changed rows.  Column names are terminated by a zero and hold
none.  `canceling` tells after which rows the task is found to be cancelled. -/
structure Reply where
  prepared : Bool
  names : List (List Char)
  distinct : names.Nodup
  terminated : ∀ name ∈ names, Char.ofNat 0 ∉ name
  rows : List (List SqliteValue)
  width : ∀ row ∈ rows, row.length = names.length
  done : Bool
  changes : ℤ
  canceling : ℕ → Bool

structure Statement where
  sql : Str
  reply : Reply

/-- `SQLiteStatement::getColumnName`. -/
def getColumnName (name : List Char) : Str :=
  (Utf16.encode name).takeWhile (· != 0)

/-- `SQLiteStatement::getColumnValueH`.  `sqlite3_value_int` gives the low 32 bits
of an integer, and `create8BitIfPossible` stops at the first zero. -/
def getColumnValueH : SqliteValue → SQLValueH
  | .null => .null
  | .integer value => .int (wrap32 value)
  | .float value => .double value
  | .text value => .string ((Utf16.encode value).takeWhile (· != 0))
  | .blob text16 => .string (text16.takeWhile (· != 0))

/-- The names that the column loop of one row leaves. -/
def appendNames (names own : List Str) : List Str :=
  own.zipIdx.foldl (fun names column =>
    if names.length ≤ column.2 then names ++ [column.1] else names) names

/-- The `step` loop of `runSqlSelect`: the names, the rows and whether the task
was found to be cancelled. -/
def selectLoop (own : List Str) (canceling : ℕ → Bool) :
    ℕ → List (List SqliteValue) → List Str → List (List SQLValueH) →
      List Str × List (List SQLValueH) × Bool
  | _, [], names, rowsVec => (names, rowsVec, false)
  | round, row :: rest, names, rowsVec =>
    let names := appendNames names own
    let rowsVec := rowsVec ++ [row.map getColumnValueH]
    if canceling round then (names, rowsVec, true)
    else selectLoop own canceling (round + 1) rest names rowsVec

def runSqlSelect (task : Task) (statement : Statement) : Task :=
  let reply := statement.reply
  if statement.sql.isEmpty then task
  else if !reply.prepared then
    task.append { statusCode := 500, errorMsg := lit "Failed to prepare : " ++ statement.sql,
                  rowsAffected := none, rowsVec := [] }
  else
    let (names, rowsVec, canceled) := selectLoop (reply.names.map getColumnName)
      reply.canceling 0 reply.rows task.sqlResultColumnNames []
    let task := { task with sqlResultColumnNames := names }
    if canceled then
      task.append { statusCode := 503, errorMsg := lit "Canceling", rowsAffected := none, rowsVec }
    else if !reply.done then
      task.append { statusCode := 503,
                    errorMsg := lit "Failed to read in all origins from the database.",
                    rowsAffected := some rowsVec.length, rowsVec }
    else
      task.append { statusCode := 200, errorMsg := [], rowsAffected := some rowsVec.length,
                    rowsVec }

/-- The body of `runSqlInsert`, `runSqlUpdate` and `runSqlDelete`: the first step
must be `SQLITE_DONE`. -/
def runSqlChange (task : Task) (statement : Statement) : Task :=
  let reply := statement.reply
  if statement.sql.isEmpty then task
  else if reply.prepared && reply.rows.isEmpty && reply.done then
    task.append { statusCode := 200, errorMsg := [], rowsAffected := some reply.changes,
                  rowsVec := [] }
  else
    task.append { statusCode := 500, errorMsg := lit "Failed to prepare : " ++ statement.sql,
                  rowsAffected := none, rowsVec := [] }

def runSqlInsert := runSqlChange

def runSqlUpdate := runSqlChange

def runSqlDelete := runSqlChange

/-- One round of the statement loop of `runCmdInner`.  Statements that begin with
no known keyword are skipped. -/
def runStatement (task : Task) (statement : Statement) : Task :=
  if startsWithIgnoringASCIICase statement.sql (lit "select") then
    runSqlSelect task statement
  else if startsWithIgnoringASCIICase statement.sql (lit "insert") then
    runSqlInsert task statement
  else if startsWithIgnoringASCIICase statement.sql (lit "update") then
    runSqlUpdate task statement
  else if startsWithIgnoringASCIICase statement.sql (lit "delete") then
    runSqlDelete task statement
  else task

def runStatements (task : Task) (statements : List Statement) : Task :=
  statements.foldl runStatement task

end Lsql

/-! ## MySQL -/

namespace Rsql

/-- The `MYSQL_TYPE_` constants that `runSqlSelect` tells apart, and
`MYSQL_TYPE_LONGLONG`, which is one of the others. -/
inductive FieldType
  | tiny
  | short
  | long
  | longLong
  | float
  | double
  | null
  | other
  deriving DecidableEq, Repr

inductive MysqlValue
  | null
  | integer (value : ℤ)
  | real (value : FiniteDouble)
  | text (value : List Char)

/-- The values a column can hold, signed or unsigned. -/
def Holds : FieldType → MysqlValue → Prop
  | .null, value => value = .null
  | _, .null => True
  | .tiny, .integer value => -2 ^ 7 ≤ value ∧ value < 2 ^ 8
  | .short, .integer value => -2 ^ 15 ≤ value ∧ value < 2 ^ 16
  | .long, .integer value => -2 ^ 31 ≤ value ∧ value < 2 ^ 32
  | .longLong, .integer value => -2 ^ 63 ≤ value ∧ value < 2 ^ 64
  | .float, .real _ => True
  | .double, .real _ => True
  | .other, .text _ => True
  | _, _ => False

/-- The bytes the client library hands out for a value on a UTF-8 connection; a
null pointer for `NULL`. -/
def cell : MysqlValue → Option (List LChar)
  | .null => none
  | .integer value => some ((integerText value).map fun char => UInt8.ofNat char.toNat)
  | .real value => some (value.text.map fun char => UInt8.ofNat char.toNat)
  | .text value => some (Utf8.encode value)

/-- What MySQL does with a statement: the error of the query, whether a result is
stored, its fields and rows, and the number of affected rows. -/
structure Reply where
  error : Option Str
  stored : Bool
  fields : List (List Char × FieldType)
  distinct : (fields.map Prod.fst).Nodup
  terminated : ∀ field ∈ fields, Char.ofNat 0 ∉ field.1
  rows : List (List MysqlValue)
  holds : ∀ row ∈ rows, List.Forall₂ (fun field value => Holds field.2 value) fields row
  affected : ℤ
  canceling : ℕ → Bool

structure Statement where
  sql : Str
  reply : Reply

/-- `String(fields[i].name)`, which takes the bytes for Latin-1. -/
def fieldName (name : List Char) : Str :=
  latin1 ((Utf8.encode name).takeWhile (· != 0))

section Run

-- `String::toDouble`.
variable (toDouble : Str → Option FiniteDouble)

/-- `String value(row[i], lengths[i])` and the `switch` on the type of the field.
`toInt` gives zero for what it cannot convert. -/
def columnValue (type : FieldType) (value : MysqlValue) : SQLValueH :=
  let text := ((cell value).map latin1).getD []
  match type with
  | .tiny | .short | .long => .int ((toInt text).getD 0)
  | .float | .double => .double (toDouble text)
  | .null => .null
  | .longLong | .other => .string text

/-- The `mysql_fetch_row` loop: the rows and whether the task was found to be
cancelled. -/
def fetchLoop (types : List FieldType) (canceling : ℕ → Bool) :
    ℕ → List (List MysqlValue) → List (List SQLValueH) → List (List SQLValueH) × Bool
  | _, [], rowsVec => (rowsVec, false)
  | round, row :: rest, rowsVec =>
    let rowsVec := rowsVec ++ [List.zipWith (columnValue toDouble) types row]
    if canceling round then (rowsVec, true)
    else fetchLoop types canceling (round + 1) rest rowsVec

/-- A cancelled `SELECT` appends its result in the loop and once more after it. -/
def runSqlSelect (task : Task) (statement : Statement) : Task :=
  let reply := statement.reply
  if statement.sql.isEmpty then task
  else match reply.error with
  | some message =>
    task.append { statusCode := 500,
                  errorMsg := lit "Failed to query : " ++ statement.sql ++
                    lit ". Error : " ++ message,
                  rowsAffected := none, rowsVec := [] }
  | none =>
    if !reply.stored then
      task.append { statusCode := 500,
                    errorMsg := lit "Failed to get result : " ++ statement.sql,
                    rowsAffected := none, rowsVec := [] }
    else
      let names := reply.fields.map fun field => fieldName field.1
      let task := { task with sqlResultColumnNames := task.sqlResultColumnNames ++ names }
      let (rowsVec, canceled) :=
        fetchLoop toDouble (reply.fields.map Prod.snd) reply.canceling 0 reply.rows []
      if canceled then
        (task.append { statusCode := 503, errorMsg := lit "Canceling",
                       rowsAffected := none, rowsVec }).append
          { statusCode := 503, errorMsg := lit "Canceling",
            rowsAffected := some rowsVec.length, rowsVec }
      else
        task.append { statusCode := 200, errorMsg := [],
                      rowsAffected := some rowsVec.length, rowsVec }

def runSqlInsert (task : Task) (statement : Statement) : Task :=
  let reply := statement.reply
  if statement.sql.isEmpty then task
  else match reply.error with
  | some message =>
    task.append { statusCode := 500,
                  errorMsg := lit "Failed to : " ++ statement.sql ++ lit ". Error : " ++
                    message,
                  rowsAffected := none, rowsVec := [] }
  | none =>
    task.append { statusCode := 200, errorMsg := [], rowsAffected := some reply.affected,
                  rowsVec := [] }

def runSqlUpdate := runSqlInsert

def runSqlDelete := runSqlInsert

def runStatement (task : Task) (statement : Statement) : Task :=
  if startsWithIgnoringASCIICase statement.sql (lit "select") then
    runSqlSelect toDouble task statement
  else if startsWithIgnoringASCIICase statement.sql (lit "insert") then
    runSqlInsert task statement
  else if startsWithIgnoringASCIICase statement.sql (lit "update") then
    runSqlUpdate task statement
  else if startsWithIgnoringASCIICase statement.sql (lit "delete") then
    runSqlDelete task statement
  else task

def runStatements (task : Task) (statements : List Statement) : Task :=
  statements.foldl (runStatement toDouble) task

end Run

end Rsql

end PurcFetcher.Sql
