import PurcFetcher.Core.PrefixChain
import PurcFetcher.Task.Sql

/-!
# The keys of the rows of a response

The statements of a request share one vector of column names, and a row is
formatted with the names at its beginning when all statements have been run.
An SQLite `SELECT` that returns rows appends the names it has beyond the length of
the vector.  A MySQL `SELECT` appends all of its names, read as Latin-1, whether
it returns rows or not.  The keys of every row are those of its own `SELECT` only
if the vector begins with the names of each.
-/

namespace PurcFetcher.Sql

open JsonValues List PrefixChain Text

/-- A row is written as an object with the keys `own`. -/
def RowKeyed (task : Task) (own : List Str) (lineColumns : List SQLValueH) : Prop :=
  ∃ members, formatRow false task lineColumns = .ok (.object members) ∧ members.map Prod.fst = own

theorem rowKeyed_iff (task : Task) {own : List Str} {lineCols : List SQLValueH}
    (hwidth : lineCols.length = own.length) (hdistinct : own.Nodup) :
    RowKeyed task own lineCols ↔ own <+: task.sqlResultColumnNames :=
  formatAsDict_keys_iff hwidth hdistinct

theorem ne_nil_of_select {sql : Str}
    (hselect : startsWithIgnoringASCIICase sql (lit "select") = true) : sql ≠ [] := by
  rintro rfl
  exact absurd hselect (by decide)

/-! ## SQLite -/

namespace Lsql

/-- A `SELECT` that is prepared and returns at least one row. -/
def returnsRows (statement : Statement) : Bool :=
  startsWithIgnoringASCIICase statement.sql (lit "select") && statement.reply.prepared &&
    !statement.reply.rows.isEmpty

def ownNames (statement : Statement) : List Str :=
  statement.reply.names.map Utf16.encode

variable (statement : Statement)

theorem map_getColumnName : statement.reply.names.map getColumnName = ownNames statement := by
  apply map_congr_left
  intro name hname
  exact (Utf16.takeWhile_encode_eq_iff name).2 (statement.reply.terminated name hname)

theorem appendNames_loop (own names : List Str) (start : ℕ) (hstart : start ≤ names.length) :
    (own.zipIdx start).foldl (fun names col =>
      if names.length ≤ col.2 then names ++ [col.1] else names) names =
      names ++ own.drop (names.length - start) := by
  induction own generalizing names start with
  | nil => simp
  | cons name rest ih =>
    rw [zipIdx_cons, foldl_cons]
    by_cases hend : names.length ≤ start
    · grind
    · rw [if_neg hend, ih _ _ (by omega),
        show names.length - start = names.length - (start + 1) + 1 by omega,
        drop_succ_cons]

theorem appendNames_eq_extend (names own : List Str) :
    appendNames names own = extend names own := by
  rw [appendNames, appendNames_loop own names 0 (Nat.zero_le _), extend, Nat.sub_zero]

section Loop

variable (own : List Str) (canceling : ℕ → Bool)

theorem names_selectLoop (round : ℕ) (rows : List (List SqliteValue)) (names : List Str)
    (rowsVec : List (List SQLValueH)) :
    (selectLoop own canceling round rows names rowsVec).1 =
      if rows.isEmpty then names else extend names own := by
  induction rows generalizing round names rowsVec with
  | nil => rfl
  | cons row rest ih => grind [selectLoop, appendNames_eq_extend, extend_extend]

theorem rows_selectLoop (round : ℕ) (rows : List (List SqliteValue)) (left right : List Str)
    (rowsVec : List (List SQLValueH)) :
    (selectLoop own canceling round rows left rowsVec).2 =
      (selectLoop own canceling round rows right rowsVec).2 := by
  induction rows generalizing round left right rowsVec with
  | nil => rfl
  | cons row rest ih => grind [selectLoop]

theorem rows_selectLoop_take (round : ℕ) (rows : List (List SqliteValue))
    (names : List Str) (rowsVec : List (List SQLValueH)) :
    ∃ count, (selectLoop own canceling round rows names rowsVec).2.1 =
      rowsVec ++ (rows.take count).map (List.map getColumnValueH) ∧ (rows ≠ [] → 0 < count) := by
  induction rows generalizing round names rowsVec with
  | nil => exact ⟨0, by simp [selectLoop], fun hrows => absurd rfl hrows⟩
  | cons row rest ih =>
    rw [selectLoop]
    by_cases hcancel : canceling round
    · exact ⟨1, by simp [hcancel], fun _ => Nat.one_pos⟩
    · obtain ⟨count, hcount, -⟩ := ih (round + 1) (appendNames names own)
        (rowsVec ++ [row.map getColumnValueH])
      refine ⟨count + 1, ?_, fun _ => Nat.succ_pos _⟩
      simp only [hcancel, Bool.false_eq_true, if_false, hcount, take_succ_cons,
        map_cons, append_assoc, singleton_append]

end Loop

/-- The results a statement appends.  They do not depend on the task. -/
def resultsOf (statement : Statement) : List SqlResult :=
  (runStatement .initial statement).sqlResults

def rowsOf (statement : Statement) : List (List SQLValueH) :=
  (resultsOf statement).flatMap SqlResult.rowsVec

theorem selectLoop_eq (names : List Str) :
    selectLoop (statement.reply.names.map getColumnName) statement.reply.canceling 0
        statement.reply.rows names [] =
      (if statement.reply.rows.isEmpty then names else extend names (ownNames statement),
        (selectLoop (statement.reply.names.map getColumnName) statement.reply.canceling 0
          statement.reply.rows [] []).2) := by
  apply Prod.ext
  · rw [names_selectLoop, map_getColumnName]
  · exact rows_selectLoop _ _ _ _ _ _ _

theorem runStatement_eq (task : Task) (stmt : Statement) :
    runStatement task stmt =
      { sqlResultColumnNames :=
          if returnsRows stmt then
            extend task.sqlResultColumnNames (ownNames stmt)
          else task.sqlResultColumnNames
        sqlResults := task.sqlResults ++ resultsOf stmt } := by
  by_cases hselect : startsWithIgnoringASCIICase stmt.sql (lit "select") = true
  · have hsql := ne_nil_of_select hselect
    rw [resultsOf, runStatement, runStatement, if_pos hselect, if_pos hselect, runSqlSelect,
      runSqlSelect, selectLoop_eq stmt task.sqlResultColumnNames]
    simp only [returnsRows, hselect, List.isEmpty_iff, hsql, if_false, Bool.true_and]
    cases stmt.reply.prepared with
    | false => simp [Task.append, Task.initial]
    | true => split_ifs <;> simp_all [Task.append, Task.initial]
  · have hrows : returnsRows stmt = false := by simp [returnsRows, hselect]
    rw [resultsOf, runStatement, runStatement, hrows]
    simp only [hselect, Bool.false_eq_true, if_false, runSqlInsert, runSqlUpdate,
      runSqlDelete, runSqlChange]
    split_ifs <;> simp [Task.append, Task.initial]

theorem rowsOf_eq :
    ∃ count, 0 < count ∧ rowsOf statement =
      if returnsRows statement then
        (statement.reply.rows.take count).map (List.map getColumnValueH)
      else [] := by
  obtain ⟨count, hcount, hpos⟩ := rows_selectLoop_take
    (statement.reply.names.map getColumnName) statement.reply.canceling 0
    statement.reply.rows [] []
  by_cases hselect : startsWithIgnoringASCIICase statement.sql (lit "select") = true
  · have hsql := ne_nil_of_select hselect
    rw [rowsOf, resultsOf, runStatement, if_pos hselect, runSqlSelect]
    simp only [returnsRows, hselect, List.isEmpty_iff, hsql, if_false, Bool.true_and]
    cases statement.reply.prepared with
    | false => exact ⟨1, Nat.one_pos, by simp [Task.append, Task.initial]⟩
    | true =>
      by_cases hrows : statement.reply.rows = []
      · refine ⟨1, Nat.one_pos, ?_⟩
        split_ifs <;> simp_all [Task.append, Task.initial]
      · grind [Task.append, Task.initial]
  · have hrows : returnsRows statement = false := by simp [returnsRows, hselect]
    refine ⟨1, Nat.one_pos, ?_⟩
    rw [rowsOf, resultsOf, runStatement, hrows]
    simp only [hselect, Bool.false_eq_true, if_false, runSqlInsert, runSqlUpdate,
      runSqlDelete, runSqlChange]
    split_ifs <;> simp [Task.append, Task.initial]

theorem runStatements_eq (task : Task) (stmts : List Statement) :
    runStatements task stmts =
      { sqlResultColumnNames :=
          ((stmts.filter returnsRows).map ownNames).foldl extend task.sqlResultColumnNames
        sqlResults := task.sqlResults ++ stmts.flatMap resultsOf } := by
  induction stmts generalizing task with
  | nil => simp [runStatements]
  | cons statement rest ih =>
    rw [runStatements, foldl_cons, ← runStatements, ih, runStatement_eq]
    by_cases hrows : returnsRows statement <;> simp [hrows]

/-- Every row of every `SELECT` of a run has the column names of that `SELECT` as
its keys, in order, when all statements have been run. -/
def RowsKeyed (statements : List Statement) : Prop :=
  ∀ statement ∈ statements, ∀ row ∈ rowsOf statement,
    RowKeyed (runStatements .initial statements) (ownNames statement) row

/-- Of any two `SELECT`s that return rows, the column names of one begin with those
of the other. -/
def NamesComparable (statements : List Statement) : Prop :=
  ∀ left ∈ statements, ∀ right ∈ statements,
    returnsRows left = true → returnsRows right = true →
      Comparable left.reply.names right.reply.names

theorem ownNames_nodup : (ownNames statement).Nodup :=
  statement.reply.distinct.map Utf16.encode_injective

theorem length_of_mem_rowsOf {stmt : Statement} {row : List SQLValueH}
    (hrow : row ∈ rowsOf stmt) : row.length = (ownNames stmt).length := by
  obtain ⟨count, -, hrows⟩ := rowsOf_eq stmt
  rw [hrows] at hrow
  split_ifs at hrow with hreturns
  · obtain ⟨values, hvals, rfl⟩ := mem_map.1 hrow
    rw [length_map, ownNames, length_map]
    exact stmt.reply.width values (mem_of_mem_take hvals)
  · cases hrow

theorem exists_mem_rowsOf_iff : (∃ row, row ∈ rowsOf statement) ↔ returnsRows statement = true := by
  obtain ⟨count, hcount, hrows⟩ := rowsOf_eq statement
  rw [hrows]
  split_ifs with hreturns
  · have hne : statement.reply.rows ≠ [] := by
      intro hempty
      simp [returnsRows, hempty] at hreturns
    have hread : (statement.reply.rows.take count).map (List.map getColumnValueH) ≠ [] := by
      simp [hne, hcount.ne']
    exact iff_of_true (exists_mem_of_ne_nil _ hread) hreturns
  · simp [hreturns]

theorem rowsKeyed_iff_leads (stmts : List Statement) :
    RowsKeyed stmts ↔
      ∀ own ∈ (stmts.filter returnsRows).map ownNames,
        own <+: ((stmts.filter returnsRows).map ownNames).foldl extend [] := by
  have hkeyed : ∀ statement, ∀ row ∈ rowsOf statement,
      (RowKeyed (runStatements .initial stmts) (ownNames statement) row ↔
        ownNames statement <+:
          ((stmts.filter returnsRows).map ownNames).foldl extend []) := by
    intro statement row hrow
    rw [rowKeyed_iff _ (length_of_mem_rowsOf hrow) (ownNames_nodup statement), runStatements_eq]
    rfl
  simp only [forall_mem_map, mem_filter, and_imp]
  refine forall₂_congr fun statement _ => ?_
  rw [← exists_mem_rowsOf_iff, exists_imp]
  exact forall₂_congr (hkeyed statement)

theorem rowsKeyed_iff (stmts : List Statement) : RowsKeyed stmts ↔ NamesComparable stmts := by
  have hencode : ∀ left right : Statement,
      Comparable (ownNames left) (ownNames right) ↔
        Comparable left.reply.names right.reply.names := by
    intro left right
    exact or_congr (prefix_map_iff Utf16.encode_injective) (prefix_map_iff Utf16.encode_injective)
  rw [rowsKeyed_iff_leads, forall_prefix_foldl_extend_iff]
  simp only [forall_mem_map, mem_filter, hencode, NamesComparable]
  constructor
  · grind
  · grind

end Lsql

/-! ## MySQL -/

namespace Rsql

/-- A `SELECT` that is queried and whose result is stored. -/
def succeeds (statement : Statement) : Bool :=
  startsWithIgnoringASCIICase statement.sql (lit "select") &&
    statement.reply.error.isNone && statement.reply.stored

def returnsRows (statement : Statement) : Bool :=
  succeeds statement && !statement.reply.rows.isEmpty

def ownNames (statement : Statement) : List Str :=
  statement.reply.fields.map fun field => Utf16.encode field.1

/-- The column names of all `SELECT`s that succeed, in order, as MySQL reports
them. -/
def reportedNames (statements : List Statement) : List (List Char) :=
  (statements.filter succeeds).flatMap fun statement => statement.reply.fields.map Prod.fst

section Run

variable (toDouble : Str → Option FiniteDouble)

theorem rows_fetchLoop_take (types : List FieldType) (canceling : ℕ → Bool) (round : ℕ)
    (rows : List (List MysqlValue)) (rowsVec : List (List SQLValueH)) :
    ∃ count, (fetchLoop toDouble types canceling round rows rowsVec).1 =
      rowsVec ++ (rows.take count).map (List.zipWith (columnValue toDouble) types) ∧
        (rows ≠ [] → 0 < count) := by
  induction rows generalizing round rowsVec with
  | nil => exact ⟨0, by simp [fetchLoop], fun hrows => absurd rfl hrows⟩
  | cons row rest ih =>
    rw [fetchLoop]
    by_cases hcancel : canceling round
    · exact ⟨1, by simp [hcancel], fun _ => Nat.one_pos⟩
    · obtain ⟨count, hcount, -⟩ := ih (round + 1)
        (rowsVec ++ [zipWith (columnValue toDouble) types row])
      refine ⟨count + 1, ?_, fun _ => Nat.succ_pos _⟩
      simp only [hcancel, Bool.false_eq_true, if_false, hcount, take_succ_cons,
        map_cons, append_assoc, singleton_append]

/-- The results a statement appends.  They do not depend on the task. -/
def resultsOf (statement : Statement) : List SqlResult :=
  (runStatement toDouble .initial statement).sqlResults

def rowsOf (statement : Statement) : List (List SQLValueH) :=
  (resultsOf toDouble statement).flatMap SqlResult.rowsVec

theorem runStatement_eq (task : Task) (stmt : Statement) :
    runStatement toDouble task stmt =
      { sqlResultColumnNames := task.sqlResultColumnNames ++
          if succeeds stmt then
            (stmt.reply.fields.map Prod.fst).map fieldName
          else []
        sqlResults := task.sqlResults ++ resultsOf toDouble stmt } := by
  by_cases hselect : startsWithIgnoringASCIICase stmt.sql (lit "select") = true
  · have hsql := ne_nil_of_select hselect
    rw [resultsOf, runStatement, runStatement, if_pos hselect, if_pos hselect, runSqlSelect,
      runSqlSelect]
    simp only [succeeds, hselect, List.isEmpty_iff, hsql, if_false, Bool.true_and]
    cases stmt.reply.error with
    | some => simp [Task.append, Task.initial]
    | none =>
      cases stmt.reply.stored with
      | false => simp [Task.append, Task.initial]
      | true =>
        simp only [Bool.not_true, Bool.false_eq_true, if_false, Option.isNone_none,
          Bool.and_true, if_true]
        split_ifs <;> simp [Task.append, Task.initial]
  · have hsucceeds : succeeds stmt = false := by simp [succeeds, hselect]
    rw [resultsOf, runStatement, runStatement, hsucceeds]
    simp only [hselect, Bool.false_eq_true, if_false, runSqlUpdate, runSqlDelete, runSqlInsert]
    cases stmt.reply.error <;> split_ifs <;> simp [Task.append, Task.initial]

variable (statement : Statement)

theorem mem_rowsOf_iff :
    ∃ count, 0 < count ∧ ∀ row, row ∈ rowsOf toDouble statement ↔
      returnsRows statement = true ∧ row ∈ (statement.reply.rows.take count).map
        (List.zipWith (columnValue toDouble) (statement.reply.fields.map Prod.snd)) := by
  obtain ⟨count, hcount, hpos⟩ := rows_fetchLoop_take toDouble
    (statement.reply.fields.map Prod.snd) statement.reply.canceling 0
    statement.reply.rows []
  by_cases hselect : startsWithIgnoringASCIICase statement.sql (lit "select") = true
  · have hsql := ne_nil_of_select hselect
    rw [rowsOf, resultsOf, runStatement, if_pos hselect, runSqlSelect]
    simp only [returnsRows, succeeds, hselect, List.isEmpty_iff, hsql, if_false, Bool.true_and]
    cases statement.reply.error with
    | some => exact ⟨1, Nat.one_pos, by simp [Task.append, Task.initial]⟩
    | none =>
      cases statement.reply.stored with
      | false => exact ⟨1, Nat.one_pos, by simp [Task.append, Task.initial]⟩
      | true =>
        simp only [Bool.not_true, Bool.false_eq_true, if_false, Option.isNone_none,
          Bool.and_true, Bool.true_and]
        by_cases hrows : statement.reply.rows = []
        · refine ⟨1, Nat.one_pos, fun row => ?_⟩
          split_ifs <;> simp_all [Task.append, Task.initial]
        · refine ⟨count, hpos hrows, fun row => ?_⟩
          split_ifs <;> simp_all [Task.append, Task.initial]
  · refine ⟨1, Nat.one_pos, fun row => ?_⟩
    have hreturns : returnsRows statement = false := by simp [returnsRows, succeeds, hselect]
    rw [rowsOf, resultsOf, runStatement, hreturns]
    simp only [hselect, Bool.false_eq_true, if_false, runSqlUpdate, runSqlDelete, runSqlInsert]
    cases statement.reply.error <;> split_ifs <;> simp [Task.append, Task.initial]

theorem runStatements_eq (task : Task) (stmts : List Statement) :
    runStatements toDouble task stmts =
      { sqlResultColumnNames := task.sqlResultColumnNames ++
          (reportedNames stmts).map fieldName
        sqlResults := task.sqlResults ++ stmts.flatMap (resultsOf toDouble) } := by
  induction stmts generalizing task with
  | nil => simp [runStatements, reportedNames]
  | cons statement rest ih =>
    rw [runStatements, foldl_cons, ← runStatements, ih, runStatement_eq]
    by_cases hsucceeds : succeeds statement <;>
      simp [hsucceeds, reportedNames]

/-- Every row of every `SELECT` of a run has the column names of that `SELECT` as
its keys, in order, when all statements have been run. -/
def RowsKeyed (statements : List Statement) : Prop :=
  ∀ statement ∈ statements, ∀ row ∈ rowsOf toDouble statement,
    RowKeyed (runStatements toDouble .initial statements) (ownNames statement) row

/-- The names that MySQL reports for the `SELECT`s of the run, read as Latin-1,
begin with the column names of each `SELECT` that returns rows. -/
def NamesLeading (statements : List Statement) : Prop :=
  ∀ statement ∈ statements, returnsRows statement = true →
    ownNames statement <+: (reportedNames statements).map fieldName

theorem ownNames_nodup : (ownNames statement).Nodup := by
  have hnodup := statement.reply.distinct.map Utf16.encode_injective
  rwa [map_map] at hnodup

theorem length_of_mem_rowsOf {stmt : Statement} {row : List SQLValueH}
    (hrow : row ∈ rowsOf toDouble stmt) :
    row.length = (ownNames stmt).length := by
  obtain ⟨count, -, hrows⟩ := mem_rowsOf_iff toDouble stmt
  obtain ⟨values, hvals, rfl⟩ := mem_map.1 ((hrows row).1 hrow).2
  have hwidth := (stmt.reply.holds values (mem_of_mem_take hvals)).length_eq
  rw [length_zipWith, ownNames, length_map, length_map, ← hwidth, min_self]

theorem exists_mem_rowsOf_iff :
    (∃ row, row ∈ rowsOf toDouble statement) ↔ returnsRows statement = true := by
  obtain ⟨count, hcount, hrows⟩ := mem_rowsOf_iff toDouble statement
  simp only [hrows]
  constructor
  · rintro ⟨row, hreturns, -⟩
    exact hreturns
  · intro hreturns
    have hne : statement.reply.rows ≠ [] := by
      intro hempty
      simp [returnsRows, hempty] at hreturns
    have hread : (statement.reply.rows.take count).map (zipWith (columnValue toDouble)
        (statement.reply.fields.map Prod.snd)) ≠ [] := by
      simp [hne, hcount.ne']
    obtain ⟨row, hrow⟩ := exists_mem_of_ne_nil _ hread
    exact ⟨row, hreturns, hrow⟩

theorem rowsKeyed_iff (stmts : List Statement) : RowsKeyed toDouble stmts ↔ NamesLeading stmts := by
  have hkeyed : ∀ statement, ∀ row ∈ rowsOf toDouble statement,
      (RowKeyed (runStatements toDouble .initial stmts) (ownNames statement) row ↔
        ownNames statement <+: (reportedNames stmts).map fieldName) := by
    intro statement row hrow
    rw [rowKeyed_iff _ (length_of_mem_rowsOf toDouble hrow) (ownNames_nodup statement),
      runStatements_eq]
    rfl
  refine forall₂_congr fun statement _ => ?_
  rw [← exists_mem_rowsOf_iff toDouble, exists_imp]
  exact forall₂_congr (hkeyed statement)

end Run

end Rsql

/-! ## Both tasks -/

/-- The rows of a response have the column names of their own `SELECT`s as keys
exactly when the names of the `SELECT`s of the run agree: pairwise for SQLite, and
with all the names MySQL reports. -/
theorem response_keys_iff (sqlite : List Lsql.Statement)
    (toDouble : Str → Option FiniteDouble) (mysql : List Rsql.Statement) :
    (Lsql.RowsKeyed sqlite ↔ Lsql.NamesComparable sqlite) ∧
      (Rsql.RowsKeyed toDouble mysql ↔ Rsql.NamesLeading mysql) :=
  ⟨Lsql.rowsKeyed_iff sqlite, Rsql.rowsKeyed_iff toDouble mysql⟩

/-- A `SELECT` of one integer under a name of one letter. -/
def Lsql.selectInteger (name : Char) (hname : Char.ofNat 0 ≠ name) (value : ℤ) :
    Lsql.Statement :=
  { sql := lit "select"
    reply :=
      { prepared := true, names := [[name]], distinct := List.nodup_singleton _
        terminated := by simp [hname]
        rows := [[.integer value]], width := by simp, done := true, changes := 0
        canceling := fun _ => false } }

/-- After `SELECT 1 AS a`, the row of `SELECT 2 AS b` has the key `a`. -/
theorem response_key_of_other_select :
    let select := [Lsql.selectInteger 'a' (by decide) 1, Lsql.selectInteger 'b' (by decide) 2]
    Lsql.rowsOf (Lsql.selectInteger 'b' (by decide) 2) = [[.int 2]] ∧
      Lsql.ownNames (Lsql.selectInteger 'b' (by decide) 2) = [lit "b"] ∧
      formatRow false (Lsql.runStatements .initial select) [.int 2] =
        .ok (.object [(lit "a", .integer 2)]) ∧
      ¬ Lsql.RowsKeyed select := by
  intro select
  have hrow : formatRow false (Lsql.runStatements .initial select) [.int 2] =
      .ok (.object [(lit "a", .integer 2)]) := rfl
  refine ⟨rfl, rfl, hrow, fun hkeyed => ?_⟩
  obtain ⟨members, hmembers, hkeys⟩ :=
    hkeyed (Lsql.selectInteger 'b' (by decide) 2) (by simp [select]) [.int 2] (mem_singleton_self _)
  cases hmembers
  exact absurd hkeys (by decide)

end PurcFetcher.Sql
