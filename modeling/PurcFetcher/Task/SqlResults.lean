import PurcFetcher.Task.SqlNames

/-!
# One result for each statement

A run of either task appends the results of its statements in order.  The statements that are
executed are those that begin with a known keyword, and each should have one entry in the
results, whenever the task is cancelled.  In the SQLite task it has.  In the MySQL task the row
loop of a cancelled `SELECT` appends the result and is left, and the code behind the loop
appends it again.
-/

namespace PurcFetcher.Sql

open JsonValues List Text

/-! ## One element for each -/

section OneEach

variable {A B : Type} {kept : A → Bool} {images : A → List B}

theorem length_filter_le_flatMap (hkept : ∀ val, kept val = true → images val ≠ [])
    (values : List A) : (values.filter kept).length ≤ (values.flatMap images).length := by
  induction values with
  | nil => exact le_rfl
  | cons head =>
    rw [flatMap_cons, length_append, filter_cons]
    split
    · next hhead =>
      have himage := length_pos_iff.2 (hkept head hhead)
      rw [length_cons]
      omega
    · omega

/-- The images of the kept elements, none of which is empty, pair up with those elements exactly
when none has two elements. -/
theorem forall₂_flatMap_iff (hkept : ∀ val, kept val = true → images val ≠ [])
    (hother : ∀ val, kept val = false → images val = []) (values : List A) :
    List.Forall₂ (fun val image => image ∈ images val) (values.filter kept)
        (values.flatMap images) ↔
      ∀ val ∈ values, (images val).length ≤ 1 := by
  induction values with
  | nil => exact iff_of_true .nil (by simp)
  | cons head tail ih =>
    rw [forall_mem_cons, ← ih, flatMap_cons, filter_cons]
    cases hhead : kept head with
    | false => simp [hother head hhead]
    | true =>
      rw [if_pos rfl]
      cases himages : images head with
      | nil => exact absurd himages (hkept head hhead)
      | cons image rest =>
        cases rest with
        | nil => simp [himages]
        | cons =>
          refine iff_of_false (fun hpairs => ?_) (fun hone => ?_)
          · have hlen := hpairs.length_eq
            have hle := length_filter_le_flatMap hkept tail
            simp only [length_cons, cons_append, length_append] at hlen
            omega
          · simp at hone

end OneEach

/-- The statements that `runCmdInner` executes. -/
def executed (sql : Str) : Bool :=
  startsWithIgnoringASCIICase sql (lit "select") ||
    startsWithIgnoringASCIICase sql (lit "insert") ||
    startsWithIgnoringASCIICase sql (lit "update") ||
    startsWithIgnoringASCIICase sql (lit "delete")

/-- The first check of `m_state` that finds the task cancelled: the one behind a row of a
statement.  Once cancelled, the task stays so. -/
structure CancelPoint where
  statement : ℕ
  row : ℕ
  deriving DecidableEq, Repr

def isCanceling (point : Option CancelPoint) (statement row : ℕ) : Bool :=
  match point with
  | none => false
  | some point => point.statement < statement || (point.statement = statement && point.row ≤ row)

theorem ne_nil_of_executed {sql : Str} (hexecuted : executed sql = true) : sql ≠ [] := by
  rintro rfl
  exact absurd hexecuted (by decide)

/-! ## SQLite -/

namespace Lsql

/-- The statements of a run in which the task is found cancelled from `point` on. -/
def cancelAt (point : Option CancelPoint) (statements : List Statement) : List Statement :=
  statements.zipIdx.map fun entry =>
    { entry.1 with reply := { entry.1.reply with canceling := isCanceling point entry.2 } }

/-- `runCmdInner` from the opening of the database on. -/
def runCmdInner (opened : Bool) (task : Task) (statements : List Statement) : Task :=
  if opened then runStatements task statements else task

/-- The results are one for each executed statement, in order. -/
def OneResultEach (opened : Bool) (statements : List Statement) : Prop :=
  List.Forall₂ (fun statement result => result ∈ resultsOf statement)
    (if opened then statements.filter fun statement => executed statement.sql else [])
    (runCmdInner opened .initial statements).sqlResults

theorem length_resultsOf (stmt : Statement) :
    (resultsOf stmt).length = if executed stmt.sql then 1 else 0 := by
  by_cases hexecuted : executed stmt.sql = true
  · have hsql := ne_nil_of_executed hexecuted
    rw [if_pos hexecuted, resultsOf, runStatement]
    simp only [runSqlSelect, runSqlInsert, runSqlUpdate, runSqlDelete, runSqlChange,
      List.isEmpty_iff, hsql, if_false]
    rw [executed, Bool.or_eq_true, Bool.or_eq_true, Bool.or_eq_true] at hexecuted
    split_ifs <;> simp_all [Task.append, Task.initial]
  · rw [if_neg hexecuted, resultsOf, runStatement]
    simp only [executed, Bool.or_eq_true, not_or] at hexecuted
    obtain ⟨⟨⟨hselect, hinsert⟩, hupdate⟩, hdelete⟩ := hexecuted
    rw [if_neg hselect, if_neg hinsert, if_neg hupdate, if_neg hdelete]
    rfl

theorem oneResultEach (opened : Bool) (stmts : List Statement) :
    OneResultEach opened stmts := by
  rw [OneResultEach, runCmdInner]
  cases opened with
  | false => exact .nil
  | true => grind [runStatements_eq, Task.initial, length_resultsOf, forall₂_flatMap_iff]

end Lsql

/-! ## MySQL -/

namespace Rsql

def cancelAt (point : Option CancelPoint) (statements : List Statement) : List Statement :=
  statements.zipIdx.map fun entry =>
    { entry.1 with reply := { entry.1.reply with canceling := isCanceling point entry.2 } }

section Run

variable (toDouble : Str → Option FiniteDouble)

/-- `runCmdInner` from the connection to the server on. -/
def runCmdInner (connected : Bool) (task : Task) (statements : List Statement) : Task :=
  if connected then runStatements toDouble task statements else task

def OneResultEach (connected : Bool) (statements : List Statement) : Prop :=
  List.Forall₂ (fun statement result => result ∈ resultsOf toDouble statement)
    (if connected then statements.filter fun statement => executed statement.sql else [])
    (runCmdInner toDouble connected .initial statements).sqlResults

theorem canceled_fetchLoop (types : List FieldType) (canceling : ℕ → Bool) (round : ℕ)
    (rows : List (List MysqlValue)) (rowsVec : List (List SQLValueH)) :
    (fetchLoop toDouble types canceling round rows rowsVec).2 = true ↔
      ∃ row < rows.length, canceling (round + row) = true := by
  induction rows generalizing round rowsVec with
  | nil => simp [fetchLoop]
  | cons row rest ih =>
    rw [fetchLoop]
    by_cases hcancel : canceling round = true
    · rw [if_pos hcancel]
      exact iff_of_true rfl ⟨0, Nat.succ_pos _, hcancel⟩
    · rw [if_neg hcancel, ih]
      constructor
      · rintro ⟨later, hlt, hcanceling⟩
        refine ⟨later + 1, Nat.succ_lt_succ hlt, ?_⟩
        rwa [← Nat.add_assoc, Nat.add_right_comm]
      · rintro ⟨later, hlt, hcanceling⟩
        cases later with
        | zero => exact absurd hcanceling hcancel
        | succ later =>
          refine ⟨later, Nat.lt_of_succ_lt_succ hlt, ?_⟩
          rwa [Nat.add_right_comm]

/-- A `SELECT` whose row loop is left because the task is cancelled. -/
def Interrupted (statement : Statement) : Prop :=
  succeeds statement = true ∧
    ∃ row < statement.reply.rows.length, statement.reply.canceling row = true

variable {statement : Statement}

theorem resultsOf_of_not_executed (hexecuted : executed statement.sql = false) :
    resultsOf toDouble statement = [] := by
  rw [resultsOf, runStatement]
  simp only [executed, Bool.or_eq_false_iff] at hexecuted
  obtain ⟨⟨⟨hselect, hinsert⟩, hupdate⟩, hdelete⟩ := hexecuted
  rw [hselect, hinsert, hupdate, hdelete]
  rfl

theorem not_interrupted_of_not_executed (hexecuted : executed statement.sql = false) :
    ¬ Interrupted statement := by
  rintro ⟨hsucceeds, -⟩
  simp only [executed, Bool.or_eq_false_iff] at hexecuted
  simp [succeeds, hexecuted.1.1.1] at hsucceeds

theorem length_resultsOf_of_executed (hexecuted : executed statement.sql = true) :
    0 < (resultsOf toDouble statement).length ∧
      ((resultsOf toDouble statement).length ≤ 1 ↔ ¬ Interrupted statement) := by
  have hsql := ne_nil_of_executed hexecuted
  have hloop := canceled_fetchLoop toDouble (statement.reply.fields.map Prod.snd)
    statement.reply.canceling 0 statement.reply.rows []
  simp only [Nat.zero_add] at hloop
  rw [resultsOf, runStatement, Interrupted, ← hloop, succeeds]
  simp only [runSqlSelect, runSqlInsert, runSqlUpdate, runSqlDelete, List.isEmpty_iff, hsql,
    if_false]
  rw [executed, Bool.or_eq_true, Bool.or_eq_true, Bool.or_eq_true] at hexecuted
  cases statement.reply.error <;> split_ifs <;> simp_all [Task.append, Task.initial]

theorem oneResultEach_iff (connected : Bool) (stmts : List Statement) :
    OneResultEach toDouble connected stmts ↔
      (connected = true → ∀ statement ∈ stmts, ¬ Interrupted statement) := by
  rw [OneResultEach, runCmdInner]
  cases connected with
  | false => exact iff_of_true .nil nofun
  | true =>
    rw [if_pos rfl, if_pos rfl, runStatements_eq, forall_prop_of_true rfl]
    refine (forall₂_flatMap_iff (fun statement hexecuted => ?_)
      (fun statement hexecuted => ?_) stmts).trans ?_
    · exact length_pos_iff.1 (length_resultsOf_of_executed toDouble hexecuted).1
    · exact resultsOf_of_not_executed toDouble hexecuted
    · grind [length_resultsOf_of_executed, resultsOf_of_not_executed,
        not_interrupted_of_not_executed]

/-- No row of a `SELECT` is fetched once the task is cancelled. -/
def NeverInterrupted (point : Option CancelPoint) (statements : List Statement) : Prop :=
  ∀ entry ∈ statements.zipIdx, succeeds entry.1 = true →
    ∀ row < entry.1.reply.rows.length, isCanceling point entry.2 row = false

end Run

end Rsql

/-- Whenever the tasks are cancelled, the results are one for each executed statement, in order,
exactly when the MySQL task fetches no row of a `SELECT` after that. -/
theorem one_result_for_each_statement_iff (toDouble : Str → Option FiniteDouble)
    (opened connected : Bool) (sqlite : List Lsql.Statement) (mysql : List Rsql.Statement)
    (sqlitePoint mysqlPoint : Option CancelPoint) :
    (Lsql.OneResultEach opened (Lsql.cancelAt sqlitePoint sqlite) ∧
        Rsql.OneResultEach toDouble connected (Rsql.cancelAt mysqlPoint mysql)) ↔
      (connected = true → Rsql.NeverInterrupted mysqlPoint mysql) := by
  rw [and_iff_right (Lsql.oneResultEach opened _), Rsql.oneResultEach_iff, Rsql.cancelAt,
    forall_mem_map, Rsql.NeverInterrupted]
  refine forall_congr' fun _ => forall₂_congr fun entry _ => ?_
  simp only [Rsql.Interrupted, Rsql.succeeds, not_and, not_exists, Bool.not_eq_true]

/-- A `SELECT` of one integer. -/
def Rsql.selectInteger (value : ℤ) (hvalue : -2 ^ 31 ≤ value ∧ value < 2 ^ 32) :
    Rsql.Statement :=
  { sql := lit "select"
    reply :=
      { error := none, stored := true, fields := [(['a'], .long)]
        distinct := List.nodup_singleton _, terminated := by simp
        rows := [[.integer value]]
        holds := by simpa [Rsql.Holds] using hvalue
        affected := 0, canceling := fun _ => false } }

/-- One `SELECT` that is cancelled at its first row has two results. -/
theorem cancelled_select_has_two_results :
    let mysql := Rsql.cancelAt (some ⟨0, 0⟩) [Rsql.selectInteger 1 (by decide)]
    (mysql.filter fun statement => executed statement.sql).length = 1 ∧
      (Rsql.runCmdInner (fun _ => none) true .initial mysql).sqlResults =
        [{ statusCode := 503, errorMsg := lit "Canceling", rowsAffected := none,
           rowsVec := [[.int 1]] },
          { statusCode := 503, errorMsg := lit "Canceling", rowsAffected := some 1,
            rowsVec := [[.int 1]] }] ∧
      ¬ Rsql.OneResultEach (fun _ => none) true mysql := by
  intro mysql
  exact ⟨by decide, rfl, fun hone => absurd hone.length_eq (by decide)⟩

end PurcFetcher.Sql
