import Mathlib.Algebra.Group.Nat.Defs
import Mathlib.Data.List.TakeWhile
import PristonTale.Common.Effects

set_option relaxedAutoImplicit false
set_option autoImplicit false

/-!
# Queries

`Result` and `QueryDatabase` (`Shared/Database`). The SQL driver is a parameter: which of its calls
throw, and which rows a statement selects. A `sql::ResultSet` is a cursor over those rows.

## Main definitions

* `SteerStone.Driver` — the SQL driver; `SteerStone.ResultSet` — its result sets.
* `SteerStone.Result` — the functions of the class `Result`.
* `SteerStone.QueryDatabase` — the members of the class, and its functions.

## Main results

* For each function, what it returns (`returns_…`) and what it does outside (`events_…`), and for
  those without events what a program does that goes on with the value (`run_…_bind`).

## Implementation notes

* The connection a `QueryDatabase` borrows is left out (`PristonTale.Database.Borrow` has it).
  Borrowing one is counted as a call of the driver, though the driver is asked only when none is
  free. `Borrow` catches what the driver throws then and goes on to the front of an empty deque, so
  a constructor that gets no connection faults.
* `m_Statement` is left out: only `DirectExecuteQuery`, which assigns it, uses it.
* The two flags of a new `QueryDatabase` are not initialised, so they are parameters.
-/

namespace SteerStone

open Foundations

/-- A row, as the driver's accessors read its columns, counted from 1. -/
structure Row where
  /-- `getString`. -/
  string : ℕ → List UInt8
  /-- `getUInt`. -/
  uint : ℕ → ℕ

/-- The text of a column up to its first NUL: what a `std::string` made from `c_str` holds. -/
def Row.text (row : Row) (i : ℕ) : List UInt8 := (row.string i).takeWhile (· ≠ 0)

/-- Such a text holds no NUL. -/
lemma Row.zero_notMem_text (row : Row) (i : ℕ) : 0 ∉ row.text i := fun h => by
  simpa using List.mem_takeWhile_imp h

/-- The SQL driver. -/
structure Driver where
  /-- Whether the call with this number throws `sql::SQLException`; of the constructor of a query,
  whether no connection is free and none can be made. -/
  throws : ℕ → Bool
  /-- The rows a statement selects, with its parameters bound. -/
  rows : String → List (ℕ × Parameter) → List Row

namespace Driver

/-- A call whose exception nobody catches. -/
def call (D : Driver) : Action Unit :=
  ⟨fun n => ([], if D.throws n then .error .sqlException else .ok ((), n + 1))⟩

/-- A call whose exception is caught: whether it returned. -/
def attempt (D : Driver) : Action Bool := ⟨fun n => ([], .ok (!D.throws n, n + 1))⟩

/-- None of the calls numbered from `n` up to `m` throws. -/
def Quiet (D : Driver) (n m : ℕ) : Prop := ∀ k, n ≤ k → k < m → D.throws k = false

variable {D : Driver} {n m : ℕ}

/-- No calls throw nothing. -/
@[simp] lemma quiet_self : D.Quiet n n := fun _ _ _ => by omega

/-- Quiet up to `m + 1` is quiet up to `m` and at `m`. -/
lemma quiet_succ (h : n ≤ m) : D.Quiet n (m + 1) ↔ D.Quiet n m ∧ D.throws m = false := by
  constructor
  · intro hq
    refine ⟨?_, hq m h (by omega)⟩
    intro k hk hm
    exact hq k hk (by omega)
  · rintro ⟨hq, hm⟩ k hk hlt
    rcases Nat.lt_succ_iff_lt_or_eq.mp hlt with hlt | rfl
    · exact hq k hk hlt
    · exact hm

/-- Quiet at one call. -/
lemma quiet_single : D.Quiet n (n + 1) ↔ D.throws n = false := by
  rw [quiet_succ (Nat.le_refl n)]
  exact and_iff_right quiet_self

/-- Quiet up to `k` is quiet up to any number on the way and from there on. -/
lemma quiet_split {k : ℕ} (h₁ : n ≤ m) (h₂ : m ≤ k) :
    D.Quiet n k ↔ D.Quiet n m ∧ D.Quiet m k := by
  constructor
  · intro hq
    constructor
    · intro j hj hm
      exact hq j hj (by omega)
    · intro j hj hm
      exact hq j (by omega) hm
  · rintro ⟨hnm, hmk⟩ j hj hk
    rcases Nat.lt_or_ge j m with hlt | hge
    · exact hnm j hj hlt
    · exact hmk j hge hk

/-- A call of the driver has no events of its own. -/
@[simp] lemma events_call : D.call.events n = [] := rfl

/-- A call returns if it does not throw. -/
@[simp] lemma returns_call {u : Unit} :
    D.call.Returns n u m ↔ D.throws n = false ∧ m = n + 1 := by
  cases h : D.throws n with
  | true => simp [call, Program.Returns, h]
  | false => simp [call, Program.Returns, h, eq_comm (a := m)]

/-- A call whose exception is caught has no events either. -/
@[simp] lemma events_attempt : D.attempt.events n = [] := rfl

/-- It returns in any case, and says whether it threw. -/
@[simp] lemma returns_attempt {b : Bool} :
    D.attempt.Returns n b m ↔ b = !D.throws n ∧ m = n + 1 := by
  simp [attempt, Program.Returns, eq_comm (a := m), eq_comm (a := b)]

end Driver

/-! ## Result sets -/

/-- A `sql::ResultSet`: the row under its cursor, the rows after it, and the number of all rows. -/
structure ResultSet where
  /-- The row under the cursor; at first there is none. -/
  current : Option Row
  /-- The rows after the cursor. -/
  rest : List Row
  /-- `rowsCount`. -/
  rowsCount : ℕ

namespace ResultSet

/-- The result set of the rows of a list. -/
def ofRows (rows : List Row) : ResultSet := ⟨none, rows, rows.length⟩

/-- `next`: move the cursor, and say whether it is on a row. -/
def next (rs : ResultSet) : Bool × ResultSet :=
  match rs.rest with
  | [] => (false, { rs with current := none })
  | row :: rows => (true, { rs with current := some row, rest := rows })

end ResultSet

/-- A `Result`: its `m_ResultSet`, which may be null. -/
abbrev Result := Option ResultSet

namespace Result

variable (D : Driver) (r : Result)

/-- `GetString`. -/
def getString (i : ℕ) : Action (List UInt8) := do
  let rs ← orStop .fault r
  D.call
  let row ← orStop .sqlException rs.current
  return row.text i

/-- `GetUint32`. -/
def getUint32 (i : ℕ) : Action ℕ := do
  let rs ← orStop .fault r
  D.call
  let row ← orStop .sqlException rs.current
  return row.uint i % 2 ^ 32

/-- `GetNextResult`. -/
def getNextResult : Action (Bool × Result) := do
  let rs ← orStop .fault r
  D.call
  return (rs.next.1, some rs.next.2)

/-- `GetRowCount`. -/
def getRowCount : Action ℕ := do
  let rs ← orStop .fault r
  D.call
  return rs.rowsCount

variable {D r} {n m i k : ℕ} {row : Row} {rest : List Row} {text : List UInt8} {v : ℕ}
  {x : Bool × Result}

/-- `GetString` has no events. -/
@[simp] lemma events_getString : (getString D r i).events n = [] := by
  simp [List.eq_nil_iff_forall_not_mem, getString]

/-- `GetUint32` has no events. -/
@[simp] lemma events_getUint32 : (getUint32 D r i).events n = [] := by
  simp [List.eq_nil_iff_forall_not_mem, getUint32]

/-- `GetNextResult` has no events. -/
@[simp] lemma events_getNextResult : (getNextResult D r).events n = [] := by
  simp [List.eq_nil_iff_forall_not_mem, getNextResult]

/-- `GetRowCount` has no events. -/
@[simp] lemma events_getRowCount : (getRowCount D r).events n = [] := by
  simp [List.eq_nil_iff_forall_not_mem, getRowCount]

/-- `GetString` returns a text of the row under the cursor. -/
@[simp] lemma returns_getString :
    (getString D (some ⟨some row, rest, k⟩) i).Returns n text m ↔
      D.throws n = false ∧ text = row.text i ∧ m = n + 1 := by
  simp [getString, and_assoc]

/-- `GetUint32` returns a number of the row under the cursor, as 32 bits. -/
@[simp] lemma returns_getUint32 :
    (getUint32 D (some ⟨some row, rest, k⟩) i).Returns n v m ↔
      D.throws n = false ∧ v = row.uint i % 2 ^ 32 ∧ m = n + 1 := by
  simp [getUint32, and_assoc]

/-- `GetNextResult` moves the cursor. -/
@[simp] lemma returns_getNextResult {rs : ResultSet} :
    (getNextResult D (some rs)).Returns n x m ↔
      D.throws n = false ∧ x = (rs.next.1, some rs.next.2) ∧ m = n + 1 := by
  simp [getNextResult, and_assoc]

/-- `GetRowCount` returns the number of all rows. -/
@[simp] lemma returns_getRowCount {rs : ResultSet} :
    (getRowCount D (some rs)).Returns n v m ↔
      D.throws n = false ∧ v = rs.rowsCount ∧ m = n + 1 := by
  simp [getRowCount, and_assoc]

section Run

variable {α : Type} (h : D.throws n = false)

include h

/-- A program that goes on with a text, once `GetString` has returned it. -/
lemma run_getString_bind (f : List UInt8 → Action α) :
    (getString D (some ⟨some row, rest, k⟩) i >>= f).run n = (f (row.text i)).run (n + 1) :=
  Program.run_bind_of_silent f events_getString (returns_getString.mpr ⟨h, rfl, rfl⟩)

/-- A program that goes on with the number of rows. -/
lemma run_getRowCount_bind {rs : ResultSet} (f : ℕ → Action α) :
    (getRowCount D (some rs) >>= f).run n = (f rs.rowsCount).run (n + 1) :=
  Program.run_bind_of_silent f events_getRowCount (returns_getRowCount.mpr ⟨h, rfl, rfl⟩)

end Run

end Result

/-! ## Query objects -/

/-- A `sql::PreparedStatement`: its text and the parameters bound to it. -/
structure PreparedStatement where
  /-- The text. -/
  sql : String
  /-- The parameters, by their index. -/
  parameters : List (ℕ × Parameter)

/-- Bind a parameter. -/
def PreparedStatement.bindParameter (st : PreparedStatement) (i : ℕ) (v : Parameter) :
    PreparedStatement :=
  { st with parameters := (i, v) :: st.parameters.filter fun p => p.1 ≠ i }

/-- A `QueryDatabase`. -/
structure QueryDatabase where
  /-- `m_PreparedStatement`, which may be null. -/
  preparedStatement : Option PreparedStatement
  /-- `m_ResultSet`, which may be null. -/
  resultSet : Option ResultSet
  /-- `m_Result`. -/
  result : Result
  /-- `m_ExecuteResult`. -/
  executeResult : Bool
  /-- `m_IsExecuteResult`. -/
  isExecuteResult : Bool

namespace QueryDatabase

variable (D : Driver) (db : QueryDatabase)

/-- The constructor, which borrows a connection. If none is free, `Borrow` asks the driver for one;
where that throws, it goes on with the front of an empty deque. It is counted as a call of the
driver in either case. -/
def new (executeResult isExecuteResult : Bool) : Action QueryDatabase := do
  let borrowed ← D.attempt
  if borrowed then return ⟨none, none, none, executeResult, isExecuteResult⟩
  else .stop .fault

/-- `DirectExecuteQuery`: an exception is logged and otherwise ignored. What `Statement::execute`
returns of a statement, whether it has a result set, is a parameter. -/
def directExecuteQuery (execute : String → Bool) (sql : String) : Action QueryDatabase := do
  let db := { db with isExecuteResult := false }
  let created ← D.attempt
  if created then
    .emit (.executeQuery sql [])
    let returned ← D.attempt
    return if returned then
      { db with executeResult := execute sql, isExecuteResult := true } else db
  else return db

/-- `PrepareQuery`. -/
def prepareQuery (sql : String) : Action QueryDatabase := do
  D.call
  return { db with preparedStatement := some ⟨sql, []⟩, isExecuteResult := false }

/-- `setString` and `setUInt` of `GetStatement()`. -/
def setParameter (i : ℕ) (v : Parameter) : Action QueryDatabase := do
  let st ← orStop .fault db.preparedStatement
  D.call
  return { db with preparedStatement := some (st.bindParameter i v) }

/-- `ExecuteQuery`: an exception is logged and otherwise ignored. -/
def executeQuery : Action QueryDatabase := do
  let st ← orStop .fault db.preparedStatement
  .emit (.executeQuery st.sql st.parameters)
  let returned ← D.attempt
  return if returned then
    { db with resultSet := some (.ofRows (D.rows st.sql st.parameters)) } else db

/-- `GetResult`. -/
def getResult : Action (Bool × QueryDatabase) :=
  if db.isExecuteResult then pure (db.executeResult, db)
  else do
    let rs ← orStop .fault db.resultSet
    D.call
    return if rs.next.1 then (true, { db with result := some rs.next.2, resultSet := none })
      else (false, { db with resultSet := some rs.next.2 })

/-- `ClearParameters`. -/
def clearParameters : Action QueryDatabase := do
  let st ← orStop .fault db.preparedStatement
  D.call
  return { db with
    preparedStatement := some { st with parameters := [] }
    isExecuteResult := false }

/-- `Fetch`: a pointer to `m_Result`. -/
def fetch : Result := db.result

variable {D db} {n m i : ℕ} {e : Event} {b b' : Bool} {db' : QueryDatabase} {sql : String}
  {v : Parameter} {st : PreparedStatement} {rs rs' : Option ResultSet} {r : Result}
  {x : Bool × QueryDatabase}

/-- The constructor has no events. -/
@[simp] lemma events_new : (new D b b').events n = [] := by
  simp [List.eq_nil_iff_forall_not_mem, new]

/-- The constructor returns if it gets a connection. -/
@[simp] lemma returns_new :
    (new D b b').Returns n db m ↔
      D.throws n = false ∧ db = ⟨none, none, none, b, b'⟩ ∧ m = n + 1 := by
  cases h : D.throws n with
  | true => simp [new, h]
  | false => simp [new, h]

/-- `DirectExecuteQuery` returns whatever throws. -/
lemma returns_directExecuteQuery {execute : String → Bool} :
    (directExecuteQuery D db execute sql).Returns n db' m ↔
      if D.throws n = false ∧ D.throws (n + 1) = false then
        db' = { db with executeResult := execute sql, isExecuteResult := true } ∧ m = n + 2
      else db' = { db with isExecuteResult := false } ∧
        m = if D.throws n = true then n + 1 else n + 2 := by
  cases h : D.throws n with
  | true => simp [directExecuteQuery, h]
  | false => cases h' : D.throws (n + 1) <;> simp [directExecuteQuery, h, h', and_comm]

/-- `PrepareQuery` has no events. -/
@[simp] lemma events_prepareQuery : (prepareQuery D db sql).events n = [] := by
  simp [List.eq_nil_iff_forall_not_mem, prepareQuery]

/-- `PrepareQuery` returns if its call does, with a statement without parameters. -/
@[simp] lemma returns_prepareQuery :
    (prepareQuery D db sql).Returns n db' m ↔ D.throws n = false ∧
      db' = { db with preparedStatement := some ⟨sql, []⟩, isExecuteResult := false } ∧
      m = n + 1 := by
  simp [prepareQuery, and_assoc]

/-- `setString` and `setUInt` have no events. -/
@[simp] lemma events_setParameter : (setParameter D db i v).events n = [] := by
  simp [List.eq_nil_iff_forall_not_mem, setParameter]

/-- `setString` and `setUInt` bind the parameter. -/
@[simp] lemma returns_setParameter :
    (setParameter D ⟨some st, rs, r, b, b'⟩ i v).Returns n db' m ↔ D.throws n = false ∧
      db' = ⟨some (st.bindParameter i v), rs, r, b, b'⟩ ∧ m = n + 1 := by
  simp [setParameter, and_assoc]

/-- `ExecuteQuery` executes the statement with its parameters. -/
@[simp] lemma mem_events_executeQuery :
    e ∈ (executeQuery D ⟨some st, rs, r, b, b'⟩).events n ↔
      e = .executeQuery st.sql st.parameters := by
  simp [executeQuery]

/-- `ExecuteQuery` returns in any case: if the driver threw, without a result set. -/
@[simp] lemma returns_executeQuery :
    (executeQuery D ⟨some st, rs, r, b, b'⟩).Returns n db' m ↔
      db' = ⟨some st, if D.throws n then rs else some (.ofRows (D.rows st.sql st.parameters)), r,
        b, b'⟩ ∧ m = n + 1 := by
  cases h : D.throws n <;> simp [executeQuery, h, and_assoc]

/-- `GetResult` has no events. -/
@[simp] lemma events_getResult : (getResult D db).events n = [] := by
  unfold getResult
  split_ifs
  · rfl
  · simp [List.eq_nil_iff_forall_not_mem]

/-- What `GetResult` returns of a statement that was executed, and the query then: with rows, the
result has its cursor on the first of them. -/
def fetched (st : PreparedStatement) (rows : List Row) (r : Result) (b : Bool) :
    Bool × QueryDatabase :=
  match rows with
  | [] => (false, ⟨some st, some (.ofRows []), r, b, false⟩)
  | row :: rest => (true, ⟨some st, none, some ⟨some row, rest, rest.length + 1⟩, b, false⟩)

/-- **A new query that is executed** has a result if its execution did not throw: otherwise there is
no result set to ask. -/
@[simp] theorem returns_getResult {failed : Bool} {rows : List Row} :
    (getResult D ⟨some st, if failed = true then none else some (.ofRows rows), r, b,
      false⟩).Returns n x m ↔
      failed = false ∧ D.throws n = false ∧ x = fetched st rows r b ∧ m = n + 1 := by
  cases failed with
  | true => simp [getResult]
  | false =>
    cases rows with
    | nil => simp [getResult, ResultSet.ofRows, ResultSet.next, fetched, and_assoc]
    | cons row rest => simp [getResult, ResultSet.ofRows, ResultSet.next, fetched, and_assoc]

/-- `ClearParameters` has no events. -/
@[simp] lemma events_clearParameters : (clearParameters D db).events n = [] := by
  simp [List.eq_nil_iff_forall_not_mem, clearParameters]

/-- `ClearParameters` returns with the statement without its parameters. -/
@[simp] lemma returns_clearParameters :
    (clearParameters D ⟨some st, rs, r, b, b'⟩).Returns n db' m ↔ D.throws n = false ∧
      db' = ⟨some { st with parameters := [] }, rs, r, b, false⟩ ∧ m = n + 1 := by
  simp [clearParameters, and_assoc]

section Run

variable {α : Type} (h : D.throws n = false)

include h

/-- A program that goes on with a new query. -/
lemma run_new_bind (f : QueryDatabase → Action α) :
    (new D b b' >>= f).run n = (f ⟨none, none, none, b, b'⟩).run (n + 1) :=
  Program.run_bind_of_silent f events_new (returns_new.mpr ⟨h, rfl, rfl⟩)

/-- A program that goes on with a prepared statement. -/
lemma run_prepareQuery_bind (f : QueryDatabase → Action α) :
    (prepareQuery D db sql >>= f).run n =
      (f { db with preparedStatement := some ⟨sql, []⟩, isExecuteResult := false }).run (n + 1) :=
  Program.run_bind_of_silent f events_prepareQuery (returns_prepareQuery.mpr ⟨h, rfl, rfl⟩)

/-- A program that goes on with a parameter bound. -/
lemma run_setParameter_bind (f : QueryDatabase → Action α) :
    (setParameter D ⟨some st, rs, r, b, b'⟩ i v >>= f).run n =
      (f ⟨some (st.bindParameter i v), rs, r, b, b'⟩).run (n + 1) :=
  Program.run_bind_of_silent f events_setParameter (returns_setParameter.mpr ⟨h, rfl, rfl⟩)

end Run

section Flags

/-- A query object as `PrepareQuery` leaves it, but for what is in `m_ExecuteResult`. -/
def withExecuteResult (db : QueryDatabase) (b : Bool) : QueryDatabase :=
  { db with executeResult := b, isExecuteResult := false }

variable {α : Type} {c c' : Bool} {f g : QueryDatabase → Action α}

section Alike

variable (h : ∀ db : QueryDatabase, f (db.withExecuteResult b) = g (db.withExecuteResult c))

include h

/-- `PrepareQuery` sets one of the flags, and the other does not matter if it does not for what is
done then. -/
lemma prepareQuery_congr {st : Option PreparedStatement} :
    (prepareQuery D ⟨st, rs, r, b, b'⟩ sql >>= f) =
      (prepareQuery D ⟨st, rs, r, c, c'⟩ sql >>= g) := by
  simp only [prepareQuery, Program.bind_assoc, Program.pure_bind]
  exact bind_congr fun _ => h ⟨some ⟨sql, []⟩, rs, r, b, false⟩

/-- The flags that a query object starts with do not matter. -/
lemma new_prepareQuery_congr :
    (do let db ← new D b b'; let db ← db.prepareQuery D sql; f db) =
      (do let db ← new D c c'; let db ← db.prepareQuery D sql; g db) := by
  simp only [new, Program.bind_assoc]
  refine bind_congr fun borrowed => ?_
  cases borrowed with
  | false => rfl
  | true => exact prepareQuery_congr h

/-- `ClearParameters` does not read them. -/
lemma clearParameters_congr :
    ((db.withExecuteResult b).clearParameters D >>= f) =
      ((db.withExecuteResult c).clearParameters D >>= g) := by
  obtain ⟨_ | st, rs, r, _, _⟩ := db
  · rfl
  · simp only [clearParameters, withExecuteResult, orStop_some_bind, Program.bind_assoc,
      Program.pure_bind]
    exact bind_congr fun _ => h ⟨some { st with parameters := [] }, rs, r, b, false⟩

/-- `setString` and `setUInt` do not read them. -/
lemma setParameter_congr :
    ((db.withExecuteResult b).setParameter D i v >>= f) =
      ((db.withExecuteResult c).setParameter D i v >>= g) := by
  obtain ⟨_ | st, rs, r, _, _⟩ := db
  · rfl
  · simp only [setParameter, withExecuteResult, orStop_some_bind, Program.bind_assoc,
      Program.pure_bind]
    exact bind_congr fun _ => h ⟨some (st.bindParameter i v), rs, r, b, false⟩

/-- `ExecuteQuery` does not read them. -/
lemma executeQuery_congr :
    ((db.withExecuteResult b).executeQuery D >>= f) =
      ((db.withExecuteResult c).executeQuery D >>= g) := by
  obtain ⟨_ | st, rs, r, _, _⟩ := db
  · rfl
  · simp only [executeQuery, withExecuteResult, orStop_some_bind, Program.bind_assoc,
      Program.pure_bind]
    refine bind_congr fun _ => bind_congr fun returned => ?_
    cases returned with
    | false => exact h ⟨some st, rs, r, b, false⟩
    | true => exact h ⟨some st, some (.ofRows (D.rows st.sql st.parameters)), r, b, false⟩

end Alike

/-- `GetResult` reads the one that is set. -/
lemma getResult_congr {f g : Bool × QueryDatabase → Action α}
    (h : ∀ found, ∀ db : QueryDatabase,
      f (found, db.withExecuteResult b) = g (found, db.withExecuteResult c)) :
    ((db.withExecuteResult b).getResult D >>= f) =
      ((db.withExecuteResult c).getResult D >>= g) := by
  obtain ⟨st, _ | rs, r, _, _⟩ := db
  · rfl
  · simp only [getResult, withExecuteResult, Bool.false_eq_true, if_false, orStop_some_bind,
      Program.bind_assoc, Program.pure_bind]
    refine bind_congr fun _ => ?_
    split_ifs
    · exact h true ⟨st, none, some rs.next.2, b, false⟩
    · exact h false ⟨st, some rs.next.2, r, b, false⟩

end Flags

/-- A statement that is executed, and what `GetResult` does then. -/
lemma events_executeQuery_getResult :
    (do let db ← executeQuery D ⟨some st, rs, r, b, b'⟩; db.getResult D : Action _).events n =
      [.executeQuery st.sql st.parameters] := by
  rw [Program.events_bind_of_returns _ (returns_executeQuery.mpr ⟨rfl, rfl⟩), events_getResult,
    List.append_nil]
  rfl

end QueryDatabase

end SteerStone
