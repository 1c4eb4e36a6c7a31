import PristonTale.Database.QueryDatabase
import PristonTale.Foundations.Transition

set_option relaxedAutoImplicit false
set_option autoImplicit false

/-!
# The life of a query object

The calls of one `QueryDatabase` in any order, with any call of the driver throwing. `ExecuteQuery`
and `DirectExecuteQuery` swallow exceptions, the flag `m_IsExecuteResult` says which of two members
`GetResult` looks at, and a result set is moved away when its first row is fetched. Beside the
object the system keeps which query each of the two members is from, and the history of the calls;
nothing in the code reads this.

## Main definitions

* `SteerStone.QueryCall`, `SteerStone.Querying`, `SteerStone.querySystem` — the calls and their
  runs.
* `SteerStone.CallRecord`, `SteerStone.asksDirect`, `SteerStone.directOutcome`,
  `SteerStone.rowsWaiting` — what can be read off the history of the calls.
* `SteerStone.GetsLatest` — `GetResult` does not fault, and returns true for the latest query only.
* `SteerStone.Ready`, `SteerStone.NothingLeft` — the latest query has an outcome to ask for; what
  an earlier one left has none.

## Main results

* `SteerStone.tracked_step` — the members are from the latest query exactly when it is the kind
  they are for, and succeeded.
* `SteerStone.recorded_step` — the members are what the history says.
* `SteerStone.getsLatest_iff` — one call of `GetResult`.
* `SteerStone.query_protocol_iff` — runs, exactly.

## Implementation notes

* An exception that a call does not catch goes to the caller, who may go on with the object. The
  calls that let one out make no other call of the driver, and assign nothing before it.
* A fault ends the run: there is no state after it.
-/

namespace SteerStone

open Foundations

/-- The calls of a query object. -/
inductive QueryCall where
  | directExecuteQuery (sql : String)
  | prepareQuery (sql : String)
  | executeQuery
  | clearParameters
  | getResult
  deriving DecidableEq, Repr

/-- What became of the latest query. -/
inductive Latest where
  /-- There is none yet. -/
  | none
  /-- `DirectExecuteQuery` executed it. -/
  | directExecuted
  /-- `ExecuteQuery` executed it. -/
  | executed
  /-- Its execution threw. -/
  | failed
  /-- `ExecuteQuery` executed it, and `GetResult` has fetched its first row. -/
  | fetched
  deriving DecidableEq, Repr

/-- A call that has returned, with what became of it. A call that lets an exception out leaves the
object as it was. -/
inductive CallRecord where
  /-- `DirectExecuteQuery`, with what `Statement::execute` returned, unless it threw. -/
  | directExecuteQuery (result : Option Bool)
  /-- `PrepareQuery` or `ClearParameters`. -/
  | prepared
  /-- `ExecuteQuery`, with the rows selected, unless the execution threw. -/
  | executeQuery (rows : Option (List Row))
  /-- `GetResult`, with what it returned. -/
  | getResult (found : Bool)

/-- Whether `GetResult` is to answer for a `DirectExecuteQuery`, by the calls that have returned,
the latest first; `initial` is what the flag started with. -/
def asksDirect (initial : Bool) : List CallRecord → Bool
  | [] => initial
  | .directExecuteQuery result :: _ => result.isSome
  | .prepared :: _ => false
  | _ :: earlier => asksDirect initial earlier

/-- What the latest `DirectExecuteQuery` that did not throw has returned. -/
def directOutcome (initial : Bool) : List CallRecord → Bool
  | [] => initial
  | .directExecuteQuery (some result) :: _ => result
  | _ :: earlier => directOutcome initial earlier

/-- The rows selected by the latest `ExecuteQuery` that did not throw, unless its first row has been
fetched since. -/
def rowsWaiting (initial : Bool) : List CallRecord → Option (List Row)
  | [] => none
  | .executeQuery (some rows) :: _ => some rows
  | .getResult true :: earlier =>
    if asksDirect initial earlier then rowsWaiting initial earlier else none
  | _ :: earlier => rowsWaiting initial earlier

/-- A query object in use. -/
structure Querying where
  /-- The object. -/
  db : QueryDatabase
  /-- The number of calls of the driver. -/
  calls : ℕ
  /-- The number of queries: calls of `DirectExecuteQuery` and of `ExecuteQuery`. -/
  queries : ℕ
  /-- What became of the latest query. -/
  latest : Latest
  /-- The query that `m_ExecuteResult` is from. -/
  executeResultFrom : Option ℕ
  /-- The query that `m_ResultSet` was assigned from. -/
  resultSetFrom : Option ℕ
  /-- The calls that have returned, the latest first. -/
  history : List CallRecord

namespace Querying

/-- A new object; its flags are not initialised. -/
def new (executeResult isExecuteResult : Bool) : Querying :=
  ⟨⟨none, none, none, executeResult, isExecuteResult⟩, 0, 0, .none, none, none, []⟩

/-- The object after a call, whose value decides what is kept beside it. -/
def after {α : Type} (s : Querying) (p : Action α) (next : α → Querying) : Option Querying :=
  match (p.run s.calls).2 with
  | .ok (a, n) => some { next a with calls := n }
  | .error .sqlException => some { s with calls := s.calls + 1 }
  | .error .fault => none

end Querying

variable (D : Driver) (execute : String → Bool)

/-- The calls of a query object, one after the other. -/
def querySystem : Transition Querying QueryCall where
  step s
    | .directExecuteQuery sql => s.after (s.db.directExecuteQuery D execute sql) fun db =>
      { s with
        db := db
        queries := s.queries + 1
        latest := if db.isExecuteResult then .directExecuted else .failed
        executeResultFrom :=
          if db.isExecuteResult then some (s.queries + 1) else s.executeResultFrom
        history := .directExecuteQuery (if db.isExecuteResult then some (execute sql) else none) ::
          s.history }
    | .prepareQuery sql => s.after (s.db.prepareQuery D sql) fun db =>
      { s with db := db, history := .prepared :: s.history }
    | .executeQuery => s.after (s.db.executeQuery D) fun db =>
      { s with
        db := db
        queries := s.queries + 1
        latest := if D.throws s.calls then .failed else .executed
        resultSetFrom := if D.throws s.calls then s.resultSetFrom else some (s.queries + 1)
        history := .executeQuery (if D.throws s.calls then none else
          db.resultSet.map ResultSet.rest) :: s.history }
    | .clearParameters => s.after (s.db.clearParameters D) fun db =>
      { s with db := db, history := .prepared :: s.history }
    | .getResult => s.after (s.db.getResult D) fun x =>
      { s with
        db := x.2
        latest := if x.1 = true ∧ s.db.isExecuteResult = false ∧ s.latest = .executed
          then .fetched else s.latest
        history := .getResult x.1 :: s.history }

/-- The query that `GetResult` answers for. -/
def Querying.answering (s : Querying) : Option ℕ :=
  if s.db.isExecuteResult then s.executeResultFrom else s.resultSetFrom

/-- `GetResult` dereferences no null pointer, and returns true for the latest query only. -/
structure GetsLatest (s : Querying) : Prop where
  /-- It does not fault. -/
  no_fault : ((s.db.getResult D).run s.calls).2 ≠ .error .fault
  /-- It returns true for the latest query only. -/
  latest : ∀ db n, (s.db.getResult D).Returns s.calls (true, db) n →
    s.answering = some s.queries

/-- The latest query succeeded, no row of it was fetched, and it is the kind that `GetResult` is to
answer for. -/
def Ready (initial : Bool) (s : Querying) : Prop :=
  match s.latest with
  | .directExecuted => asksDirect initial s.history = true
  | .executed => asksDirect initial s.history = false
  | _ => False

/-- Of the kind that `GetResult` is to answer for there is no outcome to return: the latest
`DirectExecuteQuery` that did not throw has returned false, or the latest such `ExecuteQuery` has
selected no row and none was fetched, or `GetResult` throws. -/
def NothingLeft (executeResult initial : Bool) (s : Querying) : Prop :=
  if asksDirect initial s.history then directOutcome executeResult s.history = false
  else ∃ rows, rowsWaiting initial s.history = some rows ∧ (rows = [] ∨ D.throws s.calls = true)

variable {D execute} {s s' : Querying}

/-! ## One call -/

/-- A call returns, or throws and leaves the object as it was. -/
lemma Querying.after_eq_some {α : Type} {p : Action α} {next : α → Querying}
    (h : s.after p next = some s') :
    (∃ a n, p.Returns s.calls a n ∧ s' = { next a with calls := n }) ∨
      s' = { s with calls := s.calls + 1 } := by
  unfold Querying.after at h
  rcases hp : (p.run s.calls).2 with x | ⟨a, n⟩
  · rw [hp] at h
    cases x with
    | sqlException => exact .inr (Option.some.inj h).symm
    | fault => cases h
  · rw [hp] at h
    exact .inl ⟨a, n, hp, (Option.some.inj h).symm⟩

/-- What `GetResult` does: it returns the flag's member, or asks the result set there is. -/
lemma run_getResult (D : Driver) (db : QueryDatabase) (n : ℕ) : ((db.getResult D).run n).2 =
    if db.isExecuteResult = true then .ok ((db.executeResult, db), n)
    else match db.resultSet with
      | none => .error .fault
      | some rs => if D.throws n = true then .error .sqlException
        else .ok (if rs.next.1 = true then
            (true, { db with result := some rs.next.2, resultSet := none })
          else (false, { db with resultSet := some rs.next.2 }), n + 1) := by
  obtain ⟨st, rs, r, b, b'⟩ := db
  cases b' with
  | true => rfl
  | false =>
    cases rs with
    | none => rfl
    | some rs =>
      show ((Driver.call D >>= _ : Action _).run n).2 = _
      cases hthrows : D.throws n with
      | true => simp [Driver.call, hthrows, bind, Program.andThen]
      | false => simp [Driver.call, hthrows, bind, Program.andThen, pure]

/-- Whether a result set has a row left. -/
lemma next_eq_true {rs : ResultSet} : rs.next.1 = true ↔ rs.rest ≠ [] := by
  unfold ResultSet.next
  cases rs.rest <;> simp

/-- `GetResult` faults if the flag selects a result set and there is none. -/
lemma getResult_ne_fault_iff {db : QueryDatabase} {n : ℕ} :
    ((db.getResult D).run n).2 ≠ .error .fault ↔
      (db.isExecuteResult = false → ∃ rs, db.resultSet = some rs) := by
  rw [run_getResult]
  cases hflag : db.isExecuteResult with
  | true => simp
  | false =>
    cases hrs : db.resultSet with
    | none => simp
    | some rs =>
      rw [if_neg Bool.false_ne_true]
      dsimp only
      split <;> simp

/-- `GetResult` returns true for the member `m_ExecuteResult`, or for a row that is left. -/
lemma exists_getResult_true_iff {db : QueryDatabase} {n : ℕ} :
    (∃ db' m, (db.getResult D).Returns n (true, db') m) ↔
      if db.isExecuteResult = true then db.executeResult = true
      else ∃ rs, db.resultSet = some rs ∧ D.throws n = false ∧ rs.rest ≠ [] := by
  simp only [Program.Returns, run_getResult]
  cases hflag : db.isExecuteResult with
  | true => simp
  | false =>
    cases hrs : db.resultSet with
    | none => simp
    | some rs =>
      rw [if_neg Bool.false_ne_true, if_neg Bool.false_ne_true]
      simp only [Option.some.injEq, exists_eq_left', ← next_eq_true]
      cases D.throws n with
      | true => simp
      | false => cases hnext : rs.next.1 <;> simp

/-- **When `GetResult` is right**, by the members it looks at: `m_ExecuteResult` is false or from
the latest query, or there is a result set and it is from the latest query if it has a row. -/
theorem getsLatest_iff : GetsLatest D s ↔
    if s.db.isExecuteResult = true then
      s.db.executeResult = true → s.executeResultFrom = some s.queries
    else ∃ rs, s.db.resultSet = some rs ∧
      (D.throws s.calls = false → rs.rest ≠ [] → s.resultSetFrom = some s.queries) := by
  have hsplit : GetsLatest D s ↔ ((s.db.getResult D).run s.calls).2 ≠ .error .fault ∧
      ((∃ db n, (s.db.getResult D).Returns s.calls (true, db) n) →
        s.answering = some s.queries) :=
    ⟨fun h => ⟨h.no_fault, fun ⟨db, n, hret⟩ => h.latest db n hret⟩,
      fun h => ⟨h.1, fun db n hret => h.2 ⟨db, n, hret⟩⟩⟩
  rw [hsplit, getResult_ne_fault_iff, exists_getResult_true_iff, Querying.answering]
  cases hflag : s.db.isExecuteResult with
  | true => simp
  | false =>
    rw [if_neg Bool.false_ne_true, if_neg Bool.false_ne_true, if_neg Bool.false_ne_true]
    constructor
    · rintro ⟨hrs, hlatest⟩
      obtain ⟨rs, hrs⟩ := hrs rfl
      exact ⟨rs, hrs, fun hthrows hrest => hlatest ⟨rs, hrs, hthrows, hrest⟩⟩
    · rintro ⟨rs, hrs, hlatest⟩
      refine ⟨fun _ => ⟨rs, hrs⟩, ?_⟩
      rintro ⟨rs', hrs', hthrows, hrest⟩
      obtain rfl : rs = rs' := Option.some.inj (hrs.symm.trans hrs')
      exact hlatest hthrows hrest

/-! ## Which query the members are from -/

/-- The members are from the latest query exactly when it succeeded and is of the kind they are
for. -/
structure Tracked (s : Querying) : Prop where
  /-- `m_ExecuteResult` is from some query, if from any. -/
  executeResult_le : ∀ q, s.executeResultFrom = some q → q ≤ s.queries
  /-- `m_ResultSet` is from some query, if from any. -/
  resultSet_le : ∀ q, s.resultSetFrom = some q → q ≤ s.queries
  /-- `m_ExecuteResult` is from the latest query. -/
  executeResult : s.executeResultFrom = some s.queries ↔ s.latest = .directExecuted
  /-- `m_ResultSet`, if there is one, is from the latest query. -/
  resultSet : s.db.resultSet ≠ none →
    (s.resultSetFrom = some s.queries ↔ s.latest = .executed)
  /-- The result set of the latest query is there until its first row is fetched. -/
  present : s.latest = .executed → s.db.resultSet ≠ none

/-- Nothing is from any query yet. -/
lemma tracked_new (executeResult isExecuteResult : Bool) :
    Tracked (.new executeResult isExecuteResult) := by
  refine ⟨?_, ?_, ?_, ?_, ?_⟩ <;> simp [Querying.new]

/-- Which query the members are from does not depend on the number of calls of the driver, nor on
the history. -/
lemma Tracked.beside (hI : Tracked s) (n : ℕ) (history : List CallRecord) :
    Tracked { s with calls := n, history := history } :=
  ⟨hI.executeResult_le, hI.resultSet_le, hI.executeResult, hI.resultSet, hI.present⟩

/-- A query of an earlier number is not the next one. -/
lemma ne_succ_of_le {o : Option ℕ} {k : ℕ} (h : ∀ q, o = some q → q ≤ k) : o ≠ some (k + 1) := by
  intro ho
  have hle := h _ ho
  omega

/-- After `DirectExecuteQuery`. -/
lemma tracked_directExecuteQuery {sql : String} {db : QueryDatabase} {n : ℕ} (hI : Tracked s)
    (h : (s.db.directExecuteQuery D execute sql).Returns s.calls db n) :
    Tracked { s with
      db := db
      queries := s.queries + 1
      latest := if db.isExecuteResult then .directExecuted else .failed
      executeResultFrom :=
        if db.isExecuteResult then some (s.queries + 1) else s.executeResultFrom } := by
  have hrows : s.resultSetFrom ≠ some (s.queries + 1) := ne_succ_of_le hI.resultSet_le
  have hdirect : s.executeResultFrom ≠ some (s.queries + 1) := ne_succ_of_le hI.executeResult_le
  have hle : ∀ q, s.resultSetFrom = some q → q ≤ s.queries + 1 := fun q hq =>
    Nat.le_succ_of_le (hI.resultSet_le q hq)
  have hle' : ∀ q, s.executeResultFrom = some q → q ≤ s.queries + 1 := fun q hq =>
    Nat.le_succ_of_le (hI.executeResult_le q hq)
  rw [QueryDatabase.returns_directExecuteQuery] at h
  by_cases hquiet : D.throws s.calls = false ∧ D.throws (s.calls + 1) = false
  · rw [if_pos hquiet] at h
    obtain ⟨rfl, -⟩ := h
    exact ⟨by simp, hle, by simp, by simp [hrows], by simp⟩
  · rw [if_neg hquiet] at h
    obtain ⟨rfl, -⟩ := h
    exact ⟨by simpa using hle', hle, by simp [hdirect], by simp [hrows], by simp⟩

/-- A query object with a prepared statement. -/
lemma eq_of_preparedStatement {db : QueryDatabase} {st : PreparedStatement}
    (h : db.preparedStatement = some st) :
    db = ⟨some st, db.resultSet, db.result, db.executeResult, db.isExecuteResult⟩ := by rw [← h]

/-- `ExecuteQuery` returns if a statement was prepared. -/
lemma exists_preparedStatement_executeQuery {db db' : QueryDatabase} {n m : ℕ}
    (h : (db.executeQuery D).Returns n db' m) : ∃ st, db.preparedStatement = some st := by
  cases hst : db.preparedStatement with
  | none => simp [QueryDatabase.executeQuery, hst] at h
  | some st => exact ⟨st, rfl⟩

/-- `ClearParameters` returns if a statement was prepared. -/
lemma exists_preparedStatement_clearParameters {db db' : QueryDatabase} {n m : ℕ}
    (h : (db.clearParameters D).Returns n db' m) : ∃ st, db.preparedStatement = some st := by
  cases hst : db.preparedStatement with
  | none => simp [QueryDatabase.clearParameters, hst] at h
  | some st => exact ⟨st, rfl⟩

/-- After `ExecuteQuery`. -/
lemma tracked_executeQuery {db : QueryDatabase} {n : ℕ} (hI : Tracked s)
    (h : (s.db.executeQuery D).Returns s.calls db n) :
    Tracked { s with
      db := db
      queries := s.queries + 1
      latest := if D.throws s.calls then .failed else .executed
      resultSetFrom := if D.throws s.calls then s.resultSetFrom else some (s.queries + 1) } := by
  have hrows : s.resultSetFrom ≠ some (s.queries + 1) := ne_succ_of_le hI.resultSet_le
  have hdirect : s.executeResultFrom ≠ some (s.queries + 1) := ne_succ_of_le hI.executeResult_le
  have hle : ∀ q, s.resultSetFrom = some q → q ≤ s.queries + 1 := fun q hq =>
    Nat.le_succ_of_le (hI.resultSet_le q hq)
  have hle' : ∀ q, s.executeResultFrom = some q → q ≤ s.queries + 1 := fun q hq =>
    Nat.le_succ_of_le (hI.executeResult_le q hq)
  obtain ⟨st, hst⟩ := exists_preparedStatement_executeQuery h
  rw [eq_of_preparedStatement hst, QueryDatabase.returns_executeQuery] at h
  obtain ⟨rfl, -⟩ := h
  cases hthrows : D.throws s.calls with
  | true => exact ⟨hle', by simpa using hle, by simp [hdirect], by simp [hrows], by simp⟩
  | false => exact ⟨hle', by simp, by simp [hdirect], by simp, by simp⟩

/-- After a call that assigns neither of the two members. -/
lemma tracked_of_same {db : QueryDatabase} (hI : Tracked s) (h : db.resultSet = s.db.resultSet) :
    Tracked { s with db := db } :=
  ⟨hI.executeResult_le, hI.resultSet_le, hI.executeResult, by simpa [h] using hI.resultSet,
    by simpa [h] using hI.present⟩

/-- After `GetResult`. -/
lemma tracked_getResult {x : Bool × QueryDatabase} {n : ℕ} (hI : Tracked s)
    (h : (s.db.getResult D).Returns s.calls x n) :
    Tracked { s with
      db := x.2
      latest := if x.1 = true ∧ s.db.isExecuteResult = false ∧ s.latest = .executed
        then .fetched else s.latest } := by
  rw [Program.Returns, run_getResult] at h
  cases hflag : s.db.isExecuteResult with
  | true =>
    rw [hflag, if_pos rfl] at h
    obtain rfl : (s.db.executeResult, s.db) = x := congrArg Prod.fst (Except.ok.inj h)
    simpa [hflag] using hI
  | false =>
    rw [hflag, if_neg Bool.false_ne_true] at h
    cases hrs : s.db.resultSet with
    | none => simp [hrs] at h
    | some rs =>
      simp only [hrs] at h
      have hsome : s.resultSetFrom = some s.queries ↔ s.latest = .executed :=
        hI.resultSet (by simp [hrs])
      split_ifs at h with hthrows hnext
      · obtain rfl := congrArg Prod.fst (Except.ok.inj h)
        by_cases hlatest : s.latest = .executed
        · have hdirect : s.executeResultFrom ≠ some s.queries := by simp [hI.executeResult, hlatest]
          exact ⟨hI.executeResult_le, hI.resultSet_le, by simp [hlatest, hdirect], by simp,
            by simp [hlatest]⟩
        · exact ⟨hI.executeResult_le, hI.resultSet_le, by simpa [hlatest] using hI.executeResult,
            by simp, by simp [hlatest]⟩
      · obtain rfl := congrArg Prod.fst (Except.ok.inj h)
        exact ⟨hI.executeResult_le, hI.resultSet_le, by simpa using hI.executeResult,
          by simpa using hsome, by simp⟩

/-- **Every call keeps track**: of each member it is known which query it is from. -/
theorem tracked_step (s : Querying) (call : QueryCall) (s' : Querying) (hI : Tracked s)
    (h : (querySystem D execute).step s call = some s') : Tracked s' := by
  cases call with
  | directExecuteQuery sql =>
    rcases Querying.after_eq_some h with ⟨db, n, hret, rfl⟩ | rfl
    · exact (tracked_directExecuteQuery hI hret).beside n _
    · exact hI.beside _ _
  | prepareQuery sql =>
    rcases Querying.after_eq_some h with ⟨db, n, hret, rfl⟩ | rfl
    · rw [QueryDatabase.returns_prepareQuery] at hret
      exact (tracked_of_same hI (by rw [hret.2.1])).beside n _
    · exact hI.beside _ _
  | executeQuery =>
    rcases Querying.after_eq_some h with ⟨db, n, hret, rfl⟩ | rfl
    · exact (tracked_executeQuery hI hret).beside n _
    · exact hI.beside _ _
  | clearParameters =>
    rcases Querying.after_eq_some h with ⟨db, n, hret, rfl⟩ | rfl
    · have hsame : db.resultSet = s.db.resultSet := by
        obtain ⟨st, hst⟩ := exists_preparedStatement_clearParameters hret
        rw [eq_of_preparedStatement hst, QueryDatabase.returns_clearParameters] at hret
        rw [hret.2.1]
      exact (tracked_of_same hI hsame).beside n _
    · exact hI.beside _ _
  | getResult =>
    rcases Querying.after_eq_some h with ⟨x, n, hret, rfl⟩ | rfl
    · exact (tracked_getResult hI hret).beside n _
    · exact hI.beside _ _

/-! ## What the history says -/

/-- The members are what the history says. -/
structure Recorded (executeResult initial : Bool) (s : Querying) : Prop where
  /-- The flag says which kind of query is to be answered for. -/
  isExecuteResult : s.db.isExecuteResult = asksDirect initial s.history
  /-- `m_ExecuteResult` is the outcome of a `DirectExecuteQuery`. -/
  executeResult : s.db.executeResult = directOutcome executeResult s.history
  /-- `m_ResultSet` has the rows that an `ExecuteQuery` has selected. -/
  resultSet : s.db.resultSet.map ResultSet.rest = rowsWaiting initial s.history

/-- The history does not depend on the number of calls of the driver. -/
lemma Recorded.withCalls {b b' : Bool} (hR : Recorded b b' s) (n : ℕ) :
    Recorded b b' { s with calls := n } :=
  ⟨hR.isExecuteResult, hR.executeResult, hR.resultSet⟩

/-- After `GetResult`: a row it has fetched takes the result set with it. -/
lemma recorded_getResult {b b' : Bool} (hR : Recorded b b' s) {x : Bool × QueryDatabase} {m : ℕ}
    (h : (s.db.getResult D).Returns s.calls x m) (n : ℕ) {latest : Latest} :
    Recorded b b' { s with
      db := x.2, latest := latest, calls := n, history := .getResult x.1 :: s.history } := by
  obtain ⟨hflag, houtcome, hrows⟩ := hR
  rw [Program.Returns, run_getResult] at h
  cases hb : s.db.isExecuteResult with
  | true =>
    rw [hb, if_pos rfl] at h
    obtain rfl := congrArg Prod.fst (Except.ok.inj h)
    refine ⟨hflag, houtcome, ?_⟩
    cases hx : s.db.executeResult <;> simp [rowsWaiting, ← hflag, hb, hrows]
  | false =>
    rw [hb, if_neg Bool.false_ne_true] at h
    cases hrs : s.db.resultSet with
    | none => simp [hrs] at h
    | some rs =>
      simp only [hrs] at h
      split_ifs at h with hthrows hnext
      · obtain rfl := congrArg Prod.fst (Except.ok.inj h)
        exact ⟨hb.symm.trans hflag, houtcome, by simp [rowsWaiting, ← hflag, hb]⟩
      · obtain rfl := congrArg Prod.fst (Except.ok.inj h)
        refine ⟨hb.symm.trans hflag, houtcome, ?_⟩
        rw [next_eq_true, not_not] at hnext
        rw [hrs] at hrows
        simpa [rowsWaiting, ResultSet.next, hnext] using hrows

/-- **Every call is recorded.**

**Proof sketch.** By the call: what it assigns, if it returns, is what the functions of the history
make of its record. `GetResult` is `recorded_getResult`. -/
theorem recorded_step {b b' : Bool} (s : Querying) (call : QueryCall) (s' : Querying)
    (hR : Recorded b b' s) (h : (querySystem D execute).step s call = some s') :
    Recorded b b' s' := by
  obtain ⟨hflag, houtcome, hrows⟩ := hR
  cases call with
  | directExecuteQuery sql =>
    rcases Querying.after_eq_some h with ⟨db, n, hret, rfl⟩ | rfl
    · rw [QueryDatabase.returns_directExecuteQuery] at hret
      by_cases hquiet : D.throws s.calls = false ∧ D.throws (s.calls + 1) = false
      · rw [if_pos hquiet] at hret
        obtain ⟨rfl, -⟩ := hret
        exact ⟨rfl, rfl, hrows⟩
      · rw [if_neg hquiet] at hret
        obtain ⟨rfl, -⟩ := hret
        exact ⟨rfl, houtcome, hrows⟩
    · exact Recorded.withCalls ⟨hflag, houtcome, hrows⟩ _
  | prepareQuery sql =>
    rcases Querying.after_eq_some h with ⟨db, n, hret, rfl⟩ | rfl
    · rw [QueryDatabase.returns_prepareQuery] at hret
      obtain ⟨-, rfl, -⟩ := hret
      exact ⟨rfl, houtcome, hrows⟩
    · exact Recorded.withCalls ⟨hflag, houtcome, hrows⟩ _
  | executeQuery =>
    rcases Querying.after_eq_some h with ⟨db, n, hret, rfl⟩ | rfl
    · obtain ⟨st, hst⟩ := exists_preparedStatement_executeQuery hret
      rw [eq_of_preparedStatement hst, QueryDatabase.returns_executeQuery] at hret
      obtain ⟨rfl, -⟩ := hret
      cases hthrows : D.throws s.calls with
      | true => exact ⟨hflag, houtcome, by simpa [hthrows, rowsWaiting] using hrows⟩
      | false => exact ⟨hflag, houtcome, by simp [rowsWaiting]⟩
    · exact Recorded.withCalls ⟨hflag, houtcome, hrows⟩ _
  | clearParameters =>
    rcases Querying.after_eq_some h with ⟨db, n, hret, rfl⟩ | rfl
    · obtain ⟨st, hst⟩ := exists_preparedStatement_clearParameters hret
      rw [eq_of_preparedStatement hst, QueryDatabase.returns_clearParameters] at hret
      obtain ⟨-, rfl, -⟩ := hret
      exact ⟨rfl, houtcome, hrows⟩
    · exact Recorded.withCalls ⟨hflag, houtcome, hrows⟩ _
  | getResult =>
    rcases Querying.after_eq_some h with ⟨x, n, hret, rfl⟩ | rfl
    · exact recorded_getResult ⟨hflag, houtcome, hrows⟩ hret n
    · exact Recorded.withCalls ⟨hflag, houtcome, hrows⟩ _

/-! ## Runs -/

/-- **One call of `GetResult`** is right exactly when the latest query is there to be asked, or
nothing is left to return.

**Proof sketch.** By the flag. The members are what the history says (`Recorded`), and they are from
the latest query exactly when it succeeded and is of their kind (`Tracked`). -/
theorem getsLatest_iff_ready {b b' : Bool} (hI : Tracked s) (hR : Recorded b b' s) :
    GetsLatest D s ↔ Ready b' s ∨ NothingLeft D b b' s := by
  rw [getsLatest_iff, hI.executeResult, NothingLeft, ← hR.isExecuteResult, ← hR.executeResult]
  cases hflag : s.db.isExecuteResult with
  | true =>
    have hready : Ready b' s ↔ s.latest = .directExecuted := by
      unfold Ready
      cases s.latest <;> simp [← hR.isExecuteResult, hflag]
    simp only [if_true, hready]
    cases s.db.executeResult <;> simp
  | false =>
    have hready : Ready b' s ↔ s.latest = .executed := by
      unfold Ready
      cases s.latest <;> simp [← hR.isExecuteResult, hflag]
    simp only [Bool.false_eq_true, if_false, hready, ← hR.resultSet, Option.map_eq_some_iff]
    constructor
    · rintro ⟨rs, hrs, h⟩
      by_cases hlatest : s.latest = .executed
      · exact .inl hlatest
      · refine .inr ⟨rs.rest, ⟨rs, hrs, rfl⟩, ?_⟩
        by_contra hleft
        rw [not_or, Bool.not_eq_true] at hleft
        exact hlatest ((hI.resultSet (by simp [hrs])).mp (h hleft.2 hleft.1))
    · rintro (hlatest | ⟨_, ⟨rs, hrs, rfl⟩, hleft⟩)
      · obtain ⟨rs, hrs⟩ := Option.ne_none_iff_exists'.mp (hI.present hlatest)
        refine ⟨rs, hrs, ?_⟩
        intro _ _
        exact (hI.resultSet (by simp [hrs])).mpr hlatest
      · refine ⟨rs, hrs, ?_⟩
        intro hthrows hrest
        rcases hleft with hnil | hcall
        · exact absurd hnil hrest
        · rw [hthrows] at hcall
          cases hcall

/-- **The protocol of a query object, exactly.** In every sequence of calls on a new object, with
any call of the driver throwing: no `GetResult` dereferences a null result set, and each returns
true for the latest query only, if and only if each is made when the latest query succeeded, no row
of it was fetched and it is of the kind that is answered for, or when nothing is left to return.

**Proof sketch.** The members are tracked along the run (`tracked_step`) and are what the history
says (`recorded_step`), and `GetResult` is right in such a state exactly then
(`getsLatest_iff_ready`). -/
theorem query_protocol_iff (D : Driver) (execute : String → Bool)
    (executeResult isExecuteResult : Bool) (calls : List QueryCall) :
    (querySystem D execute).Along (fun s call => call = .getResult → GetsLatest D s)
        (.new executeResult isExecuteResult) calls ↔
      (querySystem D execute).Along
        (fun s call => call = .getResult →
          Ready isExecuteResult s ∨ NothingLeft D executeResult isExecuteResult s)
        (.new executeResult isExecuteResult) calls :=
  (querySystem D execute).along_iff_along
    (I := fun s => Tracked s ∧ Recorded executeResult isExecuteResult s)
    (fun s call s' hI _ hstep =>
      ⟨tracked_step s call s' hI.1 hstep, recorded_step s call s' hI.2 hstep⟩)
    (fun _ _ hI => imp_congr_right fun _ => getsLatest_iff_ready hI.1 hI.2)
    ⟨tracked_new _ _, rfl, rfl, rfl⟩ calls

/-- A driver that throws in one of its calls, and selects one row. -/
def throwsAt (n : ℕ) : Driver where
  throws k := k == n
  rows _ _ := [⟨fun _ => [], fun _ => 0⟩]

/-- A query whose execution throws leaves no result set to ask, and a second one the result set of
the first. -/
theorem query_protocol_fails :
    ¬ (querySystem (throwsAt 1) fun _ => true).Along
        (fun s call => call = .getResult → GetsLatest (throwsAt 1) s) (.new false false)
        [.prepareQuery "SELECT 1", .executeQuery, .getResult] ∧
      ¬ (querySystem (throwsAt 3) fun _ => true).Along
        (fun s call => call = .getResult → GetsLatest (throwsAt 3) s) (.new false false)
        [.prepareQuery "SELECT 1", .executeQuery, .prepareQuery "SELECT 1", .executeQuery,
          .getResult] := by
  constructor
  · intro h
    exact ((h.2 _ rfl).2 _ rfl).1 rfl |>.no_fault rfl
  · intro h
    have hlast := ((((h.2 _ rfl).2 _ rfl).2 _ rfl).2 _ rfl).1 rfl
    exact absurd (hlast.latest _ _ rfl) (by decide)

end SteerStone
