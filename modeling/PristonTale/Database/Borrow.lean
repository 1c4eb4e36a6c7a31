import PristonTale.Database.ConnectionPool

set_option relaxedAutoImplicit false
set_option autoImplicit false

/-!
# The branches of `Borrow`

`ConnectionPool::Borrow` branch by branch, in a build with assertions compiled out, which is the
default: `RelWithDebInfo`. Where `CreateDatabase` throws, `assert(false)` does nothing, so the loop
goes on with the next borrowed connection, and after the loop control reaches the path for a pool
that is not empty.

## Main definitions

* `SteerStone.ConnectionPool.reclaim` — the loop over `m_BorrowedPool`.
* `SteerStone.ConnectionPool.borrowOutcome` — `Borrow`, with the branch it takes.
* `SteerStone.BorrowSafe` — a database failure is signalled and leaves the pool as it was.
* `SteerStone.Abandoned`, `SteerStone.Reclaims` — a borrowed connection that nobody holds; the
  branch that replaces one.

## Main results

* `SteerStone.reclaim_eq` — the loop replaces nothing.
* `SteerStone.borrow_eq_connection` — the branches are those of `ConnectionPool.borrow`.
* `SteerStone.borrowSafe_iff` — `Borrow` is safe exactly when no failure meets an empty pool.
* `SteerStone.reclaims_never` — an abandoned connection is never replaced.
-/

namespace SteerStone

open Foundations

/-- What a call of `Borrow` comes to. -/
inductive BorrowOutcome where
  /-- It returns a connection, which it may have created to replace one that was borrowed. -/
  | returned (connection : Connection) (replaced : Option Connection) (pool : ConnectionPool)
  /-- An exception leaves it. -/
  | threw (pool : ConnectionPool)
  /-- It calls `m_Pool.front()` and `m_Pool.pop_front()` on an empty deque. -/
  | frontOfEmpty (pool : ConnectionPool)

namespace ConnectionPool

/-- The loop of `Borrow` over the borrowed connections of a list, with `m_MySQLConnection` as it is
by then: the connection created for the first unique one for which `CreateDatabase` does not throw,
and that one; or `m_MySQLConnection` after the loop. -/
def reclaim (driver : SqlDriver) (elsewhere : List Connection) (p : ConnectionPool) :
    List Connection → MySQLConnection → Except MySQLConnection
      (Connection × Connection × MySQLConnection)
  | [], m => .error m
  | l :: rest, m =>
    -- `l` itself is the local copy `l_Connection`
    if Unique (l :: { p with mySQLConnection := m }.references elsewhere) l then
      match m.createDatabase driver with
      | (some c, m') => .ok (c, l, m')
      | (none, m') => reclaim driver elsewhere p rest m'
    else reclaim driver elsewhere p rest m

/-- `Borrow`, with the references held outside of the pool. -/
def borrowOutcome (driver : SqlDriver) (elsewhere : List Connection) (p : ConnectionPool) :
    BorrowOutcome :=
  match p.pool with
  | [] =>
    match reclaim driver elsewhere p p.borrowedPool p.mySQLConnection with
    | .ok (c, l, m) =>
      .returned c (some l)
        { p with mySQLConnection := m, borrowedPool := (p.borrowedPool.erase l).insert c }
    | .error m =>
      match m.createDatabase driver with
      | (some c, m') =>
        .returned c none { p with mySQLConnection := m', borrowedPool := p.borrowedPool.insert c }
      | (none, m') => .frontOfEmpty { p with mySQLConnection := m' }
  | c :: rest =>
    .returned c none { p with pool := rest, borrowedPool := p.borrowedPool.insert c }

end ConnectionPool

/-- The connection that is returned, with the pool then. -/
def BorrowOutcome.connection : BorrowOutcome → Option (Connection × ConnectionPool)
  | .returned c _ p => some (c, p)
  | .threw _ => none
  | .frontOfEmpty _ => none

variable (driver : SqlDriver) (elsewhere : List Connection) (p : ConnectionPool)

/-- `Borrow` leaves an empty deque alone, and if `CreateDatabase` throws while the deque is empty,
an exception leaves `Borrow` and the two containers are as they were. -/
structure BorrowSafe : Prop where
  /-- `front` and `pop_front` are called on a deque that is not empty. -/
  no_front : ∀ p', p.borrowOutcome driver elsewhere ≠ .frontOfEmpty p'
  /-- A failure is signalled. -/
  failure : p.pool = [] → (p.mySQLConnection.createDatabase driver).1 = none →
    ∃ p', p.borrowOutcome driver elsewhere = .threw p' ∧ p'.pool = p.pool ∧
      p'.borrowedPool = p.borrowedPool

/-- A borrowed connection that the pool alone refers to. -/
def Abandoned (l : Connection) : Prop := l ∈ p.borrowedPool ∧ l ∉ elsewhere

/-- `Borrow` replaces an abandoned connection, and there are no more connections then. -/
def Reclaims : Prop :=
  ∃ c l p', p.borrowOutcome driver elsewhere = .returned c (some l) p' ∧
    Abandoned elsewhere p l ∧
    p'.pool.length + p'.borrowedPool.length ≤ p.pool.length + p.borrowedPool.length

variable {driver elsewhere p}

/-! ## The branches -/

/-- **The loop replaces nothing**: each connection it tests has the reference of the set and that
of the local copy. -/
theorem reclaim_eq {ls : List Connection} (h : ∀ l ∈ ls, l ∈ p.borrowedPool)
    (m : MySQLConnection) : p.reclaim driver elsewhere ls m = .error m := by
  induction ls with
  | nil => rfl
  | cons l rest ih =>
    have hmem : l ∈ { p with mySQLConnection := m }.references elsewhere := by
      unfold ConnectionPool.references
      simp [h l List.mem_cons_self]
    rw [ConnectionPool.reclaim, if_neg (not_unique_of_copy hmem)]
    exact ih fun l' hl' => h l' (List.mem_cons_of_mem l hl')

/-- The outcome for an empty pool: a new connection, or the front of the empty deque. -/
lemma borrowOutcome_nil (h : p.pool = []) : p.borrowOutcome driver elsewhere =
    match p.mySQLConnection.createDatabase driver with
    | (some c, m) =>
      .returned c none { p with mySQLConnection := m, borrowedPool := p.borrowedPool.insert c }
    | (none, m) => .frontOfEmpty { p with mySQLConnection := m } := by
  rw [ConnectionPool.borrowOutcome, h, reclaim_eq fun _ hl => hl]

/-- The outcome for a pool that is not empty: its first connection. -/
lemma borrowOutcome_cons {c : Connection} {rest : List Connection} (h : p.pool = c :: rest) :
    p.borrowOutcome driver elsewhere =
      .returned c none { p with pool := rest, borrowedPool := p.borrowedPool.insert c } := by
  rw [ConnectionPool.borrowOutcome, h]

/-- **The connection borrowed** is that of `ConnectionPool.borrow`. -/
theorem borrow_eq_connection : p.borrow driver elsewhere =
    (p.borrowOutcome driver elsewhere).connection := by
  rw [borrow_eq]
  cases hp : p.pool with
  | nil =>
    rw [borrowOutcome_nil hp]
    rcases p.mySQLConnection.createDatabase driver with ⟨_ | c, m⟩
    · rfl
    · simp only [hp, BorrowOutcome.connection]
  | cons c rest =>
    rw [borrowOutcome_cons hp]
    rfl

/-! ## Failures of the database -/

/-- **Borrow under database failure, exactly**: it is safe unless `CreateDatabase` throws while the
deque is empty; then it calls `front` on it.

**Proof sketch.** By the deque: a connection that is free is returned (`borrowOutcome_cons`), and
without one all depends on `CreateDatabase` (`borrowOutcome_nil`). -/
theorem borrowSafe_iff (driver : SqlDriver) (elsewhere : List Connection) (p : ConnectionPool) :
    BorrowSafe driver elsewhere p ↔
      ¬ (p.pool = [] ∧ (p.mySQLConnection.createDatabase driver).1 = none) := by
  constructor
  · rintro hsafe ⟨hnil, hthrows⟩
    rcases hc : p.mySQLConnection.createDatabase driver with ⟨_ | c, m⟩
    · have hfront : p.borrowOutcome driver elsewhere = _ := borrowOutcome_nil hnil
      rw [hc] at hfront
      exact hsafe.no_front _ hfront
    · rw [hc] at hthrows
      cases hthrows
  · intro hnot
    refine ⟨?_, fun hnil hthrows => absurd ⟨hnil, hthrows⟩ hnot⟩
    intro p' hfront
    cases hp : p.pool with
    | nil =>
      rw [borrowOutcome_nil hp] at hfront
      rcases hc : p.mySQLConnection.createDatabase driver with ⟨_ | c, m⟩
      · exact hnot ⟨hp, by rw [hc]⟩
      · rw [hc] at hfront
        cases hfront
    | cons c rest =>
      rw [borrowOutcome_cons hp] at hfront
      cases hfront

/-- A driver that refuses every connection. -/
def SqlDriver.refusing : SqlDriver := ⟨fun _ _ _ _ => true, fun _ _ => false⟩

/-- The pool of one connection to a database, when a `QueryDatabase` has borrowed it. -/
def ConnectionPool.exhausted : ConnectionPool :=
  { ConnectionPool.single with pool := [], borrowedPool := [⟨0, true⟩] }

/-- The only connection is borrowed and the database is gone: `front` of the empty deque. -/
theorem borrowSafe_fails :
    (∃ p', ConnectionPool.exhausted.borrowOutcome .refusing [⟨0, true⟩] = .frontOfEmpty p') ∧
      ¬ BorrowSafe .refusing [⟨0, true⟩] .exhausted := by
  have hfront : ∃ p', ConnectionPool.exhausted.borrowOutcome .refusing [⟨0, true⟩] =
      .frontOfEmpty p' := ⟨_, rfl⟩
  obtain ⟨p', h⟩ := hfront
  exact ⟨⟨p', h⟩, fun hsafe => hsafe.no_front p' h⟩

/-! ## Abandoned connections -/

/-- **An abandoned connection is never replaced**: whatever the pool and the references are, no
connection is. When the pool is empty, a new connection is added to the borrowed ones.

**Proof sketch.** The loop over the borrowed connections ends without one (`reclaim_eq`). -/
theorem reclaims_never (driver : SqlDriver) (elsewhere : List Connection) (p : ConnectionPool) :
    ¬ Reclaims driver elsewhere p ∧
      (p.pool = [] → ∀ c m, p.mySQLConnection.createDatabase driver = (some c, m) →
        p.borrowOutcome driver elsewhere = .returned c none
          { p with mySQLConnection := m, borrowedPool := p.borrowedPool.insert c }) := by
  constructor
  · rintro ⟨c, l, p', houtcome, -, -⟩
    cases hp : p.pool with
    | nil =>
      rw [borrowOutcome_nil hp] at houtcome
      rcases hc : p.mySQLConnection.createDatabase driver with ⟨_ | c', m⟩
      · rw [hc] at houtcome
        cases houtcome
      · rw [hc] at houtcome
        cases houtcome
    | cons c' rest =>
      rw [borrowOutcome_cons hp] at houtcome
      cases houtcome
  · intro hp c m hc
    rw [borrowOutcome_nil hp, hc]

/-- A pool of two connections, both borrowed; `m_Connection` refers to the second. -/
def ConnectionPool.abandoned : ConnectionPool where
  mySQLConnection :=
    { MySQLConnection.new "quad" "quad" "auth" "127.0.0.1" "3306" with
      connection := some ⟨1, true⟩
      created := 2 }
  pool := []
  borrowedPool := [⟨1, true⟩, ⟨0, true⟩]
  poolSize := 2

/-- A pool of two connections that were borrowed. The second is in use, and the set has the only
reference to the first, which is abandoned: a third one is added. -/
theorem reclaims_fails :
    (∃ p p', ConnectionPool.new .reliable (.new "quad" "quad" "auth" "127.0.0.1" "3306") 2 = .ok p ∧
      p.borrow .reliable [] = some (⟨0, true⟩, p') ∧
      p'.borrow .reliable [⟨0, true⟩] = some (⟨1, true⟩, .abandoned)) ∧
    Abandoned [⟨1, true⟩] .abandoned ⟨0, true⟩ ∧
      useCount (ConnectionPool.abandoned.references [⟨1, true⟩]) ⟨0, true⟩ = 1 ∧
      (∃ p', ConnectionPool.abandoned.borrowOutcome .reliable [⟨1, true⟩] =
        .returned ⟨2, true⟩ none p' ∧ p'.borrowedPool.length = 3) ∧
      ¬ Reclaims .reliable [⟨1, true⟩] .abandoned := by
  refine ⟨⟨_, _, rfl, rfl, rfl⟩, ⟨by decide, by decide⟩, by decide, ⟨_, rfl, rfl⟩, ?_⟩
  rintro ⟨c, l, p', houtcome, -, -⟩
  cases houtcome

end SteerStone
