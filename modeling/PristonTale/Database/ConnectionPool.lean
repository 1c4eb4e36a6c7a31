import PristonTale.Foundations.Lending
import PristonTale.Foundations.SharedPtr

set_option relaxedAutoImplicit false
set_option autoImplicit false

/-!
# Connection pools

`MySQLConnection::CreateDatabase` (`Shared/Database/MySQLConnection.h`) and the class
`ConnectionPool` (`Shared/Database/ConnectionPool.h`), which hands the connections of a database to
`QueryDatabase` objects: the constructor of `QueryDatabase` borrows one, its destructor gives it
back. Both hold `m_Mutex` of the pool while they do so, so each is one step of the transition
system of a pool and the objects that are alive.

The pool is a stock that is lent out (`Foundations.Lending`). It is one for every interleaving: the
path in `Borrow` that takes a borrowed connection back is dead, since the loop over `m_BorrowedPool`
copies the reference it is about to test, so that the connection has two references.

## Main definitions

* `SteerStone.MySQLConnection.createDatabase` — a new connection, or what is left when the driver
  throws.
* `SteerStone.ConnectionPool.new`, `SteerStone.ConnectionPool.borrow`,
  `SteerStone.ConnectionPool.unBorrow` — the pool.
* `SteerStone.PoolAction`, `SteerStone.poolSystem` — a pool and the `QueryDatabase` objects alive.
* `SteerStone.PoolRefines` — the pool as a stock that is lent out.

## Main results

* `SteerStone.borrow_eq` — the reclaiming path is dead.
* `SteerStone.poolSystem_step` — every step is one of the stock.
* `SteerStone.connection_exclusivity` — no connection is with two objects.
* `SteerStone.pool_growth_law` — how many connections there are.

## Implementation notes

* A `Connection` is known by its address, for which its number among all connections created
  stands.
* `m_BorrowedPool` is a set; the model keeps it as a list without duplicates.
* The driver is a parameter. The assertions in `Borrow` for a driver that throws are compiled out
  of the default build, and `m_Pool.front()` of an empty deque follows; there the model stops.
* Other members of these classes and their locks are left out.
-/

namespace SteerStone

open Foundations

/-- A `Connection` object. -/
structure Connection where
  /-- Its address. -/
  address : ℕ
  /-- Whether `mSQLConnection` is set. -/
  isSet : Bool
  deriving DecidableEq, Repr

/-- The MySQL driver: which of its calls throw `sql::SQLException`. Each is given the number of
connections created before. -/
structure SqlDriver where
  /-- `driver->connect`, with the host, the username and the password. -/
  connectThrows : ℕ → String → String → String → Bool
  /-- `setSchema`, with the database. -/
  setSchemaThrows : ℕ → String → Bool

/-- A `MySQLConnection`. -/
structure MySQLConnection where
  /-- `m_Username`. -/
  username : String
  /-- `m_Password`. -/
  password : String
  /-- `m_Database`. -/
  database : String
  /-- `m_Host`. -/
  host : String
  /-- `m_Port`. -/
  port : String
  /-- `m_Connection`. -/
  connection : Option Connection
  /-- How many connections it has created. -/
  created : ℕ

namespace MySQLConnection

/-- The constructor. -/
def new (username password database host port : String) : MySQLConnection where
  username := username
  password := password
  database := database
  host := "tcp://" ++ host ++ ":" ++ port
  port := port
  connection := none
  created := 0

/-- `CreateDatabase`: the connection, unless the driver throws. `m_Connection` refers to the new
connection in either case. -/
def createDatabase (driver : SqlDriver) (m : MySQLConnection) :
    Option Connection × MySQLConnection :=
  let made (isSet : Bool) : MySQLConnection :=
    { m with connection := some ⟨m.created, isSet⟩, created := m.created + 1 }
  if driver.connectThrows m.created m.host m.username m.password then (none, made false)
  else if driver.setSchemaThrows m.created m.database then (none, made true)
  else (some ⟨m.created, true⟩, made true)

end MySQLConnection

/-- A `ConnectionPool`. -/
structure ConnectionPool where
  /-- `m_MySQLConnection`. -/
  mySQLConnection : MySQLConnection
  /-- `m_Pool`. -/
  pool : List Connection
  /-- `m_BorrowedPool`. -/
  borrowedPool : List Connection
  /-- `m_PoolSize`. -/
  poolSize : ℕ

namespace ConnectionPool

/-- The loop of the constructor: `CreateDatabase`, `n` more times. When the driver throws, the
result is what has been constructed of the pool by then. -/
def fill (driver : SqlDriver) :
    ℕ → MySQLConnection → List Connection →
      Except (MySQLConnection × List Connection) (MySQLConnection × List Connection)
  | 0, m, pool => .ok (m, pool)
  | n + 1, m, pool =>
    match m.createDatabase driver with
    | (some c, m') => fill driver n m' (pool ++ [c])
    | (none, m') => .error (m', pool)

/-- The constructor. -/
def new (driver : SqlDriver) (m : MySQLConnection) (poolSize : ℕ) :
    Except (MySQLConnection × List Connection) ConnectionPool :=
  (fill driver poolSize m []).map fun p => ⟨p.1, p.2, [], poolSize⟩

/-- The references to connections: those of the pool, and those held elsewhere. -/
def references (p : ConnectionPool) (elsewhere : List Connection) : List Connection :=
  p.pool ++ p.borrowedPool ++ p.mySQLConnection.connection.toList ++ elsewhere

/-- `Borrow`, with the references held outside of the pool. -/
def borrow (driver : SqlDriver) (elsewhere : List Connection) (p : ConnectionPool) :
    Option (Connection × ConnectionPool) :=
  match p.pool with
  | [] =>
    let itr := p.borrowedPool.find? fun c => Unique (c :: p.references elsewhere) c
    match itr, p.mySQLConnection.createDatabase driver with
    | some l, (some c, m) =>
      some (c, { p with mySQLConnection := m, borrowedPool := (p.borrowedPool.erase l).insert c })
    | none, (some c, m) =>
      some (c, { p with mySQLConnection := m, borrowedPool := p.borrowedPool.insert c })
    | _, (none, _) => none
  | c :: rest => some (c, { p with pool := rest, borrowedPool := p.borrowedPool.insert c })

/-- `UnBorrow`. -/
def unBorrow (p : ConnectionPool) (c : Connection) : ConnectionPool :=
  { p with pool := p.pool ++ [c], borrowedPool := p.borrowedPool.erase c }

end ConnectionPool

/-! ## A pool and its borrowers -/

/-- What happens to a pool. -/
inductive PoolAction where
  /-- The constructor of the `QueryDatabase` object `q` borrows a connection; `elsewhere` are the
  references held by other objects, also by those in the middle of their destructor. -/
  | construct (q : ℕ) (elsewhere : List Connection)
  /-- The destructor of the `QueryDatabase` object `q` gives its connection back. -/
  | destroy (q : ℕ)

/-- A pool and the `QueryDatabase` objects alive, each with its `m_Connection`. -/
structure PoolState where
  /-- The pool. -/
  pool : ConnectionPool
  /-- The objects alive. -/
  alive : List (ℕ × Connection)

/-- The pool and its borrowers: an object that is not alive is constructed, or one that is alive is
destroyed. -/
def poolSystem (driver : SqlDriver) : Transition PoolState PoolAction where
  step
    | st, .construct q elsewhere =>
      if q ∈ st.alive.map Prod.fst then none
      else (st.pool.borrow driver elsewhere).map fun r => ⟨r.2, (q, r.1) :: st.alive⟩
    | st, .destroy q =>
      match st.alive.find? (·.1 = q) with
      | none => none
      | some b => some ⟨st.pool.unBorrow b.2, st.alive.erase b⟩

variable {driver : SqlDriver}

/-! ## `CreateDatabase` and `Borrow` -/

/-- A connection that was created is the next one, with `mSQLConnection` set. -/
lemma createDatabase_some {m m' : MySQLConnection} {c : Connection}
    (h : m.createDatabase driver = (some c, m')) :
    c = ⟨m.created, true⟩ ∧ m'.created = m.created + 1 := by
  unfold MySQLConnection.createDatabase at h
  dsimp only at h
  split_ifs at h
  · simp at h
  · simp at h
  · simp only [Prod.mk.injEq, Option.some.injEq] at h
    exact ⟨h.1.symm, by rw [← h.2]⟩

/-- No borrowed connection is found to be unique: the loop holds a copy of the reference in the
set. -/
lemma find_unique_eq_none (p : ConnectionPool) (elsewhere : List Connection) :
    (p.borrowedPool.find? fun c => Unique (c :: p.references elsewhere) c) = none := by
  rw [List.find?_eq_none]
  intro c hc
  have hmem : c ∈ p.references elsewhere := by
    unfold ConnectionPool.references
    simp [hc]
  simpa using not_unique_of_copy hmem

/-- **The reclaiming path of `Borrow` is dead**: when the pool is empty a new connection is
created, whatever references there are. -/
theorem borrow_eq (p : ConnectionPool) (elsewhere : List Connection) :
    p.borrow driver elsewhere =
      match p.pool with
      | [] =>
        match p.mySQLConnection.createDatabase driver with
        | (some c, m) =>
          some (c, { p with mySQLConnection := m, borrowedPool := p.borrowedPool.insert c })
        | (none, _) => none
      | c :: rest =>
        some (c, { p with pool := rest, borrowedPool := p.borrowedPool.insert c }) := by
  unfold ConnectionPool.borrow
  cases hp : p.pool with
  | nil =>
    rw [find_unique_eq_none]
    rcases p.mySQLConnection.createDatabase driver with ⟨_ | c, m⟩ <;> rfl
  | cons c rest => rfl

/-! ## The constructor -/

/-- The first `n` connections that are created. -/
def firstConnections (n : ℕ) : List Connection := (List.range n).map fun i => ⟨i, true⟩

/-- The first connections are those with the first addresses. -/
lemma mem_firstConnections {n : ℕ} {c : Connection} :
    c ∈ firstConnections n ↔ ∃ i < n, c = ⟨i, true⟩ := by
  unfold firstConnections
  simp only [List.mem_map, List.mem_range]
  constructor
  · rintro ⟨i, hi, rfl⟩
    exact ⟨i, hi, rfl⟩
  · rintro ⟨i, hi, rfl⟩
    exact ⟨i, hi, rfl⟩

/-- The first connections are distinct. -/
lemma nodup_firstConnections (n : ℕ) : (firstConnections n).Nodup := by
  apply List.Nodup.map _ List.nodup_range
  intro i j hij
  simpa using hij

/-- The loop of the constructor creates one connection after the other. -/
lemma fill_ok {n : ℕ} {m m' : MySQLConnection} {pool : List Connection}
    (h : ConnectionPool.fill driver n m (firstConnections m.created) = .ok (m', pool)) :
    m'.created = m.created + n ∧ pool = firstConnections (m.created + n) := by
  induction n generalizing m with
  | zero =>
    simp only [ConnectionPool.fill, Except.ok.injEq, Prod.mk.injEq] at h
    exact ⟨by rw [← h.1]; rfl, h.2.symm⟩
  | succ n ih =>
    rcases hc : m.createDatabase driver with ⟨_ | c, m₁⟩
    · simp [ConnectionPool.fill, hc] at h
    · obtain ⟨rfl, hcreated⟩ := createDatabase_some hc
      have hnext : firstConnections m.created ++ [⟨m.created, true⟩] =
          firstConnections m₁.created := by
        rw [hcreated]
        simp [firstConnections, List.range_succ]
      simp only [ConnectionPool.fill, hc, hnext] at h
      obtain ⟨h₁, h₂⟩ := ih h
      constructor
      · omega
      · rw [h₂, hcreated]
        congr 1
        omega

/-- A new pool has `n` connections, none of them borrowed. -/
lemma new_ok {n : ℕ} {username password database host port : String} {p : ConnectionPool}
    (h : ConnectionPool.new driver (.new username password database host port) n = .ok p) :
    p.pool = firstConnections n ∧ p.borrowedPool = [] ∧ p.mySQLConnection.created = n := by
  unfold ConnectionPool.new at h
  cases hf : ConnectionPool.fill driver n (.new username password database host port) [] with
  | error e => simp [hf, Except.map] at h
  | ok r =>
    simp only [hf, Except.map, Except.ok.injEq] at h
    obtain ⟨m', pool⟩ := r
    obtain ⟨h₁, h₂⟩ := fill_ok (m := .new username password database host port) hf
    rw [← h]
    refine ⟨?_, rfl, ?_⟩
    · rw [h₂]
      simp [MySQLConnection.new]
    · rw [h₁]
      simp [MySQLConnection.new]

/-! ## The pool as a stock that is lent out -/

/-- The pool is the stock `l`: its deque is what is free, the connections of the objects alive are
the loans, the borrowed set is the set of what is lent, and every connection created is one or the
other. -/
structure PoolRefines (st : PoolState) (l : Lending ℕ Connection) : Prop where
  /-- The deque is what is free. -/
  free : st.pool.pool = l.free
  /-- The objects alive are the loans. -/
  loans : st.alive = l.loans
  /-- The borrowed set has no duplicates. -/
  nodup : st.pool.borrowedPool.Nodup
  /-- The borrowed set is what is lent. -/
  borrowed : ∀ c, c ∈ st.pool.borrowedPool ↔ c ∈ l.loans.map Prod.snd
  /-- Every connection created is free or lent, and no other is. -/
  created : ∀ c, (c ∈ l.free ∨ c ∈ l.loans.map Prod.snd) ↔
    ∃ i < st.pool.mySQLConnection.created, c = ⟨i, true⟩

namespace PoolRefines

variable {st : PoolState} {l : Lending ℕ Connection}

/-- The borrowed set is as large as there are objects alive. -/
lemma length_borrowed (h : PoolRefines st l) :
    st.pool.borrowedPool.length = l.loans.length := by
  have hnodup : (l.loans.map Prod.snd).Nodup := (List.nodup_append.mp l.exclusive).1
  have hperm := (List.perm_ext_iff_of_nodup h.nodup hnodup).mpr h.borrowed
  rw [hperm.length_eq, List.length_map]

/-- A new pool is a stock that is not lent yet. -/
lemma new {n : ℕ} {username password database host port : String} {p : ConnectionPool}
    (h : ConnectionPool.new driver (.new username password database host port) n = .ok p) :
    PoolRefines ⟨p, []⟩ (.stocked (firstConnections n) (nodup_firstConnections n)) := by
  obtain ⟨hpool, hborrowed, hcreated⟩ := new_ok h
  refine ⟨hpool, rfl, ?_, ?_, ?_⟩
  · rw [hborrowed]
    exact List.nodup_nil
  · intro c
    simp [hborrowed, Lending.stocked]
  · intro c
    simp only [Lending.stocked, List.map_nil, List.not_mem_nil, or_false, hcreated]
    exact mem_firstConnections

end PoolRefines

/-- What a step of the pool can be. -/
lemma poolSystem_step_cases {st st' : PoolState} {a : PoolAction}
    (h : (poolSystem driver).step st a = some st') :
    (∃ q elsewhere c p, a = .construct q elsewhere ∧ q ∉ st.alive.map Prod.fst ∧
      st.pool.borrow driver elsewhere = some (c, p) ∧ st' = ⟨p, (q, c) :: st.alive⟩) ∨
    (∃ b, a = .destroy b.1 ∧ b ∈ st.alive ∧
      st' = ⟨st.pool.unBorrow b.2, st.alive.erase b⟩) := by
  cases a with
  | construct q elsewhere =>
    simp only [poolSystem] at h
    split_ifs at h with hq
    obtain ⟨⟨c, p⟩, hb, hst⟩ := Option.map_eq_some_iff.mp h
    exact .inl ⟨q, elsewhere, c, p, rfl, hq, hb, hst.symm⟩
  | destroy q =>
    simp only [poolSystem] at h
    cases hfind : st.alive.find? (·.1 = q) with
    | none => simp [hfind] at h
    | some b =>
      simp only [hfind, Option.some.injEq] at h
      have hq : b.1 = q := by simpa using List.find?_some hfind
      exact .inr ⟨b, by rw [hq], List.mem_of_find?_eq_some hfind, h.symm⟩

/-- A free connection is lent. -/
lemma PoolRefines.lend {st : PoolState} {l : Lending ℕ Connection} (h : PoolRefines st l)
    {q : ℕ} {c : Connection} {rest : List Connection} (hfree : l.free = c :: rest)
    (hq : q ∉ l.loans.map Prod.fst) :
    PoolRefines
      ⟨{ st.pool with pool := rest, borrowedPool := st.pool.borrowedPool.insert c },
        (q, c) :: st.alive⟩ (l.lend q c rest hfree hq) := by
  refine ⟨rfl, ?_, h.nodup.insert, ?_, ?_⟩
  · simp [Lending.lend, h.loans]
  · intro x
    simp [Lending.lend, List.mem_insert_iff, h.borrowed]
  · intro x
    rw [← h.created x, hfree]
    simp only [Lending.lend, List.map_cons, List.mem_cons]
    tauto

/-- A new connection is lent. -/
lemma PoolRefines.lendNew {st : PoolState} {l : Lending ℕ Connection} (h : PoolRefines st l)
    {q : ℕ} {m : MySQLConnection} (hfree : l.free = []) (hq : q ∉ l.loans.map Prod.fst)
    (hm : m.created = st.pool.mySQLConnection.created + 1) :
    ∃ hr, PoolRefines
      ⟨{ st.pool with
          mySQLConnection := m
          pool := []
          borrowedPool :=
            st.pool.borrowedPool.insert ⟨st.pool.mySQLConnection.created, true⟩ },
        (q, ⟨st.pool.mySQLConnection.created, true⟩) :: st.alive⟩
      (l.lendNew q ⟨st.pool.mySQLConnection.created, true⟩ hr hfree hq) := by
  have hnew : (⟨st.pool.mySQLConnection.created, true⟩ : Connection) ∉
      l.loans.map Prod.snd := by
    intro hmem
    obtain ⟨i, hi, heq⟩ := (h.created _).mp (.inr hmem)
    simp only [Connection.mk.injEq, and_true] at heq
    omega
  refine ⟨hnew, rfl, ?_, h.nodup.insert, ?_, ?_⟩
  · simp [Lending.lendNew, h.loans]
  · intro x
    simp [Lending.lendNew, List.mem_insert_iff, h.borrowed]
  · intro x
    have hx := h.created x
    rw [hfree] at hx
    simp only [Lending.lendNew, List.map_cons, List.mem_cons, List.not_mem_nil, false_or,
      hm] at hx ⊢
    rw [hx]
    constructor
    · rintro (rfl | ⟨i, hi, rfl⟩)
      · exact ⟨_, by omega, rfl⟩
      · exact ⟨i, by omega, rfl⟩
    · rintro ⟨i, hi, rfl⟩
      by_cases hlast : i = st.pool.mySQLConnection.created
      · exact .inl (by rw [hlast])
      · exact .inr ⟨i, by omega, rfl⟩

/-- A connection is given back. -/
lemma PoolRefines.giveBack {st : PoolState} {l : Lending ℕ Connection} (h : PoolRefines st l)
    {b : ℕ × Connection} (hb : b ∈ l.loans) :
    PoolRefines ⟨st.pool.unBorrow b.2, st.alive.erase b⟩ (l.giveBack b.1 b.2 hb) := by
  have hlent : ∀ x, x ∈ (l.loans.erase b).map Prod.snd ↔
      x ≠ b.2 ∧ x ∈ l.loans.map Prod.snd := by
    intro x
    have hnodup : l.loans.Nodup := List.Nodup.of_map _ l.single
    simp only [List.mem_map, hnodup.mem_erase_iff]
    constructor
    · rintro ⟨p, ⟨hne, hp⟩, rfl⟩
      refine ⟨?_, p, hp, rfl⟩
      intro heq
      exact hne (Lending.eq_of_same_resource hp hb heq)
    · rintro ⟨hne, p, hp, rfl⟩
      refine ⟨p, ⟨?_, hp⟩, rfl⟩
      intro heq
      exact hne (by rw [heq])
  refine ⟨?_, ?_, h.nodup.erase _, ?_, ?_⟩
  · simp [ConnectionPool.unBorrow, Lending.giveBack, h.free]
  · simp [Lending.giveBack, h.loans]
  · intro x
    simp only [ConnectionPool.unBorrow, Lending.giveBack, h.nodup.mem_erase_iff,
      h.borrowed, hlent]
  · intro x
    have hx := h.created x
    have hmem : b.2 ∈ l.loans.map Prod.snd := List.mem_map_of_mem hb
    simp only [ConnectionPool.unBorrow, Lending.giveBack, List.mem_append,
      List.mem_singleton, hlent]
    rw [← hx]
    by_cases heq : x = b.2
    · simp [heq, hmem]
    · simp [heq]

/-- **Every step is one of the stock**, and a connection is created only when none is free. -/
theorem poolSystem_step {st st' : PoolState} {a : PoolAction} {l : Lending ℕ Connection}
    (h : PoolRefines st l) (hstep : (poolSystem driver).step st a = some st') :
    ∃ l', l.Step l' ∧ PoolRefines st' l' ∧
      (st'.pool.mySQLConnection.created ≠ st.pool.mySQLConnection.created → l.free = []) := by
  rcases poolSystem_step_cases hstep with
    ⟨q, elsewhere, c, p, rfl, hq, hb, rfl⟩ | ⟨b, rfl, hb, rfl⟩
  · rw [h.loans] at hq
    rw [borrow_eq, h.free] at hb
    cases hfree : l.free with
    | nil =>
      rcases hc : st.pool.mySQLConnection.createDatabase driver with ⟨_ | c', m⟩
      · simp [hfree, hc] at hb
      · obtain ⟨rfl, hm⟩ := createDatabase_some hc
        simp only [hfree, hc, Option.some.injEq, Prod.mk.injEq] at hb
        obtain ⟨rfl, rfl⟩ := hb
        obtain ⟨hr, href⟩ := h.lendNew hfree hq hm
        exact ⟨_, .lendNew q _ hr hfree hq, href, fun _ => rfl⟩
    | cons c' rest =>
      simp only [hfree, Option.some.injEq, Prod.mk.injEq] at hb
      obtain ⟨rfl, rfl⟩ := hb
      refine ⟨_, .lend q _ rest hfree hq, h.lend hfree hq, ?_⟩
      intro hne
      exact absurd rfl hne
  · have hmem : b ∈ l.loans := by rwa [← h.loans]
    refine ⟨_, .giveBack b.1 b.2 hmem, h.giveBack hmem, ?_⟩
    intro hne
    exact absurd rfl hne

/-! ## Runs -/

/-- A pool is a stock after every run. -/
lemma poolSystem_refines {st st' : PoolState} {as : List PoolAction}
    (h : ∃ l, PoolRefines st l) (hrun : (poolSystem driver).run st as = some st') :
    ∃ l, PoolRefines st' l := by
  apply (poolSystem driver).run_invariant (I := fun st => ∃ l, PoolRefines st l) _ hrun h
  rintro s a s' ⟨l, hl⟩ hstep
  obtain ⟨l', -, hl', -⟩ := poolSystem_step hl hstep
  exact ⟨l', hl'⟩

variable {n : ℕ} {username password database host port : String} {p : ConnectionPool}

/-- **Connection exclusivity.** For every size of the pool and every interleaving of the
constructors and destructors of `QueryDatabase` objects in which the driver does not throw: no two
objects alive have the same connection, the pool has no duplicates, no connection is in the pool
and borrowed, and the borrowed set is the set of connections of the objects alive.

**Proof sketch.** The pool is a stock that is lent out (`poolSystem_step`), and in such a stock
each resource is in one place. -/
theorem connection_exclusivity
    (hp : ConnectionPool.new driver (.new username password database host port) n = .ok p)
    (as : List PoolAction) (st : PoolState)
    (h : (poolSystem driver).run ⟨p, []⟩ as = some st) :
    (∀ b ∈ st.alive, ∀ b' ∈ st.alive, b.2 = b'.2 → b = b') ∧
      st.pool.pool.Nodup ∧
      (∀ c ∈ st.pool.pool, c ∉ st.pool.borrowedPool) ∧
      ∀ c, c ∈ st.pool.borrowedPool ↔ ∃ b ∈ st.alive, b.2 = c := by
  obtain ⟨l, hl⟩ := poolSystem_refines ⟨_, PoolRefines.new hp⟩ h
  refine ⟨?_, ?_, ?_, ?_⟩
  · intro b hb b' hb' heq
    rw [hl.loans] at hb hb'
    exact Lending.eq_of_same_resource hb hb' heq
  · rw [hl.free]
    exact l.nodup_free
  · intro c hc hborrowed
    obtain ⟨b, hb, rfl⟩ := List.mem_map.mp ((hl.borrowed c).mp hborrowed)
    rw [hl.free] at hc
    exact Lending.not_free_of_lent hb hc
  · intro c
    rw [hl.borrowed, hl.loans, List.mem_map]

/-- A driver none of whose calls throws. -/
def SqlDriver.reliable : SqlDriver := ⟨fun _ _ _ _ => false, fun _ _ => false⟩

/-- The pool of one connection to a database. -/
def ConnectionPool.single : ConnectionPool where
  mySQLConnection :=
    { MySQLConnection.new "quad" "quad" "auth" "127.0.0.1" "3306" with
      connection := some ⟨0, true⟩
      created := 1 }
  pool := [⟨0, true⟩]
  borrowedPool := []
  poolSize := 1

/-- The constructor makes it. -/
lemma new_single : ConnectionPool.new .reliable
    (.new "quad" "quad" "auth" "127.0.0.1" "3306") 1 = .ok .single := rfl

/-- A login with a pool of one connection: `SendUserSuccess` constructs a `QueryDatabase` while the
one of `HandleLoginUser` is alive, and gets a second connection. -/
theorem connection_exclusivity_nested : ∃ st,
    (poolSystem .reliable).run ⟨.single, []⟩ [.construct 0 [], .construct 1 []] = some st ∧
      st.alive = [(1, ⟨1, true⟩), (0, ⟨0, true⟩)] ∧
      ∀ b ∈ st.alive, ∀ b' ∈ st.alive, b.2 = b'.2 → b = b' := by
  refine ⟨_, rfl, rfl, ?_⟩
  exact (connection_exclusivity new_single [.construct 0 [], .construct 1 []] _ rfl).1

/-- **The growth law of the pool.** For every size of the pool and every interleaving of the
constructors and destructors of `QueryDatabase` objects in which the driver does not throw: there
are as many connections as the size of the pool, or as the largest number of connections borrowed
at the same time if that is more; each connection that was created is in the pool or borrowed; and
a step creates one only if all of them are borrowed by objects alive.

**Proof sketch.** The pool is a stock that is lent out (`poolSystem_step`), so its size follows the
law of such a stock (`Foundations.Lending.Step.size_eq`) along the run. -/
theorem pool_growth_law
    (hp : ConnectionPool.new driver (.new username password database host port) n = .ok p)
    (as : List PoolAction) (st : PoolState)
    (h : (poolSystem driver).run ⟨p, []⟩ as = some st) :
    st.pool.pool.length + st.pool.borrowedPool.length =
        max n ((poolSystem driver).peak (fun st => st.alive.length) ⟨p, []⟩ as) ∧
      (∀ i < st.pool.mySQLConnection.created,
        ⟨i, true⟩ ∈ st.pool.pool ∨ ⟨i, true⟩ ∈ st.pool.borrowedPool) ∧
      ∀ a st', (poolSystem driver).step st a = some st' →
        st'.pool.mySQLConnection.created ≠ st.pool.mySQLConnection.created →
        ∀ i < st.pool.mySQLConnection.created, ∃ b ∈ st.alive, b.2 = ⟨i, true⟩ := by
  have hstart : ∃ l, PoolRefines ⟨p, []⟩ l ∧ l.size = max n 0 := by
    refine ⟨_, PoolRefines.new hp, ?_⟩
    simp [Lending.size, Lending.stocked, firstConnections]
  obtain ⟨l, hl, hsize⟩ := (poolSystem driver).run_peak
    (R := fun st m => ∃ l, PoolRefines st l ∧ l.size = max n m)
    (f := fun st => st.alive.length) (by
      rintro s a s' m ⟨l, hl, hm⟩ hstep
      obtain ⟨l', hl', href, -⟩ := poolSystem_step hl hstep
      refine ⟨l', href, ?_⟩
      rw [hl'.size_eq hm, href.loans]) h hstart (Nat.zero_le _)
  refine ⟨?_, ?_, ?_⟩
  · rw [hl.length_borrowed, hl.free]
    rw [Nat.zero_max] at hsize
    exact hsize
  · intro i hi
    rw [hl.free, hl.borrowed]
    exact (hl.created _).mpr ⟨i, hi, rfl⟩
  · intro a st' hstep hne i hi
    obtain ⟨-, -, -, hfree⟩ := poolSystem_step hl hstep
    have hall := (hl.created ⟨i, true⟩).mpr ⟨i, hi, rfl⟩
    rw [hfree hne] at hall
    rw [hl.loans]
    simpa using hall

/-- Two nested objects and a third after both: two connections, one more than the pool began
with. -/
theorem pool_growth_law_nested : ∃ st,
    (poolSystem .reliable).run ⟨.single, []⟩
        [.construct 0 [], .construct 1 [], .destroy 1, .destroy 0, .construct 2 []] = some st ∧
      st.pool.pool.length + st.pool.borrowedPool.length = 2 := by
  refine ⟨_, rfl, ?_⟩
  exact (pool_growth_law new_single
    [.construct 0 [], .construct 1 [], .destroy 1, .destroy 0, .construct 2 []] _ rfl).1

end SteerStone
