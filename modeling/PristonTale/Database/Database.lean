import Mathlib.Logic.Function.Basic
import PristonTale.Common.Config
import PristonTale.Common.SharedDefines
import PristonTale.Database.ConnectionPool

set_option relaxedAutoImplicit false
set_option autoImplicit false

/-!
# Databases

The class `Database` (`Shared/Database/Database.cpp`): `CreateDatabase` connects to a database and
puts it into a map under its name, `GetDatabase` finds it there. `LoadDatabase`
(`AuthServer/main.cpp`) creates the one database of the authentication server, from its
configuration file.

Two things are settled here. The name in the map is the last token of a setting, while the handlers
ask for the database `auth`. And when the driver throws while the pool is filled, the exception
destroys the connections made so far, in an order and number that depend on who still refers to
them: `MySQLConnection` refers to the last one, which is there before it is connected.

## Main definitions

* `SteerStone.DatabaseHolder`, `SteerStone.DatabaseMap` — the databases.
* `SteerStone.Database.createDatabase`, `SteerStone.Database.getDatabase`,
  `SteerStone.loadDatabase` — the functions.
* `SteerStone.runDestructors` — what the destructors of connections do.
* `SteerStone.handlerDatabases` — the databases the handlers ask for.

## Main results

* `SteerStone.createDatabase_of_throws` — what is left when the driver throws.
* `SteerStone.connection_failure_iff` — the unwinding is clean exactly when `setSchema` threw.
* `SteerStone.database_names_iff` — the handlers find their database exactly when the configuration
  calls it `auth`.

## Implementation notes

* `m_MySQLConnection` of a holder is that of its pool.
* Destroying a connection closes it; the model keeps only whether there was one to close.
* A holder that `CreateDatabase` replaces is not followed further.
-/

namespace SteerStone

open Foundations

/-- A `DatabaseHolder`. -/
structure DatabaseHolder where
  /-- `m_Username`. -/
  username : String
  /-- `m_Password`. -/
  password : String
  /-- `m_Port`. -/
  port : String
  /-- `m_Host`. -/
  host : String
  /-- `m_Database`. -/
  database : String
  /-- `m_PoolSize`. -/
  poolSize : ℕ
  /-- `m_Pool`. -/
  pool : ConnectionPool

/-- `m_DatabaseCont`. -/
abbrev DatabaseMap := String → Option DatabaseHolder

/-- What `CreateDatabase` does. -/
structure Creation where
  /-- Its result, unless a destructor dereferences a null pointer first. -/
  result : Option Bool
  /-- `m_DatabaseCont` then. -/
  databaseCont : DatabaseMap
  /-- The calls of `mSQLConnection->close()`: whether `mSQLConnection` was set. -/
  closes : List Bool

/-- The destructors of connections, in order: the calls of `close`, and whether all of them
returned. -/
def runDestructors : List Connection → List Bool × Bool
  | [] => ([], true)
  | c :: cs =>
    if c.isSet then (true :: (runDestructors cs).1, (runDestructors cs).2) else ([false], false)

/-- The `MySQLConnection` of an info string: the tokens are the host, the port, the username, the
password and the database. -/
def infoConnection (infoString : String) : MySQLConnection :=
  let tokens := strSplit infoString ";"
  .new (tokens.getD 2 "") (tokens.getD 3 "") (tokens.getD 4 "") (tokens.getD 0 "")
    (tokens.getD 1 "")

/-- `CreateDatabase`. When the driver throws, the unwinding gives up the references in `m_Pool`
and then `m_Connection` of the `MySQLConnection`; `PrintException` returns. -/
def Database.createDatabase (driver : SqlDriver) (infoString : String) (poolSize : ℕ)
    (cont : DatabaseMap) :
    Creation :=
  let tokens := strSplit infoString ";"
  match ConnectionPool.new driver (infoConnection infoString) poolSize with
  | .ok pool =>
    let holder : DatabaseHolder :=
      { username := tokens.getD 2 ""
        password := tokens.getD 3 ""
        port := tokens.getD 1 ""
        host := tokens.getD 0 ""
        database := tokens.getD 4 ""
        poolSize := poolSize
        pool := pool }
    ⟨some true, Function.update cont holder.database (some holder), []⟩
  | .error (m, pool) =>
    let refs := pool ++ m.connection.toList
    let destroyed := runDestructors (release refs refs)
    ⟨if destroyed.2 then some false else none, cont, destroyed.1⟩

/-- `GetDatabase`; no holder stands for the null pointer. -/
def Database.getDatabase (cont : DatabaseMap) (database : String) : Option DatabaseHolder :=
  cont database

/-- A `std::string` made from a `char const*`. -/
def cStr (s : String) : String := String.ofList (s.toList.takeWhile (· ≠ '\x00'))

/-- `LoadDatabase`, unless `std::stoi` throws; a number is converted to `std::size_t`. -/
def loadDatabase (driver : SqlDriver) (config : Config) (cont : DatabaseMap) : Option Creation :=
  (config.getIntDefault "AuthDatabase.ConnectionPool" 10).map fun size =>
    Database.createDatabase driver (cStr (config.getStringDefault "AuthDatabaseInfo" ""))
      (size % 2 ^ 64).toNat cont

/-- `main`, up to `LoadDatabase`: the text of the configuration file is read, and the database
created. -/
def startDatabase (driver : SqlDriver) (text : String) : Option Creation :=
  (Config.reload text).bind fun config => loadDatabase driver config fun _ => none

/-- The names with which the handlers construct `QueryDatabase`s: `HandleLoginUser` and
`SendUserSuccess`. -/
def handlerDatabases : List String := ["auth", "auth"]

variable {driver : SqlDriver}

/-! ## When the driver throws -/

/-- The driver throws while the connection with this number is created. -/
def SqlDriver.Throws (driver : SqlDriver) (m : MySQLConnection) (i : ℕ) : Prop :=
  driver.connectThrows i m.host m.username m.password = true ∨
    driver.setSchemaThrows i m.database = true

/-- A connection is created when the driver does not throw. -/
lemma createDatabase_of_not_throws {m : MySQLConnection} (h : ¬ driver.Throws m m.created) :
    m.createDatabase driver =
      (some ⟨m.created, true⟩,
        { m with connection := some ⟨m.created, true⟩, created := m.created + 1 }) := by
  unfold SqlDriver.Throws at h
  unfold MySQLConnection.createDatabase
  dsimp only
  rw [if_neg (fun hc => h (.inl hc)), if_neg (fun hs => h (.inr hs))]

/-- When the driver throws, `m_Connection` is the new connection, and `mSQLConnection` is set if
`connect` did not throw. -/
lemma createDatabase_of_throws_at {m : MySQLConnection} (h : driver.Throws m m.created) :
    m.createDatabase driver =
      (none,
        { m with
          connection :=
            some ⟨m.created, !driver.connectThrows m.created m.host m.username m.password⟩
          created := m.created + 1 }) := by
  unfold SqlDriver.Throws at h
  unfold MySQLConnection.createDatabase
  dsimp only
  cases hc : driver.connectThrows m.created m.host m.username m.password with
  | true => rfl
  | false =>
    rw [hc] at h
    have hs : driver.setSchemaThrows m.created m.database = true := by simpa using h
    simp [hs]

/-- The loop of the constructor, when the driver throws for the first time at the connection with
number `k`.

**Proof sketch.** Induction on the connections still to come: the next one is created, or it is
the one for which the driver throws. -/
lemma fill_of_throws {k n : ℕ} {m : MySQLConnection} (hle : m.created ≤ k)
    (hlt : k < m.created + n) (hbefore : ∀ i, m.created ≤ i → i < k → ¬ driver.Throws m i)
    (hthrows : driver.Throws m k) :
    ∃ m', ConnectionPool.fill driver n m (firstConnections m.created) =
        .error (m', firstConnections k) ∧
      m'.connection = some ⟨k, !driver.connectThrows k m.host m.username m.password⟩ := by
  induction n generalizing m with
  | zero => omega
  | succ n ih =>
    by_cases hk : m.created = k
    · subst hk
      have hc := createDatabase_of_throws_at hthrows
      refine ⟨{ m with
        connection :=
          some ⟨m.created, !driver.connectThrows m.created m.host m.username m.password⟩
        created := m.created + 1 }, ?_, rfl⟩
      simp only [ConnectionPool.fill, hc]
    · have hc := createDatabase_of_not_throws (hbefore m.created (Nat.le_refl _) (by omega))
      set m₁ : MySQLConnection :=
        { m with connection := some ⟨m.created, true⟩, created := m.created + 1 } with hm₁
      have hnext : firstConnections m.created ++ [⟨m.created, true⟩] =
          firstConnections m₁.created := by
        simp [firstConnections, List.range_succ, hm₁]
      have hafter : ∀ i, m₁.created ≤ i → i < k → ¬ driver.Throws m₁ i := by
        intro i hi hik
        have hi' : m.created + 1 ≤ i := hi
        exact hbefore i (by omega) hik
      obtain ⟨m', hfill, hm'⟩ := ih (m := m₁) (show m.created + 1 ≤ k by omega)
        (show k < m.created + 1 + n by omega) hafter hthrows
      refine ⟨m', ?_, hm'⟩
      simp only [ConnectionPool.fill, hc, hnext]
      exact hfill

/-- The destructors of connections that are set all return. -/
lemma runDestructors_append {cs : List Connection} (h : ∀ c ∈ cs, c.isSet = true)
    (ds : List Connection) :
    runDestructors (cs ++ ds) =
      (List.replicate cs.length true ++ (runDestructors ds).1, (runDestructors ds).2) := by
  induction cs with
  | nil => rfl
  | cons c cs ih =>
    have hc : c.isSet = true := h c List.mem_cons_self
    have hcs := ih fun d hd => h d (List.mem_cons_of_mem _ hd)
    simp only [List.cons_append, runDestructors, hc, if_true, hcs, List.length_cons,
      List.replicate_succ]

/-- **What is left when the driver throws**, for the first time at the connection with number `k`:
the `k` connections in the pool are closed, and then the one that `m_Connection` refers to, whose
`mSQLConnection` is not set if `connect` threw.

**Proof sketch.** The references of the pool and `m_Connection` are all there are, and they are to
different connections, so each connection is destroyed when its turn comes
(`Foundations.release_self`). -/
theorem createDatabase_of_throws {infoString : String} {n k : ℕ} (hk : k < n)
    (hbefore : ∀ i < k, ¬ driver.Throws (infoConnection infoString) i)
    (hthrows : driver.Throws (infoConnection infoString) k) (cont : DatabaseMap) :
    Database.createDatabase driver infoString n cont =
      let m := infoConnection infoString
      let isSet := !driver.connectThrows k m.host m.username m.password
      ⟨if isSet then some false else none, cont, List.replicate k true ++ [isSet]⟩ := by
  set m := infoConnection infoString with hm
  have hcreated : m.created = 0 := rfl
  obtain ⟨m', hfill, hm'⟩ := fill_of_throws (n := n) (m := m) (Nat.zero_le k)
    (by rw [hcreated]; omega) (fun i _ hi => hbefore i hi) hthrows
  have hnew : ConnectionPool.new driver m n = .error (m', firstConnections k) := by
    unfold ConnectionPool.new
    rw [show firstConnections m.created = [] from rfl] at hfill
    rw [hfill]
    rfl
  have hnodup : (firstConnections k ++
      [(⟨k, !driver.connectThrows k m.host m.username m.password⟩ : Connection)]).Nodup := by
    rw [List.nodup_append]
    refine ⟨nodup_firstConnections k, List.nodup_singleton _, ?_⟩
    intro c hc d hd heq
    obtain ⟨i, hi, rfl⟩ := mem_firstConnections.mp hc
    rw [List.mem_singleton.mp hd, Connection.mk.injEq] at heq
    omega
  have hset : ∀ c ∈ firstConnections k, c.isSet = true := by
    intro c hc
    obtain ⟨i, -, rfl⟩ := mem_firstConnections.mp hc
    rfl
  have hlength : (firstConnections k).length = k := by simp [firstConnections]
  unfold Database.createDatabase
  simp only [← hm, hnew, hm', Option.toList_some, release_self, hnodup.dedup,
    runDestructors_append hset, hlength]
  cases driver.connectThrows k m.host m.username m.password <;> rfl

/-- **The failure of a connection, exactly.** For every info string, every pool size `n` and every
`k < n` such that the driver throws for the first time while the connection with number `k` is
created: `CreateDatabase` returns false, `m_DatabaseCont` is unchanged and every destructor that
runs closes a connection that is there, if and only if it was not `connect` that threw (but
`setSchema`).

**Proof sketch.** The connection with number `k` is destroyed last, by way of `m_Connection`; all
others are in the pool and connected (`createDatabase_of_throws`). -/
theorem connection_failure_iff (driver : SqlDriver) (infoString : String) (n : ℕ)
    (cont : DatabaseMap) (k : ℕ) (hk : k < n)
    (hbefore : ∀ i < k, ¬ driver.Throws (infoConnection infoString) i)
    (hthrows : driver.Throws (infoConnection infoString) k) :
    ((Database.createDatabase driver infoString n cont).result = some false ∧
        (Database.createDatabase driver infoString n cont).databaseCont = cont ∧
        ∀ isSet ∈ (Database.createDatabase driver infoString n cont).closes, isSet = true) ↔
      driver.connectThrows k (infoConnection infoString).host
        (infoConnection infoString).username (infoConnection infoString).password = false := by
  rw [createDatabase_of_throws hk hbefore hthrows]
  dsimp only
  cases hc : driver.connectThrows k (infoConnection infoString).host
      (infoConnection infoString).username (infoConnection infoString).password with
  | true => simp
  | false =>
    simp only [Bool.not_false, if_true, true_and, iff_true]
    intro isSet hmem
    rcases List.mem_append.mp hmem with hmem | hmem
    · exact List.eq_of_mem_replicate hmem
    · exact List.mem_singleton.mp hmem

/-- `setSchema` throws for the second of two connections. -/
theorem connection_failure_setSchema :
    let driver : SqlDriver := ⟨fun _ _ _ _ => false, fun i _ => i = 1⟩
    (Database.createDatabase driver "127.0.0.1;3306;quad;quad;auth" 2 fun _ => none).result =
      some false := by
  intro driver
  have hbefore : ∀ i < 1, ¬ driver.Throws (infoConnection "127.0.0.1;3306;quad;quad;auth") i := by
    intro i hi
    simp [SqlDriver.Throws, driver]
    omega
  exact ((connection_failure_iff driver "127.0.0.1;3306;quad;quad;auth" 2 (fun _ => none) 1
    (by decide) hbefore (.inr (by decide))).mpr rfl).1

/-- No server listens: the first `connect` throws, and the destructor of the connection closes a
null pointer. -/
theorem connection_failure_fails :
    let driver : SqlDriver := ⟨fun _ _ _ _ => true, fun _ _ => false⟩
    let creation := Database.createDatabase driver "127.0.0.1;3306;quad;quad;auth" 10 fun _ => none
    driver.Throws (infoConnection "127.0.0.1;3306;quad;quad;auth") 0 ∧
      creation.result = none ∧ creation.closes = [false] := by
  intro driver creation
  have hthrows : driver.Throws (infoConnection "127.0.0.1;3306;quad;quad;auth") 0 := .inl rfl
  have hcreation := createDatabase_of_throws (n := 10) (by decide) (by simp) hthrows fun _ => none
  exact ⟨hthrows, congrArg Creation.result hcreation, congrArg Creation.closes hcreation⟩

/-! ## The name of the database -/

/-- The holder that `CreateDatabase` has registered when it returns true. -/
lemma holder_of_created {info : String} {n : ℕ} {cont : DatabaseMap}
    (h : (Database.createDatabase driver info n cont).result = some true) :
    ∃ holder : DatabaseHolder,
      (Database.createDatabase driver info n cont).databaseCont =
        Function.update cont holder.database (some holder) ∧
      holder.host = (strSplit info ";").getD 0 "" ∧ holder.port = (strSplit info ";").getD 1 "" ∧
      holder.username = (strSplit info ";").getD 2 "" ∧
      holder.password = (strSplit info ";").getD 3 "" ∧
      holder.database = (strSplit info ";").getD 4 "" := by
  unfold Database.createDatabase at h ⊢
  dsimp only at h ⊢
  cases hp : ConnectionPool.new driver (infoConnection info) n with
  | ok pool => exact ⟨⟨_, _, _, _, _, n, pool⟩, rfl, rfl, rfl, rfl, rfl, rfl⟩
  | error e =>
    rw [hp] at h
    dsimp only at h
    split_ifs at h
    simp at h

/-- **The names of the databases, exactly.** For every configuration file with which `LoadDatabase`
returns true: every `QueryDatabase` that the handlers construct finds its holder, if and only if
the fifth token of the setting `AuthDatabaseInfo` is `auth`.

**Proof sketch.** The map has one entry, under that token (`holder_of_created`). -/
theorem database_names_iff (driver : SqlDriver) (text : String) (config : Config)
    (hconfig : Config.reload text = some config) (creation : Creation)
    (hstart : startDatabase driver text = some creation) (htrue : creation.result = some true) :
    (∀ name ∈ handlerDatabases, Database.getDatabase creation.databaseCont name ≠ none) ↔
      (strSplit (cStr (config.getStringDefault "AuthDatabaseInfo" "")) ";").getD 4 "" = "auth" := by
  rw [startDatabase, hconfig, Option.bind_some, loadDatabase] at hstart
  obtain ⟨size, -, hcreation⟩ := Option.map_eq_some_iff.mp hstart
  rw [← hcreation] at htrue ⊢
  obtain ⟨holder, hcont, -, -, -, -, htoken⟩ := holder_of_created htrue
  rw [hcont, htoken]
  generalize (strSplit (cStr (config.getStringDefault "AuthDatabaseInfo" "")) ";").getD 4 "" = name
  simp only [handlerDatabases, List.mem_cons, List.not_mem_nil, or_false, or_self, forall_eq,
    Database.getDatabase, Function.update_apply]
  by_cases hname : name = "auth"
  · simp [hname]
  · rw [if_neg (fun h => hname h.symm)]
    simp [hname]

/-- The settings of the database, as they are shipped but for its name. -/
def authConfig : String :=
  "[server]\n\nAuthDatabaseInfo = \"127.0.0.1;3306;quad;quad;auth\"\n" ++
    "\nAuthDatabase.ConnectionPool  = 2\n"

/-- What the start reads from a configuration file. -/
lemma startDatabase_eq (driver : SqlDriver) {text info : String} {config : Config} {size : ℤ}
    (hconfig : Config.reload text = some config)
    (hinfo : cStr (config.getStringDefault "AuthDatabaseInfo" "") = info)
    (hsize : config.getIntDefault "AuthDatabase.ConnectionPool" 10 = some size) :
    startDatabase driver text =
      some (Database.createDatabase driver info (size % 2 ^ 64).toNat fun _ => none) := by
  rw [startDatabase, hconfig, Option.bind_some, loadDatabase, hsize, hinfo]
  rfl

/-- With a database called `auth` the handlers find it. -/
theorem database_names_auth : ∃ config creation, Config.reload authConfig = some config ∧
    startDatabase .reliable authConfig = some creation ∧ creation.result = some true ∧
      ∀ name ∈ handlerDatabases, Database.getDatabase creation.databaseCont name ≠ none := by
  have hconfig : Config.reload authConfig =
      some [("authdatabase.connectionpool".toList, "2".toList),
        ("authdatabaseinfo".toList, "127.0.0.1;3306;quad;quad;auth".toList)] := by
    decide +kernel
  have hstart := startDatabase_eq .reliable hconfig
    (show _ = "127.0.0.1;3306;quad;quad;auth" by decide +kernel)
    (show _ = some 2 by decide +kernel)
  refine ⟨_, _, hconfig, hstart, rfl, ?_⟩
  exact (database_names_iff .reliable authConfig _ hconfig _ hstart rfl).mpr (by decide +kernel)

/-- The settings of the database, as they are shipped. -/
def shippedConfig : String :=
  "[server]\n\nAuthDatabaseInfo = \"127.0.0.1;3306;quad;quad;habbo\"\n" ++
    "\nAuthDatabase.ConnectionPool  = 10\n"

/-- With the settings as they are shipped the server starts, and the handlers find no database. -/
theorem database_names_fails : ∃ config creation, Config.reload shippedConfig = some config ∧
    startDatabase .reliable shippedConfig = some creation ∧ creation.result = some true ∧
      ∀ name ∈ handlerDatabases, Database.getDatabase creation.databaseCont name = none := by
  have hconfig : Config.reload shippedConfig =
      some [("authdatabase.connectionpool".toList, "10".toList),
        ("authdatabaseinfo".toList, "127.0.0.1;3306;quad;quad;habbo".toList)] := by
    decide +kernel
  have hstart := startDatabase_eq .reliable hconfig
    (show _ = "127.0.0.1;3306;quad;quad;habbo" by decide +kernel)
    (show _ = some 10 by decide +kernel)
  refine ⟨_, _, hconfig, hstart, rfl, ?_⟩
  intro name hname
  obtain rfl : name = "auth" := by simpa [handlerDatabases] using hname
  have htrue : (Database.createDatabase .reliable "127.0.0.1;3306;quad;quad;habbo" 10
    fun _ => none).result = some true := rfl
  obtain ⟨holder, hcont, -, -, -, -, htoken⟩ := holder_of_created htrue
  have hne : "auth" ≠ holder.database := by
    rw [htoken]
    decide +kernel
  show (Database.createDatabase _ _ _ _).databaseCont "auth" = none
  exact (congrFun hcont "auth").trans (Function.update_of_ne hne _ _)

end SteerStone
