import PristonTale.Common.ConfigFile
import PristonTale.Common.IntegerSettings
import PristonTale.Database.InfoString
import PristonTale.Network.Listener

set_option relaxedAutoImplicit false
set_option autoImplicit false

/-!
# The start of the authentication server

`main` (`AuthServer/main.cpp`) reads the configuration, connects to the database and starts the
listener, and then keeps the process alive. Each of these ends the start in a way of its own:
`SetFile` and `CreateDatabase` return false, `std::stoi` and the acceptor throw, a destructor of the
unwinding and `SelectWorker` dereference what is not there. Numbers are converted on the way: the
pool size to `std::size_t`, the port to `uint16`, the number of threads to `uint8`.

## Main definitions

* `SteerStone.Machine` — what the machine gives to `main`.
* `SteerStone.authMain` — `main`, up to its loop.
* `SteerStone.IntSetting` — what `GetIntDefault` returns for a setting.
* `SteerStone.Starts`, `SteerStone.Started` — a configuration with which the server starts, and what
  the server has then.

## Main results

* `SteerStone.getIntDefault_eq_some_iff` — `GetIntDefault` returns the number of the setting.
* `SteerStone.new_eq_some` — a listener has the workers it was constructed with.
* `SteerStone.serving_iff` — when the server starts, and what it has then.

## Implementation notes

* The order in which the arguments of the listener are evaluated does not matter: they have no
  effect, and if one throws, nothing else happens.
-/

namespace SteerStone

open Foundations Config

/-- What the machine gives to `main`. -/
structure Machine where
  /-- The files. -/
  files : Files
  /-- The MySQL driver. -/
  driver : SqlDriver
  /-- The acceptor can be constructed: the text is an address, and the port can be bound there. -/
  listens : String → ℕ → Bool

/-- How `main` gets on. -/
inductive Startup where
  /-- It returns -1. -/
  | returned
  /-- An exception leaves it. -/
  | terminated
  /-- It dereferences what is not there: a connection that was not made, or the first of no
  workers. -/
  | faulted
  /-- It comes to its loop. -/
  | serving (databaseCont : DatabaseMap) (listener : Listener) (port : ℕ)

/-- `DEFAULT_AUTH_PORT`. -/
def defaultAuthPort : ℤ := 10009

/-- The construction of the listener: of the acceptor, then of the workers, then the first
`BeginAccept`. -/
def startListener (M : Machine) (config : Config) (databaseCont : DatabaseMap)
    (port workerThreads : ℤ) : Startup :=
  if M.listens (config.getStringDefault "BindIP" "127.0.0.1") (port % 2 ^ 16).toNat then
    match Listener.new (workerThreads % 2 ^ 8).toNat with
    | some listener => .serving databaseCont listener (port % 2 ^ 16).toNat
    | none => .faulted
  else .terminated

/-- **`main`**, up to its loop. -/
def authMain (M : Machine) : Startup :=
  match ConfigFile.setFile M.files "authserver.conf" ⟨"", []⟩ with
  | (false, _) => .returned
  | (true, ⟨_, config⟩) =>
    match loadDatabase M.driver config fun _ => none with
    | none => .terminated
    | some ⟨none, _, _⟩ => .faulted
    | some ⟨some false, _, _⟩ => .returned
    | some ⟨some true, databaseCont, _⟩ =>
      match config.getIntDefault "AuthServerPort" defaultAuthPort,
        config.getIntDefault "NetworkThreadProcessors" 1 with
      | some port, some workerThreads => startListener M config databaseCont port workerThreads
      | _, _ => .terminated

/-! ## The settings -/

/-- The number of a setting: the one that its text begins with, which is an `int32`, or the default
where there is no setting. -/
def IntSetting (config : Config) (name : String) (default n : ℤ) : Prop :=
  match List.lookup (toLowerCopy name.toList) config with
  | none => n = default
  | some value => BeginsWith value n ∧ IsInt32 n

/-- **`GetIntDefault` returns the number of the setting**, and throws where there is none. -/
lemma getIntDefault_eq_some_iff {config : Config} {name : String} {d : Int32} {n : ℤ} :
    config.getIntDefault name d.toInt = some n ↔ IntSetting config name d.toInt n := by
  unfold getIntDefault getStringDefault IntSetting
  cases hlookup : List.lookup (toLowerCopy name.toList) config with
  | none =>
    dsimp only
    rw [stoi_toString, Option.some.injEq, eq_comm]
  | some value =>
    dsimp only
    rw [String.toList_ofList]
    exact stoi_eq_some_iff

/-- **A configuration with which the server starts.** -/
structure Starts (M : Machine) (config : Config) (size port workerThreads : ℤ) : Prop where
  /-- The pool size is a number. -/
  sizeRead : IntSetting config "AuthDatabase.ConnectionPool" 10 size
  /-- The port is a number. -/
  portRead : IntSetting config "AuthServerPort" defaultAuthPort port
  /-- The number of threads is a number. -/
  threadsRead : IntSetting config "NetworkThreadProcessors" 1 workerThreads
  /-- The driver does not throw while the pool is filled. -/
  connected : ∀ i < (size % 2 ^ 64).toNat,
    ¬ M.driver.Throws (infoConnection (cStr (config.getStringDefault "AuthDatabaseInfo" ""))) i
  /-- The acceptor can be constructed. -/
  listens : M.listens (config.getStringDefault "BindIP" "127.0.0.1") (port % 2 ^ 16).toNat = true
  /-- The number of threads is no multiple of 256. -/
  threads : workerThreads % 2 ^ 8 ≠ 0

/-- **What a server has that has started**, with the settings of the port and of the number of
threads. -/
structure Started (config : Config) (setting workerThreads : ℤ) (cont : DatabaseMap) (l : Listener)
    (port : ℕ) : Prop where
  /-- The port is the one of the setting, as a `uint16`. -/
  port_eq : (port : ℤ) = setting % 2 ^ 16
  /-- There are as many workers as the setting says, as a `uint8`. -/
  workers : (l.workerThreads.length : ℤ) = workerThreads % 2 ^ 8
  /-- One accept is outstanding. -/
  accepting : l.Accepting ∧ l.terminated = false
  /-- The handlers find their database exactly when it is called `auth`. -/
  databases : (∀ name ∈ handlerDatabases, Database.getDatabase cont name ≠ none) ↔
    (strSplit (cStr (config.getStringDefault "AuthDatabaseInfo" "")) ";").getD 4 "" = "auth"

/-! ## The listener -/

/-- A worker gets a socket, and their number stays. -/
lemma length_of_beginAccept {l l' : Listener} (h : l.beginAccept = some l') :
    l'.workerThreads.length = l.workerThreads.length := by
  obtain ⟨worker, -, rfl⟩ := Option.map_eq_some_iff.mp h
  exact List.length_modify _ _ _

/-- **A listener has the workers it was constructed with**, and is accepting; there has to be one
worker. -/
theorem new_eq_some {n : ℕ} (hn : n ≠ 0) : ∃ l, Listener.new n = some l ∧
    l.workerThreads.length = n ∧ l.Accepting ∧ l.terminated = false := by
  have hworkers : List.replicate n (⟨[]⟩ : NetworkThread) ≠ [] := by simpa using hn
  obtain ⟨worker, hworker⟩ := Listener.exists_selectWorker
    (l := ⟨List.replicate n ⟨[]⟩, [], 0, false⟩) hworkers
  have hnew : ∃ l, Listener.new n = some l := by
    unfold Listener.new Listener.beginAccept
    rw [hworker]
    exact ⟨_, rfl⟩
  obtain ⟨l, hl⟩ := hnew
  refine ⟨l, hl, ?_, Listener.accepting_new hl⟩
  rw [length_of_beginAccept hl]
  exact List.length_replicate

/-- There is no listener without workers. -/
lemma new_zero : Listener.new 0 = none := rfl

/-! ## The start -/

/-- What `SetFile` gives, when it succeeds, are the entries of the file. -/
lemma setFile_eq_true_iff {files : Files} {file name : String} {config : Config} :
    ConfigFile.setFile files file ⟨"", []⟩ = (true, ⟨name, config⟩) ↔
      name = file ∧ (files file).bind Config.reload = some config := by
  unfold ConfigFile.setFile ConfigFile.reload
  dsimp only
  cases (files file).bind Config.reload with
  | none => simp
  | some entries => simp [eq_comm]

/-- `main` comes to its loop when each of its steps gives what the next one needs. -/
lemma authMain_eq_serving_iff {M : Machine} {cont : DatabaseMap} {l : Listener} {p : ℕ} :
    authMain M = .serving cont l p ↔
      ∃ config creation port workerThreads,
        (M.files "authserver.conf").bind Config.reload = some config ∧
        loadDatabase M.driver config (fun _ => none) = some creation ∧
        creation.result = some true ∧ creation.databaseCont = cont ∧
        config.getIntDefault "AuthServerPort" defaultAuthPort = some port ∧
        config.getIntDefault "NetworkThreadProcessors" 1 = some workerThreads ∧
        M.listens (config.getStringDefault "BindIP" "127.0.0.1") (port % 2 ^ 16).toNat = true ∧
        Listener.new (workerThreads % 2 ^ 8).toNat = some l ∧ p = (port % 2 ^ 16).toNat := by
  unfold authMain startListener
  constructor
  · intro h
    split at h
    case h_1 => cases h
    case h_2 name config hfile =>
      split at h
      case h_1 => cases h
      case h_2 => cases h
      case h_3 => cases h
      case h_4 databaseCont closes hload =>
        split at h
        case h_1 port workerThreads hport hworkers =>
          split_ifs at h with hlistens
          split at h
          case h_1 listener hlistener =>
            obtain ⟨rfl, rfl, rfl⟩ := Startup.serving.inj h
            exact ⟨config, _, port, workerThreads, (setFile_eq_true_iff.mp hfile).2, hload, rfl,
              rfl, hport, hworkers, hlistens, hlistener, rfl⟩
          case h_2 => cases h
        case h_2 => cases h
  · rintro ⟨config, ⟨_, _, closes⟩, port, workerThreads, hfile, hload, rfl, rfl, hport, hworkers,
      hlistens, hlistener, rfl⟩
    simp only [setFile_eq_true_iff.mpr ⟨rfl, hfile⟩, hload, hport, hworkers, hlistens, if_true,
      hlistener]

/-- A configuration with which the server starts, by what `GetIntDefault` returns. -/
lemma starts_of_getIntDefault {M : Machine} {config : Config} {size port workerThreads : ℤ}
    (hsize : config.getIntDefault "AuthDatabase.ConnectionPool" 10 = some size)
    (hport : config.getIntDefault "AuthServerPort" defaultAuthPort = some port)
    (hthreads : config.getIntDefault "NetworkThreadProcessors" 1 = some workerThreads)
    (hconnected : ∀ i < (size % 2 ^ 64).toNat, ¬ M.driver.Throws
      (infoConnection (cStr (config.getStringDefault "AuthDatabaseInfo" ""))) i)
    (hlistens : M.listens (config.getStringDefault "BindIP" "127.0.0.1")
      (port % 2 ^ 16).toNat = true)
    (hne : workerThreads % 2 ^ 8 ≠ 0) : Starts M config size port workerThreads :=
  ⟨getIntDefault_eq_some_iff (d := 10) |>.mp hsize,
    getIntDefault_eq_some_iff (d := 10009) |>.mp hport,
    getIntDefault_eq_some_iff (d := 1) |>.mp hthreads, hconnected, hlistens, hne⟩

/-- What `main` comes to its loop with.

**Proof sketch.** Each step of `main` gives what the next one needs (`authMain_eq_serving_iff`), and
each has been settled on its own: the settings (`getIntDefault_eq_some_iff`), the database
(`createDatabase_result_iff`, `holder_of_created`) and the listener (`new_eq_some`). -/
lemma started_of_serving {M : Machine} {cont : DatabaseMap} {l : Listener} {p : ℕ}
    (h : authMain M = .serving cont l p) :
    ∃ config size port workerThreads,
      (M.files "authserver.conf").bind Config.reload = some config ∧
      Starts M config size port workerThreads ∧ Started config port workerThreads cont l p := by
  obtain ⟨config, creation, port, workerThreads, hfile, hload, hresult, rfl, hport, hthreads,
    hlistens, hlistener, rfl⟩ := authMain_eq_serving_iff.mp h
  obtain ⟨size, hsize, hcreation⟩ := Option.map_eq_some_iff.mp hload
  subst hcreation
  have hne : (workerThreads % 2 ^ 8).toNat ≠ 0 := by
    intro hzero
    rw [hzero, new_zero] at hlistener
    cases hlistener
  obtain ⟨l', hnew, hlength, haccepting⟩ := new_eq_some hne
  obtain rfl := Option.some.inj (hnew.symm.trans hlistener)
  refine ⟨config, size, port, workerThreads, hfile, starts_of_getIntDefault hsize hport hthreads
    ((createDatabase_result_iff _ _ _ _).mp hresult) hlistens (by omega), ?_, ?_, haccepting, ?_⟩
  · omega
  · rw [hlength]
    omega
  · obtain ⟨holder, hcont, -, -, -, -, htoken⟩ := holder_of_created hresult
    rw [← htoken, hcont]
    simp only [handlerDatabases, List.mem_cons, List.not_mem_nil, or_false, or_self, forall_eq,
      Database.getDatabase, Function.update_apply]
    by_cases hname : holder.database = "auth"
    · simp [hname]
    · rw [if_neg fun h => hname h.symm]
      simp [hname]

/-- With such a configuration `main` comes to its loop. -/
lemma serving_of_starts {M : Machine} {config : Config} {size port workerThreads : ℤ}
    (hfile : (M.files "authserver.conf").bind Config.reload = some config)
    (h : Starts M config size port workerThreads) :
    ∃ cont l p, authMain M = .serving cont l p := by
  have hne : (workerThreads % 2 ^ 8).toNat ≠ 0 := by
    have hthreads := h.threads
    omega
  obtain ⟨l, hnew, -⟩ := new_eq_some hne
  have hsize : config.getIntDefault "AuthDatabase.ConnectionPool" 10 = some size :=
    getIntDefault_eq_some_iff (d := 10) |>.mpr h.sizeRead
  have hload : loadDatabase M.driver config (fun _ => none) = some _ :=
    Option.map_eq_some_iff.mpr ⟨size, hsize, rfl⟩
  refine ⟨_, l, _, authMain_eq_serving_iff.mpr ⟨config, _, port, workerThreads, hfile, hload, ?_,
    rfl, ?_, ?_, h.listens, hnew, rfl⟩⟩
  · exact (createDatabase_result_iff _ _ _ _).mpr h.connected
  · exact getIntDefault_eq_some_iff (d := 10009) |>.mpr h.portRead
  · exact getIntDefault_eq_some_iff (d := 1) |>.mpr h.threadsRead

/-- **The start of the authentication server, exactly.** For all files, every behaviour of the MySQL
driver and every acceptor: `main` comes to its loop if and only if `authserver.conf` can be read,
the settings of the pool size, the port and the number of threads are absent or begin with an
`int32`, the driver throws for none of the connections of the pool (their number as a
`std::size_t`), the acceptor can be constructed (with the port as a `uint16`), and the number of
threads is no multiple of 256. Then there are as many workers as that number modulo 256, one accept
is outstanding, and the handlers find their database exactly when the fifth token of
`AuthDatabaseInfo` is `auth`.

**Proof sketch.** The conditions are those of the calls that `main` makes before its loop, one after
the other (`started_of_serving`, `serving_of_starts`). -/
theorem serving_iff (M : Machine) :
    ((∃ cont l port, authMain M = .serving cont l port) ↔
      ∃ config size port workerThreads,
        (M.files "authserver.conf").bind Config.reload = some config ∧
        Starts M config size port workerThreads) ∧
    ∀ cont l port, authMain M = .serving cont l port →
      ∃ config size setting workerThreads,
        (M.files "authserver.conf").bind Config.reload = some config ∧
        Starts M config size setting workerThreads ∧
        Started config setting workerThreads cont l port := by
  refine ⟨⟨fun ⟨cont, l, port, h⟩ => ?_, ?_⟩, fun cont l port h => started_of_serving h⟩
  · obtain ⟨config, size, setting, workerThreads, hfile, hstarts, -⟩ := started_of_serving h
    exact ⟨config, size, setting, workerThreads, hfile, hstarts⟩
  · rintro ⟨config, size, port, workerThreads, hfile, hstarts⟩
    exact serving_of_starts hfile hstarts

/-- A file with the settings of the database, and everything else by default. -/
theorem serving_iff_auth :
    ∃ cont l port,
      authMain ⟨fun _ => some authConfig, .reliable, fun _ _ => true⟩ = .serving cont l port ∧
      ∃ config, Config.reload authConfig = some config ∧
        (l.workerThreads.length : ℤ) = 1 := by
  set M : Machine := ⟨fun _ => some authConfig, .reliable, fun _ _ => true⟩ with hM
  have hconfig : Config.reload authConfig =
      some [("authdatabase.connectionpool".toList, "2".toList),
        ("authdatabaseinfo".toList, "127.0.0.1;3306;quad;quad;auth".toList)] := by
    decide +kernel
  have hthreads : Config.getIntDefault [("authdatabase.connectionpool".toList, "2".toList),
      ("authdatabaseinfo".toList, "127.0.0.1;3306;quad;quad;auth".toList)]
      "NetworkThreadProcessors" 1 = some 1 := by
    decide +kernel
  have hstarts := starts_of_getIntDefault (M := M) (show _ = some 2 by decide +kernel)
    (show _ = some 10009 by decide +kernel) hthreads
    (fun i _ hthrows => by simp [SqlDriver.Throws, hM, SqlDriver.reliable] at hthrows) rfl
    (by decide)
  obtain ⟨cont, l, port, h⟩ := (serving_iff M).1.mpr ⟨_, 2, 10009, 1, hconfig, hstarts⟩
  obtain ⟨config, size, setting, workerThreads, hfile, hstarts', hstarted⟩ :=
    (serving_iff M).2 cont l port h
  have hsame := Option.some.inj (hconfig.symm.trans hfile)
  subst hsame
  have hone : workerThreads = 1 := by
    have hread := getIntDefault_eq_some_iff (d := 1) |>.mpr hstarts'.threadsRead
    exact Option.some.inj (hread.symm.trans hthreads)
  refine ⟨cont, l, port, h, _, hconfig, ?_⟩
  rw [hstarted.workers, hone]
  rfl

end SteerStone
