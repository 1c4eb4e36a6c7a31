import PristonTale.Auth.Framing
import PristonTale.Auth.LoginTrace
import PristonTale.Auth.Replies

set_option relaxedAutoImplicit false
set_option autoImplicit false

/-!
# What a client learns about passwords

Two-run noninterference of the whole server side of a connection: what the server does for the
packets it dispatches is decided by the handler each selects, the user name of a login, whether its
password is that of the account, and the length of a ping. Two wrong passwords cannot be told apart,
and the password sent for a user that does not exist is not even read.

The bytes that are sent without having been assigned are another matter
(`PristonTale.Auth.Noninterference`): the temporaries of a login have been on the same stack, so
they may hold anything, a password included. So the memory is any in each run and for each packet.
What is shown is that the handlers do the same as a function of it: they execute the same
statements, send packets of the same sizes, and assign the same bytes in them.

## Main definitions

* `SteerStone.verdict` — what the check of a password says.
* `SteerStone.Observation`, `SteerStone.observation` — what is observed of a packet.
* `SteerStone.Environment.UpToStack` — environments that differ in what the stack holds.
* `SteerStone.Leftovers` — what the stack holds where the packets of a connection are built.
* `SteerStone.conduct`, `SteerStone.writtenOver` — what is done and written, as it depends on that.
* `SteerStone.Assigned` — a byte that does not depend on it.

## Main results

* `SteerStone.run_executePacket_congr` — packets that are observed alike are handled alike.
* `SteerStone.blank_executePacket` — what is done does not depend on the stack, but for the bytes
  that are sent.
* `SteerStone.executePacket_withFlags` — nor does it depend on flags that are not set yet.
* `SteerStone.password_secrecy` — connections that are observed alike are answered alike.
-/

namespace SteerStone

open Foundations

/-- What the check of the password of a login says, if it comes to it. -/
def verdict (env : Environment) (packet : List UInt8) : Option Bool := do
  let user ← userID packet
  let row ← (accountRows env user).head?
  let pass ← password packet
  return passwordHash env user pass = some (row.text 3)

/-- What is observed of a packet dispatched. -/
structure Observation where
  /-- The handler. -/
  handler : Handler
  /-- The user name of a login. -/
  user : Option (List UInt8)
  /-- What the check of its password says. -/
  verdict : Option Bool
  /-- The length of a ping. -/
  length : ℕ
  deriving DecidableEq

/-- What is observed of a packet that a handler is run for. -/
def observation (env : Environment) (handler : Handler) (packet : List UInt8) : Observation :=
  match handler with
  | .handleLoginUser => ⟨.handleLoginUser, userID packet, verdict env packet, 0⟩
  | .handlePing => ⟨.handlePing, none, none, ownLength packet⟩
  | handler => ⟨handler, none, none, 0⟩

variable {env : Environment} {packet packet' : List UInt8}

/-! ## One packet -/

/-- The first statement depends on the user name only. -/
lemma findAccount_congr (hu : userID packet = userID packet') :
    findAccount env packet = findAccount env packet' := by
  rw [findAccount, findAccount, hu]

/-- Once an account was selected, logins with the same verdict go on alike.

**Proof sketch.** If one password has no end neither has the other, and both stop. If both have,
they are hashed, and all that is used of the hashes is whether they are what is stored. -/
lemma run_checkPassword_congr {user : List UInt8} {row : Row} {rest : List Row} {k n : ℕ}
    {st : Option PreparedStatement} {rs : Option ResultSet} {b b' : Bool}
    (hu : userID packet = some user) (hu' : userID packet' = some user)
    (hrows : accountRows env user = row :: rest)
    (hverdict : verdict env packet = verdict env packet') :
    (checkPassword env packet ⟨st, rs, some ⟨some row, rest, k⟩, b, b'⟩).run n =
      (checkPassword env packet' ⟨st, rs, some ⟨some row, rest, k⟩, b, b'⟩).run n := by
  simp only [verdict, hu, hu', hrows, List.head?_cons, Option.bind_eq_bind, Option.bind_some,
    Option.pure_def] at hverdict
  cases hp : password packet with
  | none =>
    cases hp' : password packet' with
    | none => rw [checkPassword, checkPassword, hu, hu', hp, hp']
    | some pass' => simp [hp, hp'] at hverdict
  | some pass =>
    cases hp' : password packet' with
    | none => simp [hp, hp'] at hverdict
    | some pass' =>
      simp only [hp, hp', Option.bind_some, Option.some.injEq, decide_eq_decide] at hverdict
      have hhash := calculateSHA1Hash_eq env.sha1 (toUpper (user ++ [58] ++ pass))
      have hhash' := calculateSHA1Hash_eq env.sha1 (toUpper (user ++ [58] ++ pass'))
      rw [passwordHash, passwordHash, hhash, hhash'] at hverdict
      rw [checkPassword, checkPassword, run_orStop_bind hu, run_orStop_bind hp,
        run_orStop_bind hhash, run_orStop_bind hu', run_orStop_bind hp', run_orStop_bind hhash']
      refine Program.run_bind_congr fun shaPass t hreturns => ?_
      obtain rfl : shaPass = row.text 3 := (Result.returns_getString.mp hreturns).2.1
      simp only [Option.some.injEq] at hverdict
      simp only [ne_eq, hverdict]

/-- Logins with the same user name and the same verdict are handled alike. -/
lemma run_handleLoginUser_congr (hu : userID packet = userID packet')
    (hverdict : verdict env packet = verdict env packet') :
    (handleLoginUser env packet).run 0 = (handleLoginUser env packet').run 0 := by
  rw [handleLoginUser_eq, handleLoginUser_eq, findAccount_congr hu]
  refine Program.run_bind_congr fun x t hx => ?_
  obtain ⟨-, -, user, hu', rfl⟩ := returns_findAccount.mp hx
  cases hrows : accountRows env user with
  | nil => rfl
  | cons row rest => exact run_checkPassword_congr (hu.trans hu') hu' hrows hverdict

/-- A ping is handled by its length. -/
lemma handlePing_congr (h : ownLength packet = ownLength packet') :
    handlePing env packet = handlePing env packet' := by
  unfold ownLength at h
  rw [handlePing, handlePing, h]

/-- The handler is observed. -/
lemma observation_handler (handler : Handler) (packet : List UInt8) :
    (observation env handler packet).handler = handler := by
  cases handler <;> rfl

/-- **Packets that are observed alike are handled alike**: the events are the same, and so is how
the handler ends. -/
theorem run_executePacket_congr {handler handler' : Handler}
    (h : observation env handler packet = observation env handler' packet') :
    (executePacket env handler packet).run 0 = (executePacket env handler' packet').run 0 := by
  obtain rfl : handler = handler' := by
    have hsame := congrArg Observation.handler h
    rwa [observation_handler, observation_handler] at hsame
  cases handler with
  | handleLoginUser =>
    exact run_handleLoginUser_congr (congrArg Observation.user h) (congrArg Observation.verdict h)
  | handlePing => exact congrArg (·.run 0) (handlePing_congr (congrArg Observation.length h))
  | handleServerMessage | handleNULL => rfl

/-! ## What the stack holds -/

/-- An event with the bytes it sends blanked. -/
def Event.blank : Event → Event
  | .send size length bytes => .send size length (bytes.map fun _ => 0)
  | e => e

/-- What is left of bytes that were read from memory when they are blanked is their number. -/
lemma map_zero_read (mem mem' : Memory) (offset n : ℕ) :
    (mem.read offset n).map (fun _ => (0 : UInt8)) = (mem'.read offset n).map fun _ => 0 := by
  rw [List.map_const', List.map_const', Memory.length_read, Memory.length_read]

/-- Two packets sent of which the same number of bytes is sent are alike when they are blanked. -/
lemma blank_sendPacket (size n : ℕ) {mem mem' : Memory} {length length' : ℕ}
    (h : length = length') :
    ((sendPacket size mem length).events n).map Event.blank =
      ((sendPacket size mem' length').events n).map Event.blank := by
  subst h
  simp only [events_sendPacket, List.map_cons, List.map_nil, Event.blank,
    map_zero_read mem mem' 0 length]

section Blank

variable (env : Environment) (packet : List UInt8) (stale stale' : LocalObject → Memory)

/-- A packet that is sent before something else. -/
lemma blank_sendPacket_bind (size : ℕ) {mem mem' : Memory} {length length' n : ℕ}
    (h : length = length') {α : Type} {f g : Unit → Action α}
    (hfg : ((f ()).events n).map Event.blank = ((g ()).events n).map Event.blank) :
    ((sendPacket size mem length >>= f).events n).map Event.blank =
      ((sendPacket size mem' length' >>= g).events n).map Event.blank := by
  have hreturns : ∀ mem length, (sendPacket size mem length).Returns n () n :=
    fun _ _ => returns_sendPacket.mpr rfl
  have hsent : ((sendPacket size mem length).events n).map Event.blank =
      ((sendPacket size mem' length').events n).map Event.blank := blank_sendPacket size n h
  rw [Program.events_bind_of_returns f (hreturns mem length),
    Program.events_bind_of_returns g (hreturns mem' length'), List.map_append, List.map_append,
    hsent, hfg]

/-- The list of servers is sent or not whatever the stack held, and has the same length.

**Proof sketch.** What the loop does with the driver and with the frame does not depend on what is
in the list (`returns_writeServers`), and the length is that of the number of realms
(`length_serverList`). -/
lemma blank_sendServerList (row : Row) (rest : List Row) (n : ℕ) :
    ((sendServerList (env.withStale stale)
        (some ⟨some row, rest, rest.length + 1⟩)).events n).map Event.blank =
      ((sendServerList (env.withStale stale')
        (some ⟨some row, rest, rest.length + 1⟩)).events n).map Event.blank := by
  refine Program.map_events_bind_congr fun serverName t hname => ?_
  obtain ⟨-, rfl, -⟩ := Result.returns_getString.mp hname
  refine Program.map_events_bind_congr fun _ t _ => ?_
  refine Program.map_events_bind_congr fun rowCount t hcount => ?_
  obtain ⟨-, rfl, -⟩ := Result.returns_getRowCount.mp hcount
  simp only [orStop_some_bind, Environment.driver_withStale, Environment.room_withStale]
  by_cases hloop : env.driver.Quiet t (t + 5 * (rest.length + 1)) ∧
      ServersFit (env.room .serverList packetServerList.sizeof) row rest 0
  · -- the loop returns, and the two lists have the same length
    have hreturns : ∀ mem, (writeServers env.driver
        (env.room .serverList packetServerList.sizeof) (rest.length + 1) row rest 0 mem).Returns t
          (serversMemory row rest 0 mem) (t + 5 * (rest.length + 1)) :=
      fun mem => returns_writeServers.mpr ⟨hloop.1, hloop.2, rfl, rfl⟩
    have hlength : ∀ s, (serverList (env.withStale s) row rest).load 2 PacketStruct.length =
        (44 + 108 * (rest.length + 1)) % 2 ^ 16 := fun s => length_serverList _ _ _
    rw [Program.events_bind_of_returns _ (hreturns _),
      Program.events_bind_of_returns _ (hreturns _), events_writeServers, events_writeServers,
      List.nil_append, List.nil_append]
    exact blank_sendPacket _ _ ((hlength stale).trans (hlength stale').symm)
  · -- the loop stops, and has no events
    have hstops : ∀ mem mem' m, ¬ (writeServers env.driver
        (env.room .serverList packetServerList.sizeof) (rest.length + 1) row rest 0 mem).Returns t
          mem' m := by
      intro mem mem' m h
      obtain ⟨hquiet, hfits, -⟩ := returns_writeServers.mp h
      exact hloop ⟨hquiet, hfits⟩
    rw [Program.events_bind_of_stops _ (hstops _), Program.events_bind_of_stops _ (hstops _),
      events_writeServers, events_writeServers]

/-- The statement for the realms is executed whatever the stack held. -/
lemma findRealms_withStale : findRealms (env.withStale stale) = findRealms env := rfl

/-- `SendUserSuccess` does the same whatever the stack held, but for the bytes it sends. -/
lemma blank_sendUserSuccess (row : Row) (rest : List Row) (k : ℕ) :
    ((sendUserSuccess (env.withStale stale) (some ⟨some row, rest, k⟩)).events 11).map
        Event.blank =
      ((sendUserSuccess (env.withStale stale') (some ⟨some row, rest, k⟩)).events 11).map
        Event.blank := by
  rw [sendUserSuccess_eq, sendUserSuccess_eq]
  refine Program.map_events_bind_congr fun userName t hname => ?_
  obtain ⟨-, -, rfl⟩ := Result.returns_getString.mp hname
  refine Program.map_events_bind_congr fun _ t hroom => ?_
  obtain ⟨-, rfl⟩ := returns_withinFrame.mp hroom
  have hlength : ∀ s : Memory, (packetUser s userName).load 2 PacketStruct.length = 1484 :=
    fun s => length_packetUser s userName
  refine blank_sendPacket_bind _ ((hlength _).trans (hlength _).symm) ?_
  rw [findRealms_withStale, findRealms_withStale]
  refine Program.map_events_bind_congr fun x t hx => ?_
  obtain ⟨-, -, rfl⟩ := returns_findRealms.mp hx
  cases hrealms : realmRows env with
  | nil => simp only [QueryDatabase.fetched, Bool.false_eq_true, if_false]
  | cons realm realms =>
    simp only [QueryDatabase.fetched, QueryDatabase.fetch, if_true]
    exact blank_sendServerList env stale stale' realm realms t

/-- A login that is accepted does the same whatever the stack held, but for the bytes it sends. -/
lemma blank_answerLogin (st : PreparedStatement) (rs : Option ResultSet) (b b' : Bool) (row : Row)
    (rest : List Row) (k : ℕ) :
    ((answerLogin (env.withStale stale) ⟨some st, rs, some ⟨some row, rest, k⟩, b, b'⟩
        (some ⟨some row, rest, k⟩)).events 6).map Event.blank =
      ((answerLogin (env.withStale stale') ⟨some st, rs, some ⟨some row, rest, k⟩, b, b'⟩
        (some ⟨some row, rest, k⟩)).events 6).map Event.blank := by
  rw [answerLogin_eq, answerLogin_eq]
  refine blank_sendPacket_bind _ ((length_packetCheck _).trans (length_packetCheck _).symm) ?_
  refine Program.map_events_bind_congr fun db t hprepare => ?_
  obtain ⟨-, rfl, rfl⟩ := returns_prepareUpdate.mp hprepare
  refine Program.map_events_bind_congr fun db t hexecute => ?_
  obtain ⟨-, rfl⟩ := QueryDatabase.returns_executeQuery.mp hexecute
  exact blank_sendUserSuccess env stale stale' row rest k

/-- A login does the same whatever the stack held, but for the bytes it sends. -/
lemma blank_handleLoginUser :
    ((handleLoginUser (env.withStale stale) packet).events 0).map Event.blank =
      ((handleLoginUser (env.withStale stale') packet).events 0).map Event.blank := by
  rw [handleLoginUser_eq, handleLoginUser_eq]
  refine Program.map_events_bind_congr fun x t hx => ?_
  obtain ⟨-, rfl, user, -, rfl⟩ := returns_findAccount.mp hx
  have hlength : ∀ s error, (accountLogin s error).load 2 PacketStruct.length = 276 :=
    length_accountLogin
  cases hrows : accountRows (env.withStale stale) user with
  | nil => exact blank_sendPacket _ _ ((hlength _ _).trans (hlength _ _).symm)
  | cons row rest =>
    refine Program.map_events_bind_congr fun user t huser => ?_
    obtain ⟨-, rfl⟩ := returns_orStop.mp huser
    refine Program.map_events_bind_congr fun pass t hpass => ?_
    obtain ⟨-, rfl⟩ := returns_orStop.mp hpass
    refine Program.map_events_bind_congr fun hash t hhash => ?_
    obtain ⟨-, rfl⟩ := returns_orStop.mp hhash
    refine Program.map_events_bind_congr fun shaPass t hread => ?_
    obtain ⟨-, -, rfl⟩ := Result.returns_getString.mp hread
    by_cases hne : hash ≠ shaPass
    · rw [if_pos hne, if_pos hne]
      exact blank_sendPacket _ _ ((hlength _ _).trans (hlength _ _).symm)
    · rw [if_neg hne, if_neg hne]
      exact blank_answerLogin env stale stale' _ _ _ _ row rest _

/-- A ping does the same whatever the stack held, but for the bytes it sends. -/
lemma blank_handlePing :
    ((handlePing (env.withStale stale) packet).events 0).map Event.blank =
      ((handlePing (env.withStale stale') packet).events 0).map Event.blank := by
  have hlength : ∀ s : Memory,
      (s.store env.pointerSize.bytes 0 env.packetAddress).load 2 PacketStruct.length =
        env.packetAddress % 65536 := fun s => load_length_pointer (env.withStale fun _ => s)
  have hping : ∀ s, handlePing (env.withStale s) packet =
      if env.packetAddress % 65536 ≠ packetPing.sizeof then pure ()
      else if env.pongTimer < env.serverTime - env.pingDiff then .emit .closeSocket
      else sendPacket env.pointerSize.bytes (pongMemory (env.withStale s))
        (leNat (packet.take 2)) := fun s => by
    rw [← hlength (s .packetPointer)]
    rfl
  rw [hping, hping]
  split_ifs
  · rfl
  · rfl
  · exact blank_sendPacket _ _ rfl

/-- **What is done with a packet does not depend on what the stack held**, but for the bytes that
are sent: the same statements are executed, and packets of the same sizes sent. -/
theorem blank_executePacket (handler : Handler) :
    ((executePacket (env.withStale stale) handler packet).events 0).map Event.blank =
      ((executePacket (env.withStale stale') handler packet).events 0).map Event.blank := by
  cases handler with
  | handleLoginUser => exact blank_handleLoginUser env packet stale stale'
  | handlePing => exact blank_handlePing env packet stale stale'
  | handleServerMessage | handleNULL => rfl

end Blank

/-! ## The flags of a query -/

/-- The environment with other values in the flags of query objects before they are set. -/
def Environment.withFlags (env : Environment) (flags : Bool × Bool) : Environment :=
  { env with staleFlags := flags }

/-- `SendUserSuccess` does not depend on the flags. -/
lemma sendUserSuccess_withFlags (env : Environment) (flags : Bool × Bool) (result : Result) :
    sendUserSuccess (env.withFlags flags) result = sendUserSuccess env result := by
  refine bind_congr fun userName => bind_congr fun _ => bind_congr fun _ => ?_
  refine QueryDatabase.new_prepareQuery_congr fun db => ?_
  refine QueryDatabase.executeQuery_congr fun db => ?_
  refine QueryDatabase.getResult_congr fun found db => ?_
  cases found with
  | false => rfl
  | true => rfl

/-- Nor does the end of `HandleLoginUser`. -/
lemma answerLogin_withFlags (env : Environment) (flags : Bool × Bool) {b c : Bool}
    (db : QueryDatabase) (result : Result) :
    answerLogin (env.withFlags flags) (db.withExecuteResult b) result =
      answerLogin env (db.withExecuteResult c) result := by
  refine bind_congr fun _ => ?_
  refine QueryDatabase.clearParameters_congr fun db => ?_
  refine QueryDatabase.prepareQuery_congr fun db => bind_congr fun id => ?_
  refine QueryDatabase.setParameter_congr fun db => ?_
  refine QueryDatabase.executeQuery_congr fun db => ?_
  exact sendUserSuccess_withFlags env flags result

/-- Nor does what it does once an account was selected. -/
lemma checkPassword_withFlags (env : Environment) (flags : Bool × Bool) (packet : List UInt8)
    {b c : Bool} (db : QueryDatabase) :
    checkPassword (env.withFlags flags) packet (db.withExecuteResult b) =
      checkPassword env packet (db.withExecuteResult c) := by
  refine bind_congr fun user => bind_congr fun pass => bind_congr fun hash => ?_
  refine bind_congr fun shaPass => ?_
  by_cases hne : hash ≠ shaPass
  · rw [if_pos hne, if_pos hne]
    rfl
  · rw [if_neg hne, if_neg hne]
    exact answerLogin_withFlags env flags db _

/-- `HandleLoginUser` does not depend on the flags.

**Proof sketch.** `PrepareQuery` comes first, and sets the flag that `GetResult` reads
(`QueryDatabase.new_prepareQuery_congr`). What is left in the other is carried along and not
read. -/
lemma handleLoginUser_withFlags (env : Environment) (flags : Bool × Bool) (packet : List UInt8) :
    handleLoginUser (env.withFlags flags) packet = handleLoginUser env packet := by
  rw [handleLoginUser_eq, handleLoginUser_eq]
  simp only [findAccount, Program.bind_assoc]
  refine QueryDatabase.new_prepareQuery_congr fun db => bind_congr fun user => ?_
  refine QueryDatabase.setParameter_congr fun db => ?_
  refine QueryDatabase.executeQuery_congr fun db => ?_
  refine QueryDatabase.getResult_congr fun found db => ?_
  cases found with
  | false =>
    rw [if_neg Bool.false_ne_true, if_neg Bool.false_ne_true]
    rfl
  | true =>
    rw [if_pos rfl, if_pos rfl]
    exact checkPassword_withFlags env flags packet db

/-- **What is done with a packet does not depend on the flags that a query object starts with**:
they are set before they are read. -/
theorem executePacket_withFlags (env : Environment) (flags : Bool × Bool) (handler : Handler)
    (packet : List UInt8) :
    executePacket (env.withFlags flags) handler packet = executePacket env handler packet := by
  cases handler with
  | handleLoginUser => exact handleLoginUser_withFlags env flags packet
  | handlePing | handleServerMessage | handleNULL => rfl

/-! ## Connections -/

/-- The environments are the same but for what the stack holds. -/
def Environment.UpToStack (env env' : Environment) : Prop :=
  env' = (env.withStale env'.stale).withFlags env'.staleFlags

/-- What the stack holds where the packets of a connection are built. -/
structure Leftovers where
  /-- When the socket is opened. -/
  opening : LocalObject → Memory
  /-- When the packet dispatched with a number is handled. -/
  answers : ℕ → LocalObject → Memory

/-- The byte with the number `k` is the same whatever the stack holds. -/
def Assigned (bytes : Leftovers → List UInt8) (k : ℕ) : Prop :=
  ∀ left left', (bytes left)[k]? = (bytes left')[k]?

section Connection

variable (grow : ℕ → ℕ → ℕ) (env env' : ℕ → Environment) (stack stack' : ℕ → List UInt8)
  (opening opening' : Environment)

/-- What is observed of the packet dispatched with the number `i`. -/
def observed (i : ℕ) (d : Dispatch) : Observation :=
  observation (env i) (Opcodes.initializePackets.getClientPacket d.header).handler
    (received (stack i) d.bytes)

/-- What the handler of the packet dispatched with the number `i` does, and how it ends, as it
depends on what the stack holds. -/
def conduct (i : ℕ) (d : Dispatch) (stale : LocalObject → Memory) :
    List Event × Except Stop (Unit × ℕ) :=
  (executePacket ((env i).withStale stale)
    (Opcodes.initializePackets.getClientPacket d.header).handler (received (stack i) d.bytes)).run 0

/-- The bytes written to the client in a run from `Open` on. -/
def bytesWritten (as : List SocketAction) : List UInt8 :=
  (sendingRun grow (authSocket env stack opening) [] as).flatMap WriteAction.written

/-- The bytes written to a client whose packets are dispatched, as they depend on what the stack
holds. -/
def writtenOver (log : List Dispatch) (left : Leftovers) : List UInt8 :=
  (sentTo (fun i => (env i).withStale (left.answers i)) stack (opening.withStale left.opening)
    log).flatten

/-- A first completion that is handed over dispatches its bytes. -/
lemma exists_first_dispatch (bytes : List UInt8) (hle : bytes.length ≤ 4096) : ∃ st,
    (socketSystem grow (authSocket env stack opening)).run
      ([], Socket.openSocket grow (authSocket env stack opening))
      [.receive (.complete bytes 0)] = some st ∧ st.1 = [toDispatch (stack 0) bytes] := by
  obtain ⟨st, hrun⟩ := exists_first_completion grow (authSocket env stack opening) [] bytes 0 hle
  obtain ⟨st₁, hstep, hlast⟩ := (Transition.run_cons_eq_some _).mp hrun
  obtain rfl : st₁ = st := by simpa using hlast
  have hstep' := (socketSystem_receive grow _ _ _).trans hstep
  refine ⟨st₁, (socketSystem grow _).run_cons_of_step [] hstep', ?_⟩
  rcases authSocket_step grow env stack opening (InRefines.openSocket grow _)
    (Reading.openSocket grow _) hstep with
    ⟨_, available, ha, hgrow, -⟩ | ⟨_, available, ha, -, hlog, -⟩ | ⟨ha, -⟩
  · obtain ⟨rfl, rfl⟩ := ReadAction.complete.inj ha
    exact absurd hgrow.1 (lt_irrefl 0)
  · obtain ⟨rfl, rfl⟩ := ReadAction.complete.inj ha
    rw [hlog, Socket.openSocket_inBuffer]
    rfl
  · cases ha

variable {env env' opening opening'}

/-- What the handler of a packet does. -/
lemma answer_eq_conduct (i : ℕ) (d : Dispatch) :
    answer env stack i d = (conduct env stack i d (env i).stale).1 := rfl

/-- Packets that are observed alike are handled alike, as it depends on what the stack holds. -/
lemma conduct_congr {i : ℕ} {d d' : Dispatch} (henv : (env i).UpToStack (env' i))
    (h : observed env stack i d = observed env' stack' i d') :
    conduct env stack i d = conduct env' stack' i d' := by
  funext stale
  unfold observed at h
  unfold conduct
  rw [henv] at h ⊢
  have halike : observation ((env i).withStale stale) _ _ =
      observation ((env i).withStale stale) _ _ := h
  have hflags := executePacket_withFlags ((env i).withStale stale) (env' i).staleFlags
  exact (run_executePacket_congr halike).trans (congrArg (·.run 0) (hflags _ _).symm)

/-- The packets sent are the same if the events of the handlers are. -/
lemma answers_congr {i : ℕ} {ds ds' : List Dispatch}
    (h : ∀ j, ds[j]?.map (answer env stack (i + j)) = ds'[j]?.map (answer env' stack' (i + j))) :
    answers env stack i ds = answers env' stack' i ds' := by
  induction ds generalizing i ds' with
  | nil =>
    cases ds' with
    | nil => rfl
    | cons d' ds' => simpa using h 0
  | cons d ds ih =>
    cases ds' with
    | nil => simpa using h 0
    | cons d' ds' =>
      have hfirst : answer env stack i d = answer env' stack' i d' := by simpa using h 0
      have hrest : answers env stack (i + 1) ds = answers env' stack' (i + 1) ds' :=
        ih fun j => by simpa [Nat.add_assoc, Nat.add_comm 1 j] using h (j + 1)
      rw [answers, answers, hfirst, hrest]

/-- What is written is written whatever the stack holds, if what is done is. -/
lemma writtenOver_congr {log log' : List Dispatch}
    (hopening : opening.UpToStack opening')
    (h : ∀ i, log[i]?.map (conduct env stack i) = log'[i]?.map (conduct env' stack' i)) :
    writtenOver env stack opening log = writtenOver env' stack' opening' log' := by
  funext left
  have hanswers : answers (fun i => (env i).withStale (left.answers i)) stack 0 log =
      answers (fun i => (env' i).withStale (left.answers i)) stack' 0 log' := by
    refine answers_congr stack stack' fun j => ?_
    have hj := congrArg (Option.map fun f => (f (left.answers j)).1) (h j)
    rw [Option.map_map, Option.map_map] at hj
    rw [Nat.zero_add]
    exact hj
  have hopen : sendVersionCheck (opening.withStale left.opening) =
      sendVersionCheck (opening'.withStale left.opening) := by
    rw [hopening]
    rfl
  rw [writtenOver, writtenOver, sentTo, sentTo, hanswers, hopen]

/-- What was written is what is written over what the stack held. -/
lemma bytesWritten_eq {as : List SocketAction} {st : List Dispatch × Socket}
    (h : (socketSystem grow (authSocket env stack opening)).run
      ([], Socket.openSocket grow (authSocket env stack opening)) as = some st)
    (hun : ∀ a ∈ as, Unwritten a) :
    bytesWritten grow env stack opening as =
      writtenOver env stack opening st.1 ⟨opening.stale, fun i => (env i).stale⟩ :=
  written_of_open grow env stack opening h hun

/-- Blanking the events leaves the lengths of the packets sent. -/
lemma length_sent_blank (es : List Event) :
    ((es.map Event.blank).filterMap Event.sent).flatten.length =
      (es.filterMap Event.sent).flatten.length := by
  induction es with
  | nil => rfl
  | cons e es ih =>
    cases e with
    | executeQuery sql parameters => exact ih
    | closeSocket => exact ih
    | send size length bytes =>
      refine (List.length_append ..).trans (Eq.trans ?_ (List.length_append ..).symm)
      rw [ih, List.length_map]

/-- As many bytes are sent for the packets dispatched whatever the stack holds. -/
lemma length_answers (left left' : ℕ → LocalObject → Memory) (i : ℕ) (log : List Dispatch) :
    (answers (fun i => (env i).withStale (left i)) stack i log).flatten.length =
      (answers (fun i => (env i).withStale (left' i)) stack i log).flatten.length := by
  induction log generalizing i with
  | nil => rfl
  | cons d log ih =>
    have hfirst : ((answer (fun i => (env i).withStale (left i)) stack i d).filterMap
        Event.sent).flatten.length = ((answer (fun i => (env i).withStale (left' i)) stack i
        d).filterMap Event.sent).flatten.length := by
      rw [← length_sent_blank, ← length_sent_blank (answer _ stack i d), answer, answer,
        blank_executePacket (env i) _ (left i) (left' i)]
    rw [answers, answers, List.flatten_append, List.flatten_append, List.length_append,
      List.length_append, hfirst, ih]

/-- As many bytes are written to a client whatever the stack holds. -/
lemma length_writtenOver (log : List Dispatch) (left left' : Leftovers) :
    (writtenOver env stack opening log left).length =
      (writtenOver env stack opening log left').length := by
  have hopen : (((sendVersionCheck (opening.withStale left.opening)).events 0).filterMap
      Event.sent).flatten.length = (((sendVersionCheck (opening.withStale left'.opening)).events
      0).filterMap Event.sent).flatten.length := by
    rw [← length_sent_blank, ← length_sent_blank ((sendVersionCheck _).events 0), sendVersionCheck,
      sendVersionCheck, blank_sendPacket _ _ ((length_versionPacket _ _).trans
        (length_versionPacket _ _).symm)]
  rw [writtenOver, writtenOver, sentTo, sentTo, List.flatten_filter_ne_nil,
    List.flatten_filter_ne_nil, List.flatten_append, List.flatten_append, List.length_append,
    List.length_append, hopen, length_answers stack left.answers left'.answers]

/-- The events of a handler are, when they are blanked, those over any stack. -/
lemma blank_answer (i : ℕ) (d : Dispatch) (stale : LocalObject → Memory) :
    (answer env stack i d).map Event.blank = (conduct env stack i d stale).1.map Event.blank := by
  rw [answer_eq_conduct]
  exact blank_executePacket (env i) _ (env i).stale stale _

/-- **Password secrecy.** Take any two runs of a client socket of the server in which no other
thread writes, with the same tables, clock and random draws, any memory in each, and any clients. If
the packets dispatched are observed alike, one by one (the handlers they select, the user names of
logins, whether each password is that of the account, the lengths of pings), then the handlers do
the same for each as a function of what the stack holds where their packets are built. So the two
clients are answered alike, but for bytes that nobody assigned: the same statements are executed
and packets of the same sizes sent, as many bytes are written, and every byte written that does not
depend on what the stack holds is the same.

**Proof sketch.** A login uses the hash of its texts in one comparison only
(`run_checkPassword_congr`), and reads the password only when an account was selected. The bytes
written are those the handlers send (`bytesWritten_eq`), and their number does not depend on the
stack (`length_writtenOver`). -/
theorem password_secrecy (as as' : List SocketAction) (st st' : List Dispatch × Socket)
    (henv : ∀ i, (env i).UpToStack (env' i)) (hopening : opening.UpToStack opening')
    (h : (socketSystem grow (authSocket env stack opening)).run
      ([], Socket.openSocket grow (authSocket env stack opening)) as = some st)
    (h' : (socketSystem grow (authSocket env' stack' opening')).run
      ([], Socket.openSocket grow (authSocket env' stack' opening')) as' = some st')
    (hun : ∀ a ∈ as, Unwritten a) (hun' : ∀ a ∈ as', Unwritten a)
    (halike : ∀ i, st.1[i]?.map (observed env stack i) = st'.1[i]?.map (observed env' stack' i)) :
    (∀ i, st.1[i]?.map (conduct env stack i) = st'.1[i]?.map (conduct env' stack' i)) ∧
    (∀ i, (st.1[i]?.map fun d => (answer env stack i d).map Event.blank) =
      st'.1[i]?.map fun d => (answer env' stack' i d).map Event.blank) ∧
    (bytesWritten grow env stack opening as).length =
      (bytesWritten grow env' stack' opening' as').length ∧
    ∀ k, Assigned (writtenOver env stack opening st.1) k →
      (bytesWritten grow env stack opening as)[k]? =
        (bytesWritten grow env' stack' opening' as')[k]? := by
  have hconduct : ∀ i, st.1[i]?.map (conduct env stack i) =
      st'.1[i]?.map (conduct env' stack' i) := by
    intro i
    have hi := halike i
    cases hd : st.1[i]? with
    | none =>
      cases hd' : st'.1[i]? with
      | none => rw [Option.map_none, Option.map_none]
      | some d' => simp [hd, hd'] at hi
    | some d =>
      cases hd' : st'.1[i]? with
      | none => simp [hd, hd'] at hi
      | some d' =>
        have hsame : observed env stack i d = observed env' stack' i d' := by
          simpa [hd, hd'] using hi
        exact congrArg some (conduct_congr stack stack' (henv i) hsame)
  have hover := writtenOver_congr stack stack' hopening hconduct
  refine ⟨hconduct, fun i => ?_, ?_, fun k hk => ?_⟩
  · -- the stack of the second run in place of that of the first
    have hi := congrArg (Option.map fun f => (f (env' i).stale).1.map Event.blank) (hconduct i)
    rw [Option.map_map, Option.map_map] at hi
    simp only [blank_answer stack i _ (env' i).stale, answer_eq_conduct stack' i]
    exact hi
  · rw [bytesWritten_eq grow stack h hun, bytesWritten_eq grow stack' h' hun', hover]
    exact length_writtenOver stack' _ _ _
  · rw [bytesWritten_eq grow stack h hun, bytesWritten_eq grow stack' h' hun', ← hover]
    exact hk _ _

end Connection

/-- A login of the user `A` with a password. -/
def loginOfA (pass : List UInt8) : List UInt8 :=
  leBytes 2 408 ++ [0, 0] ++ leBytes 4 ClientPacketHeader.loginUser.value ++
    List.replicate 12 0 ++ 65 :: List.replicate 31 0 ++ pass ++ [0]

/-- A server with one account and a hash made of the last character of a text; the stack is full of
the byte `v`. -/
def lastCharacter (v : UInt8) : Environment :=
  { oneAccount (List.replicate 40 48) [] with
    sha1 := fun text => ⟨List.replicate 20 (text.getLastD 0), List.length_replicate⟩
    stale := fun _ _ => v }

/-- Two clients that log in to an account that exists with different wrong passwords, to servers
whose stacks hold different bytes, are written the same but for those. -/
theorem password_secrecy_logins : ∃ st st',
    (socketSystem (fun _ n => n) (authSocket (fun _ => lastCharacter 66) (fun _ => [66])
      (lastCharacter 66))).run ([], Socket.openSocket (fun _ n => n)
        (authSocket (fun _ => lastCharacter 66) (fun _ => [66]) (lastCharacter 66)))
      [.receive (.complete (loginOfA [66]) 0)] = some st ∧
    (socketSystem (fun _ n => n) (authSocket (fun _ => lastCharacter 67) (fun _ => [67])
      (lastCharacter 67))).run ([], Socket.openSocket (fun _ n => n)
        (authSocket (fun _ => lastCharacter 67) (fun _ => [67]) (lastCharacter 67)))
      [.receive (.complete (loginOfA [67]) 0)] = some st' ∧
    verdict (lastCharacter 66) (loginOfA [66]) = some false ∧
    verdict (lastCharacter 67) (loginOfA [67]) = some false ∧
    (bytesWritten (fun _ n => n) (fun _ => lastCharacter 66) (fun _ => [66]) (lastCharacter 66)
      [.receive (.complete (loginOfA [66]) 0)]).length =
      (bytesWritten (fun _ n => n) (fun _ => lastCharacter 67) (fun _ => [67]) (lastCharacter 67)
        [.receive (.complete (loginOfA [67]) 0)]).length ∧
    ∀ k, Assigned (writtenOver (fun _ => lastCharacter 66) (fun _ => [66]) (lastCharacter 66) st.1)
        k →
      (bytesWritten (fun _ n => n) (fun _ => lastCharacter 66) (fun _ => [66]) (lastCharacter 66)
        [.receive (.complete (loginOfA [66]) 0)])[k]? =
      (bytesWritten (fun _ n => n) (fun _ => lastCharacter 67) (fun _ => [67]) (lastCharacter 67)
        [.receive (.complete (loginOfA [67]) 0)])[k]? := by
  obtain ⟨st, hrun, hlog⟩ := exists_first_dispatch (fun _ n => n) (fun _ => lastCharacter 66)
    (fun _ => [66]) (lastCharacter 66) (loginOfA [66]) (by decide)
  obtain ⟨st', hrun', hlog'⟩ := exists_first_dispatch (fun _ n => n) (fun _ => lastCharacter 67)
    (fun _ => [67]) (lastCharacter 67) (loginOfA [67]) (by decide)
  have hstack : (lastCharacter 66).UpToStack (lastCharacter 67) := rfl
  have hobserved : observed (fun _ => lastCharacter 66) (fun _ => [66]) 0
      (toDispatch [66] (loginOfA [66])) = ⟨.handleLoginUser, some [65], some false, 0⟩ := by
    decide +kernel
  have hobserved' : observed (fun _ => lastCharacter 67) (fun _ => [67]) 0
      (toDispatch [67] (loginOfA [67])) = ⟨.handleLoginUser, some [65], some false, 0⟩ := by
    decide +kernel
  refine ⟨st, st', hrun, hrun', by decide +kernel, by decide +kernel,
    (password_secrecy (fun _ n => n) (fun _ => [66]) (fun _ => [67]) _ _ st st' (fun _ => hstack)
      hstack hrun hrun' (by simp [Unwritten]) (by simp [Unwritten]) fun i => ?_).2.2⟩
  rw [hlog, hlog']
  cases i with
  | zero => exact congrArg some (hobserved.trans hobserved'.symm)
  | succ i => simp only [List.getElem?_cons_succ, List.getElem?_nil, Option.map_none]

end SteerStone
