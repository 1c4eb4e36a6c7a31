import PristonTale.Auth.Packets

set_option relaxedAutoImplicit false
set_option autoImplicit false

/-!
# What a login does

Every event that `HandleLoginUser` can have, with the exact condition on the packet, the tables
and the calls of the driver under which it has it. The handler is cut into its parts, each of which
is unfolded once; what is proved about logins is derived from the list.

The calls of the driver are numbered in the order they are made: 0 to 5 answer the first
statement, 6 to 9 prepare the second, 10 executes it, 11 reads the user name, 12 to 15 answer the
third, 16 and 17 read the server name and the number of realms, and five more read each realm. An
exception of call 3, 10 or 14 is caught by `ExecuteQuery`; after 3 and 14 the query has no result
set and the handler faults, after 10 it goes on. It faults as well when the user name, the server
name or the realms go further than the frame of `SendUserSuccess` has room for them.

## Main definitions

* `SteerStone.Accepted` — the condition under which a login is answered with success.
* `SteerStone.LoginEvent` — the events of a login and their conditions.
* `SteerStone.findAccount`, `SteerStone.checkPassword`, `SteerStone.answerLogin`,
  `SteerStone.findRealms`, `SteerStone.sendServerList` — the parts of `HandleLoginUser` and of
  `SendUserSuccess`.

## Main results

* `SteerStone.handleLoginUser_eq`, `SteerStone.sendUserSuccess_eq` — the handlers are made of these
  parts.
* `SteerStone.mem_events_handleLoginUser` — the list is exact.
-/

namespace SteerStone

open Foundations

variable (env : Environment) (packet : List UInt8)

/-- The rows of the account table that the first statement selects for a user. -/
def accountRows (user : List UInt8) : List Row :=
  env.driver.rows selectAccount [(1, .string user)]

/-- The rows of the table of realms. -/
def realmRows : List Row := env.driver.rows selectRealms []

/-- The hash of the texts of a packet, as it is compared with the account table. -/
def passwordHash (user pass : List UInt8) : Option (List UInt8) :=
  calculateSHA1Hash env.sha1 (toUpper (user ++ [58] ++ pass))

/-- None of the calls of the driver up to `n` throws, the execution of the second statement
aside. -/
def QuietBesidesUpdate (n : ℕ) : Prop := env.driver.Quiet 0 10 ∧ env.driver.Quiet 11 n

/-- The packet names the account of `row` with its password, and the driver answers. -/
structure Accepted (row : Row) (rest : List Row) : Prop where
  /-- The first statement is answered, and the password read. -/
  quiet : env.driver.Quiet 0 6
  /-- `row` is the first row selected, and its password that of the packet. -/
  matching : ∃ user pass, userID packet = some user ∧ password packet = some pass ∧
    accountRows env user = row :: rest ∧ passwordHash env user pass = some (row.text 3)

/-- An accepted packet is that of one row. -/
lemma Accepted.unique {env : Environment} {packet : List UInt8} {row row' : Row}
    {rest rest' : List Row} (h : Accepted env packet row rest)
    (h' : Accepted env packet row' rest') : row = row' := by
  obtain ⟨user, _, hu, -, hr, -⟩ := h.matching
  obtain ⟨user', _, hu', -, hr', -⟩ := h'.matching
  obtain rfl : user = user' := Option.some.inj (hu.symm.trans hu')
  exact (List.cons.inj (hr.symm.trans hr')).1

/-- The events of a login. -/
inductive LoginEvent : Event → Prop
  /-- The first statement is executed. -/
  | select {user : List UInt8} : env.driver.Quiet 0 3 → userID packet = some user →
    LoginEvent (.executeQuery selectAccount [(1, .string user)])
  /-- There is no such user. -/
  | incorrectName {user : List UInt8} : env.driver.Quiet 0 5 → userID packet = some user →
    accountRows env user = [] →
    LoginEvent (.send 276 276
      ((accountLogin (env.stale .incorrectName) .incorrectName).read 0 276))
  /-- The password differs. -/
  | incorrectPassword {user pass : List UInt8} {row : Row} {rest : List Row} :
    env.driver.Quiet 0 6 → userID packet = some user → password packet = some pass →
    accountRows env user = row :: rest → passwordHash env user pass ≠ some (row.text 3) →
    LoginEvent (.send 276 276
      ((accountLogin (env.stale .incorrectPassword) .incorrectPassword).read 0 276))
  /-- The answer to a login starts. -/
  | checkSum {row : Row} {rest : List Row} : Accepted env packet row rest →
    LoginEvent (.send 4812 4812 ((packetCheck (env.stale .packetCheck)).read 0 4812))
  /-- The second statement is executed. -/
  | update {row : Row} {rest : List Row} : Accepted env packet row rest →
    env.driver.Quiet 0 10 →
    LoginEvent (.executeQuery updateAccount [(1, .uint (row.uint 1 % 2 ^ 32))])
  /-- The user name is sent. -/
  | userInfo {row : Row} {rest : List Row} : Accepted env packet row rest →
    QuietBesidesUpdate env 12 → UserFits env row →
    LoginEvent (.send 1484 1484
      ((packetUser (env.stale .packetUser) (row.text 2)).read 0 1484))
  /-- The third statement is executed. -/
  | selectRealms {row : Row} {rest : List Row} : Accepted env packet row rest →
    QuietBesidesUpdate env 14 → UserFits env row → LoginEvent (.executeQuery selectRealms [])
  /-- The list of servers is sent. -/
  | serverList {row realm : Row} {rest realms : List Row} : Accepted env packet row rest →
    realmRows env = realm :: realms → QuietBesidesUpdate env (18 + 5 * (realms.length + 1)) →
    UserFits env row → ListFits env realm realms →
    LoginEvent (.send 476 ((44 + 108 * (realms.length + 1)) % 2 ^ 16)
      ((serverList env realm realms).read 0 ((44 + 108 * (realms.length + 1)) % 2 ^ 16)))

/-- What `SendPacket` passes on. -/
@[simp] lemma events_sendPacket (size : ℕ) (mem : Memory) (length n : ℕ) :
    (sendPacket size mem length).events n = [.send size length (mem.read 0 length)] := rfl

/-- `SendPacket` returns. -/
@[simp] lemma returns_sendPacket {size : ℕ} {mem : Memory} {length n m : ℕ} {u : Unit} :
    (sendPacket size mem length).Returns n u m ↔ m = n := by simp [sendPacket]

/-! ## The parts of the handlers -/

/-- The start of `HandleLoginUser`: the first statement, and whether it selected an account. -/
def findAccount : Action (Bool × QueryDatabase) := do
  let D := env.driver
  let db ← QueryDatabase.new D env.staleFlags.1 env.staleFlags.2
  let db ← db.prepareQuery D selectAccount
  let user ← orStop .fault (userID packet)
  let db ← db.setParameter D 1 (.string user)
  let db ← db.executeQuery D
  db.getResult D

/-- The end of `HandleLoginUser`: the password was that of the account. -/
def answerLogin (db : QueryDatabase) (result : Result) : Action Unit := do
  let D := env.driver
  let check := packetCheck (env.stale .packetCheck)
  sendPacket packetChecksumFunctionList.sizeof check (check.load 2 PacketStruct.length)
  let db ← db.clearParameters D
  let db ← db.prepareQuery D updateAccount
  let id ← Result.getUint32 D result 1
  let db ← db.setParameter D 1 (.uint id)
  let _ ← db.executeQuery D
  sendUserSuccess env result

/-- What `HandleLoginUser` does once an account was selected. -/
def checkPassword (db : QueryDatabase) : Action Unit := do
  let D := env.driver
  let result := db.fetch
  let user ← orStop .fault (userID packet)
  let pass ← orStop .fault (password packet)
  let hash ← orStop .fault (calculateSHA1Hash env.sha1 (toUpper (user ++ [58] ++ pass)))
  let shaPass ← Result.getString D result 3
  if hash ≠ shaPass then
    let login := accountLogin (env.stale .incorrectPassword) .incorrectPassword
    sendPacket packetAccountLoginCode.sizeof login (login.load 2 PacketStruct.length)
  else answerLogin env db result

/-- The middle of `SendUserSuccess`: the third statement, and whether it selected a realm. -/
def findRealms : Action (Bool × QueryDatabase) := do
  let D := env.driver
  let db ← QueryDatabase.new D env.staleFlags.1 env.staleFlags.2
  let db ← db.prepareQuery D selectRealms
  let db ← db.executeQuery D
  db.getResult D

/-- The end of `SendUserSuccess`: the list of servers. -/
def sendServerList (result : Result) : Action Unit := do
  let D := env.driver
  let room := env.room .serverList packetServerList.sizeof
  let serverName ← Result.getString D result 4
  withinFrame room (PacketServerList.serverName + (serverName.length + 1))
  let rowCount ← Result.getRowCount D result
  let rs ← orStop .fault result
  let row ← orStop .fault rs.current
  let servers ← writeServers D room rs.rowsCount row rs.rest 0
    (serverListHeader (env.stale .serverList) serverName env.unixTimeStamp env.random rowCount)
  let list := finishServerList servers
  sendPacket packetServerList.sizeof list (list.load 2 PacketStruct.length)

/-- `HandleLoginUser` is made of its parts. -/
lemma handleLoginUser_eq : handleLoginUser env packet = (do
    let x ← findAccount env packet
    if x.1 then checkPassword env packet x.2
    else
      let login := accountLogin (env.stale .incorrectName) .incorrectName
      sendPacket packetAccountLoginCode.sizeof login (login.load 2 PacketStruct.length)) := by
  simp only [findAccount, Program.bind_assoc]
  rfl

/-- `SendUserSuccess` is made of its parts. -/
lemma sendUserSuccess_eq (result : Result) : sendUserSuccess env result = (do
    let userName ← Result.getString env.driver result 2
    withinFrame (env.room .packetUser packetUserInfo.sizeof)
      (PacketUserInfo.userID + (userName.length + 1))
    let user := packetUser (env.stale .packetUser) userName
    sendPacket packetUserInfo.sizeof user (user.load 2 PacketStruct.length)
    let x ← findRealms env
    if x.1 then sendServerList env x.2.fetch else pure ()) := by
  simp only [findRealms, Program.bind_assoc]
  rfl

/-! ## The events of each part -/

variable {env packet} {row : Row} {rest : List Row} {k : ℕ} {e : Event}

/-- The first statement is executed if three calls of the driver return. -/
lemma mem_events_findAccount : e ∈ (findAccount env packet).events 0 ↔
    env.driver.Quiet 0 3 ∧ ∃ user, userID packet = some user ∧
      e = .executeQuery selectAccount [(1, .string user)] := by
  cases hu : userID packet with
  | none => simp [findAccount, hu]
  | some user =>
    simp (disch := omega) [findAccount, hu, PreparedStatement.bindParameter, Driver.quiet_succ,
      and_assoc]

/-- The first statement is answered if five calls of the driver return. -/
lemma returns_findAccount {x : Bool × QueryDatabase} {m : ℕ} :
    (findAccount env packet).Returns 0 x m ↔
      env.driver.Quiet 0 5 ∧ m = 5 ∧ ∃ user, userID packet = some user ∧
        x = QueryDatabase.fetched ⟨selectAccount, [(1, .string user)]⟩ (accountRows env user) none
          env.staleFlags.1 := by
  cases hu : userID packet with
  | none => simp [findAccount, hu]
  | some user =>
    simp (disch := omega) [findAccount, hu, PreparedStatement.bindParameter, Driver.quiet_succ,
      accountRows, and_assoc, and_comm (a := m = 5)]

/-- The third statement is executed if two more calls of the driver return. -/
lemma mem_events_findRealms : e ∈ (findRealms env).events 12 ↔
    env.driver.Quiet 12 14 ∧ e = .executeQuery selectRealms [] := by
  simp (disch := omega) [findRealms, Driver.quiet_succ, and_assoc]

/-- The third statement is answered if four more calls of the driver return. -/
lemma returns_findRealms {x : Bool × QueryDatabase} {m : ℕ} :
    (findRealms env).Returns 12 x m ↔ env.driver.Quiet 12 16 ∧ m = 16 ∧
      x = QueryDatabase.fetched ⟨selectRealms, []⟩ (realmRows env) none env.staleFlags.1 := by
  simp (disch := omega) [findRealms, Driver.quiet_succ, realmRows, and_assoc,
    and_comm (a := m = 16)]

/-- The list of servers is sent if the calls of the driver that read the realms return, and the
realms do no harm to the frame. -/
lemma mem_events_sendServerList :
    e ∈ (sendServerList env (some ⟨some row, rest, rest.length + 1⟩)).events 16 ↔
      env.driver.Quiet 16 (18 + 5 * (rest.length + 1)) ∧ ListFits env row rest ∧
        e = .send 476 ((44 + 108 * (rest.length + 1)) % 2 ^ 16)
          ((serverList env row rest).read 0 ((44 + 108 * (rest.length + 1)) % 2 ^ 16)) := by
  have hlength := length_serverList env row rest
  have hsplit := Driver.quiet_split (D := env.driver) (n := 16) (m := 18)
    (k := 18 + 5 * (rest.length + 1)) (by omega) (by omega)
  unfold serverList at hlength
  simp (disch := omega) [sendServerList, returns_writeServers, hlength, hsplit, ListFits,
    layout_packetServerList.2, Driver.quiet_succ, serverList, and_assoc]
  tauto

/-- The events of `SendUserSuccess`, whose first call of the driver is number 11. -/
lemma mem_events_sendUserSuccess :
    e ∈ (sendUserSuccess env (some ⟨some row, rest, k⟩)).events 11 ↔
      UserFits env row ∧ ((env.driver.Quiet 11 12 ∧ e = .send 1484 1484
        ((packetUser (env.stale .packetUser) (row.text 2)).read 0 1484)) ∨
      (env.driver.Quiet 11 14 ∧ e = .executeQuery selectRealms []) ∨
      ∃ realm realms, realmRows env = realm :: realms ∧
        env.driver.Quiet 11 (18 + 5 * (realms.length + 1)) ∧ ListFits env realm realms ∧
        e = .send 476 ((44 + 108 * (realms.length + 1)) % 2 ^ 16)
          ((serverList env realm realms).read 0 ((44 + 108 * (realms.length + 1)) % 2 ^ 16))) := by
  have h₁₂ : env.driver.Quiet 11 12 ↔ env.driver.throws 11 = false := Driver.quiet_single
  have h₁₄ := Driver.quiet_split (D := env.driver) (n := 11) (m := 12) (k := 14) (by omega)
    (by omega)
  rw [sendUserSuccess_eq]
  cases hr : realmRows env with
  | nil =>
    simp [mem_events_findRealms, returns_findRealms, hr, QueryDatabase.fetched, UserFits,
      length_packetUser, layout_packetUserInfo.2, h₁₂, h₁₄]
    tauto
  | cons realm realms =>
    have h₁₆ := Driver.quiet_split (D := env.driver) (n := 11) (m := 12)
      (k := 18 + 5 * (realms.length + 1)) (by omega) (by omega)
    have hlist := Driver.quiet_split (D := env.driver) (n := 12) (m := 16)
      (k := 18 + 5 * (realms.length + 1)) (by omega) (by omega)
    simp [mem_events_findRealms, returns_findRealms, hr, QueryDatabase.fetched, UserFits,
      QueryDatabase.fetch, mem_events_sendServerList, length_packetUser, layout_packetUserInfo.2,
      h₁₂, h₁₄, h₁₆, hlist]
    tauto

/-- The hash is compared if the texts are read and the next call of the driver returns. -/
lemma mem_events_checkPassword {user : List UInt8} {st : Option PreparedStatement}
    {rs : Option ResultSet} {b b' : Bool} (hu : userID packet = some user) :
    e ∈ (checkPassword env packet ⟨st, rs, some ⟨some row, rest, k⟩, b, b'⟩).events 5 ↔
      env.driver.throws 5 = false ∧ ∃ pass, password packet = some pass ∧
        if passwordHash env user pass = some (row.text 3) then
          e ∈ (answerLogin env ⟨st, rs, some ⟨some row, rest, k⟩, b, b'⟩
            (some ⟨some row, rest, k⟩)).events 6
        else e = .send 276 276
          ((accountLogin (env.stale .incorrectPassword) .incorrectPassword).read 0 276) := by
  cases hp : password packet with
  | none => simp [checkPassword, hu, hp]
  | some pass =>
    simp [checkPassword, hu, hp, QueryDatabase.fetch, passwordHash, calculateSHA1Hash_eq,
      length_accountLogin, layout_packetAccountLoginCode.2]

/-- A login that is accepted is answered, and then the account updated. -/
lemma mem_events_answerLogin {st : PreparedStatement} {rs : Option ResultSet} {r : Result}
    {b b' : Bool} :
    e ∈ (answerLogin env ⟨some st, rs, r, b, b'⟩ (some ⟨some row, rest, k⟩)).events 6 ↔
      e = .send 4812 4812 ((packetCheck (env.stale .packetCheck)).read 0 4812) ∨
      env.driver.Quiet 6 10 ∧
        (e = .executeQuery updateAccount [(1, .uint (row.uint 1 % 2 ^ 32))] ∨
          e ∈ (sendUserSuccess env (some ⟨some row, rest, k⟩)).events 11) := by
  simp (disch := omega) [answerLogin, PreparedStatement.bindParameter, length_packetCheck,
    layout_packetChecksumFunctionList.2, Driver.quiet_succ, and_assoc]

/-! ## The list -/

/-- The events of `HandleLoginUser`, read off its parts. -/
lemma mem_events_of_parts : e ∈ (handleLoginUser env packet).events 0 ↔
    ∃ user, userID packet = some user ∧
      ((env.driver.Quiet 0 3 ∧ e = .executeQuery selectAccount [(1, .string user)]) ∨
        (env.driver.Quiet 0 5 ∧ accountRows env user = [] ∧ e = .send 276 276
          ((accountLogin (env.stale .incorrectName) .incorrectName).read 0 276)) ∨
        (env.driver.Quiet 0 6 ∧ ∃ pass row rest, password packet = some pass ∧
          accountRows env user = row :: rest ∧
          if passwordHash env user pass = some (row.text 3) then
            e = .send 4812 4812 ((packetCheck (env.stale .packetCheck)).read 0 4812) ∨
            env.driver.Quiet 6 10 ∧
              (e = .executeQuery updateAccount [(1, .uint (row.uint 1 % 2 ^ 32))] ∨
                e ∈ (sendUserSuccess env (some ⟨some row, rest, rest.length + 1⟩)).events 11)
          else e = .send 276 276
            ((accountLogin (env.stale .incorrectPassword) .incorrectPassword).read 0 276))) := by
  rw [handleLoginUser_eq]
  cases hu : userID packet with
  | none => simp [mem_events_findAccount, returns_findAccount, hu]
  | some user =>
    cases hr : accountRows env user with
    | nil =>
      simp [mem_events_findAccount, returns_findAccount, hu, hr, QueryDatabase.fetched,
        length_accountLogin, layout_packetAccountLoginCode.2]
    | cons row rest =>
      have h₆ : env.driver.Quiet 0 6 ↔ env.driver.Quiet 0 5 ∧ env.driver.throws 5 = false :=
        Driver.quiet_succ (by omega)
      simp [mem_events_findAccount, returns_findAccount, hu, hr, QueryDatabase.fetched,
        mem_events_checkPassword hu, mem_events_answerLogin, h₆, and_assoc]

/-- What an accepted login does after the first statement. -/
lemma mem_events_of_accepted (ha : Accepted env packet row rest)
    (h : e = .send 4812 4812 ((packetCheck (env.stale .packetCheck)).read 0 4812) ∨
      env.driver.Quiet 6 10 ∧
        (e = .executeQuery updateAccount [(1, .uint (row.uint 1 % 2 ^ 32))] ∨
          e ∈ (sendUserSuccess env (some ⟨some row, rest, rest.length + 1⟩)).events 11)) :
    e ∈ (handleLoginUser env packet).events 0 := by
  obtain ⟨hq, user, pass, hu, hp, hr, heq⟩ := ha
  rw [mem_events_of_parts]
  refine ⟨user, hu, .inr (.inr ⟨hq, pass, row, rest, hp, hr, ?_⟩)⟩
  rwa [if_pos heq]

/-- What an accepted login does after the second statement. -/
lemma mem_events_of_updated (ha : Accepted env packet row rest) (hq : env.driver.Quiet 0 10)
    (h : e ∈ (sendUserSuccess env (some ⟨some row, rest, rest.length + 1⟩)).events 11) :
    e ∈ (handleLoginUser env packet).events 0 := by
  have hq' : env.driver.Quiet 6 10 := ((Driver.quiet_split (by omega) (by omega)).mp hq).2
  exact mem_events_of_accepted ha (.inr ⟨hq', .inr h⟩)

/-- **The list of events is exact.**

**Proof sketch.** The events of the parts (`mem_events_of_parts`, `mem_events_sendUserSuccess`) are
compared with the list: each has the conditions of one constructor, and each constructor those of
one of them. -/
theorem mem_events_handleLoginUser :
    e ∈ (handleLoginUser env packet).events 0 ↔ LoginEvent env packet e := by
  constructor
  · intro h
    rcases mem_events_of_parts.mp h with
      ⟨user, hu, ⟨hq, rfl⟩ | ⟨hq, hr, rfl⟩ | ⟨hq, pass, row, rest, hp, hr, h⟩⟩
    · exact .select hq hu
    · exact .incorrectName hq hu hr
    split_ifs at h with heq
    · have ha : Accepted env packet row rest := ⟨hq, user, pass, hu, hp, hr, heq⟩
      rcases h with rfl | ⟨hq', h⟩
      · exact .checkSum ha
      have hq₁₀ : env.driver.Quiet 0 10 :=
        (Driver.quiet_split (by omega) (by omega)).mpr ⟨hq, hq'⟩
      rcases h with rfl | h
      · exact .update ha hq₁₀
      rcases mem_events_sendUserSuccess.mp h with
        ⟨hfits, ⟨hq'', rfl⟩ | ⟨hq'', rfl⟩ | ⟨realm, realms, hrealms, hq'', hlist, rfl⟩⟩
      · exact .userInfo ha ⟨hq₁₀, hq''⟩ hfits
      · exact .selectRealms ha ⟨hq₁₀, hq''⟩ hfits
      · exact .serverList ha hrealms ⟨hq₁₀, hq''⟩ hfits hlist
    · exact h ▸ .incorrectPassword hq hu hp hr heq
  · intro h
    cases h with
    | select hq hu => exact mem_events_of_parts.mpr ⟨_, hu, .inl ⟨hq, rfl⟩⟩
    | incorrectName hq hu hr =>
      exact mem_events_of_parts.mpr ⟨_, hu, .inr (.inl ⟨hq, hr, rfl⟩)⟩
    | incorrectPassword hq hu hp hr hne =>
      refine mem_events_of_parts.mpr ⟨_, hu, .inr (.inr ⟨hq, _, _, _, hp, hr, ?_⟩)⟩
      rw [if_neg hne]
    | checkSum ha => exact mem_events_of_accepted ha (.inl rfl)
    | update ha hq =>
      have hq' : env.driver.Quiet 6 10 := ((Driver.quiet_split (by omega) (by omega)).mp hq).2
      exact mem_events_of_accepted ha (.inr ⟨hq', .inl rfl⟩)
    | userInfo ha hq hfits =>
      exact mem_events_of_updated ha hq.1
        (mem_events_sendUserSuccess.mpr ⟨hfits, .inl ⟨hq.2, rfl⟩⟩)
    | selectRealms ha hq hfits =>
      exact mem_events_of_updated ha hq.1
        (mem_events_sendUserSuccess.mpr ⟨hfits, .inr (.inl ⟨hq.2, rfl⟩)⟩)
    | serverList ha hr hq hfits hlist =>
      exact mem_events_of_updated ha hq.1
        (mem_events_sendUserSuccess.mpr ⟨hfits, .inr (.inr ⟨_, _, hr, hq.2, hlist, rfl⟩)⟩)

/-! ## A login that is accepted -/

/-- A login packet with an empty user name and an empty password. -/
def emptyLogin : List UInt8 :=
  leBytes 2 408 ++ [0, 0] ++ leBytes 4 ClientPacketHeader.loginUser.value ++
    List.replicate 8184 0

/-- From the ninth byte on the packet is zero. -/
lemma drop_emptyLogin {n m : ℕ} (h : 8 + n + (m + 1) = 8192) :
    emptyLogin.drop (8 + n) = 0 :: List.replicate m 0 := by
  have hlen : (leBytes 2 408 ++ [0, 0] ++ leBytes 4 ClientPacketHeader.loginUser.value).length =
      8 := by simp
  rw [emptyLogin, ← hlen, List.drop_length_add_append, List.drop_replicate,
    show 8184 - n = m + 1 by omega, List.replicate_succ]

/-- Its user name is empty. -/
lemma userID_emptyLogin : userID emptyLogin = some [] := by
  rw [userID, show PacketLoginUser.userID = 8 + 12 from rfl, drop_emptyLogin (m := 8171) rfl]
  exact cString_append_zero List.not_mem_nil _

/-- Its password is empty. -/
lemma password_emptyLogin : password emptyLogin = some [] := by
  rw [password, show PacketLoginUser.password = 8 + 44 from rfl, drop_emptyLogin (m := 8139) rfl]
  exact cString_append_zero List.not_mem_nil _

/-- A server with one account, whose `sha_pass` is given, and a table of realms. -/
def oneAccount (shaPass : List UInt8) (realms : List Row) : Environment :=
  { Environment.blank with
    driver :=
      { throws := fun _ => false
        rows := fun sql _ =>
          if sql = selectAccount then [⟨fun i => if i = 3 then shaPass else [], fun _ => 7⟩]
          else if sql = selectRealms then realms else [] } }

/-- The user name of the account is empty, and fits. -/
lemma userFits_oneAccount (shaPass : List UInt8) (realms : List Row) :
    UserFits (oneAccount shaPass realms)
      ⟨fun i => if i = 3 then shaPass else [], fun _ => 7⟩ :=
  show PacketUserInfo.userID + (([] : List UInt8).length + 1) ≤ packetUserInfo.sizeof + 0 by
    decide

/-- The account is that of the empty login if its `sha_pass` is the hash up to the first NUL. -/
lemma accepted_oneAccount (shaPass : List UInt8) (realms : List Row)
    (h : shaPass.takeWhile (· ≠ 0) = List.replicate 40 48) :
    Accepted (oneAccount shaPass realms) emptyLogin
      ⟨fun i => if i = 3 then shaPass else [], fun _ => 7⟩ [] where
  quiet _ _ _ := rfl
  matching := by
    refine ⟨[], [], userID_emptyLogin, password_emptyLogin, rfl, ?_⟩
    rw [passwordHash, calculateSHA1Hash_eq]
    have hdigest : (List.replicate 20 (0 : UInt8)).flatMap hexByte = List.replicate 40 48 := by
      decide
    exact congrArg some (hdigest.trans h.symm)

end SteerStone
