import PristonTale.Auth.LoginEvents

set_option relaxedAutoImplicit false
set_option autoImplicit false

/-!
# The course of a login

When `HandleLoginUser` returns, and the events it has had then, in order. `LoginEvents` has the
conditions of each event; here the parts of the handler are run one after the other, which gives the
three lists that a login that returns can have: one for a user name that selects no account, one for
a password that differs, and one for a login that is accepted, with or without a realm.

## Main definitions

* `SteerStone.prepareUpdate` — how the second statement is prepared.
* `SteerStone.updateCall` — the call of the driver that executes it.

## Main results

* `SteerStone.returns_handleLoginUser` — when the handler returns.
* `SteerStone.events_of_incorrectName`, `SteerStone.events_of_selected`,
  `SteerStone.events_of_accepted` — the events it has had then.
-/

namespace SteerStone

open Foundations

variable {env : Environment} {packet : List UInt8} {row : Row} {rest : List Row} {k : ℕ}

/-! ## When the handler returns -/

/-- The number of the call of the driver that executes the second statement
(`returns_prepareUpdate`). -/
def updateCall : ℕ := 10

/-- The second statement as it is prepared. -/
def prepareUpdate (env : Environment) (db : QueryDatabase) (result : Result) :
    Action QueryDatabase := do
  let D := env.driver
  let db ← db.clearParameters D
  let db ← db.prepareQuery D updateAccount
  let id ← Result.getUint32 D result 1
  db.setParameter D 1 (.uint id)

/-- The answer to an accepted login, with the second statement prepared in one step. -/
lemma answerLogin_eq (db : QueryDatabase) (result : Result) : answerLogin env db result = (do
    let check := packetCheck (env.stale .packetCheck)
    sendPacket packetChecksumFunctionList.sizeof check (check.load 2 PacketStruct.length)
    let db ← prepareUpdate env db result
    let _ ← db.executeQuery env.driver
    sendUserSuccess env result) := by
  simp only [prepareUpdate, Program.bind_assoc]
  rfl

/-- The second statement is executed by the call `updateCall`. -/
lemma returns_prepareUpdate {st : PreparedStatement} {rs : Option ResultSet} {r : Result}
    {b b' : Bool} {db : QueryDatabase} {m : ℕ} :
    (prepareUpdate env ⟨some st, rs, r, b, b'⟩ (some ⟨some row, rest, k⟩)).Returns 6 db m ↔
      env.driver.Quiet 6 10 ∧ m = updateCall ∧
        db = ⟨some ⟨updateAccount, [(1, .uint (row.uint 1 % 2 ^ 32))]⟩, rs, r, b, false⟩ := by
  simp (disch := omega) [prepareUpdate, PreparedStatement.bindParameter, Driver.quiet_succ,
    updateCall, and_assoc, and_comm (a := m = 10)]

/-- Preparing the second statement has no events. -/
lemma events_prepareUpdate {db : QueryDatabase} {r : Result} {n : ℕ} :
    (prepareUpdate env db r).events n = [] := by
  simp [List.eq_nil_iff_forall_not_mem, prepareUpdate]

/-- The list of servers is sent in the end if the realms can be read and do no harm to the frame. -/
lemma returns_sendServerList :
    (∃ m, (sendServerList env (some ⟨some row, rest, rest.length + 1⟩)).Returns 16 () m) ↔
      env.driver.Quiet 16 (18 + 5 * (rest.length + 1)) ∧ ListFits env row rest := by
  have hsplit := Driver.quiet_split (D := env.driver) (n := 16) (m := 18)
    (k := 18 + 5 * (rest.length + 1)) (by omega) (by omega)
  simp (disch := omega) [sendServerList, returns_writeServers, hsplit, Driver.quiet_succ,
    ListFits, and_assoc]
  tauto

/-- `SendUserSuccess` returns without a realm, and with one if it can send the list. -/
lemma returns_sendUserSuccess :
    (∃ m, (sendUserSuccess env (some ⟨some row, rest, k⟩)).Returns 11 () m) ↔
      UserFits env row ∧ match realmRows env with
      | [] => env.driver.Quiet 11 16
      | realm :: realms =>
        env.driver.Quiet 11 (18 + 5 * (realms.length + 1)) ∧ ListFits env realm realms := by
  have h₁₂ : env.driver.Quiet 11 12 ↔ env.driver.throws 11 = false := Driver.quiet_single
  rw [sendUserSuccess_eq]
  cases hr : realmRows env with
  | nil =>
    have hquiet := Driver.quiet_split (D := env.driver) (n := 11) (m := 12) (k := 16) (by omega)
      (by omega)
    simp [returns_findRealms, hr, QueryDatabase.fetched, hquiet, h₁₂, UserFits]
    tauto
  | cons realm realms =>
    have hquiet := Driver.quiet_split (D := env.driver) (n := 11) (m := 12)
      (k := 18 + 5 * (realms.length + 1)) (by omega) (by omega)
    have hlist := Driver.quiet_split (D := env.driver) (n := 12) (m := 16)
      (k := 18 + 5 * (realms.length + 1)) (by omega) (by omega)
    simp [returns_findRealms, hr, QueryDatabase.fetched, QueryDatabase.fetch, hquiet, hlist, h₁₂,
      returns_sendServerList, UserFits]
    tauto

/-- An accepted login returns if everything but the execution of the second statement goes well. -/
lemma returns_answerLogin {st : PreparedStatement} {rs : Option ResultSet} {r : Result}
    {b b' : Bool} :
    (∃ m, (answerLogin env ⟨some st, rs, r, b, b'⟩ (some ⟨some row, rest, k⟩)).Returns 6 () m) ↔
      env.driver.Quiet 6 10 ∧
        ∃ m, (sendUserSuccess env (some ⟨some row, rest, k⟩)).Returns 11 () m := by
  rw [answerLogin_eq]
  simp [returns_prepareUpdate, updateCall]

/-- After an account was selected, and the texts and the password have been read. -/
lemma run_checkPassword {user pass : List UInt8} {st : Option PreparedStatement}
    {rs : Option ResultSet} {b b' : Bool} (hu : userID packet = some user)
    (hp : password packet = some pass) (hcall : env.driver.throws 5 = false) :
    (checkPassword env packet ⟨st, rs, some ⟨some row, rest, k⟩, b, b'⟩).run 5 =
      if passwordHash env user pass = some (row.text 3) then
        (answerLogin env ⟨st, rs, some ⟨some row, rest, k⟩, b, b'⟩
          (some ⟨some row, rest, k⟩)).run 6
      else
        (sendPacket 276 (accountLogin (env.stale .incorrectPassword) .incorrectPassword) 276).run
          6 := by
  have hhash := calculateSHA1Hash_eq env.sha1 (toUpper (user ++ [58] ++ pass))
  generalize (env.sha1 (toUpper (user ++ [58] ++ pass))).bytes.flatMap hexByte = hash at hhash
  rw [checkPassword, run_orStop_bind hu, run_orStop_bind hp, run_orStop_bind hhash]
  refine (Result.run_getString_bind hcall _).trans ?_
  rw [passwordHash, hhash]
  by_cases h : hash = row.text 3
  · rw [if_neg (not_not.mpr h), if_pos (congrArg some h)]
    rfl
  · rw [if_pos h, if_neg fun h' => h (Option.some.inj h')]
    simp only [length_accountLogin, layout_packetAccountLoginCode.2]

/-- After an account was selected, the handler returns if the texts are read and the answer
returns. -/
lemma returns_checkPassword {user : List UInt8} {st : Option PreparedStatement}
    {rs : Option ResultSet} {b b' : Bool} (hu : userID packet = some user) :
    (∃ m, (checkPassword env packet ⟨st, rs, some ⟨some row, rest, k⟩, b, b'⟩).Returns 5 () m) ↔
      env.driver.throws 5 = false ∧ ∃ pass, password packet = some pass ∧
        (passwordHash env user pass = some (row.text 3) →
          ∃ m, (answerLogin env ⟨st, rs, some ⟨some row, rest, k⟩, b, b'⟩
            (some ⟨some row, rest, k⟩)).Returns 6 () m) := by
  cases hp : password packet with
  | none => simp [checkPassword, hu, hp]
  | some pass =>
    cases hcall : env.driver.throws 5 with
    | true => simp [checkPassword, hu, hp, hcall, QueryDatabase.fetch]
    | false =>
      unfold Program.Returns
      rw [run_checkPassword hu hp hcall]
      split_ifs with hhash
      · simp [hhash]
      · simp [hhash, sendPacket, Program.emit]

/-- **When the handler returns**: the texts have an end, no call of the driver throws besides the
execution of the second statement, and what is written does no harm to the frame. -/
theorem returns_handleLoginUser :
    (∃ m, (handleLoginUser env packet).Returns 0 () m) ↔
      ∃ user, userID packet = some user ∧
        match accountRows env user with
        | [] => env.driver.Quiet 0 5
        | row :: _ => env.driver.Quiet 0 6 ∧ ∃ pass, password packet = some pass ∧
          (passwordHash env user pass = some (row.text 3) → env.driver.Quiet 6 10 ∧
            UserFits env row ∧ match realmRows env with
            | [] => env.driver.Quiet 11 16
            | realm :: realms => env.driver.Quiet 11 (18 + 5 * (realms.length + 1)) ∧
              ListFits env realm realms) := by
  rw [handleLoginUser_eq]
  cases hu : userID packet with
  | none => simp [returns_findAccount, hu]
  | some user =>
    cases hr : accountRows env user with
    | nil => simp [returns_findAccount, hu, hr, QueryDatabase.fetched]
    | cons row rest =>
      have hquiet : env.driver.Quiet 0 6 ↔ env.driver.Quiet 0 5 ∧ env.driver.throws 5 = false :=
        Driver.quiet_succ (by omega)
      simp [returns_findAccount, hu, hr, QueryDatabase.fetched, returns_checkPassword hu,
        returns_answerLogin, returns_sendUserSuccess, hquiet, and_assoc]

/-! ## What it has done then -/

/-- The events of the first statement. -/
lemma events_findAccount {user : List UInt8} (hq : env.driver.Quiet 0 5)
    (hu : userID packet = some user) :
    (findAccount env packet).events 0 = [.executeQuery selectAccount [(1, .string user)]] := by
  have h₀ := hq 0 (by omega) (by omega)
  have h₁ := hq 1 (by omega) (by omega)
  have h₂ := hq 2 (by omega) (by omega)
  rw [Program.events, findAccount, QueryDatabase.run_new_bind h₀,
    QueryDatabase.run_prepareQuery_bind h₁, run_orStop_bind hu,
    QueryDatabase.run_setParameter_bind h₂]
  exact QueryDatabase.events_executeQuery_getResult

/-- The events of the third statement. -/
lemma events_findRealms (hq : env.driver.Quiet 12 16) :
    (findRealms env).events 12 = [.executeQuery selectRealms []] := by
  have h₀ := hq 12 (by omega) (by omega)
  have h₁ := hq 13 (by omega) (by omega)
  rw [Program.events, findRealms, QueryDatabase.run_new_bind h₀,
    QueryDatabase.run_prepareQuery_bind h₁]
  exact QueryDatabase.events_executeQuery_getResult

/-- The event of the end of `SendUserSuccess`. -/
lemma events_sendServerList (hq : env.driver.Quiet 16 (18 + 5 * (rest.length + 1)))
    (hlist : ListFits env row rest) :
    (sendServerList env (some ⟨some row, rest, rest.length + 1⟩)).events 16 =
      [.send 476 ((44 + 108 * (rest.length + 1)) % 2 ^ 16)
        ((serverList env row rest).read 0 ((44 + 108 * (rest.length + 1)) % 2 ^ 16))] := by
  obtain ⟨hq', hloop⟩ := (Driver.quiet_split (m := 18) (by omega) (by omega)).mp hq
  have h₀ := hq' 16 (by omega) (by omega)
  have h₁ := hq' 17 (by omega) (by omega)
  have hsend : ((44 + 108 * (rest.length + 1)) % 2 ^ 16) =
      (serverList env row rest).load 2 PacketStruct.length := (length_serverList env row rest).symm
  rw [Program.events, sendServerList, Result.run_getString_bind h₀, run_withinFrame_bind hlist.1,
    Result.run_getRowCount_bind h₁, run_orStop_bind rfl, run_orStop_bind rfl,
    Program.run_bind_of_silent _ events_writeServers
      (returns_writeServers.mpr ⟨hloop, hlist.2, rfl, rfl⟩), hsend]
  rfl

/-- The events of `SendUserSuccess`, when it returns. -/
lemma events_sendUserSuccess
    (h : ∃ m, (sendUserSuccess env (some ⟨some row, rest, k⟩)).Returns 11 () m) :
    (sendUserSuccess env (some ⟨some row, rest, k⟩)).events 11 =
      .send 1484 1484 ((packetUser (env.stale .packetUser) (row.text 2)).read 0 1484) ::
      .executeQuery selectRealms [] ::
      match realmRows env with
      | [] => []
      | realm :: realms => [.send 476 ((44 + 108 * (realms.length + 1)) % 2 ^ 16)
        ((serverList env realm realms).read 0 ((44 + 108 * (realms.length + 1)) % 2 ^ 16))] := by
  rw [returns_sendUserSuccess] at h
  obtain ⟨hfits, h⟩ := h
  have hq : env.driver.Quiet 11 16 := by
    cases hr : realmRows env with
    | nil => rwa [hr] at h
    | cons realm realms =>
      rw [hr] at h
      exact ((Driver.quiet_split (by omega) (by omega)).mp h.1).1
  obtain ⟨hq', hfind⟩ := (Driver.quiet_split (m := 12) (by omega) (by omega)).mp hq
  have h₀ := hq' 11 (by omega) (by omega)
  have hsend : (sendPacket packetUserInfo.sizeof
      (packetUser (env.stale .packetUser) (row.text 2))
      ((packetUser (env.stale .packetUser) (row.text 2)).load 2 PacketStruct.length)).Returns 12 ()
        12 := returns_sendPacket.mpr rfl
  rw [sendUserSuccess_eq, Program.events,
    Result.run_getString_bind h₀, run_withinFrame_bind hfits,
    Program.run_bind_of_returns _ hsend, events_sendPacket,
    length_packetUser, layout_packetUserInfo.2,
    Program.events_bind_of_returns _ (returns_findRealms.mpr ⟨hfind, rfl, rfl⟩),
    events_findRealms hfind]
  cases hr : realmRows env with
  | nil => rfl
  | cons realm realms =>
    rw [hr] at h
    have hlist := ((Driver.quiet_split (m := 16) (by omega) (by omega)).mp h.1).2
    simp only [QueryDatabase.fetched, QueryDatabase.fetch, if_true,
      events_sendServerList hlist h.2]
    rfl

/-- The events of an accepted login from the first packet on, when it returns. -/
lemma events_answerLogin {st : PreparedStatement} {rs : Option ResultSet} {r : Result}
    {b b' : Bool} (hq : env.driver.Quiet 6 10) :
    (answerLogin env ⟨some st, rs, r, b, b'⟩ (some ⟨some row, rest, k⟩)).events 6 =
      .send 4812 4812 ((packetCheck (env.stale .packetCheck)).read 0 4812) ::
      .executeQuery updateAccount [(1, .uint (row.uint 1 % 2 ^ 32))] ::
      (sendUserSuccess env (some ⟨some row, rest, k⟩)).events 11 := by
  have hsend : (sendPacket packetChecksumFunctionList.sizeof
      (packetCheck (env.stale .packetCheck))
      ((packetCheck (env.stale .packetCheck)).load 2 PacketStruct.length)).Returns 6 () 6 :=
    returns_sendPacket.mpr rfl
  rw [answerLogin_eq, Program.events, Program.run_bind_of_returns _ hsend, events_sendPacket,
    length_packetCheck, layout_packetChecksumFunctionList.2, Program.events,
    Program.run_bind_of_silent _ events_prepareUpdate
      (returns_prepareUpdate.mpr ⟨hq, rfl, rfl⟩),
    Program.run_bind_of_returns _ (QueryDatabase.returns_executeQuery.mpr ⟨rfl, rfl⟩)]
  rfl

/-- **The events of a login with no such user**, when it returns. -/
theorem events_of_incorrectName {user : List UInt8} (hu : userID packet = some user)
    (hr : accountRows env user = []) (hq : env.driver.Quiet 0 5) :
    (handleLoginUser env packet).events 0 =
      [.executeQuery selectAccount [(1, .string user)],
        .send 276 276 ((accountLogin (env.stale .incorrectName) .incorrectName).read 0 276)] := by
  have hfind := returns_findAccount.mpr ⟨hq, rfl, user, hu, rfl⟩
  rw [hr] at hfind
  rw [handleLoginUser_eq, Program.events_bind_of_returns _ hfind, events_findAccount hq hu]
  simp only [QueryDatabase.fetched, Bool.false_eq_true, if_false, events_sendPacket,
    length_accountLogin, layout_packetAccountLoginCode.2, List.cons_append, List.nil_append]

section Selected

variable {user pass : List UInt8} (hu : userID packet = some user)
  (hp : password packet = some pass) (hr : accountRows env user = row :: rest)
  (hq : env.driver.Quiet 0 6)

include hu hp hr hq

/-- The events of a login that selects an account: those of the first statement, and those of the
answer or of the refusal. -/
lemma events_of_selected : (handleLoginUser env packet).events 0 =
    .executeQuery selectAccount [(1, .string user)] ::
      if passwordHash env user pass = some (row.text 3) then
        (answerLogin env ⟨some ⟨selectAccount, [(1, .string user)]⟩, none,
          some ⟨some row, rest, rest.length + 1⟩, env.staleFlags.1, false⟩
          (some ⟨some row, rest, rest.length + 1⟩)).events 6
      else [.send 276 276
        ((accountLogin (env.stale .incorrectPassword) .incorrectPassword).read 0 276)] := by
  have hq₅ : env.driver.Quiet 0 5 := ((Driver.quiet_split (by omega) (by omega)).mp hq).1
  have hcall := hq 5 (by omega) (by omega)
  have hfind := returns_findAccount.mpr ⟨hq₅, rfl, user, hu, rfl⟩
  rw [hr] at hfind
  rw [handleLoginUser_eq, Program.events_bind_of_returns _ hfind, events_findAccount hq₅ hu]
  simp only [QueryDatabase.fetched, if_true, List.cons_append, List.nil_append]
  rw [Program.events, run_checkPassword hu hp hcall]
  split_ifs
  · rfl
  · rfl

end Selected

/-! ## A login that is accepted -/

/-- When an accepted login returns. -/
lemma returns_of_accepted (ha : Accepted env packet row rest) :
    (∃ m, (handleLoginUser env packet).Returns 0 () m) ↔ env.driver.Quiet 6 10 ∧
      UserFits env row ∧ match realmRows env with
      | [] => env.driver.Quiet 11 16
      | realm :: realms =>
        env.driver.Quiet 11 (18 + 5 * (realms.length + 1)) ∧ ListFits env realm realms := by
  obtain ⟨hquiet, user, pass, hu, hp, hr, hhash⟩ := ha
  rw [returns_handleLoginUser]
  constructor
  · rintro ⟨user', hu', h⟩
    obtain rfl : user = user' := Option.some.inj (hu.symm.trans hu')
    rw [hr] at h
    obtain ⟨-, pass', hp', h⟩ := h
    obtain rfl : pass = pass' := Option.some.inj (hp.symm.trans hp')
    exact h hhash
  · intro h
    refine ⟨user, hu, ?_⟩
    rw [hr]
    exact ⟨hquiet, pass, hp, fun _ => h⟩

/-- The events of an accepted login that returns. -/
lemma events_of_accepted (ha : Accepted env packet row rest)
    (h : ∃ m, (handleLoginUser env packet).Returns 0 () m) :
    ∃ user, (handleLoginUser env packet).events 0 =
      [.executeQuery selectAccount [(1, .string user)],
        .send 4812 4812 ((packetCheck (env.stale .packetCheck)).read 0 4812),
        .executeQuery updateAccount [(1, .uint (row.uint 1 % 2 ^ 32))],
        .send 1484 1484 ((packetUser (env.stale .packetUser) (row.text 2)).read 0 1484),
        .executeQuery selectRealms []] ++
      match realmRows env with
      | [] => []
      | realm :: realms => [.send 476 ((44 + 108 * (realms.length + 1)) % 2 ^ 16)
        ((serverList env realm realms).read 0 ((44 + 108 * (realms.length + 1)) % 2 ^ 16))] := by
  obtain ⟨hq, h⟩ := (returns_of_accepted ha).mp h
  obtain ⟨hquiet, user, pass, hu, hp, hr, hhash⟩ := ha
  refine ⟨user, ?_⟩
  rw [events_of_selected hu hp hr hquiet, if_pos hhash, events_answerLogin hq,
    events_sendUserSuccess (returns_sendUserSuccess.mpr h)]
  rfl

end SteerStone
