import PristonTale.Auth.LoginTrace

set_option relaxedAutoImplicit false
set_option autoImplicit false

/-!
# How a login ends

What a login has sent and what it has left in the account table, from the events of the logins that
return (`PristonTale.Auth.LoginTrace`). A login that was refused has sent one packet and changed
nothing. One that was accepted has sent three and set its account online only if no call of the
driver threw and there is a realm: an exception of `ExecuteQuery` is caught and leaves the account
as it was, any other leaves the client with the packets sent before it, and without realms
`SendUserSuccess` returns before the last packet. And the texts and the rows that it writes have to
stay inside the packets: what is above a packet in the frame is up to the compiler, and a login is
all or nothing if it is so in every frame.

## Main definitions

* `SteerStone.accountsAfter` — the account table after a login.
* `SteerStone.AllOrNothing` — in every frame, a login succeeds as a whole or is refused and changes
  nothing; `SteerStone.LoginWhole` is the same of one frame.
* `SteerStone.Untroubled` — the condition for this, `SteerStone.GoesWell` that of one frame.

## Main results

* `SteerStone.all_or_nothing_iff` — a login is all or nothing exactly when it is untroubled.
-/

namespace SteerStone

open Foundations

/-! ## The account table -/

/-- The columns of the account table that a login can change, with the id. -/
structure Account where
  /-- `id`. -/
  id : ℕ
  /-- `online`. -/
  online : ℕ
  /-- `last_online`. -/
  lastOnline : ℕ
  deriving DecidableEq, Repr

/-- What the second statement of `HandleLoginUser` does to the account table at the time `now`. -/
def updateOnline (now : ℕ) (parameters : List (ℕ × Parameter)) (accounts : List Account) :
    List Account :=
  match parameters with
  | [(1, .uint id)] =>
    accounts.map fun a => if a.id = id then { a with online := 1, lastOnline := now } else a
  | _ => accounts

/-- The account table after an event. Of the statements only the second changes it, and only if its
execution did not throw. -/
def accountsStep (env : Environment) (now : ℕ) (accounts : List Account) : Event → List Account
  | .executeQuery sql parameters =>
    if sql = updateAccount ∧ env.driver.throws updateCall = false then
      updateOnline now parameters accounts
    else accounts
  | _ => accounts

/-- The account table after a login. -/
def accountsAfter (env : Environment) (packet : List UInt8) (now : ℕ) (accounts : List Account) :
    List Account :=
  ((handleLoginUser env packet).events 0).foldl (accountsStep env now) accounts

/-! ## The outcomes -/

/-- The headers of the packets sent, in order. -/
def sentHeaders (es : List Event) : List ℕ := (es.filterMap Event.sent).map packetHeader

section Outcomes

variable (env : Environment) (packet : List UInt8)

/-- The login succeeds: the three packets are sent, and the account is online. -/
structure LoginSucceeds (now : ℕ) (accounts : List Account) : Prop where
  /-- The client is sent the three packets in order. -/
  headers : sentHeaders ((handleLoginUser env packet).events 0) =
    [ServerPacketHeader.checkSum.value, ServerPacketHeader.userInfo.value,
      ServerPacketHeader.serverList.value]
  /-- The account of the packet is online; its id is as `GetUint32` reads it. -/
  online : ∀ user row rest, userID packet = some user → accountRows env user = row :: rest →
    ∀ a ∈ accountsAfter env packet now accounts, a.id = row.uint 1 % 2 ^ 32 → a.online = 1

/-- The login is refused: one packet is sent, and the account table is as before. -/
structure LoginRefused (now : ℕ) (accounts : List Account) : Prop where
  /-- The client is sent the refusal. -/
  headers : sentHeaders ((handleLoginUser env packet).events 0) =
    [ServerPacketHeader.accountLoginCode.value]
  /-- The account table is unchanged. -/
  unchanged : accountsAfter env packet now accounts = accounts

/-- In the frame that the environment has, the handler returns, and whatever the account table was,
the login either succeeds or is refused. -/
def LoginWhole : Prop :=
  (∃ m, (handleLoginUser env packet).Returns 0 () m) ∧
    ∀ now accounts, Xor (LoginSucceeds env packet now accounts)
      (LoginRefused env packet now accounts)

/-- **Login is all or nothing**: whatever the frame has to spare above the packets, the handler
returns and the login either succeeds or is refused. -/
def AllOrNothing : Prop := ∀ spare, LoginWhole (env.withSpare spare) packet

/-- The login meets no trouble in the frame that the environment has: none of the calls of the
driver that it makes throws, the texts of the packet have an end, and if it is accepted, what is
written does no harm to the frame, and there is a realm; the length of the list of realms may wrap
around, but not to less than a header. -/
inductive GoesWell : Prop
  /-- There is no such user. -/
  | incorrectName {user : List UInt8} : userID packet = some user → accountRows env user = [] →
    env.driver.Quiet 0 5 → GoesWell
  /-- The password differs. -/
  | incorrectPassword {user pass : List UInt8} {row : Row} {rest : List Row} :
    userID packet = some user → password packet = some pass →
    accountRows env user = row :: rest → passwordHash env user pass ≠ some (row.text 3) →
    env.driver.Quiet 0 6 → GoesWell
  /-- The login is accepted. -/
  | accepted {row realm : Row} {rest realms : List Row} : Accepted env packet row rest →
    realmRows env = realm :: realms → env.driver.Quiet 0 (18 + 5 * (realms.length + 1)) →
    UserFits env row → ListFits env realm realms →
    8 ≤ (44 + 108 * (realms.length + 1)) % 2 ^ 16 → GoesWell

/-- The login meets no trouble: none of the calls of the driver that it makes throws, the texts of
the packet have an end, and if it is accepted, there is a realm, and what is written stays inside
the packets; so there are four realms at most. -/
inductive Untroubled : Prop
  /-- There is no such user. -/
  | incorrectName {user : List UInt8} : userID packet = some user → accountRows env user = [] →
    env.driver.Quiet 0 5 → Untroubled
  /-- The password differs. -/
  | incorrectPassword {user pass : List UInt8} {row : Row} {rest : List Row} :
    userID packet = some user → password packet = some pass →
    accountRows env user = row :: rest → passwordHash env user pass ≠ some (row.text 3) →
    env.driver.Quiet 0 6 → Untroubled
  /-- The login is accepted. -/
  | accepted {row : Row} {rest : List Row} : Accepted env packet row rest →
    realmRows env ≠ [] → env.driver.Quiet 0 (18 + 5 * (realmRows env).length) →
    StaysInside row (realmRows env) → Untroubled

end Outcomes

variable {env : Environment} {packet : List UInt8} {row : Row} {rest : List Row}

/-! ## All or nothing -/

/-- A packet leaves the account table as it is. -/
@[simp] lemma accountsStep_send {now size length : ℕ} {accounts : List Account}
    {bytes : List UInt8} : accountsStep env now accounts (.send size length bytes) = accounts := rfl

/-- A statement other than the second leaves the account table as it is. -/
lemma accountsStep_of_ne {now : ℕ} {accounts : List Account} {sql : String}
    {parameters : List (ℕ × Parameter)} (h : sql ≠ updateAccount) :
    accountsStep env now accounts (.executeQuery sql parameters) = accounts :=
  if_neg fun h' => h h'.1

/-- The first statement leaves the account table as it is. -/
@[simp] lemma accountsStep_selectAccount {now : ℕ} {accounts : List Account}
    {parameters : List (ℕ × Parameter)} :
    accountsStep env now accounts (.executeQuery selectAccount parameters) = accounts :=
  accountsStep_of_ne (by decide)

/-- The third statement leaves the account table as it is. -/
@[simp] lemma accountsStep_selectRealms {now : ℕ} {accounts : List Account}
    {parameters : List (ℕ × Parameter)} :
    accountsStep env now accounts (.executeQuery selectRealms parameters) = accounts :=
  accountsStep_of_ne (by decide)

/-- No login is both. -/
lemma LoginSucceeds.not_refused {now : ℕ} {accounts : List Account}
    (h : LoginSucceeds env packet now accounts) : ¬ LoginRefused env packet now accounts := by
  intro h'
  exact absurd (h.headers.symm.trans h'.headers) (by decide)

/-- A login of which a refusal is the only packet. -/
lemma refused_of_events {user : List UInt8} {stale : Memory} {error : LoginError}
    (h : (handleLoginUser env packet).events 0 = [.executeQuery selectAccount [(1, .string user)],
      .send 276 276 ((accountLogin stale error).read 0 276)]) (now : ℕ) (accounts : List Account) :
    LoginRefused env packet now accounts where
  headers := by
    rw [h, ← packetHeader_accountLogin stale error]
    rfl
  unchanged := by
    rw [accountsAfter, h, List.foldl_cons, List.foldl_cons, List.foldl_nil,
      accountsStep_selectAccount, accountsStep_send]

/-- The packets that an accepted login has sent when it returns. -/
lemma sentHeaders_of_accepted (ha : Accepted env packet row rest)
    (h : ∃ m, (handleLoginUser env packet).Returns 0 () m) :
    sentHeaders ((handleLoginUser env packet).events 0) =
      [ServerPacketHeader.checkSum.value, ServerPacketHeader.userInfo.value] ++
      match realmRows env with
      | [] => []
      | realm :: realms => [packetHeader ((serverList env realm realms).read 0
        ((44 + 108 * (realms.length + 1)) % 2 ^ 16))] := by
  obtain ⟨user, hevents⟩ := events_of_accepted ha h
  rw [hevents, ← packetHeader_packetCheck (env.stale .packetCheck),
    ← packetHeader_packetUser (env.stale .packetUser) (row.text 2)]
  cases realmRows env with
  | nil => rfl
  | cons realm realms => rfl

/-- What an accepted login that returns has done to the account table: the update is lost if its
execution threw. -/
lemma accountsAfter_of_accepted (ha : Accepted env packet row rest)
    (h : ∃ m, (handleLoginUser env packet).Returns 0 () m) (now : ℕ) (accounts : List Account) :
    accountsAfter env packet now accounts =
      if env.driver.throws updateCall = false then
        accounts.map fun a =>
          if a.id = row.uint 1 % 2 ^ 32 then { a with online := 1, lastOnline := now } else a
      else accounts := by
  obtain ⟨user, hevents⟩ := events_of_accepted ha h
  have hupdate : accountsStep env now accounts
      (.executeQuery updateAccount [(1, .uint (row.uint 1 % 2 ^ 32))]) =
        if env.driver.throws updateCall = false then
          updateOnline now [(1, .uint (row.uint 1 % 2 ^ 32))] accounts
        else accounts := by
    simp only [accountsStep, true_and]
  rw [accountsAfter, hevents, List.foldl_append]
  simp only [List.foldl_cons, List.foldl_nil, accountsStep_selectAccount, accountsStep_send,
    accountsStep_selectRealms, hupdate]
  cases realmRows env with
  | nil => rfl
  | cons realm realms => rfl

/-- An accepted login that was whole went well.

**Proof sketch.** It has sent two packets, so it was not refused and has sent three. Hence there is
a realm, and the last packet has a header. An account that was not online before shows that the
execution of the second statement did not throw, and no other call did, as the handler returned. -/
lemma goesWell_of_accepted (ha : Accepted env packet row rest)
    (h : LoginWhole env packet) : GoesWell env packet := by
  obtain ⟨hreturns, hxor⟩ := h
  have hheaders := sentHeaders_of_accepted ha hreturns
  -- a refusal is one packet, and an accepted login has sent two at least
  have hsucceeds : ∀ accounts, LoginSucceeds env packet 0 accounts := by
    intro accounts
    rcases hxor 0 accounts with ⟨hs, -⟩ | ⟨hr, -⟩
    · exact hs
    · have hlen := congrArg List.length (hheaders.symm.trans hr.headers)
      simp at hlen
  rw [(hsucceeds []).headers] at hheaders
  obtain ⟨hq, hfits, hlast⟩ := (returns_of_accepted ha).mp hreturns
  cases hrealms : realmRows env with
  | nil =>
    rw [hrealms] at hheaders
    exact absurd (congrArg List.length hheaders) (Nat.succ_ne_self 2)
  | cons realm realms =>
    simp only [hrealms] at hheaders hlast
    obtain ⟨hlast, hlist⟩ := hlast
    have hwrap : 8 ≤ (44 + 108 * (realms.length + 1)) % 2 ^ 16 := by
      by_contra hlt
      rw [packetHeader_serverList_of_lt env (Nat.lt_of_not_le hlt)] at hheaders
      exact absurd hheaders (by decide)
    -- an account that was not online shows that the update was executed
    have hupdate : env.driver.throws updateCall = false := by
      by_contra hthrows
      obtain ⟨user, pass, hu, -, hr, -⟩ := ha.matching
      have honline := (hsucceeds [⟨row.uint 1 % 2 ^ 32, 0, 0⟩]).online user row rest hu hr
      rw [accountsAfter_of_accepted ha hreturns, if_neg hthrows] at honline
      exact Nat.zero_ne_one (honline _ (List.mem_singleton_self _) rfl)
    have hquiet : env.driver.Quiet 0 (18 + 5 * (realms.length + 1)) := by
      intro j _ hj
      rcases Nat.lt_or_ge j 6 with h₆ | h₆
      · exact ha.quiet j (Nat.zero_le j) h₆
      rcases Nat.lt_or_ge j 10 with h₁₀ | h₁₀
      · exact hq j h₆ h₁₀
      rcases Nat.eq_or_lt_of_le h₁₀ with rfl | h₁₁
      · exact hupdate
      · exact hlast j h₁₁ hj
    exact .accepted ha hrealms hquiet hfits hlist hwrap

/-- An accepted login that meets no trouble succeeds. -/
lemma succeeds_of_accepted {realm : Row} {realms : List Row} (ha : Accepted env packet row rest)
    (hrealms : realmRows env = realm :: realms)
    (hq : env.driver.Quiet 0 (18 + 5 * (realms.length + 1))) (hfits : UserFits env row)
    (hlist : ListFits env realm realms)
    (hwrap : 8 ≤ (44 + 108 * (realms.length + 1)) % 2 ^ 16) :
    (∃ m, (handleLoginUser env packet).Returns 0 () m) ∧
      ∀ now accounts, LoginSucceeds env packet now accounts := by
  have hreturns : ∃ m, (handleLoginUser env packet).Returns 0 () m := by
    rw [returns_of_accepted ha, hrealms]
    exact ⟨fun j _ hj => hq j (Nat.zero_le j) (by omega), hfits,
      fun j _ hj => hq j (Nat.zero_le j) hj, hlist⟩
  refine ⟨hreturns, fun now accounts => ⟨?_, ?_⟩⟩
  · rw [sentHeaders_of_accepted ha hreturns, hrealms]
    simp only [packetHeader_serverList_of_le env hwrap]
    rfl
  · have hupdate : env.driver.throws updateCall = false :=
      hq updateCall (Nat.zero_le _) (by simp only [updateCall]; omega)
    intro user row' rest' hu hr a ha' hid
    obtain ⟨user', _, hu', -, hr', -⟩ := ha.matching
    obtain rfl : user = user' := Option.some.inj (hu.symm.trans hu')
    obtain ⟨rfl, -⟩ := List.cons.inj (hr.symm.trans hr')
    rw [accountsAfter_of_accepted ha hreturns, if_pos hupdate] at ha'
    obtain ⟨a', -, rfl⟩ := List.mem_map.mp ha'
    by_cases h : a'.id = row'.uint 1 % 2 ^ 32
    · rw [if_pos h]
    · rw [if_neg h] at hid
      exact absurd hid h

/-- In the frame that the environment has, a login is whole exactly when it goes well.

**Proof sketch.** A login that returns has one of three lists of events. With the first two it was
refused, and a refusal is always whole. With the third it was accepted (`goesWell_of_accepted`,
`succeeds_of_accepted`). -/
theorem loginWhole_iff (env : Environment) (packet : List UInt8) :
    LoginWhole env packet ↔ GoesWell env packet := by
  constructor
  · intro h
    obtain ⟨user, hu, hcases⟩ := returns_handleLoginUser.mp h.1
    cases hr : accountRows env user with
    | nil =>
      rw [hr] at hcases
      exact .incorrectName hu hr hcases
    | cons row rest =>
      rw [hr] at hcases
      obtain ⟨hq, pass, hp, -⟩ := hcases
      by_cases hhash : passwordHash env user pass = some (row.text 3)
      · exact goesWell_of_accepted ⟨hq, user, pass, hu, hp, hr, hhash⟩ h
      · exact .incorrectPassword hu hp hr hhash hq
  · intro h
    cases h with
    | @incorrectName user hu hr hq =>
      have hrefused := refused_of_events (events_of_incorrectName hu hr hq)
      refine ⟨returns_handleLoginUser.mpr ⟨user, hu, by rwa [hr]⟩, fun now accounts => .inr ?_⟩
      exact ⟨hrefused now accounts, fun hs => hs.not_refused (hrefused now accounts)⟩
    | @incorrectPassword user pass row rest hu hp hr hhash hq =>
      have hevents := events_of_selected hu hp hr hq
      rw [if_neg hhash] at hevents
      have hrefused := refused_of_events hevents
      refine ⟨returns_handleLoginUser.mpr ⟨user, hu, ?_⟩, fun now accounts => .inr ?_⟩
      · rw [hr]
        exact ⟨hq, pass, hp, fun h => absurd h hhash⟩
      · exact ⟨hrefused now accounts, fun hs => hs.not_refused (hrefused now accounts)⟩
    | accepted ha hrealms hq hfits hlist hwrap =>
      obtain ⟨hreturns, hsucceeds⟩ := succeeds_of_accepted ha hrealms hq hfits hlist hwrap
      exact ⟨hreturns, fun now accounts =>
        .inl ⟨hsucceeds now accounts, (hsucceeds now accounts).not_refused⟩⟩

/-- What it takes for an accepted login to go well. -/
lemma Accepted.of_goesWell (ha : Accepted env packet row rest) (h : GoesWell env packet) :
    ∃ realm realms, realmRows env = realm :: realms ∧
      env.driver.Quiet 0 (18 + 5 * (realms.length + 1)) ∧ UserFits env row ∧
      ListFits env realm realms ∧ 8 ≤ (44 + 108 * (realms.length + 1)) % 2 ^ 16 := by
  obtain ⟨user, pass, hu, hp, hr, hhash⟩ := ha.matching
  cases h with
  | incorrectName hu' hr' =>
    obtain rfl := Option.some.inj (hu.symm.trans hu')
    exact absurd (hr.symm.trans hr') (List.cons_ne_nil _ _)
  | incorrectPassword hu' hp' hr' hhash' =>
    obtain rfl := Option.some.inj (hu.symm.trans hu')
    obtain rfl := Option.some.inj (hp.symm.trans hp')
    obtain ⟨rfl, -⟩ := List.cons.inj (hr.symm.trans hr')
    exact absurd hhash hhash'
  | accepted ha' hrealms hq hfits hlist hwrap =>
    obtain rfl := ha.unique ha'
    exact ⟨_, _, hrealms, hq, hfits, hlist, hwrap⟩

/-- What is accepted does not depend on the frame. -/
lemma accepted_withSpare_iff {spare : LocalObject → ℕ} :
    Accepted (env.withSpare spare) packet row rest ↔ Accepted env packet row rest :=
  ⟨fun h => ⟨h.quiet, h.matching⟩, fun h => ⟨h.quiet, h.matching⟩⟩

/-- A server with one account and one realm, whose connection to the database is lost before the
second statement is prepared. -/
def connectionLost : Environment :=
  let env := oneAccount (List.replicate 40 48) [⟨fun _ => [], fun _ => 0⟩]
  { env with driver := { env.driver with throws := fun n => n == 7 } }

/-- The empty login is accepted by this server. -/
lemma accepted_connectionLost : Accepted connectionLost emptyLogin
    ⟨fun i => if i = 3 then List.replicate 40 48 else [], fun _ => 7⟩ [] where
  quiet := by
    intro j _ hj
    have hne : j ≠ 7 := by omega
    exact beq_eq_false_iff_ne.mpr hne
  matching := (accepted_oneAccount (List.replicate 40 48) [⟨fun _ => [], fun _ => 0⟩]
    (by decide)).matching

end SteerStone
