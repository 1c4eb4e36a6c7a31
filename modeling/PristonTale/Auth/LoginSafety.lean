import PristonTale.Auth.LoginEvents

set_option relaxedAutoImplicit false
set_option autoImplicit false

/-!
# Authentication

A login is answered with success only if the password is that of the account selected by the user
name, and never with success and a refusal both. The account's password is what
`Result::GetString` reads in the column: the text up to its first NUL, so a column that goes on
after one is accepted for what is before it.

## Main definitions

* `SteerStone.IsSuccess`, `SteerStone.IsRefusal` — the events that answer a login.

## Main results

* `SteerStone.success_accepted`, `SteerStone.refusal_cases` — the conditions of these events.
* `SteerStone.login_safety` — authentication safety.
-/

namespace SteerStone

open Foundations

/-- The events that answer a login with success: one of the three packets, or the update of the
account. -/
def IsSuccess : Event → Prop
  | .send _ _ bytes =>
    packetHeader bytes = ServerPacketHeader.checkSum.value ∨
      packetHeader bytes = ServerPacketHeader.userInfo.value ∨
      packetHeader bytes = ServerPacketHeader.serverList.value
  | .executeQuery sql _ => sql = updateAccount
  | .closeSocket => False

/-- The event that refuses a login. -/
def IsRefusal : Event → Prop
  | .send _ _ bytes => packetHeader bytes = ServerPacketHeader.accountLoginCode.value
  | _ => False

variable {env : Environment} {packet : List UInt8} {e : Event}

/-- **Success means acceptance.** -/
theorem success_accepted (h : LoginEvent env packet e) (hs : IsSuccess e) :
    ∃ row rest, Accepted env packet row rest := by
  cases h with
  | select => exact absurd (show selectAccount = updateAccount from hs) (by decide)
  | incorrectName | incorrectPassword =>
    rw [IsSuccess, packetHeader_accountLogin] at hs
    exact absurd hs (by decide)
  | checkSum ha => exact ⟨_, _, ha⟩
  | update ha => exact ⟨_, _, ha⟩
  | userInfo ha => exact ⟨_, _, ha⟩
  | selectRealms ha => exact ⟨_, _, ha⟩
  | serverList ha => exact ⟨_, _, ha⟩

/-- **A refusal means that there is no such user or the password differs.** -/
theorem refusal_cases (h : LoginEvent env packet e) (hr : IsRefusal e) :
    ∃ user, userID packet = some user ∧ (accountRows env user = [] ∨
      ∃ pass row rest, password packet = some pass ∧ accountRows env user = row :: rest ∧
        passwordHash env user pass ≠ some (row.text 3)) := by
  cases h with
  | select | update | selectRealms => exact hr.elim
  | incorrectName _ hu hrows => exact ⟨_, hu, .inl hrows⟩
  | incorrectPassword _ hu hp hrows hne => exact ⟨_, hu, .inr ⟨_, _, _, hp, hrows, hne⟩⟩
  | checkSum =>
    rw [IsRefusal, packetHeader_packetCheck] at hr
    exact absurd hr (by decide)
  | userInfo =>
    rw [IsRefusal, packetHeader_packetUser] at hr
    exact absurd hr (by decide)
  | @serverList _ realm _ realms =>
    rcases packetHeader_serverList env realm realms with hlist | hlist <;>
      rw [IsRefusal, hlist] at hr <;> exact absurd hr (by decide)

/-- The update of the account is that of the row accepted. -/
lemma update_of_accepted {row : Row} {rest : List Row} (ha : Accepted env packet row rest)
    {parameters : List (ℕ × Parameter)}
    (h : LoginEvent env packet (.executeQuery updateAccount parameters)) :
    parameters = [(1, .uint (row.uint 1 % 2 ^ 32))] := by
  generalize hsql : updateAccount = sql at h
  cases h with
  | select => exact absurd hsql (by decide)
  | update ha' => rw [ha.unique ha']
  | selectRealms => exact absurd hsql (by decide)

/-- A user name that is sent is that of the row accepted, if it fits in its field. -/
lemma userInfo_of_accepted {row : Row} {rest : List Row} (ha : Accepted env packet row rest)
    {size length : ℕ} {bytes : List UInt8} (h : LoginEvent env packet (.send size length bytes))
    (hheader : packetHeader bytes = ServerPacketHeader.userInfo.value)
    (hfit : (row.text 2).length < 32) :
    cString (bytes.drop PacketUserInfo.userID) = some (row.text 2) := by
  cases h with
  | incorrectName | incorrectPassword =>
    rw [packetHeader_accountLogin] at hheader
    exact absurd hheader (by decide)
  | checkSum =>
    rw [packetHeader_packetCheck] at hheader
    exact absurd hheader (by decide)
  | userInfo ha' =>
    obtain rfl := ha.unique ha'
    exact cString_packetUser _ hfit (row.zero_notMem_text 2)
  | @serverList _ realm _ realms =>
    rcases packetHeader_serverList env realm realms with hlist | hlist <;>
      rw [hlist] at hheader <;> exact absurd hheader (by decide)

/-- **Authentication safety.** In every login: if an answer of success is sent or the account
updated, then the first row that the packet's `UserID` selects has as its password the hash of the
packet's texts, as `Result::GetString` reads it; the id updated is that row's, and so is the user
name sent, if it fits in its field. And no login is answered with success and refused both.

**Proof sketch.** Both parts are case analyses over the list of events: an answer of success
happens in an accepted login only, and a refusal in one that is not. -/
theorem login_safety (env : Environment) (packet : List UInt8) :
    (∀ e ∈ (handleLoginUser env packet).events 0, IsSuccess e →
      ∃ user pass row rest, userID packet = some user ∧ password packet = some pass ∧
        accountRows env user = row :: rest ∧ passwordHash env user pass = some (row.text 3) ∧
        (∀ parameters, .executeQuery updateAccount parameters ∈
            (handleLoginUser env packet).events 0 →
          parameters = [(1, .uint (row.uint 1 % 2 ^ 32))]) ∧
        ∀ size length bytes, .send size length bytes ∈ (handleLoginUser env packet).events 0 →
          packetHeader bytes = ServerPacketHeader.userInfo.value → (row.text 2).length < 32 →
          cString (bytes.drop PacketUserInfo.userID) = some (row.text 2)) ∧
      ¬ ((∃ e ∈ (handleLoginUser env packet).events 0, IsSuccess e) ∧
        ∃ e ∈ (handleLoginUser env packet).events 0, IsRefusal e) := by
  constructor
  · intro e he hs
    obtain ⟨row, rest, ha⟩ := success_accepted (mem_events_handleLoginUser.mp he) hs
    obtain ⟨user, pass, hu, hp, hr, hhash⟩ := ha.matching
    refine ⟨user, pass, row, rest, hu, hp, hr, hhash, ?_, ?_⟩
    · intro parameters hup
      exact update_of_accepted ha (mem_events_handleLoginUser.mp hup)
    · intro size length bytes hsend hheader hfit
      exact userInfo_of_accepted ha (mem_events_handleLoginUser.mp hsend) hheader hfit
  · rintro ⟨⟨e, he, hs⟩, e', he', hr'⟩
    obtain ⟨row, rest, ha⟩ := success_accepted (mem_events_handleLoginUser.mp he) hs
    obtain ⟨user, pass, hu, hp, hr, hhash⟩ := ha.matching
    obtain ⟨user', hu', hrefused⟩ := refusal_cases (mem_events_handleLoginUser.mp he') hr'
    obtain rfl : user = user' := Option.some.inj (hu.symm.trans hu')
    rcases hrefused with hnil | ⟨pass', row', rest', hp', hr'', hne⟩
    · rw [hr] at hnil
      exact absurd hnil (by simp)
    · obtain rfl : pass = pass' := Option.some.inj (hp.symm.trans hp')
      obtain ⟨rfl, -⟩ := List.cons.inj (hr.symm.trans hr'')
      exact hne hhash

/-- A column that goes on after a NUL is accepted for what is before it, though it is not the hash
of the texts. -/
theorem login_safety_fails : ∃ (env : Environment) (packet : List UInt8),
    (∃ e ∈ (handleLoginUser env packet).events 0, IsSuccess e) ∧
      ∀ user pass, userID packet = some user → password packet = some pass →
        ∀ row ∈ accountRows env user, passwordHash env user pass ≠ some (row.string 3) := by
  let shaPass : List UInt8 := List.replicate 40 48 ++ [0, 120]
  have ha := accepted_oneAccount shaPass [] (by decide)
  refine ⟨oneAccount shaPass [], emptyLogin,
    ⟨_, mem_events_handleLoginUser.mpr (.update ha fun _ _ _ => rfl), rfl⟩, ?_⟩
  intro user pass hu hp row hrow hhash
  obtain rfl : [] = user := Option.some.inj (userID_emptyLogin.symm.trans hu)
  obtain rfl : [] = pass := Option.some.inj (password_emptyLogin.symm.trans hp)
  obtain rfl := List.mem_singleton.mp hrow
  rw [passwordHash, calculateSHA1Hash_eq] at hhash
  exact absurd hhash (by decide)

end SteerStone
