import PristonTale.Auth.Framing
import PristonTale.Auth.LoginOutcome
import PristonTale.Auth.LoginSafety
import PristonTale.Foundations.Transition

set_option relaxedAutoImplicit false
set_option autoImplicit false

/-!
# Accounts that are online

The account table under any number of logins at once. Client sockets are served by several threads,
and a login is not one transaction: its statements are executed one by one, and those of other
logins may come in between. What is in `online` afterwards is the same in every order.

## Main definitions

* `SteerStone.LoginStep` — a statement, or another event, of some login.
* `SteerStone.loginSystem` — the events of logins, in any order.
* `SteerStone.LoginStep.Marks` — the event sets an account online.

## Main results

* `SteerStone.run_loginSystem` — a run changes each account on its own.
* `SteerStone.online_iff_marked` — an account is online if it was or a login marked it, and a login
  that marks it was accepted for it.
-/

namespace SteerStone

open Foundations

/-- An event of a login. -/
structure LoginStep where
  /-- What the login depends on besides its packet. -/
  env : Environment
  /-- The packet. -/
  packet : List UInt8
  /-- `NOW()`. -/
  now : ℕ
  /-- The event. -/
  event : Event

namespace LoginStep

/-- The event is the second statement, with an id, and its execution does not throw. -/
def Marks (l : LoginStep) (id : ℕ) : Prop :=
  l.event = .executeQuery updateAccount [(1, .uint id)] ∧ l.env.driver.throws updateCall = false

instance (l : LoginStep) (id : ℕ) : Decidable (l.Marks id) :=
  inferInstanceAs (Decidable (_ ∧ _))

/-- What the event does to an account. -/
def mark (l : LoginStep) (a : Account) : Account :=
  if l.Marks a.id then { a with online := 1, lastOnline := l.now } else a

end LoginStep

/-- The events of logins, one after the other. -/
def loginSystem : Transition (List Account) LoginStep where
  step accounts l :=
    if l.event ∈ (handleLoginUser l.env l.packet).events 0 then
      some (accountsStep l.env l.now accounts l.event)
    else none

/-- What the events of a list do to an account. -/
def markAll (ls : List LoginStep) (a : Account) : Account := ls.foldl (fun a l => l.mark a) a

/-! ## One event -/

/-- An event that is not the second statement marks nothing. -/
lemma map_mark_of_ne {l : LoginStep}
    (h : ∀ id, l.event ≠ .executeQuery updateAccount [(1, .uint id)]) (accounts : List Account) :
    accounts.map l.mark = accounts := by
  refine (List.map_congr_left fun a _ => ?_).trans (List.map_id accounts)
  exact if_neg fun hmarks => h a.id hmarks.1

/-- **An event of a login changes each account on its own.** -/
lemma accountsStep_eq {env : Environment} {packet : List UInt8} {e : Event}
    (h : LoginEvent env packet e) (now : ℕ) (accounts : List Account) :
    accountsStep env now accounts e = accounts.map (LoginStep.mark ⟨env, packet, now, e⟩) := by
  cases h with
  | update =>
    simp only [accountsStep, true_and, updateOnline]
    split_ifs with hquiet
    · refine List.map_congr_left fun a _ => ?_
      simp only [LoginStep.mark, LoginStep.Marks, hquiet, and_true, Event.executeQuery.injEq,
        true_and, List.cons.injEq, Prod.mk.injEq, Parameter.uint.injEq, eq_comm]
    · refine ((List.map_congr_left fun a _ => ?_).trans (List.map_id accounts)).symm
      exact if_neg fun hmarks => hquiet hmarks.2
  | select | selectRealms =>
    rw [map_mark_of_ne fun id heq => absurd (Event.executeQuery.inj heq).1 (by decide)]
    simp
  | incorrectName | incorrectPassword | checkSum | userInfo | serverList =>
    rw [map_mark_of_ne fun id heq => Event.noConfusion heq]
    exact accountsStep_send

/-- A login that marks an account was accepted for it. -/
lemma accepted_of_marks {l : LoginStep} {id : ℕ} (h : LoginEvent l.env l.packet l.event)
    (hmarks : l.Marks id) :
    ∃ row rest, Accepted l.env l.packet row rest ∧ row.uint 1 % 2 ^ 32 = id := by
  rw [hmarks.1] at h
  obtain ⟨row, rest, ha⟩ := success_accepted h rfl
  have hid := update_of_accepted ha h
  simp only [List.cons.injEq, Prod.mk.injEq, Parameter.uint.injEq, true_and, and_true] at hid
  exact ⟨row, rest, ha, hid.symm⟩

/-! ## Runs -/

/-- **A run changes each account on its own.** -/
theorem run_loginSystem {ls : List LoginStep} {accounts accounts' : List Account}
    (h : loginSystem.run accounts ls = some accounts') : accounts' = accounts.map (markAll ls) := by
  induction ls generalizing accounts with
  | nil =>
    obtain rfl : accounts = accounts' := by simpa using h
    exact (List.map_id accounts).symm
  | cons l ls ih =>
    obtain ⟨accounts₁, hstep, hrest⟩ := loginSystem.run_cons_eq_some.mp h
    simp only [loginSystem] at hstep
    split_ifs at hstep with hevent
    obtain rfl := Option.some.inj hstep
    rw [ih hrest, accountsStep_eq (mem_events_handleLoginUser.mp hevent), List.map_map]
    rfl

/-- The events of a run are those of logins. -/
lemma loginEvent_of_mem {ls : List LoginStep} {accounts accounts' : List Account}
    (h : loginSystem.run accounts ls = some accounts') {l : LoginStep} (hl : l ∈ ls) :
    LoginEvent l.env l.packet l.event := by
  induction ls generalizing accounts with
  | nil => exact absurd hl List.not_mem_nil
  | cons l' ls ih =>
    obtain ⟨accounts₁, hstep, hrest⟩ := loginSystem.run_cons_eq_some.mp h
    rcases List.mem_cons.mp hl with rfl | hl
    · simp only [loginSystem] at hstep
      split_ifs at hstep with hevent
      exact mem_events_handleLoginUser.mp hevent
    · exact ih hrest hl

/-- What a list of events leaves of an account: it keeps its id; it is online if it was or is
marked; and if it is changed, the last change is by an event that marks it. -/
lemma markAll_cases (ls : List LoginStep) (a : Account) :
    (markAll ls a).id = a.id ∧
      ((markAll ls a).online = 1 ↔ a.online = 1 ∨ ∃ l ∈ ls, l.Marks a.id) ∧
      (markAll ls a = a ∨ ∃ l ∈ ls, l.Marks a.id ∧
        markAll ls a = { a with online := 1, lastOnline := l.now }) := by
  induction ls generalizing a with
  | nil => simp [markAll]
  | cons l ls ih =>
    obtain ⟨hid, honline, hlast⟩ := ih (l.mark a)
    have hfold : markAll (l :: ls) a = markAll ls (l.mark a) := rfl
    rw [hfold]
    by_cases hmarks : l.Marks a.id
    · have hmark : l.mark a = { a with online := 1, lastOnline := l.now } := if_pos hmarks
      rw [hmark] at hid honline hlast ⊢
      refine ⟨hid, ?_, .inr ?_⟩
      · exact iff_of_true (honline.mpr (.inl rfl)) (.inr ⟨l, List.mem_cons_self, hmarks⟩)
      · rcases hlast with hsame | ⟨l', hl', hmarks', heq⟩
        · exact ⟨l, List.mem_cons_self, hmarks, hsame⟩
        · exact ⟨l', List.mem_cons_of_mem l hl', hmarks', heq⟩
    · have hmark : l.mark a = a := if_neg hmarks
      rw [hmark] at hid honline hlast ⊢
      refine ⟨hid, honline.trans (or_congr_right ?_), hlast.imp_right ?_⟩
      · simp [hmarks]
      · rintro ⟨l', hl', hmarks', heq⟩
        exact ⟨l', List.mem_cons_of_mem l hl', hmarks', heq⟩

/-- **An account is online if it was or a login marked it.** For every account table and every run
of the events of any logins, each of its own environment, in any order: the accounts keep their ids.
An account is online at the end exactly when it was at the start or one of the events is the second
statement of a login, executed without an exception, with its id; so nothing sets it offline. It has
changed only if there is such an event, and then `last_online` is the time of one. And a login with
such an event was accepted: the first row that its `UserID` selects has that id, as `GetUint32`
reads it, and the password that it sent.

**Proof sketch.** Each event changes each account on its own (`accountsStep_eq`), so a run does
(`run_loginSystem`). The second statement is executed by accepted logins only
(`success_accepted`). -/
theorem online_iff_marked (accounts accounts' : List Account) (ls : List LoginStep)
    (h : loginSystem.run accounts ls = some accounts') :
    accounts'.map Account.id = accounts.map Account.id ∧
    (∀ (i : ℕ) (a a' : Account), accounts[i]? = some a →
      accounts'[i]? = some a' →
      (a'.online = 1 ↔ a.online = 1 ∨ ∃ l ∈ ls, l.Marks a.id) ∧
      (a' = a ∨ ∃ l ∈ ls, l.Marks a.id ∧ a' = { a with online := 1, lastOnline := l.now })) ∧
    ∀ l ∈ ls, ∀ id, l.Marks id →
      ∃ row rest, Accepted l.env l.packet row rest ∧ row.uint 1 % 2 ^ 32 = id := by
  obtain rfl := run_loginSystem h
  refine ⟨?_, fun i a a' ha ha' => ?_, fun l hl id hmarks => ?_⟩
  · rw [List.map_map]
    exact List.map_congr_left fun a _ => (markAll_cases ls a).1
  · rw [List.getElem?_map, ha] at ha'
    obtain rfl := Option.some.inj ha'
    exact (markAll_cases ls a).2
  · exact accepted_of_marks (loginEvent_of_mem h hl) hmarks

/-- A server whose account table has one account, with a number. -/
def accountNumbered (id : ℕ) : Environment :=
  { Environment.blank with
    driver :=
      { throws := fun _ => false
        rows := fun sql _ => if sql = selectAccount then
          [⟨fun i => if i = 3 then List.replicate 40 48 else [], fun _ => id⟩] else [] } }

/-- An event of the login of the user `A` to the account with a number. -/
def loginStep (id now : ℕ) (event : Event) : LoginStep :=
  ⟨accountNumbered id, loginPacket.bytes, now, event⟩

/-- The events of two logins, the second of which overtakes the first. -/
def twoLogins : List LoginStep :=
  [loginStep 7 1 (.executeQuery selectAccount [(1, .string [65])]),
    loginStep 9 2 (.executeQuery selectAccount [(1, .string [65])]),
    loginStep 9 3 (.executeQuery updateAccount [(1, .uint 9)]),
    loginStep 7 4 (.executeQuery updateAccount [(1, .uint 7)]),
    loginStep 9 5 (.executeQuery selectRealms [])]

/-- The accounts of the two logins are online, and the one between them is not. -/
theorem online_iff_marked_two : ∃ accounts',
    loginSystem.run [⟨7, 0, 0⟩, ⟨8, 0, 0⟩, ⟨9, 0, 0⟩] twoLogins = some accounts' ∧
    accounts'.map Account.id = [7, 8, 9] ∧
    ∀ (i : ℕ) (a a' : Account), [(⟨7, 0, 0⟩ : Account), ⟨8, 0, 0⟩, ⟨9, 0, 0⟩][i]? = some a →
      accounts'[i]? = some a' → (a'.online = 1 ↔ a.id ≠ 8) := by
  obtain ⟨accounts', hrun, -⟩ := loginSystem.exists_run_of_any (fun _ => True)
    [⟨7, 0, 0⟩, ⟨8, 0, 0⟩, ⟨9, 0, 0⟩] twoLogins (by decide +kernel)
  obtain ⟨hids, honline, -⟩ := online_iff_marked _ _ _ hrun
  refine ⟨accounts', hrun, hids, fun i a a' ha ha' => (honline i a a' ha ha').1.trans ?_⟩
  have hmarked : ∀ a ∈ [(⟨7, 0, 0⟩ : Account), ⟨8, 0, 0⟩, ⟨9, 0, 0⟩],
      (a.online = 1 ∨ ∃ l ∈ twoLogins, l.Marks a.id) ↔ a.id ≠ 8 := by
    decide +kernel
  exact hmarked a (List.mem_of_getElem? ha)

end SteerStone
