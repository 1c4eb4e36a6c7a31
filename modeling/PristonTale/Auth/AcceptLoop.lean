import PristonTale.Auth.Startup

set_option relaxedAutoImplicit false
set_option autoImplicit false

/-!
# The accept loop of the authentication server

What becomes of an accept depends on the connection and on one setting. `Open` calls
`SendVersionCheck` after its `try` block, and that of an `AuthSocket` reads `ClientVersion` with
`GetIntDefault`, out of which the exceptions of `std::stoi` come. Neither `Open` nor `OnAccept`
catches them, so a `ClientVersion` that is no number ends the accept loop with the first client, as
a client does that is gone when `Open` asks for its endpoint.

## Main definitions

* `SteerStone.versionCheck` — what `SendVersionCheck` does.
* `SteerStone.Delivery` — how the network completes an accept.
* `SteerStone.authListener` — the listener of the server under its configuration.

## Main results

* `SteerStone.versionCheck_eq_ok_iff` — the settings with which `SendVersionCheck` returns.
* `SteerStone.accept_loop_iff` — the exact condition for the accept loop to survive.

## Implementation notes

* The configuration is read when the server starts, and stays as it is.
-/

namespace SteerStone

open Foundations Config

/-- What `SendVersionCheck` of an `AuthSocket` does, as far as the setting `ClientVersion` decides
it. -/
def versionCheck (config : Config) : Except OpenException Unit :=
  match config.getIntDefault "ClientVersion" 1048 with
  | some _ => .ok ()
  | none => .error .logicError

/-- How the network completes an `async_accept`. -/
inductive Delivery where
  /-- With an error code. -/
  | error
  /-- With a connection whose remote endpoint is there. -/
  | present
  /-- With a connection whose peer is gone, so that `remote_endpoint` throws. -/
  | gone
  deriving DecidableEq, Repr

/-- How the accept goes on under a configuration. -/
def Delivery.outcome (config : Config) : Delivery → AcceptOutcome
  | .error => .error
  | .gone => .vanished
  | .present =>
    match versionCheck config with
    | .ok () => .connected
    | .error _ => .unversioned

/-- What happens to the listener of the server. -/
inductive AuthListenerAction where
  /-- The outstanding `async_accept` completes. -/
  | accept (delivery : Delivery)
  /-- The close handler of a socket that was accepted runs. -/
  | close (worker socket : ℕ)
  deriving DecidableEq, Repr

/-- What happens to the listener under a configuration. -/
def AuthListenerAction.under (config : Config) : AuthListenerAction → ListenerAction
  | .accept delivery => .accept (delivery.outcome config)
  | .close worker socket => .close worker socket

/-- The listener of the server under its configuration. -/
def authListener (config : Config) : Transition Listener AuthListenerAction where
  step l a := listenerSystem.step l (a.under config)

/-- **`SendVersionCheck` returns** exactly when `ClientVersion` is not set or begins with an
`int32`. -/
theorem versionCheck_eq_ok_iff {config : Config} :
    versionCheck config = .ok () ↔ ∃ n, IntSetting config "ClientVersion" 1048 n := by
  have hread : ∀ n, config.getIntDefault "ClientVersion" 1048 = some n ↔
      IntSetting config "ClientVersion" 1048 n := fun n => getIntDefault_eq_some_iff (d := 1048)
  unfold versionCheck
  simp only [← hread]
  cases config.getIntDefault "ClientVersion" 1048 with
  | none => simp
  | some n => simp

/-- No exception comes out of `Open` exactly when the peer is there and `SendVersionCheck`
returns. -/
lemma throws_outcome_iff {config : Config} {delivery : Delivery} :
    (delivery.outcome config).Throws ↔
      delivery = .gone ∨ (delivery = .present ∧ versionCheck config ≠ .ok ()) := by
  cases delivery with
  | error => simp [Delivery.outcome, AcceptOutcome.throws_iff]
  | gone => simp [Delivery.outcome, AcceptOutcome.throws_iff]
  | present =>
    unfold Delivery.outcome
    cases versionCheck config with
    | ok u => simp [AcceptOutcome.throws_iff]
    | error e => simp [AcceptOutcome.throws_iff]

/-- **The accept loop, exactly.** For every configuration, every number of workers and every run of
accepts, with any sockets closing in between: the loop survives every accept (exactly one accept is
outstanding after it, no exception has left the thread, and the socket is in the `mSockets` of its
worker if and only if its `Open` returned true) exactly when no connection is accepted whose peer is
gone by the time `Open` asks for the remote endpoint, and none at all if `SendVersionCheck` cannot
read `ClientVersion`.

**Proof sketch.** The listener is running throughout (`running_step`), so it survives an accept
unless an exception comes out of `Open` (`survives_iff`): that of `remote_endpoint`, or that of
`SendVersionCheck` (`throws_outcome_iff`). -/
theorem accept_loop_iff (config : Config) (n : ℕ) (l : Listener) (hl : Listener.new n = some l)
    (as : List AuthListenerAction) (l' : Listener)
    (h : (authListener config).run l as = some l') :
    (authListener config).Along (fun l a => Survives l (a.under config)) l as ↔
      (authListener config).Along (fun _ a => a ≠ .accept .gone ∧
        (a = .accept .present → versionCheck config = .ok ())) l as := by
  have hstart : Running l := fun _ => (Listener.accepting_new hl).1
  apply (authListener config).along_congr (D := fun _ _ => True)
    (fun s a s' hs hstep => running_step s (a.under config) s' hs hstep) _ h hstart
    ((authListener config).along_true l as)
  intro s a s' hrunning _ hstep
  rw [survives_iff hrunning hstep]
  cases a with
  | close worker socket => simp [AuthListenerAction.under]
  | accept delivery =>
    simp only [AuthListenerAction.under, ListenerAction.accept.injEq, forall_eq',
      throws_outcome_iff, ne_eq, AuthListenerAction.accept.injEq, not_or, not_and, not_not]

/-- Two workers and three accepts, one of which fails, with the version the clients are sent by
default. -/
theorem accept_loop_two_workers : ∃ l l',
    Listener.new 2 = some l ∧
      (authListener []).run l [.accept .present, .accept .error, .accept .present] = some l' ∧
      (authListener []).Along (fun l a => Survives l (a.under [])) l
        [.accept .present, .accept .error, .accept .present] := by
  have hversion : versionCheck [] = .ok () := versionCheck_eq_ok_iff.mpr ⟨1048, rfl⟩
  have houtcome : Delivery.outcome [] .present = .connected := by
    rw [Delivery.outcome, hversion]
  obtain ⟨l', hrun⟩ : ∃ l', listenerSystem.run
      ⟨[⟨[0]⟩, ⟨[]⟩], [(0, 0)], 1, false⟩
      [.accept .connected, .accept .error, .accept .connected] = some l' := ⟨_, rfl⟩
  have hrun' : (authListener []).run ⟨[⟨[0]⟩, ⟨[]⟩], [(0, 0)], 1, false⟩
      [.accept .present, .accept .error, .accept .present] = some l' := by
    rw [← hrun, ← houtcome]
    rfl
  refine ⟨_, l', rfl, hrun', (accept_loop_iff [] 2 _ rfl _ _ hrun').mpr ?_⟩
  simp [Transition.Along, hversion]

/-- A peer that is gone when its connection is opened ends the accept loop: no accept is
outstanding, the exception leaves the thread, and the socket stays registered. -/
theorem accept_loop_fails : ∃ l l',
    Listener.new 1 = some l ∧ (authListener []).run l [.accept .gone] = some l' ∧
      l'.accepts = [] ∧ l'.terminated = true ∧ l'.Registered 0 0 ∧
      ¬ (authListener []).Along (fun l a => Survives l (a.under [])) l [.accept .gone] := by
  refine ⟨_, _, rfl, rfl, rfl, rfl, ⟨⟨[0]⟩, rfl, by decide⟩, ?_⟩
  rintro ⟨hsurvives, -⟩
  have hone := (hsurvives _ rfl).1
  exact absurd hone (by decide)

end SteerStone
