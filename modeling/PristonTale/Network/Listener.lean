import Mathlib.Data.List.Nodup
import Mathlib.Tactic.Common
import PristonTale.Foundations.Balance
import PristonTale.Foundations.Transition

set_option relaxedAutoImplicit false
set_option autoImplicit false

/-!
# The listener

`Listener` (`Shared/Network/Listener.h`) and its `NetworkThread`s
(`Shared/Network/NetworkThread.h`), with `Socket::Open` (`Shared/Network/Socket.cpp`) as far as they
depend on it. A socket is created and put into the `mSockets` of a worker before a connection is
accepted on it, and stays there until its close handler, or an accept that fails, removes it.

`OnAccept` starts the next accept after it has opened the socket. `Open` asks for the remote
endpoint, which boost reports as missing by throwing `boost::system::system_error`; the handler in
`Open` names `boost::system::error_code`. After its `try` block `Open` calls `SendVersionCheck` of
the derived class, which may throw as well. So an exception leaves `OnAccept` before the next accept
is started, and `io_service::run` with it.

## Main definitions

* `SteerStone.NetworkThread`, `SteerStone.Listener` — the workers and the listener.
* `SteerStone.socketOpen` — `Open`, as far as it may throw.
* `SteerStone.Listener.beginAccept`, `SteerStone.Listener.onAccept` — the accept loop.
* `SteerStone.ListenerAction`, `SteerStone.listenerSystem` — the transition system.

## Main results

* `SteerStone.Listener.selectWorker_firstLeast` — the worker selected is the first of those with the
  fewest sockets.
* `SteerStone.listenerSystem_accept` — what one accept leaves.
* `SteerStone.survives_iff` — the accept loop survives exactly the accepts with no exception out of
  `Open`.

## Implementation notes

* A socket is known by its number among all sockets created.
* An exception that leaves the handler ends the thread, and with it the process; the model stops
  there.
* There are at most 255 workers, so the `int` that holds the index of one is a number.
* `OnAccept` ignores the result of `Open`. That `Open` returns false needs an exception that boost
  does not throw.
* `SendVersionCheck` is a function of the derived class; whether it throws is part of how an accept
  goes on. For the `AuthSocket` a setting decides it (`PristonTale.Auth.AcceptLoop`).
-/

namespace SteerStone

open Foundations

/-- A `NetworkThread`: `mSockets`. -/
structure NetworkThread where
  /-- The sockets. -/
  sockets : List ℕ
  deriving DecidableEq, Repr

namespace NetworkThread

/-- `Size`. -/
def size (t : NetworkThread) : ℕ := t.sockets.length

/-- `CreateSocket`, with the new socket. -/
def createSocket (socket : ℕ) (t : NetworkThread) : NetworkThread := ⟨socket :: t.sockets⟩

/-- `RemoveSocket`. -/
def removeSocket (socket : ℕ) (t : NetworkThread) : NetworkThread := ⟨t.sockets.erase socket⟩

end NetworkThread

/-- The exceptions that `Open` names and those that come out of what it calls. -/
inductive OpenException where
  /-- `boost::system::error_code`. -/
  | errorCode
  /-- `boost::system::system_error`. -/
  | systemError
  /-- `std::invalid_argument` and `std::out_of_range`, of `std::stoi`. -/
  | logicError
  deriving DecidableEq, Repr

/-- `Open`, given what `remote_endpoint` does in its `try` block, whose handler catches
`boost::system::error_code`, and what `SendVersionCheck` does after it. -/
def socketOpen (remoteEndpoint sendVersionCheck : Except OpenException Unit) :
    Except OpenException Bool :=
  match remoteEndpoint with
  | .error .errorCode => .ok false
  | .error e => .error e
  | .ok () =>
    match sendVersionCheck with
    | .error e => .error e
    | .ok () => .ok true

/-- How an `async_accept` completes and goes on. -/
inductive AcceptOutcome where
  /-- With an error code. -/
  | error
  /-- With a connection whose remote endpoint is there, and `SendVersionCheck` returns. -/
  | connected
  /-- With a connection whose peer is gone, so that `remote_endpoint` throws. -/
  | vanished
  /-- With a connection whose remote endpoint is there, and `SendVersionCheck` throws. -/
  | unversioned
  deriving DecidableEq, Repr

/-- What `Open` does on the socket that was accepted, if one was. -/
def AcceptOutcome.socketOpen : AcceptOutcome → Option (Except OpenException Bool)
  | .error => none
  | .connected => some (SteerStone.socketOpen (.ok ()) (.ok ()))
  | .vanished => some (SteerStone.socketOpen (.error .systemError) (.ok ()))
  | .unversioned => some (SteerStone.socketOpen (.ok ()) (.error .logicError))

/-- The `Open` of the accepted socket returned true. -/
def AcceptOutcome.Opened (o : AcceptOutcome) : Prop := o.socketOpen = some (.ok true)

/-- An exception comes out of the `Open` of the accepted socket. -/
def AcceptOutcome.Throws (o : AcceptOutcome) : Prop := ∃ e, o.socketOpen = some (.error e)

/-- An exception comes out of `Open` if one comes out of `remote_endpoint` or of
`SendVersionCheck`. -/
lemma AcceptOutcome.throws_iff {o : AcceptOutcome} :
    o.Throws ↔ o = .vanished ∨ o = .unversioned := by
  unfold Throws
  cases o <;> simp [AcceptOutcome.socketOpen, SteerStone.socketOpen]

instance (o : AcceptOutcome) : Decidable o.Opened := inferInstanceAs (Decidable (_ = _))

instance (o : AcceptOutcome) : Decidable o.Throws :=
  decidable_of_iff _ AcceptOutcome.throws_iff.symm

/-- A `Listener`. -/
structure Listener where
  /-- `mWorkerThreads`. -/
  workerThreads : List NetworkThread
  /-- The outstanding `async_accept`s: the worker and the socket of each. -/
  accepts : List (ℕ × ℕ)
  /-- How many sockets have been created. -/
  created : ℕ
  /-- An exception has left `io_service::run`. -/
  terminated : Bool
  deriving DecidableEq, Repr

namespace Listener

/-- The loop of `SelectWorker` from the worker `i` on. -/
def selectFrom : ℕ → ℕ → ℕ → List NetworkThread → ℕ
  | _, minIndex, _, [] => minIndex
  | i, minIndex, minSize, t :: ts =>
    if t.size < minSize then selectFrom (i + 1) i t.size ts
    else selectFrom (i + 1) minIndex minSize ts

/-- `SelectWorker`: the index of the worker. There is none if there are no workers. -/
def selectWorker (l : Listener) : Option ℕ :=
  match l.workerThreads with
  | [] => none
  | t :: ts => some (selectFrom 1 0 t.size ts)

/-- Call a function of a worker. -/
def onWorker (l : Listener) (worker : ℕ) (f : NetworkThread → NetworkThread) : Listener :=
  { l with workerThreads := l.workerThreads.modify worker f }

/-- `BeginAccept`. -/
def beginAccept (l : Listener) : Option Listener :=
  l.selectWorker.map fun worker =>
    { l.onWorker worker (.createSocket l.created) with
      accepts := l.accepts ++ [(worker, l.created)]
      created := l.created + 1 }

/-- `OnAccept`. -/
def onAccept (l : Listener) (worker socket : ℕ) (outcome : AcceptOutcome) : Option Listener :=
  match outcome.socketOpen with
  | none => (l.onWorker worker (.removeSocket socket)).beginAccept
  | some (.ok _) => l.beginAccept
  | some (.error _) => some { l with terminated := true }

/-- The constructor. -/
def new (workerThreads : ℕ) : Option Listener :=
  beginAccept ⟨List.replicate workerThreads ⟨[]⟩, [], 0, false⟩

end Listener

/-- What happens to a listener. -/
inductive ListenerAction where
  /-- The outstanding `async_accept` completes. -/
  | accept (outcome : AcceptOutcome)
  /-- The close handler of a socket that was accepted runs. -/
  | close (worker socket : ℕ)
  deriving DecidableEq, Repr

/-- The listener: its accept completes, or a socket that is no longer pending closes. -/
def listenerSystem : Transition Listener ListenerAction where
  step l
    | .accept outcome =>
      match l.terminated, l.accepts with
      | false, (worker, socket) :: rest =>
        { l with accepts := rest }.onAccept worker socket outcome
      | _, _ => none
    | .close worker socket =>
      if l.terminated = false ∧ (worker, socket) ∉ l.accepts then
        some (l.onWorker worker (.removeSocket socket))
      else none

/-- A socket is in the `mSockets` of a worker. -/
def Listener.Registered (l : Listener) (worker socket : ℕ) : Prop :=
  ∃ t, l.workerThreads[worker]? = some t ∧ socket ∈ t.sockets

/-- The accept loop survives a step: after `OnAccept` exactly one accept is outstanding, no
exception has left the thread, and the accepted socket is in the `mSockets` of its worker if and
only if its `Open` returned true. -/
def Survives (l : Listener) : ListenerAction → Prop
  | .accept outcome => ∀ l', listenerSystem.step l (.accept outcome) = some l' →
      l'.accepts.length = 1 ∧ l'.terminated = false ∧
        ∀ worker socket, (worker, socket) ∈ l.accepts →
          (l'.Registered worker socket ↔ outcome.Opened)
  | .close _ _ => True

/-! ## `SelectWorker` -/

namespace Listener

/-- The loop of `SelectWorker` goes on from the first of the workers with the fewest sockets among
those it has seen to the first of all.

**Proof sketch.** Induction on the workers it has not seen. The next one is the first with the
fewest if it has fewer (`FirstLeast.concat_of_lt`), else it is the one from before
(`FirstLeast.concat_of_le`). -/
lemma selectFrom_firstLeast (ts : List NetworkThread) {seen : List NetworkThread} {minIndex : ℕ}
    {t : NetworkThread} (h : FirstLeast NetworkThread.size seen minIndex t) :
    ∃ t', FirstLeast NetworkThread.size (seen ++ ts)
      (selectFrom seen.length minIndex t.size ts) t' := by
  induction ts generalizing seen minIndex t with
  | nil =>
    rw [List.append_nil]
    exact ⟨t, h⟩
  | cons u ts ih =>
    rw [List.append_cons]
    unfold selectFrom
    have hlength : (seen ++ [u]).length = seen.length + 1 := List.length_append
    rw [← hlength]
    by_cases hlt : u.size < t.size
    · rw [if_pos hlt]
      exact ih (h.concat_of_lt hlt)
    · rw [if_neg hlt]
      exact ih (h.concat_of_le (Nat.le_of_not_lt hlt))

/-- **The worker selected** is the first of those with the fewest sockets. -/
theorem selectWorker_firstLeast {l : Listener} {worker : ℕ} (h : l.selectWorker = some worker) :
    ∃ t, FirstLeast NetworkThread.size l.workerThreads worker t := by
  unfold selectWorker at h
  cases hw : l.workerThreads with
  | nil => simp [hw] at h
  | cons t ts =>
    simp only [hw, Option.some.injEq] at h
    rw [← h]
    exact selectFrom_firstLeast ts (firstLeast_singleton t)

/-- **The worker selected has the fewest sockets.** -/
theorem selectWorker_least {l : Listener} {worker : ℕ} (h : l.selectWorker = some worker) :
    ∃ t, l.workerThreads[worker]? = some t ∧ ∀ t' ∈ l.workerThreads, t.size ≤ t'.size := by
  obtain ⟨t, hfirst⟩ := selectWorker_firstLeast h
  exact ⟨t, hfirst.get, hfirst.least⟩

/-- There is a worker to select if there are workers. -/
lemma exists_selectWorker {l : Listener} (h : l.workerThreads ≠ []) :
    ∃ worker, l.selectWorker = some worker := by
  unfold selectWorker
  cases hw : l.workerThreads with
  | nil => exact absurd hw h
  | cons t ts => exact ⟨_, rfl⟩

/-! ## `mSockets` -/

/-- The sockets of a worker after a call on one of them. -/
lemma registered_onWorker (l : Listener) (worker : ℕ) (f : NetworkThread → NetworkThread)
    (worker' socket : ℕ) :
    (l.onWorker worker f).Registered worker' socket ↔
      if worker = worker' then ∃ t, l.workerThreads[worker]? = some t ∧ socket ∈ (f t).sockets
      else l.Registered worker' socket := by
  unfold Registered onWorker
  dsimp only
  by_cases heq : worker = worker'
  · subst heq
    rw [if_pos rfl, List.getElem?_modify_eq]
    simp only [Option.map_eq_map, Option.map_eq_some_iff]
    constructor
    · rintro ⟨-, ⟨t, ht, rfl⟩, hk⟩
      exact ⟨t, ht, hk⟩
    · rintro ⟨t, ht, hk⟩
      exact ⟨_, ⟨t, ht, rfl⟩, hk⟩
  · rw [if_neg heq, List.getElem?_modify_ne _ _ heq]

/-- What holds of the sockets at any time: they have been created, no worker has one twice, and
there are workers. -/
structure Sound (l : Listener) : Prop where
  /-- The sockets of the workers have been created. -/
  fresh : ∀ worker socket, l.Registered worker socket → socket < l.created
  /-- `mSockets` is a set. -/
  nodup : ∀ (worker : ℕ) (t : NetworkThread),
    l.workerThreads[worker]? = some t → t.sockets.Nodup
  /-- There is a worker. -/
  workers : l.workerThreads ≠ []

/-- One accept is outstanding, on a socket that its worker has. -/
structure Accepting (l : Listener) : Prop where
  /-- The sockets are sound. -/
  sound : l.Sound
  /-- The accept that is outstanding. -/
  pending : ∃ worker socket, l.accepts = [(worker, socket)] ∧ l.Registered worker socket

/-- `RemoveSocket` takes the socket from its worker, and no other socket from any. -/
lemma registered_removeSocket {l : Listener} (h : l.Sound) (worker socket worker' socket' : ℕ) :
    (l.onWorker worker (.removeSocket socket)).Registered worker' socket' ↔
      l.Registered worker' socket' ∧ ¬ (worker = worker' ∧ socket = socket') := by
  rw [registered_onWorker]
  by_cases heq : worker = worker'
  · subst heq
    rw [if_pos rfl]
    simp only [NetworkThread.removeSocket, true_and]
    constructor
    · rintro ⟨t, ht, hk⟩
      rw [(h.nodup worker t ht).mem_erase_iff] at hk
      exact ⟨⟨t, ht, hk.2⟩, fun hs => hk.1 hs.symm⟩
    · rintro ⟨⟨t, ht, hk⟩, hne⟩
      refine ⟨t, ht, ?_⟩
      rw [(h.nodup worker t ht).mem_erase_iff]
      exact ⟨fun hs => hne hs.symm, hk⟩
  · simp [heq]

/-- `RemoveSocket` keeps the sockets sound. -/
lemma Sound.removeSocket {l : Listener} (h : l.Sound) (worker socket : ℕ) :
    (l.onWorker worker (.removeSocket socket)).Sound := by
  refine ⟨?_, ?_, ?_⟩
  · intro worker' socket' hreg
    exact h.fresh worker' socket' ((registered_removeSocket h _ _ _ _).mp hreg).1
  · intro worker' t ht
    unfold onWorker at ht
    dsimp only at ht
    rw [List.getElem?_modify] at ht
    obtain ⟨u, hu, rfl⟩ := Option.map_eq_some_iff.mp ht
    have hnodup := h.nodup worker' u hu
    split_ifs
    · exact hnodup.erase socket
    · exact hnodup
  · intro hnil
    unfold onWorker at hnil
    exact h.workers (by simpa using hnil)

/-- A new socket on a worker keeps the listener sound: its number is that of no socket before it. -/
lemma Sound.createSocket {l : Listener} (h : l.Sound) (w : ℕ) (accepts : List (ℕ × ℕ)) :
    Sound { l.onWorker w (.createSocket l.created) with
      accepts := accepts
      created := l.created + 1 } := by
  refine ⟨?_, ?_, ?_⟩
  · intro worker socket hr
    have hr' := (registered_onWorker l w (.createSocket l.created) worker socket).mp hr
    show socket < l.created + 1
    by_contra hge
    split_ifs at hr' with heq
    · obtain ⟨u, hu, hmem⟩ := hr'
      rcases List.mem_cons.mp hmem with rfl | hmem
      · omega
      · have := h.fresh w socket ⟨u, hu, hmem⟩
        omega
    · have := h.fresh worker socket hr'
      omega
  · intro worker u hu
    have hu' : (l.workerThreads.modify w (.createSocket l.created))[worker]? = some u := hu
    rw [List.getElem?_modify] at hu'
    obtain ⟨v, hv, rfl⟩ := Option.map_eq_some_iff.mp hu'
    have hnodup := h.nodup worker v hv
    split_ifs
    · refine List.nodup_cons.mpr ⟨?_, hnodup⟩
      intro hmem
      exact absurd (h.fresh worker _ ⟨v, hv, hmem⟩) (Nat.lt_irrefl _)
    · exact hnodup
  · intro hnil
    have hnil' : l.workerThreads.modify w (.createSocket l.created) = [] := hnil
    exact h.workers (by simpa using hnil')

/-- **`BeginAccept`** leaves one accept outstanding, and the sockets created before where they
were.

**Proof sketch.** The new socket goes to the worker that is selected; its number is that of no
socket before it (`Sound.createSocket`). -/
theorem exists_beginAccept {l : Listener} (h : l.Sound) (hnone : l.accepts = []) :
    ∃ l', l.beginAccept = some l' ∧ l'.Accepting ∧ l'.terminated = l.terminated ∧
      ∀ worker socket, socket < l.created →
        (l'.Registered worker socket ↔ l.Registered worker socket) := by
  obtain ⟨w, hw⟩ := exists_selectWorker h.workers
  obtain ⟨t, ht, -⟩ := selectWorker_least hw
  set l' : Listener := { l.onWorker w (.createSocket l.created) with
    accepts := l.accepts ++ [(w, l.created)]
    created := l.created + 1 } with hl'
  have hreg : ∀ worker socket, l'.Registered worker socket ↔
      if w = worker then ∃ t, l.workerThreads[w]? = some t ∧ socket ∈ l.created :: t.sockets
      else l.Registered worker socket := by
    intro worker socket
    exact registered_onWorker l w (.createSocket l.created) worker socket
  have hold : ∀ worker socket, socket < l.created →
      (l'.Registered worker socket ↔ l.Registered worker socket) := by
    intro worker socket hlt
    rw [hreg]
    split_ifs with heq
    · subst heq
      simp [Registered, Nat.ne_of_lt hlt]
    · rfl
  have hpending : l'.accepts = [(w, l.created)] := by
    show l.accepts ++ [(w, l.created)] = _
    rw [hnone, List.nil_append]
  refine ⟨l', by simp [beginAccept, hw, hl'], ⟨h.createSocket w _, w, l.created, hpending, ?_⟩,
    rfl, hold⟩
  rw [hreg, if_pos rfl]
  exact ⟨t, ht, List.mem_cons_self⟩

/-- A new listener is accepting. -/
lemma accepting_new {n : ℕ} {l : Listener} (h : new n = some l) :
    l.Accepting ∧ l.terminated = false := by
  have hsound : n ≠ 0 → (⟨List.replicate n ⟨[]⟩, [], 0, false⟩ : Listener).Sound := by
    intro hn
    refine ⟨?_, ?_, ?_⟩
    · rintro worker socket ⟨t, ht, hmem⟩
      obtain rfl := List.eq_of_mem_replicate (List.mem_of_getElem? ht)
      exact absurd hmem List.not_mem_nil
    · intro worker t ht
      obtain rfl := List.eq_of_mem_replicate (List.mem_of_getElem? ht)
      exact List.nodup_nil
    · simpa using hn
  by_cases hn : n = 0
  · subst hn
    simp [new, beginAccept, selectWorker] at h
  · obtain ⟨l', hl', hacc, hterm, -⟩ := exists_beginAccept (hsound hn) rfl
    obtain rfl := Option.some.inj (h.symm.trans hl')
    exact ⟨hacc, hterm⟩

end Listener

/-! ## One step -/

/-- A step is taken only while no exception has left the thread. -/
lemma terminated_of_step {l l' : Listener} {a : ListenerAction}
    (hstep : listenerSystem.step l a = some l') : l.terminated = false := by
  cases hterm : l.terminated with
  | false => rfl
  | true => cases a <;> simp [listenerSystem, hterm] at hstep

/-- The accept that completes is the one that is outstanding. -/
lemma onAccept_of_step {l l' : Listener} {outcome : AcceptOutcome} {worker socket : ℕ}
    (hacc : l.accepts = [(worker, socket)])
    (hstep : listenerSystem.step l (.accept outcome) = some l') :
    Listener.onAccept { l with accepts := [] } worker socket outcome = some l' := by
  have hlive := terminated_of_step hstep
  simpa [listenerSystem, hlive, hacc] using hstep

/-- After an exception has left the thread no accept is outstanding. -/
lemma eq_of_onAccept_throws {l l' : Listener} {worker socket : ℕ} {outcome : AcceptOutcome}
    (ho : outcome.Throws)
    (h : Listener.onAccept { l with accepts := [] } worker socket outcome = some l') :
    l' = { l with accepts := [], terminated := true } := by
  have hsome : some { l with accepts := [], terminated := true } = some l' := by
    rcases AcceptOutcome.throws_iff.mp ho with rfl | rfl
    · exact h
    · exact h
  exact (Option.some.inj hsome).symm

/-- **What one accept leaves.** If the accept failed or `Open` returns, exactly one accept is
outstanding again and the socket is registered if it was opened; if `Open` throws, no accept is
outstanding and the exception has left the thread.

**Proof sketch.** By the outcome. Unless `Open` throws, `BeginAccept` comes next
(`Listener.exists_beginAccept`), and leaves the sockets created before registered as they were. -/
theorem listenerSystem_accept {l l' : Listener} {outcome : AcceptOutcome} (h : l.Accepting)
    (hstep : listenerSystem.step l (.accept outcome) = some l') :
    (¬ outcome.Throws ∧ l'.Accepting ∧ l'.terminated = false ∧
      ∀ worker socket, (worker, socket) ∈ l.accepts →
        (l'.Registered worker socket ↔ outcome.Opened)) ∨
    (outcome.Throws ∧ l'.accepts = [] ∧ l'.terminated = true) := by
  obtain ⟨w, k, hacc, hreg⟩ := h.pending
  have hlive := terminated_of_step hstep
  have hon := onAccept_of_step hacc hstep
  have hsound : ({ l with accepts := [] } : Listener).Sound :=
    ⟨h.sound.fresh, h.sound.nodup, h.sound.workers⟩
  have hk : k < l.created := h.sound.fresh w k hreg
  cases outcome with
  | error =>
    obtain ⟨m, hm, hacc', hterm, hsame⟩ :=
      Listener.exists_beginAccept (hsound.removeSocket w k) rfl
    obtain rfl : m = l' := Option.some.inj (hm.symm.trans hon)
    refine .inl ⟨by decide, hacc', hterm.trans hlive, ?_⟩
    intro worker socket hmem
    rw [hacc, List.mem_singleton, Prod.mk.injEq] at hmem
    obtain ⟨rfl, rfl⟩ := hmem
    rw [hsame _ _ hk, Listener.registered_removeSocket hsound]
    have hopened : ¬ AcceptOutcome.error.Opened := by decide
    simp [hopened]
  | connected =>
    obtain ⟨m, hm, hacc', hterm, hsame⟩ := Listener.exists_beginAccept hsound rfl
    obtain rfl : m = l' := Option.some.inj (hm.symm.trans hon)
    refine .inl ⟨by decide, hacc', hterm.trans hlive, ?_⟩
    intro worker socket hmem
    rw [hacc, List.mem_singleton, Prod.mk.injEq] at hmem
    obtain ⟨rfl, rfl⟩ := hmem
    have hopened : AcceptOutcome.connected.Opened := by decide
    have hreg' : m.Registered worker socket := (hsame _ _ hk).mpr hreg
    simp [hopened, hreg']
  | vanished =>
    have hthrows : AcceptOutcome.vanished.Throws := by decide
    rw [eq_of_onAccept_throws hthrows hon]
    exact .inr ⟨hthrows, rfl, rfl⟩
  | unversioned =>
    have hthrows : AcceptOutcome.unversioned.Throws := by decide
    rw [eq_of_onAccept_throws hthrows hon]
    exact .inr ⟨hthrows, rfl, rfl⟩

/-- Until an exception has left the thread the listener is accepting. -/
def Running (l : Listener) : Prop := l.terminated = false → l.Accepting

/-- Every step keeps the listener running. -/
lemma running_step (l : Listener) (a : ListenerAction) (l' : Listener) (h : Running l)
    (hstep : listenerSystem.step l a = some l') : Running l' := by
  have hacc := h (terminated_of_step hstep)
  cases a with
  | accept outcome =>
    intro hterm
    rcases listenerSystem_accept hacc hstep with ⟨-, hacc', -⟩ | ⟨-, -, hdead⟩
    · exact hacc'
    · simp [hterm] at hdead
  | close worker socket =>
    intro _
    simp only [listenerSystem] at hstep
    split_ifs at hstep with hguard
    obtain rfl := Option.some.inj hstep
    obtain ⟨w, k, hpending, hreg⟩ := hacc.pending
    refine ⟨hacc.sound.removeSocket worker socket, w, k, hpending, ?_⟩
    rw [Listener.registered_removeSocket hacc.sound]
    refine ⟨hreg, ?_⟩
    rintro ⟨rfl, rfl⟩
    apply hguard.2
    rw [hpending]
    exact List.mem_singleton_self _

/-- **The accept loop survives a step** of a listener that is running exactly when no exception
comes out of `Open`. -/
theorem survives_iff {l l' : Listener} {a : ListenerAction} (h : Running l)
    (hstep : listenerSystem.step l a = some l') :
    Survives l a ↔ ∀ outcome, a = .accept outcome → ¬ outcome.Throws := by
  cases a with
  | close worker socket => simp [Survives]
  | accept outcome =>
    have hcases := listenerSystem_accept (h (terminated_of_step hstep)) hstep
    simp only [Survives, hstep, Option.some.injEq, forall_eq', ListenerAction.accept.injEq]
    rcases hcases with ⟨hreturns, hacc, hterm, hreg⟩ | ⟨hthrows, hnone, -⟩
    · obtain ⟨w, k, hpending, -⟩ := hacc.pending
      have hone : l'.accepts.length = 1 := by rw [hpending]; rfl
      simp [hone, hterm, hreturns]
      exact hreg
    · simp [hnone, hthrows]

end SteerStone
