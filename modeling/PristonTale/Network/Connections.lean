import PristonTale.Network.Listener
import PristonTale.Network.SendingSide

set_option relaxedAutoImplicit false
set_option autoImplicit false

/-!
# The connections of a listener

A listener and the sockets of the connections it has accepted, together: the accept loop runs on one
thread, the handlers of the sockets on those of their workers, and the close handler of a socket is
`RemoveSocket` of its worker (`NetworkThread::CreateSocket`). The sockets are those of
`PristonTale.Network.Socket`, whatever the derived class, and the listener is that of
`PristonTale.Network.Listener`.

An object is destroyed when nobody holds a `std::shared_ptr` to it. `mSockets` holds one, and so
does each handler of an operation that is outstanding.

## Main definitions

* `SteerStone.AcceptedSocket`, `SteerStone.Server` — the connections of a listener.
* `SteerStone.serverSystem` — the transition system.
* `SteerStone.Socket.handlers` — the handlers that hold the object of a socket.

## Main results

* `SteerStone.registered_iff_open` — after every run, `mSockets` holds the pending socket and the
  open ones, each once.
* `SteerStone.released_after_two` — a socket that is closed is destroyed after two handlers at most.

## Implementation notes

* `OnAccept` is one step, as in `PristonTale.Network.Listener`.
* The handlers of one socket are steps of `SteerStone.socketSystem`; between two of them those of
  any other socket may run.
-/

namespace SteerStone

open Foundations

variable {δ : Type} (grow : ℕ → ℕ → ℕ) (D : Derived δ)

/-- A connection that was accepted. -/
structure AcceptedSocket (δ : Type) where
  /-- The worker whose `mSockets` its socket was put into. -/
  worker : ℕ
  /-- The number of its socket among those created. -/
  number : ℕ
  /-- What the derived class adds, and its socket. -/
  state : δ × Socket

/-- The socket is open. -/
def AcceptedSocket.isOpen (c : AcceptedSocket δ) : Bool := c.state.2.isOpen

/-- A listener and the connections it has accepted. -/
structure Server (δ : Type) where
  /-- The listener. -/
  listener : Listener
  /-- The connections, in the order they were accepted. -/
  connections : List (AcceptedSocket δ)

/-- What happens to a listener and its connections. -/
inductive ServerAction where
  /-- The outstanding `async_accept` completes. -/
  | accept (outcome : AcceptOutcome)
  /-- A step of the socket of one connection. -/
  | handle (connection : ℕ) (a : SocketAction)

/-- The connections `OnAccept` adds: the one whose socket it has opened. -/
def Server.accepted (s : Server δ) (d : δ) (outcome : AcceptOutcome) : List (AcceptedSocket δ) :=
  if outcome.Opened then
    (s.listener.accepts.take 1).map fun p => ⟨p.1, p.2, d, Socket.openSocket grow D⟩
  else []

/-- The listener after a step of the socket of `c`: the close handler has run if the step has called
it. -/
def Server.reported (s : Server δ) (c : AcceptedSocket δ) (st : δ × Socket) : Listener :=
  if st.2.closeReports = c.state.2.closeReports then s.listener
  else s.listener.onWorker c.worker (.removeSocket c.number)

/-- A listener and its connections, `d` being what the derived class adds to a new socket. -/
def serverSystem (d : δ) : Transition (Server δ) ServerAction where
  step s
    | .accept outcome =>
      (listenerSystem.step s.listener (.accept outcome)).map fun l =>
        ⟨l, s.connections ++ s.accepted grow D d outcome⟩
    | .handle i a =>
      match s.listener.terminated, s.connections[i]? with
      | false, some c =>
        ((socketSystem grow D).step c.state a).map fun st =>
          ⟨s.reported c st, s.connections.set i { c with state := st }⟩
      | _, _ => none

/-- The numbers of the sockets that were created and not taken back. -/
def Server.numbers (s : Server δ) : List ℕ :=
  s.listener.accepts.map Prod.snd ++ s.connections.map AcceptedSocket.number

/-- How many sockets the workers have. -/
def Listener.total (l : Listener) : ℕ := (l.workerThreads.map NetworkThread.size).sum

/-- **A tidy server**: the workers have the pending sockets and the open ones. -/
structure Server.Tidy (s : Server δ) : Prop where
  /-- The sockets of the listener are sound. -/
  sound : s.listener.Sound
  /-- No two sockets have one number. -/
  nodup : s.numbers.Nodup
  /-- The sockets have been created. -/
  created : ∀ k ∈ s.numbers, k < s.listener.created
  /-- Each socket reports its close once. -/
  due : ∀ c ∈ s.connections, reportsDue c.state.2 = 1
  /-- What the workers have. -/
  registered : ∀ worker socket, s.listener.Registered worker socket ↔
    (worker, socket) ∈ s.listener.accepts ∨
      ∃ c ∈ s.connections, c.worker = worker ∧ c.number = socket ∧ c.isOpen = true
  /-- How many sockets the workers have. -/
  total : s.listener.total = s.listener.accepts.length +
    (s.connections.map fun c => c.isOpen.toNat).sum

/-! ## The workers -/

namespace Listener

variable {l l' : Listener}

/-- How many sockets the workers have after a call on one of them. -/
lemma total_onWorker {worker : ℕ} {t : NetworkThread} (ht : l.workerThreads[worker]? = some t)
    (f : NetworkThread → NetworkThread) :
    (l.onWorker worker f).total + t.size = l.total + (f t).size :=
  sum_map_modify NetworkThread.size f ht

/-- `RemoveSocket` of a socket that the worker has. -/
lemma total_removeSocket {worker socket : ℕ} (hreg : l.Registered worker socket) :
    (l.onWorker worker (.removeSocket socket)).total + 1 = l.total := by
  obtain ⟨t, ht, hmem⟩ := hreg
  have htotal := total_onWorker ht (.removeSocket socket)
  have hsize : (NetworkThread.removeSocket socket t).size + 1 = t.size := by
    have hlength := List.length_erase_of_mem hmem
    have hpos := List.length_pos_of_mem hmem
    show (t.sockets.erase socket).length + 1 = t.sockets.length
    omega
  omega

/-- **What `BeginAccept` leaves**: the new socket is pending, and its worker has it. -/
lemma beginAccept_eq_some (hnone : l.accepts = []) (h : l.beginAccept = some l') :
    ∃ w, l'.accepts = [(w, l.created)] ∧ l'.created = l.created + 1 ∧ l'.total = l.total + 1 ∧
      ∀ worker socket, l'.Registered worker socket ↔
        (worker, socket) = (w, l.created) ∨ l.Registered worker socket := by
  obtain ⟨w, hw, rfl⟩ := Option.map_eq_some_iff.mp h
  obtain ⟨t, ht, -⟩ := selectWorker_least hw
  refine ⟨w, by simp [hnone], rfl, ?_, ?_⟩
  · have htotal := total_onWorker ht (.createSocket l.created)
    have hsize : (NetworkThread.createSocket l.created t).size = t.size + 1 := rfl
    show (l.onWorker w (.createSocket l.created)).total = _
    omega
  · intro worker socket
    refine (registered_onWorker l w (.createSocket l.created) worker socket).trans ?_
    split_ifs with heq
    · subst heq
      simp [Registered, NetworkThread.createSocket, ht]
    · simp [Ne.symm heq]

end Listener

/-! ## One step -/

/-- To replace an element by itself. -/
lemma set_self {α : Type} {l : List α} {i : ℕ} {a : α} (h : l[i]? = some a) : l.set i a = l := by
  obtain ⟨hi, rfl⟩ := List.getElem?_eq_some_iff.mp h
  exact List.set_getElem_self hi

/-- What an element of a list has when one of them is replaced. -/
lemma exists_mem_set {α : Type} {P : α → Prop} {l : List α} {i : ℕ} {a : α} (h : l[i]? = some a)
    (b : α) : (∃ x ∈ l.set i b, P x) ↔ P b ∨ ∃ j x, j ≠ i ∧ l[j]? = some x ∧ P x := by
  have hi := (List.getElem?_eq_some_iff.mp h).1
  simp only [List.mem_iff_getElem?, List.getElem?_set]
  constructor
  · rintro ⟨x, ⟨j, hj⟩, hx⟩
    split_ifs at hj with heq
    · obtain rfl := Option.some.inj hj
      exact .inl hx
    · exact .inr ⟨j, x, Ne.symm heq, hj, hx⟩
  · rintro (hb | ⟨j, x, hne, hj, hx⟩)
    · exact ⟨b, ⟨i, by simp [hi]⟩, hb⟩
    · exact ⟨x, ⟨j, by rw [if_neg (Ne.symm hne), hj]⟩, hx⟩

namespace Server.Tidy

variable {grow D} {s : Server δ} {cs : List (AcceptedSocket δ)} {m l : Listener}

/-- `BeginAccept` keeps a server tidy. -/
lemma beginAccept (h : Server.Tidy ⟨m, cs⟩) (hnone : m.accepts = [])
    (hl : m.beginAccept = some l) : Server.Tidy ⟨l, cs⟩ := by
  obtain ⟨l', hl', hacc, -⟩ := Listener.exists_beginAccept h.sound hnone
  obtain rfl : l = l' := Option.some.inj (hl.symm.trans hl')
  obtain ⟨w, haccepts, hcreated, htotal, hreg⟩ := Listener.beginAccept_eq_some hnone hl
  have hnodup := h.nodup
  have hold := h.created
  simp only [Server.numbers, hnone, List.map_nil, List.nil_append] at hnodup hold
  refine ⟨hacc.sound, ?_, ?_, h.due, ?_, ?_⟩
  · simp only [Server.numbers, haccepts, List.map_cons, List.map_nil, List.singleton_append]
    exact List.nodup_cons.mpr ⟨fun hmem => absurd (hold _ hmem) (lt_irrefl _), hnodup⟩
  · intro k hk
    simp only [Server.numbers, haccepts, List.map_cons, List.map_nil, List.singleton_append,
      List.mem_cons] at hk
    show k < l.created
    rcases hk with rfl | hk
    · omega
    · have := hold k hk
      omega
  · intro worker socket
    refine (hreg worker socket).trans ?_
    rw [haccepts, List.mem_singleton]
    have hbefore := h.registered worker socket
    simp only [hnone, List.not_mem_nil, false_or] at hbefore
    rw [hbefore]
  · show l.total = _
    have hbefore : m.total = _ := h.total
    rw [htotal, hbefore, hnone, haccepts]
    simp only [List.length_nil, List.length_singleton]
    omega

/-- An accept that succeeds turns the pending socket into a connection. -/
lemma opened (h : s.Tidy) {w k : ℕ} (hacc : s.listener.accepts = [(w, k)]) {c : AcceptedSocket δ}
    (hw : c.worker = w) (hk : c.number = k) (hopen : c.isOpen = true)
    (hdue : reportsDue c.state.2 = 1) :
    Server.Tidy ⟨{ s.listener with accepts := [] }, s.connections ++ [c]⟩ := by
  have hnodup := h.nodup
  have hcreated := h.created
  simp only [Server.numbers, hacc, List.map_cons, List.map_nil, List.singleton_append]
    at hnodup hcreated
  refine ⟨⟨h.sound.fresh, h.sound.nodup, h.sound.workers⟩, ?_, ?_, ?_, ?_, ?_⟩
  · simp only [Server.numbers, List.map_append, List.map_cons, List.map_nil, List.nil_append, hk]
    exact (List.perm_append_singleton k _).nodup_iff.mpr hnodup
  · intro j hj
    simp only [Server.numbers, List.map_append, List.map_cons, List.map_nil, List.nil_append,
      hk] at hj
    exact hcreated j ((List.perm_append_singleton k _).mem_iff.mp hj)
  · intro c' hc'
    rcases List.mem_append.mp hc' with hc' | hc'
    · exact h.due c' hc'
    · rwa [List.mem_singleton.mp hc']
  · intro worker socket
    refine (h.registered worker socket).trans ?_
    simp only [hacc, List.mem_singleton, Prod.mk.injEq, List.not_mem_nil, false_or,
      List.mem_append, or_and_right, exists_or, exists_eq_left, hw, hk, hopen, and_true]
    constructor
    · rintro (⟨rfl, rfl⟩ | hold)
      · exact .inr ⟨rfl, rfl⟩
      · exact .inl hold
    · rintro (hold | ⟨rfl, rfl⟩)
      · exact .inr hold
      · exact .inl ⟨rfl, rfl⟩
  · show s.listener.total = _
    rw [h.total, hacc]
    simp only [List.length_singleton, List.length_nil, List.map_append, List.map_cons,
      List.map_nil, List.sum_append, List.sum_cons, List.sum_nil, hopen, Bool.toNat_true]
    omega

/-- An accept that fails removes the pending socket. -/
lemma failed (h : s.Tidy) {w k : ℕ} (hacc : s.listener.accepts = [(w, k)]) :
    Server.Tidy ⟨Listener.onWorker { s.listener with accepts := [] } w (.removeSocket k),
      s.connections⟩ := by
  have hnodup := h.nodup
  have hcreated := h.created
  simp only [Server.numbers, hacc, List.map_cons, List.map_nil, List.singleton_append]
    at hnodup hcreated
  have hsound : ({ s.listener with accepts := [] } : Listener).Sound :=
    ⟨h.sound.fresh, h.sound.nodup, h.sound.workers⟩
  have hreg : s.listener.Registered w k := (h.registered w k).mpr (.inl (by rw [hacc]; simp))
  refine ⟨hsound.removeSocket w k, (List.nodup_cons.mp hnodup).2,
    fun j hj => hcreated j (List.mem_cons_of_mem _ hj), h.due, ?_, ?_⟩
  · intro worker socket
    refine (Listener.registered_removeSocket hsound w k worker socket).trans ?_
    rw [show Listener.Registered { s.listener with accepts := [] } worker socket ↔ _ from
      h.registered worker socket, hacc]
    simp only [List.mem_singleton, Prod.mk.injEq]
    constructor
    · rintro ⟨⟨rfl, rfl⟩ | hopen, hne⟩
      · exact absurd ⟨rfl, rfl⟩ hne
      · exact .inr hopen
    · rintro (hnil | ⟨c, hc, rfl, rfl, hopen⟩)
      · exact absurd hnil List.not_mem_nil
      · refine ⟨.inr ⟨c, hc, rfl, rfl, hopen⟩, fun heq => ?_⟩
        exact (List.nodup_cons.mp hnodup).1 (heq.2 ▸ List.mem_map_of_mem hc)
  · have htotal := Listener.total_removeSocket (l := { s.listener with accepts := [] }) hreg
    have hbefore := h.total
    rw [hacc, List.length_singleton] at hbefore
    show (Listener.onWorker { s.listener with accepts := [] } w (.removeSocket k)).total =
      0 + (s.connections.map fun c => c.isOpen.toNat).sum
    change _ = s.listener.total at htotal
    omega

end Server.Tidy

/-- **An accept leaves a tidy server tidy**, unless the exception leaves the thread. -/
lemma tidy_accept {d : δ} {s s' : Server δ} {outcome : AcceptOutcome}
    (haccepting : s.listener.Accepting) (h : s.Tidy)
    (hstep : (serverSystem grow D d).step s (.accept outcome) = some s')
    (hlive : s'.listener.terminated = false) : s'.Tidy := by
  obtain ⟨l, hl, rfl⟩ := Option.map_eq_some_iff.mp hstep
  obtain ⟨w, k, hacc, hreg⟩ := haccepting.pending
  have hon := onAccept_of_step hacc hl
  cases outcome with
  | error =>
    rw [Server.accepted, if_neg (by decide), List.append_nil]
    exact (h.failed hacc).beginAccept rfl hon
  | connected =>
    rw [Server.accepted, if_pos (by decide), hacc]
    have hopened := h.opened hacc (c := ⟨w, k, d, Socket.openSocket grow D⟩) rfl rfl
      (Socket.openSocket_isOpen grow D) (reportsDue_openSocket grow D)
    exact hopened.beginAccept rfl hon
  | vanished =>
    rw [eq_of_onAccept_throws (AcceptOutcome.throws_iff.mpr (.inl rfl)) hon] at hlive
    simp at hlive
  | unversioned =>
    rw [eq_of_onAccept_throws (AcceptOutcome.throws_iff.mpr (.inr rfl)) hon] at hlive
    simp at hlive

/-- What a step of a socket that reports its close once does: it calls the close handler exactly if
it closes the socket. -/
lemma step_reports {st st' : δ × Socket} {a : SocketAction} (hdue : reportsDue st.2 = 1)
    (hstep : (socketSystem grow D).step st a = some st') :
    (st'.2.closeReports = st.2.closeReports ∧ st'.2.isOpen = st.2.isOpen) ∨
      (st'.2.closeReports ≠ st.2.closeReports ∧ st.2.isOpen = true ∧ st'.2.isOpen = false) := by
  have hdue' := (reportsDue_step grow D hstep).trans hdue
  unfold reportsDue at hdue hdue'
  cases hopen : st.2.isOpen with
  | false =>
    have hstays := staysClosed_step grow D hopen hstep
    rw [hopen, Bool.toNat_false] at hdue
    rw [hstays.isOpen, Bool.toNat_false] at hdue'
    exact .inl ⟨by omega, hstays.isOpen⟩
  | true =>
    rw [hopen, Bool.toNat_true] at hdue
    cases hopen' : st'.2.isOpen with
    | true =>
      rw [hopen', Bool.toNat_true] at hdue'
      exact .inl ⟨by omega, rfl⟩
    | false =>
      rw [hopen', Bool.toNat_false] at hdue'
      exact .inr ⟨by omega, rfl, rfl⟩

namespace Server.Tidy

variable {s : Server δ} {i : ℕ} {c c' : AcceptedSocket δ}

/-- No two connections have one number. -/
lemma eq_of_number (h : s.Tidy) {i j : ℕ} {c c' : AcceptedSocket δ}
    (hc : s.connections[i]? = some c) (hc' : s.connections[j]? = some c')
    (hnumber : c.number = c'.number) : i = j := by
  have hlt : i < (s.connections.map AcceptedSocket.number).length := by
    rw [List.length_map]
    exact (List.getElem?_eq_some_iff.mp hc).1
  refine (List.getElem?_inj hlt (List.nodup_append.mp h.nodup).2.1).mp ?_
  rw [List.getElem?_map, List.getElem?_map, hc, hc']
  exact congrArg some hnumber

/-- The numbers stay when a connection is replaced by one with the same number. -/
lemma numbers_set (hc : s.connections[i]? = some c) (hnumber : c'.number = c.number) :
    (s.connections.set i c').map AcceptedSocket.number =
      s.connections.map AcceptedSocket.number := by
  rw [List.map_set]
  exact set_self (by rw [List.getElem?_map, hc, hnumber]; rfl)

/-- Each socket still reports its close once. -/
lemma due_set (h : s.Tidy) (hdue : reportsDue c'.state.2 = 1) :
    ∀ c₁ ∈ s.connections.set i c', reportsDue c₁.state.2 = 1 := by
  intro c₁ hc₁
  rcases List.mem_or_eq_of_mem_set hc₁ with hc₁ | rfl
  · exact h.due c₁ hc₁
  · exact hdue

/-- A step that leaves its socket as open as it was. -/
lemma stepped (h : s.Tidy) (hc : s.connections[i]? = some c) (hworker : c'.worker = c.worker)
    (hnumber : c'.number = c.number) (hdue : reportsDue c'.state.2 = 1)
    (hopen : c'.isOpen = c.isOpen) :
    Server.Tidy ⟨s.listener, s.connections.set i c'⟩ := by
  refine ⟨h.sound, ?_, ?_, h.due_set hdue, fun worker socket => ?_, ?_⟩
  · rw [Server.numbers, numbers_set hc hnumber]
    exact h.nodup
  · rw [Server.numbers, numbers_set hc hnumber]
    exact h.created
  · have hbefore := exists_mem_set (P := fun c₁ : AcceptedSocket δ =>
      c₁.worker = worker ∧ c₁.number = socket ∧ c₁.isOpen = true) hc c
    rw [set_self hc] at hbefore
    rw [h.registered, hbefore, exists_mem_set hc, hworker, hnumber, hopen]
  · rw [h.total]
    have hsum := sum_map_set (fun c₁ : AcceptedSocket δ => c₁.isOpen.toNat) hc c'
    rw [hopen] at hsum
    dsimp only
    omega

/-- A step that closes its socket, and the close handler.

**Proof sketch.** The pending socket and the other connections have other numbers, so
`RemoveSocket` leaves them. -/
lemma closed (h : s.Tidy) (hc : s.connections[i]? = some c) (hnumber : c'.number = c.number)
    (hdue : reportsDue c'.state.2 = 1)
    (hopen : c.isOpen = true) (hclosed : c'.isOpen = false) :
    Server.Tidy ⟨s.listener.onWorker c.worker (.removeSocket c.number),
      s.connections.set i c'⟩ := by
  have hmem : c ∈ s.connections := List.mem_of_getElem? hc
  have hnodup := List.nodup_append.mp h.nodup
  have hreg : s.listener.Registered c.worker c.number :=
    (h.registered _ _).mpr (.inr ⟨c, hmem, rfl, rfl, hopen⟩)
  refine ⟨h.sound.removeSocket _ _, ?_, ?_, h.due_set hdue, fun worker socket => ?_, ?_⟩
  · rw [Server.numbers, numbers_set hc hnumber]
    exact h.nodup
  · rw [Server.numbers, numbers_set hc hnumber]
    exact h.created
  · have hbefore := exists_mem_set (P := fun c₁ : AcceptedSocket δ =>
      c₁.worker = worker ∧ c₁.number = socket ∧ c₁.isOpen = true) hc c
    rw [set_self hc] at hbefore
    rw [Listener.registered_removeSocket h.sound, h.registered, hbefore, exists_mem_set hc]
    constructor
    · rintro ⟨hpending | ⟨hw, hk, -⟩ | hother, hne⟩
      · exact .inl hpending
      · exact absurd ⟨hw, hk⟩ hne
      · exact .inr (.inr hother)
    · rintro (hpending | ⟨-, -, hopen'⟩ | ⟨j, c₁, hj, hc₁, rfl, rfl, hopen₁⟩)
      · refine ⟨.inl hpending, fun heq => ?_⟩
        have hpend := List.mem_map_of_mem (f := Prod.snd) hpending
        exact hnodup.2.2 _ hpend _ (List.mem_map_of_mem hmem) heq.2.symm
      · rw [hclosed] at hopen'
        exact absurd hopen' (by decide)
      · exact ⟨.inr (.inr ⟨j, c₁, hj, hc₁, rfl, rfl, hopen₁⟩),
          fun heq => hj (h.eq_of_number hc₁ hc heq.2.symm)⟩
  · have htotal := Listener.total_removeSocket hreg
    have hsum := sum_map_set (fun c₁ : AcceptedSocket δ => c₁.isOpen.toNat) hc c'
    rw [hopen, hclosed, Bool.toNat_true, Bool.toNat_false] at hsum
    have hbefore := h.total
    show _ = s.listener.accepts.length + _
    dsimp only
    omega

end Server.Tidy

/-- What a step of the socket of a connection is. -/
lemma serverSystem_handle {d : δ} {s s' : Server δ} {i : ℕ} {a : SocketAction}
    (hstep : (serverSystem grow D d).step s (.handle i a) = some s') :
    s.listener.terminated = false ∧ ∃ c st, s.connections[i]? = some c ∧
      (socketSystem grow D).step c.state a = some st ∧
      s' = ⟨s.reported c st, s.connections.set i { c with state := st }⟩ := by
  cases hterm : s.listener.terminated with
  | true => simp [serverSystem, hterm] at hstep
  | false =>
    cases hc : s.connections[i]? with
    | none => simp [serverSystem, hterm, hc] at hstep
    | some c =>
      simp only [serverSystem, hterm, hc, Option.map_eq_some_iff] at hstep
      obtain ⟨st, hst, rfl⟩ := hstep
      exact ⟨rfl, c, st, rfl, hst, rfl⟩

/-- **A step of a socket leaves a tidy server tidy**: the close handler removes the socket exactly
when the step closes it. -/
lemma tidy_handle {d : δ} {s s' : Server δ} {i : ℕ} {a : SocketAction} (h : s.Tidy)
    (hstep : (serverSystem grow D d).step s (.handle i a) = some s') : s'.Tidy := by
  obtain ⟨-, c, st, hc, hst, rfl⟩ := serverSystem_handle grow D hstep
  have hdue := h.due c (List.mem_of_getElem? hc)
  have hdue' := (reportsDue_step grow D hst).trans hdue
  rw [Server.reported]
  rcases step_reports grow D hdue hst with ⟨hsame, hopen⟩ | ⟨hreport, hopen, hclosed⟩
  · rw [if_pos hsame]
    exact h.stepped hc rfl rfl hdue' hopen
  · rw [if_neg hreport]
    exact h.closed hc rfl hdue' hopen hclosed

/-- **A step of a server, at its listener**: an accept, the close of a socket, or nothing. -/
lemma listener_step {d : δ} {s s' : Server δ} {a : ServerAction} (h : s.Tidy)
    (hstep : (serverSystem grow D d).step s a = some s') :
    ∃ bs, listenerSystem.run s.listener bs = some s'.listener := by
  cases a with
  | accept outcome =>
    obtain ⟨l, hl, rfl⟩ := Option.map_eq_some_iff.mp hstep
    exact ⟨[.accept outcome], listenerSystem.run_cons_of_step [] hl⟩
  | handle i a =>
    obtain ⟨hlive, c, st, hc, -, rfl⟩ := serverSystem_handle grow D hstep
    have hmem := List.mem_of_getElem? hc
    rw [Server.reported]
    split_ifs
    · exact ⟨[], rfl⟩
    · -- the socket of a connection is not pending
      have hnot : (c.worker, c.number) ∉ s.listener.accepts := fun hpending =>
        (List.nodup_append.mp h.nodup).2.2 _ (List.mem_map_of_mem (f := Prod.snd) hpending) _
          (List.mem_map_of_mem hmem) rfl
      exact ⟨[.close c.worker c.number], listenerSystem.run_cons_of_step [] (if_pos ⟨hlive, hnot⟩)⟩

/-! ## Runs -/

/-- A step is taken only while no exception has left the thread. -/
lemma live_of_step {d : δ} {s s' : Server δ} {a : ServerAction}
    (hstep : (serverSystem grow D d).step s a = some s') : s.listener.terminated = false := by
  cases a with
  | accept outcome =>
    obtain ⟨l, hl, -⟩ := Option.map_eq_some_iff.mp hstep
    exact terminated_of_step hl
  | handle i a => exact (serverSystem_handle grow D hstep).1

/-- What holds of a server started with the listener `l`: its listener has made a run from `l`, and
it is tidy until an exception has left the thread. -/
structure Server.Started (l : Listener) (s : Server δ) : Prop where
  /-- The run of the listener. -/
  run : ∃ bs, listenerSystem.run l bs = some s.listener
  /-- The workers have the pending socket and the open ones. -/
  tidy : s.listener.terminated = false → s.Tidy

/-- A new server, with no connections. -/
lemma started_new {n : ℕ} {l : Listener} (hl : Listener.new n = some l) :
    Server.Started l (⟨l, []⟩ : Server δ) := by
  refine ⟨⟨[], rfl⟩, fun _ => ?_⟩
  obtain ⟨w, hacc, hcreated, htotal, hreg⟩ := Listener.beginAccept_eq_some rfl hl
  have hnone : ∀ worker socket,
      ¬ Listener.Registered ⟨List.replicate n ⟨[]⟩, [], 0, false⟩ worker socket := by
    rintro worker socket ⟨t, ht, hmem⟩
    obtain rfl := List.eq_of_mem_replicate (List.mem_of_getElem? ht)
    exact List.not_mem_nil hmem
  have hempty : Listener.total ⟨List.replicate n ⟨[]⟩, [], 0, false⟩ = 0 := by
    simp [Listener.total, NetworkThread.size]
  refine ⟨(Listener.accepting_new hl).1.sound, ?_, ?_, fun c hc => absurd hc List.not_mem_nil,
    fun worker socket => ?_, ?_⟩
  · simp [Server.numbers, hacc]
  · simp [Server.numbers, hacc, hcreated]
  · simp [hreg, hnone, hacc]
  · simp [htotal, hempty, hacc]

/-- Every step keeps the server so. -/
lemma started_step {d : δ} {n : ℕ} {l : Listener} (hl : Listener.new n = some l) (s : Server δ)
    (a : ServerAction) (s' : Server δ) (h : s.Started l)
    (hstep : (serverSystem grow D d).step s a = some s') : s'.Started l := by
  have hlive := live_of_step grow D hstep
  have htidy := h.tidy hlive
  obtain ⟨bs, hbs⟩ := h.run
  obtain ⟨cs, hcs⟩ := listener_step grow D htidy hstep
  refine ⟨⟨bs ++ cs, (listenerSystem.run_append cs hbs).trans hcs⟩, fun hlive' => ?_⟩
  cases a with
  | accept outcome =>
    have hrunning : Running s.listener :=
      listenerSystem.run_invariant running_step hbs fun _ => (Listener.accepting_new hl).1
    exact tidy_accept grow D (hrunning hlive) htidy hstep hlive'
  | handle i a => exact tidy_handle grow D htidy hstep

/-- How many of the connections are open. -/
lemma sum_isOpen (cs : List (AcceptedSocket δ)) :
    (cs.map fun c => c.isOpen.toNat).sum = cs.countP AcceptedSocket.isOpen := by
  induction cs with
  | nil => rfl
  | cons c cs ih =>
    rw [List.map_cons, List.sum_cons, ih, List.countP_cons, Nat.add_comm]
    cases c.isOpen <;> rfl

/-- **`mSockets` holds the pending socket and the open ones.** For every derived class, every number
of workers and every run of a listener and the sockets it accepts, in which the handlers of all
sockets, calls of other threads and accepts come in any order: its listener has made a run of the
accept loop; and until an exception has left the acceptor thread, a socket is in the `mSockets` of a
worker exactly when the outstanding accept is on it, or it was accepted into that worker and is
open. No socket is there twice: the workers have one socket more than there are open connections.
And each socket that is closed has reported its close once, each other never.

**Proof sketch.** A step that closes a socket is one that calls its close handler (`step_reports`).
It removes that socket and no other, because no two have one number (`Server.Tidy.closed`). -/
theorem registered_iff_open (d : δ) (n : ℕ) (l : Listener) (hl : Listener.new n = some l)
    (as : List ServerAction) (s : Server δ)
    (h : (serverSystem grow D d).run ⟨l, []⟩ as = some s) :
    (∃ bs, listenerSystem.run l bs = some s.listener) ∧
    (s.listener.terminated = false →
      (∀ worker socket, s.listener.Registered worker socket ↔
        (worker, socket) ∈ s.listener.accepts ∨
          ∃ c ∈ s.connections, c.worker = worker ∧ c.number = socket ∧ c.isOpen = true) ∧
      s.numbers.Nodup ∧
      s.listener.total = 1 + s.connections.countP AcceptedSocket.isOpen ∧
      ∀ c ∈ s.connections, c.state.2.closeReports = if c.isOpen then 0 else 1) := by
  have hstarted : s.Started l :=
    (serverSystem grow D d).run_invariant (started_step grow D hl) h (started_new hl)
  refine ⟨hstarted.run, fun hlive => ?_⟩
  have htidy := hstarted.tidy hlive
  refine ⟨htidy.registered, htidy.nodup, ?_, fun c hc => ?_⟩
  · obtain ⟨bs, hbs⟩ := hstarted.run
    have hrunning : Running s.listener :=
      listenerSystem.run_invariant running_step hbs fun _ => (Listener.accepting_new hl).1
    obtain ⟨w, k, hacc, -⟩ := (hrunning hlive).pending
    rw [htidy.total, hacc, sum_isOpen]
    rfl
  · have hdue := htidy.due c hc
    unfold reportsDue at hdue
    change c.state.2.closeReports + c.isOpen.toNat = 1 at hdue
    cases hopen : c.isOpen with
    | true =>
      rw [hopen, Bool.toNat_true] at hdue
      simpa using hdue
    | false =>
      rw [hopen, Bool.toNat_false] at hdue
      simpa using hdue

/-- Two connections on two workers, of which a thread closes the first: the workers have the second
socket and the one that is pending. -/
theorem registered_iff_open_two : ∃ l s, Listener.new 2 = some l ∧
    (serverSystem (fun _ n => n) Derived.takeAll ()).run ⟨l, []⟩
      [.accept .connected, .accept .connected, .handle 0 (.transmit .close)] = some s ∧
    s.listener.total = 2 :=
  ⟨_, _, rfl, rfl, ((registered_iff_open (fun _ n => n) Derived.takeAll () 2 _ rfl
    [.accept .connected, .accept .connected, .handle 0 (.transmit .close)] _ rfl).2 rfl).2.2.1⟩

/-! ## Destruction -/

/-- The handlers of the operations outstanding, each of which holds the object. -/
def Socket.handlers (s : Socket) : ℕ := s.reads.length + s.writes.length + s.waits.length

/-- The step runs a handler. -/
def SocketAction.handles : SocketAction → Bool
  | .receive _ => true
  | .transmit .flushTimer => true
  | .transmit (.writeComplete _ _) => true
  | .transmit .writeFail => true
  | .transmit _ => false

/-- Of writes and waits a socket has one at most outstanding, and while it is open they fit its
write state. -/
structure OneSend (s : Socket) : Prop where
  /-- An open socket is coherent. -/
  coherent : s.isOpen = true → Coherent s
  /-- One is outstanding at most. -/
  le_one : s.writes.length + s.waits.length ≤ 1

/-- A coherent socket has one write or wait outstanding at most. -/
lemma Coherent.le_one {s : Socket} (h : Coherent s) : s.writes.length + s.waits.length ≤ 1 := by
  cases hs : s.writeState with
  | idle =>
    obtain ⟨hwaits, hwrites, -⟩ := h.idle hs
    simp [hwaits, hwrites]
  | buffering =>
    obtain ⟨hwaits, hwrites⟩ := h.buffering hs
    simp [hwaits, hwrites]
  | sending =>
    obtain ⟨hwaits, op, hwrites, -⟩ := h.sending hs
    simp [hwaits, hwrites]

/-- `CloseSocket` leaves the waits of the timer to complete. -/
@[simp] lemma closeSocket_waits (s : Socket) : s.closeSocket.waits = s.waits := by
  unfold Socket.closeSocket; split_ifs <;> rfl

/-- Every step of the sending side keeps this. -/
lemma oneSend_step (s : Socket) (a : WriteAction) (t : Socket) (h : OneSend s)
    (hstep : (writeSystem grow).step s a = some t) : OneSend t := by
  have hcoherent := coherent_step grow s a t h.coherent hstep
  refine ⟨hcoherent, ?_⟩
  cases ht : t.isOpen with
  | true => exact (hcoherent ht).le_one
  | false =>
    have hle := h.le_one
    rcases writeSystem_step_cases grow hstep with ⟨bytes, rfl, rfl⟩ | ⟨rfl, rfl⟩ |
      ⟨w, ws, rfl, hw, rfl⟩ | ⟨op, ops, n, stale, rfl, hw, -, rfl⟩ | ⟨op, ops, rfl, hw, rfl⟩ |
      ⟨rfl, rfl⟩
    · have hstays := StaysClosed.write grow (s := s) (by simpa using ht) bytes
      rwa [hstays.writes, hstays.waits]
    · simpa [Socket.forceFlushOut] using hle
    · have hstays := StaysClosed.flushOut (s := { s with waits := ws }) (by simpa using ht)
      rw [hw, List.length_cons] at hle
      rw [hstays.writes, hstays.waits]
      dsimp only
      omega
    · have hstays := StaysClosed.onWriteComplete (s := { s with
        writes := ops
        accepted := s.accepted ++ s.transmitted op n stale }) (by simpa using ht) n
      rw [hw, List.length_cons] at hle
      rw [hstays.writes, hstays.waits]
      dsimp only
      omega
    · rw [hw, List.length_cons] at hle
      rw [Socket.onError_eq, Socket.closeSocket_writes, closeSocket_waits]
      dsimp only
      omega
    · rwa [Socket.closeSocket_writes, closeSocket_waits]

/-- One read is outstanding while the socket is open, and never more. -/
structure OneRead (s : Socket) : Prop where
  /-- An open socket is reading. -/
  opened : s.isOpen = true → s.reads.length = 1
  /-- One is outstanding at most. -/
  le_one : s.reads.length ≤ 1

/-- What `Reading` says of the number of reads. -/
lemma Reading.oneRead {s : Socket} (h : Reading s) : OneRead s := by
  refine ⟨fun hopen => by rw [h.opened hopen]; rfl, ?_⟩
  cases hopen : s.isOpen with
  | true => rw [h.opened hopen]; exact le_rfl
  | false => rw [h.closed hopen]; exact Nat.zero_le 1

/-- No step of the sending side starts or ends a read. -/
lemma writeSystem_reads {s t : Socket} {a : WriteAction}
    (hstep : (writeSystem grow).step s a = some t) : t.reads = s.reads := by
  rcases writeSystem_step_cases grow hstep with ⟨bytes, rfl, rfl⟩ | ⟨rfl, rfl⟩ |
    ⟨w, ws, rfl, -, rfl⟩ | ⟨op, ops, n, stale, rfl, -, -, rfl⟩ | ⟨op, ops, rfl, -, rfl⟩ | ⟨rfl, rfl⟩
  · exact Socket.write_reads grow s bytes
  · rfl
  · unfold Socket.flushOut; split_ifs <;> rfl
  · unfold Socket.onWriteComplete; dsimp only; split_ifs <;> rfl
  · rw [Socket.onError_eq, Socket.closeSocket_reads]
  · exact Socket.closeSocket_reads s

/-- Every step of a socket keeps this. -/
lemma oneRead_step (st : δ × Socket) (a : SocketAction) (st' : δ × Socket) (h : OneRead st.2)
    (hstep : (socketSystem grow D).step st a = some st') : OneRead st'.2 := by
  cases a with
  | receive a =>
    cases hopen : st.2.isOpen with
    | false =>
      have hstays := staysClosed_step grow D hopen hstep
      refine ⟨fun hopen' => absurd hopen' (by simp [hstays.isOpen]), ?_⟩
      have hle := h.le_one
      rw [hstays.reads, SocketAction.retire, List.length_tail]
      omega
    | true =>
      have hnone : st.2.reads.tail = [] := by
        rw [← List.length_eq_zero_iff, List.length_tail, h.opened hopen]
      rcases readSystem_step_any grow D hstep with ⟨bytes, available, rfl, rfl⟩ | ⟨rfl, rfl⟩
      · exact (Reading.onRead grow D st.1 (st.2.stored bytes) _ _ hopen hnone).oneRead
      · rw [Socket.onReadError, Socket.onError_eq]
        refine ⟨fun hopen' => absurd hopen' (by simp), ?_⟩
        rw [Socket.closeSocket_reads, hnone]
        exact Nat.zero_le 1
  | transmit a =>
    obtain ⟨t, ht, rfl⟩ := Option.map_eq_some_iff.mp hstep
    have hreads := writeSystem_reads grow ht
    refine ⟨fun hopen => ?_, ?_⟩
    · rw [hreads]
      exact h.opened (isOpen_of_step grow ht hopen)
    · rw [hreads]
      exact h.le_one

/-- A step that runs a handler takes one operation from those outstanding. -/
lemma handlers_retire {st st' : δ × Socket} {a : SocketAction}
    (hstep : (socketSystem grow D).step st a = some st') :
    (if a.handles then 1 else 0) + (a.retire st.2).handlers = st.2.handlers := by
  cases a with
  | receive a =>
    have hpos : 0 < st.2.reads.length := by
      obtain ⟨d, s⟩ := st
      cases hreads : s.reads with
      | nil => cases a <;> simp [socketSystem, readSystem, hreads] at hstep
      | cons op ops => exact Nat.succ_pos _
    simp only [SocketAction.handles, SocketAction.retire, Socket.handlers, List.length_tail,
      if_true]
    omega
  | transmit a =>
    obtain ⟨t, ht, -⟩ := Option.map_eq_some_iff.mp hstep
    rcases writeSystem_step_cases grow ht with ⟨bytes, rfl, -⟩ | ⟨rfl, -⟩ | ⟨w, ws, rfl, hw, -⟩ |
      ⟨op, ops, n, stale, rfl, hw, -, -⟩ | ⟨op, ops, rfl, hw, -⟩ | ⟨rfl, -⟩ <;>
      simp [SocketAction.handles, SocketAction.retire, Socket.handlers, *] <;> omega

/-- **A closed socket is let go of by its handlers**: each that runs is one outstanding less, and
none is added. -/
lemma handlers_run {st st' : δ × Socket} (hclosed : st.2.isOpen = false)
    {bs : List SocketAction} (hrun : (socketSystem grow D).run st bs = some st') :
    bs.countP SocketAction.handles + st'.2.handlers = st.2.handlers := by
  induction bs generalizing st with
  | nil =>
    obtain rfl : st = st' := by simpa using hrun
    simp
  | cons b bs ih =>
    obtain ⟨st₁, hstep, hrest⟩ := ((socketSystem grow D).run_cons_eq_some).mp hrun
    have hstays := staysClosed_step grow D hclosed hstep
    have hrest' := ih hstays.isOpen hrest
    rw [List.countP_cons]
    have hone := handlers_retire grow D hstep
    have hsame : st₁.2.handlers = (b.retire st.2).handlers := by
      rw [Socket.handlers, hstays.reads, hstays.writes, hstays.waits, Socket.handlers]
    omega

/-- A closed socket that a handler holds can run one. -/
lemma exists_handler {st : δ × Socket} (h : st.2.handlers ≠ 0) :
    ∃ a st', a.handles = true ∧ (socketSystem grow D).step st a = some st' := by
  obtain ⟨d, s⟩ := st
  cases hreads : s.reads with
  | cons op ops =>
    exact ⟨.receive .fail, _, rfl, by
      simp only [socketSystem, readSystem, hreads]
      rfl⟩
  | nil =>
    cases hwrites : s.writes with
    | cons op ops =>
      exact ⟨.transmit .writeFail, _, rfl, by
        simp only [socketSystem, writeSystem, hwrites, Option.map_some]
        rfl⟩
    | nil =>
      cases hwaits : s.waits with
      | cons w ws =>
        exact ⟨.transmit .flushTimer, _, rfl, by
          simp only [socketSystem, writeSystem, hwaits, Option.map_some]
          rfl⟩
      | nil => simp [Socket.handlers, hreads, hwrites, hwaits] at h

/-- **Two handlers hold a socket at most**, and while it is open one of them is that of a read.

**Proof sketch.** `OnRead` starts one read in the place of the one that completed (`oneRead_step`);
of writes and waits the sending side has one (`oneSend_step`, over `run_sendingRun`). -/
lemma handlers_le_two {d : δ} {as : List SocketAction} {st : δ × Socket}
    (h : (socketSystem grow D).run (d, Socket.openSocket grow D) as = some st) :
    OneRead st.2 ∧ st.2.handlers ≤ 2 := by
  have hread : OneRead st.2 := (socketSystem grow D).run_invariant (I := fun st => OneRead st.2)
    (oneRead_step grow D) h (Reading.openSocket grow D).oneRead
  obtain ⟨s, hrun, hsame⟩ := run_sendingRun grow D h
  have hsend : OneSend s := (writeSystem grow).run_invariant (oneSend_step grow) hrun
    ⟨fun _ => coherent_fresh, Nat.zero_le 1⟩
  have hreads := hread.le_one
  have hsends := hsend.le_one
  rw [hsame.writes, hsame.waits] at hsends
  refine ⟨hread, ?_⟩
  unfold Socket.handlers
  omega

/-- **A closed socket is destroyed after two handlers at most.** For every derived class and every
run of a socket that was opened: while it is open exactly one read is outstanding, so its object is
held; reads, writes and waits together two handlers hold it at most. Once it is closed, and with it
gone from `mSockets`, the handlers that run afterwards are those that were outstanding: each that
runs is one holder less and none is added, as long as there is a holder one can run, and so after
two of them the object is destroyed.

**Proof sketch.** Two handlers hold it at any time (`handlers_le_two`). The continuations of a
closed socket start nothing (`staysClosed_step`), so each that runs is one less (`handlers_run`). -/
theorem released_after_two (d : δ) (as : List SocketAction) (st : δ × Socket)
    (h : (socketSystem grow D).run (d, Socket.openSocket grow D) as = some st) :
    (st.2.isOpen = true → st.2.reads.length = 1) ∧ st.2.handlers ≤ 2 ∧
    (st.2.isOpen = false → ∀ bs st', (socketSystem grow D).run st bs = some st' →
      bs.countP SocketAction.handles ≤ 2 ∧
      bs.countP SocketAction.handles + st'.2.handlers = st.2.handlers ∧
      (st'.2.handlers ≠ 0 → ∃ a st'', a.handles = true ∧
        (socketSystem grow D).step st' a = some st'')) := by
  obtain ⟨hread, hle⟩ := handlers_le_two grow D h
  refine ⟨hread.opened, hle, fun hclosed bs st' hbs => ?_⟩
  have hcount := handlers_run grow D hclosed hbs
  exact ⟨by omega, hcount, exists_handler grow D⟩

/-- A socket that is closed by a thread while it waits to send: two handlers hold it, and when they
have run it is destroyed. -/
theorem released_after_two_closed : ∃ st st',
    (socketSystem (fun _ n => n) Derived.answer).run
      ((), Socket.openSocket (fun _ n => n) Derived.answer) [.transmit .close] = some st ∧
    (socketSystem (fun _ n => n) Derived.answer).run st
      [.receive .fail, .transmit .flushTimer] = some st' ∧
    2 + st'.2.handlers = st.2.handlers :=
  ⟨_, _, rfl, rfl, ((released_after_two (fun _ n => n) Derived.answer () [.transmit .close] _
    rfl).2.2 rfl [.receive .fail, .transmit .flushTimer] _ rfl).2.1⟩

end SteerStone
