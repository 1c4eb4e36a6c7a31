import PristonTale.Foundations.Iterators
import PristonTale.Network.Connections

set_option relaxedAutoImplicit false
set_option autoImplicit false

/-!
# The destruction of a worker

`~NetworkThread` (`Shared/Network/NetworkThread.h`) closes the open sockets of `mSockets` one after
the other. Each close calls the close handler, and that erases the socket from the set that is
iterated over; the loop has incremented its iterator before. It does not hold `m_Mutex`, and the
thread of the worker, which is detached, still runs handlers, so these erase sockets too.

## Main definitions

* `SteerStone.Destruction`, `SteerStone.destruction` — the loop, with handlers between its steps.
* `SteerStone.Destruction.Valid` — its iterators point to sockets that are in the set.
* `SteerStone.Spares` — a step does not erase a socket that an iterator points to.

## Main results

* `SteerStone.closing_step` — what an iteration closes.
* `SteerStone.graceful_close` — the loop is safe exactly when the handlers spare its iterators, and
  then it leaves the pending socket.

## Implementation notes

* The acceptor thread has ended before: `~Listener` joins it.
* The order of the iteration is that of the buckets; an erase does not change it.
* The increment of an iterator and an erase are steps that do not overlap, though no mutex is there
  to see to it.
-/

namespace SteerStone

open Foundations

variable {δ : Type} (grow : ℕ → ℕ → ℕ) (D : Derived δ)

/-- The worker has the socket in `mSockets`. -/
def Listener.has (l : Listener) (worker socket : ℕ) : Bool :=
  match l.workerThreads[worker]? with
  | some t => t.sockets.contains socket
  | none => false

/-- The loop of `~NetworkThread`. -/
structure Destruction (δ : Type) where
  /-- The listener and its connections. -/
  server : Server δ
  /-- `current`, while an iteration has it. -/
  current : Option ℕ
  /-- `i`. -/
  i : Option ℕ

/-- What happens while a worker is destroyed. -/
inductive DestructionAction where
  /-- An iteration starts: `current = i` and `++i`. -/
  | advance
  /-- The iteration closes the socket of `current` if it is open. -/
  | close
  /-- A step of the socket of one connection. -/
  | handle (connection : ℕ) (a : SocketAction)

/-- The step is one of the loop. -/
def DestructionAction.loops : DestructionAction → Bool
  | .handle _ _ => false
  | _ => true

/-- `CloseSocket` of a socket, if it is not closed. The pending socket is. -/
def Server.closeOpen (d : δ) (number : ℕ) (s : Server δ) : Option (Server δ) :=
  match s.connections.findIdx? fun c => c.number = number ∧ c.isOpen with
  | some i => (serverSystem grow D d).step s (.handle i (.transmit .close))
  | none => some s

/-- **The destruction of a worker**, `order` being the order of the iteration. An iterator that
points to no socket of the set can neither be incremented nor dereferenced. -/
def destruction (d : δ) (worker : ℕ) (order : List ℕ) :
    Transition (Destruction δ) DestructionAction where
  step s
    | .advance =>
      match s.current, s.i with
      | none, some k =>
        if s.server.listener.has worker k then
          some ⟨s.server, some k, nextOf order (s.server.listener.has worker) k⟩
        else none
      | _, _ => none
    | .close =>
      match s.current with
      | some k =>
        if s.server.listener.has worker k then
          (s.server.closeOpen grow D d k).map fun server => ⟨server, none, s.i⟩
        else none
      | none => none
    | .handle j a =>
      ((serverSystem grow D d).step s.server (.handle j a)).map fun server =>
        { s with server := server }

/-- The start of the loop. -/
def Server.destroy (worker : ℕ) (order : List ℕ) (s : Server δ) : Destruction δ :=
  ⟨s, none, firstOf order (s.listener.has worker)⟩

/-- An iterator of the loop points to the socket. -/
def Destruction.PointsTo (s : Destruction δ) (number : ℕ) : Prop :=
  s.current = some number ∨ s.i = some number

/-- **The iterators are valid**: what they point to is in the set. -/
def Destruction.Valid (worker : ℕ) (s : Destruction δ) : Prop :=
  ∀ k, s.PointsTo k → s.server.listener.Registered worker k

/-- **A handler spares the iterators**: it does not close a socket of the worker that one of them
points to. -/
def Spares (worker : ℕ) (s : Destruction δ) : DestructionAction → Prop
  | .handle j a => ∀ c st, s.server.connections[j]? = some c → c.worker = worker →
      s.PointsTo c.number → (socketSystem grow D).step c.state a = some st →
        st.2.isOpen = c.isOpen
  | _ => True

/-! ## One step of a connection -/

/-- `has` tells what is in `mSockets`. -/
lemma Listener.has_iff {l : Listener} {worker socket : ℕ} :
    l.has worker socket = true ↔ l.Registered worker socket := by
  unfold Listener.has Listener.Registered
  cases l.workerThreads[worker]? with
  | none => simp
  | some t => simp

/-- The sockets of a worker that is there. -/
lemma Listener.registered_iff_mem {l : Listener} {worker : ℕ} {t : NetworkThread}
    (ht : l.workerThreads[worker]? = some t) (socket : ℕ) :
    l.Registered worker socket ↔ socket ∈ t.sockets := by
  rw [Listener.Registered, ht]
  simp

/-- **What a step of a connection takes from `mSockets`**: its socket, if the step closes it. -/
lemma registered_handle {d : δ} {s s' : Server δ} {j : ℕ} {a : SocketAction} (h : s.Tidy)
    (hstep : (serverSystem grow D d).step s (.handle j a) = some s') :
    ∃ c st, s.connections[j]? = some c ∧ (socketSystem grow D).step c.state a = some st ∧
      s'.connections = s.connections.set j { c with state := st } ∧
      (st.2.isOpen = true → c.isOpen = true) ∧
      ∀ worker k, s'.listener.Registered worker k ↔ s.listener.Registered worker k ∧
        ¬ (c.worker = worker ∧ c.number = k ∧ st.2.isOpen ≠ c.isOpen) := by
  obtain ⟨-, c, st, hc, hst, rfl⟩ := serverSystem_handle grow D hstep
  refine ⟨c, st, hc, hst, rfl, ?_, ?_⟩ <;>
    rcases step_reports grow D (h.due c (List.mem_of_getElem? hc)) hst with
      ⟨hsame, hopen⟩ | ⟨hreport, hopen, hclosed⟩
  · exact fun hopen' => hopen.symm.trans hopen'
  · exact fun _ => hopen
  · intro worker k
    rw [Server.reported, if_pos hsame]
    exact ⟨fun hreg => ⟨hreg, fun hne => hne.2.2 hopen⟩, And.left⟩
  · intro worker k
    have hne : st.2.isOpen ≠ c.isOpen := by
      rw [hclosed]
      exact fun heq => Bool.false_ne_true (heq.trans hopen)
    rw [Server.reported, if_neg hreport, Listener.registered_removeSocket h.sound]
    refine and_congr_right fun _ => not_congr ?_
    exact ⟨fun heq => ⟨heq.1, heq.2, hne⟩, fun heq => ⟨heq.1, heq.2.1⟩⟩

/-- The listener goes on accepting what it did, and no exception leaves the thread. -/
lemma accepts_handle {d : δ} {s s' : Server δ} {j : ℕ} {a : SocketAction}
    (hstep : (serverSystem grow D d).step s (.handle j a) = some s') :
    s'.listener.accepts = s.listener.accepts ∧ s'.listener.terminated = false := by
  obtain ⟨hlive, c, st, -, -, rfl⟩ := serverSystem_handle grow D hstep
  rw [Server.reported]
  split_ifs <;> exact ⟨rfl, hlive⟩

/-- A connection with an open socket after a step had one before. -/
lemma open_of_handle {d : δ} {s s' : Server δ} {j : ℕ} {a : SocketAction} (h : s.Tidy)
    (hstep : (serverSystem grow D d).step s (.handle j a) = some s') {c' : AcceptedSocket δ}
    (hc' : c' ∈ s'.connections) (hopen : c'.isOpen = true) :
    ∃ c ∈ s.connections, c.worker = c'.worker ∧ c.number = c'.number ∧ c.isOpen = true := by
  obtain ⟨c, st, hc, -, hset, hstays, -⟩ := registered_handle grow D h hstep
  rw [hset] at hc'
  rcases List.mem_or_eq_of_mem_set hc' with hold | rfl
  · exact ⟨c', hold, rfl, rfl, hopen⟩
  · exact ⟨c, List.mem_of_getElem? hc, rfl, rfl, hstays hopen⟩

/-- **What an iteration closes.** `closeOpen` can run; it is a step of a connection, or nothing; and
afterwards no socket with this number is open. -/
lemma closing_step {d : δ} {s : Server δ} (h : s.Tidy) (hlive : s.listener.terminated = false)
    (number : ℕ) : ∃ s', s.closeOpen grow D d number = some s' ∧
      (s' = s ∨ ∃ j c, s.connections[j]? = some c ∧ c.number = number ∧
        (serverSystem grow D d).step s (.handle j (.transmit .close)) = some s') ∧
      ∀ c ∈ s'.connections, c.number = number → c.isOpen = false := by
  unfold Server.closeOpen
  cases hfind : s.connections.findIdx? fun c => c.number = number ∧ c.isOpen with
  | none =>
    refine ⟨s, rfl, .inl rfl, fun c hc hnumber => ?_⟩
    have hnot := List.findIdx?_eq_none_iff.mp hfind c hc
    simpa [hnumber] using hnot
  | some j =>
    obtain ⟨hj, hp, -⟩ := List.findIdx?_eq_some_iff_getElem.mp hfind
    have hc : s.connections[j]? = some s.connections[j] := List.getElem?_eq_getElem hj
    set c := s.connections[j] with hcdef
    obtain ⟨hnumber, hopen⟩ : c.number = number ∧ c.isOpen = true := by simpa using hp
    set st : δ × Socket := (c.state.1, c.state.2.closeSocket)
    have hstep : (serverSystem grow D d).step s (.handle j (.transmit .close)) =
        some ⟨s.reported c st, s.connections.set j { c with state := st }⟩ := by
      simp only [serverSystem, hlive, hc]
      rfl
    refine ⟨_, hstep, .inr ⟨j, c, hc, hnumber, hstep⟩, fun c' hc' hnumber' => ?_⟩
    by_contra hopen'
    have hany := (exists_mem_set (P := fun c₁ : AcceptedSocket δ =>
      c₁.number = number ∧ c₁.isOpen = true) hc { c with state := st }).mp
        ⟨c', hc', hnumber', Bool.not_eq_false _ ▸ hopen'⟩
    rcases hany with ⟨-, hclosed⟩ | ⟨i, c₁, hne, hc₁, hnumber₁, -⟩
    · simp [AcceptedSocket.isOpen, st] at hclosed
    · exact hne (h.eq_of_number hc₁ hc (hnumber₁.trans hnumber.symm))

/-- **Sockets have been closed** from one state of a server to another, and nothing else. -/
structure SocketsClosed (s s' : Server δ) : Prop where
  /-- The server is tidy. -/
  tidy : s'.Tidy
  /-- No exception has left the thread. -/
  live : s'.listener.terminated = false
  /-- The pending socket is the same. -/
  accepts : s'.listener.accepts = s.listener.accepts
  /-- No worker has a socket it did not have. -/
  registered : ∀ worker k, s'.listener.Registered worker k → s.listener.Registered worker k
  /-- What is open was open. -/
  opened : ∀ c' ∈ s'.connections, c'.isOpen = true →
    ∃ c ∈ s.connections, c.worker = c'.worker ∧ c.number = c'.number ∧ c.isOpen = true
  /-- A handler holds each open socket, if one did. -/
  held : (∀ c ∈ s.connections, OneRead c.state.2) → ∀ c ∈ s'.connections, OneRead c.state.2

/-- A step of a connection closes its socket or none. -/
lemma closed_handle {d : δ} {s s' : Server δ} {j : ℕ} {a : SocketAction} (h : s.Tidy)
    (hstep : (serverSystem grow D d).step s (.handle j a) = some s') : SocketsClosed s s' := by
  obtain ⟨c, st, hc, hst, hset, -, hreg⟩ := registered_handle grow D h hstep
  obtain ⟨haccepts, hlive⟩ := accepts_handle grow D hstep
  refine ⟨tidy_handle grow D h hstep, hlive, haccepts, fun worker k hk => ((hreg worker k).mp hk).1,
    fun c' hc' hopen => open_of_handle grow D h hstep hc' hopen, fun hheld c' hc' => ?_⟩
  rw [hset] at hc'
  rcases List.mem_or_eq_of_mem_set hc' with hold | rfl
  · exact hheld c' hold
  · exact oneRead_step grow D c.state a st (hheld c (List.mem_of_getElem? hc)) hst

/-! ## The loop -/

/-- **What holds in the loop**, `accepts` being the outstanding accepts at its start. -/
structure Looping (worker : ℕ) (order : List ℕ) (accepts : List (ℕ × ℕ)) (s : Destruction δ) :
    Prop where
  /-- The server is tidy. -/
  tidy : s.server.Tidy
  /-- No exception has left the thread. -/
  live : s.server.listener.terminated = false
  /-- The pending socket is the same. -/
  accepts : s.server.listener.accepts = accepts
  /-- A handler holds each open socket. -/
  held : ∀ c ∈ s.server.connections, OneRead c.state.2
  /-- The sockets of the worker come in the order. -/
  ordered : ∀ k, s.server.listener.Registered worker k → k ∈ order
  /-- An iterator points to a socket that comes in the order. -/
  points : ∀ k, s.PointsTo k → k ∈ order
  /-- `i` has passed `current`. -/
  current : ∀ k, s.current = some k → k ∈ passedBy order s.i
  /-- What `i` has passed is closed, `current` apart. -/
  passed : ∀ k ∈ passedBy order s.i, s.current ≠ some k →
    ∀ c ∈ s.server.connections, c.worker = worker → c.number = k → c.isOpen = false

variable {worker : ℕ} {order : List ℕ} {accepts : List (ℕ × ℕ)}

/-- The loop goes on when sockets are closed. -/
lemma Looping.closed {s : Destruction δ} (h : Looping worker order accepts s) {server : Server δ}
    (hclosed : SocketsClosed s.server server) :
    Looping worker order accepts { s with server := server } := by
  refine ⟨hclosed.tidy, hclosed.live, hclosed.accepts.trans h.accepts, hclosed.held h.held,
    fun k hk => h.ordered k (hclosed.registered worker k hk), h.points, h.current,
    fun k hk hne c hc hworker hnumber => ?_⟩
  by_contra hopen
  obtain ⟨c₁, hc₁, hworker₁, hnumber₁, hopen₁⟩ :=
    hclosed.opened c hc (Bool.not_eq_false _ ▸ hopen)
  have hshut := h.passed k hk hne c₁ hc₁ (hworker₁.trans hworker) (hnumber₁.trans hnumber)
  exact Bool.false_ne_true (hshut.symm.trans hopen₁)

/-- **What one step of the loop is.** -/
lemma destruction_cases {d : δ} {s s' : Destruction δ} {a : DestructionAction}
    (hstep : (destruction grow D d worker order).step s a = some s') :
    (a = .advance ∧ s.current = none ∧ ∃ k, s.i = some k ∧
      s.server.listener.Registered worker k ∧
      s' = ⟨s.server, some k, nextOf order (s.server.listener.has worker) k⟩) ∨
    (a = .close ∧ ∃ k server, s.current = some k ∧ s.server.listener.Registered worker k ∧
      s.server.closeOpen grow D d k = some server ∧ s' = ⟨server, none, s.i⟩) ∨
    (∃ j b server, a = .handle j b ∧
      (serverSystem grow D d).step s.server (.handle j b) = some server ∧
      s' = { s with server := server }) := by
  obtain ⟨server, current, i⟩ := s
  cases a with
  | advance =>
    cases current with
    | some k => cases hstep
    | none =>
      cases i with
      | none => cases hstep
      | some k =>
        simp only [destruction] at hstep
        split_ifs at hstep with hhas
        exact .inl ⟨rfl, rfl, k, rfl, Listener.has_iff.mp hhas, (Option.some.inj hstep).symm⟩
  | close =>
    cases current with
    | none => cases hstep
    | some k =>
      simp only [destruction] at hstep
      split_ifs at hstep with hhas
      obtain ⟨server', hclose, rfl⟩ := Option.map_eq_some_iff.mp hstep
      exact .inr (.inl ⟨rfl, k, server', rfl, Listener.has_iff.mp hhas, hclose, rfl⟩)
  | handle j b =>
    obtain ⟨server', hhandle, rfl⟩ := Option.map_eq_some_iff.mp hstep
    exact .inr (.inr ⟨j, b, server', rfl, hhandle, rfl⟩)

/-- An increment of `i`: what it passes besides `current` is not in the set. -/
lemma Looping.advance {s : Destruction δ} (hnodup : order.Nodup)
    (h : Looping worker order accepts s) {k : ℕ} (hcurrent : s.current = none)
    (hi : s.i = some k) (hreg : s.server.listener.Registered worker k) :
    Looping worker order accepts
      ⟨s.server, some k, nextOf order (s.server.listener.has worker) k⟩ := by
  have hk := h.ordered k hreg
  refine ⟨h.tidy, h.live, h.accepts, h.held, h.ordered, fun b hb => ?_, fun b hb => ?_,
    fun b hb hne c hc hworker hnumber => ?_⟩
  · rcases hb with hb | hb
    · obtain rfl := Option.some.inj hb
      exact hk
    · exact (nextOf_eq_some hnodup hk hb).1
  · obtain rfl := Option.some.inj hb
    exact self_mem_passedBy_nextOf hnodup hk
  · rcases mem_passedBy_nextOf hnodup hk hb with hold | rfl | hnot
    · refine h.passed b (hi ▸ hold) ?_ c hc hworker hnumber
      rw [hcurrent]
      exact (Option.some_ne_none b).symm
    · exact absurd rfl hne
    · by_contra hopen
      have hhas := Listener.has_iff.mpr ((h.tidy.registered worker b).mpr
        (.inr ⟨c, hc, hworker, hnumber, Bool.not_eq_false _ ▸ hopen⟩))
      exact Bool.false_ne_true (hnot.symm.trans hhas)

/-- Every step keeps the loop so. -/
lemma looping_step {d : δ} (hnodup : order.Nodup) (s : Destruction δ) (a : DestructionAction)
    (s' : Destruction δ) (h : Looping worker order accepts s)
    (hstep : (destruction grow D d worker order).step s a = some s') :
    Looping worker order accepts s' := by
  rcases destruction_cases grow D hstep with ⟨rfl, hcurrent, k, hi, hreg, rfl⟩ |
    ⟨rfl, k, server, hcurrent, -, hclose, rfl⟩ | ⟨j, b, server, rfl, hhandle, rfl⟩
  · exact h.advance hnodup hcurrent hi hreg
  · obtain ⟨server', hclose', hhow, hshut⟩ := closing_step grow D (d := d) h.tidy h.live k
    obtain rfl : server = server' := Option.some.inj (hclose.symm.trans hclose')
    have hnext : Looping worker order accepts { s with server := server } := by
      rcases hhow with rfl | ⟨j, c, -, -, hstep⟩
      · exact h
      · exact h.closed (closed_handle grow D h.tidy hstep)
    refine ⟨hnext.tidy, hnext.live, hnext.accepts, hnext.held, hnext.ordered,
      fun b hb => hnext.points b (.inr (hb.resolve_left (Option.some_ne_none b).symm)),
      fun b hb => absurd hb.symm (Option.some_ne_none b), fun b hb _ c hc hworker hnumber => ?_⟩
    by_cases hbk : b = k
    · exact hshut c hc (hnumber.trans hbk)
    · refine hnext.passed b hb ?_ c hc hworker hnumber
      rw [show ({ s with server := server } : Destruction δ).current = some k from hcurrent]
      exact fun heq => hbk (Option.some.inj heq).symm
  · exact h.closed (closed_handle grow D h.tidy hhandle)

/-- **A step keeps the iterators valid exactly when it spares them.** -/
lemma valid_step {d : δ} (hnodup : order.Nodup) (s : Destruction δ) (a : DestructionAction)
    (s' : Destruction δ) (h : Looping worker order accepts s) (hvalid : s.Valid worker)
    (hstep : (destruction grow D d worker order).step s a = some s') :
    s'.Valid worker ↔ Spares grow D worker s a := by
  rcases destruction_cases grow D hstep with ⟨rfl, -, k, -, hreg, rfl⟩ |
    ⟨rfl, k, server, hcurrent, -, hclose, rfl⟩ | ⟨j, b, server, rfl, hhandle, rfl⟩
  · refine iff_of_true (fun b hb => ?_) trivial
    rcases hb with hb | hb
    · obtain rfl := Option.some.inj hb
      exact hreg
    · exact Listener.has_iff.mp (nextOf_eq_some hnodup (h.ordered k hreg) hb).2
  · refine iff_of_true (fun b hb => ?_) trivial
    have hb : s.i = some b := hb.resolve_left (Option.some_ne_none b).symm
    have hbk : b ≠ k := fun heq => not_mem_passedBy b (hb ▸ heq ▸ h.current k hcurrent)
    obtain ⟨server', hclose', hhow, -⟩ := closing_step grow D (d := d) h.tidy h.live k
    obtain rfl : server = server' := Option.some.inj (hclose.symm.trans hclose')
    have hbefore := hvalid b (.inr hb)
    rcases hhow with rfl | ⟨j, c, hc, hnumber, hstep⟩
    · exact hbefore
    · obtain ⟨c', st, hc', -, -, -, hreg⟩ := registered_handle grow D h.tidy hstep
      obtain rfl : c = c' := Option.some.inj (hc.symm.trans hc')
      exact (hreg worker b).mpr ⟨hbefore, fun heq => hbk (heq.2.1.symm.trans hnumber)⟩
  · obtain ⟨c, st, hc, hst, -, -, hreg⟩ := registered_handle grow D h.tidy hhandle
    constructor
    · intro hvalid' c₁ st₁ hc₁ hworker hpoints hst₁
      obtain rfl : c = c₁ := Option.some.inj (hc.symm.trans hc₁)
      obtain rfl : st = st₁ := Option.some.inj (hst.symm.trans hst₁)
      by_contra hne
      exact ((hreg worker c.number).mp (hvalid' c.number hpoints)).2 ⟨hworker, rfl, hne⟩
    · intro hspares k hk
      refine (hreg worker k).mpr ⟨hvalid k hk, ?_⟩
      rintro ⟨hworker, rfl, hne⟩
      exact hne (hspares c st hc hworker hk hst)

/-- How much of the loop is left. -/
def Destruction.left (order : List ℕ) (s : Destruction δ) : ℕ :=
  2 * (order.length - (passedBy order s.i).length) + s.current.toList.length

/-- A step of the loop leaves less of it. -/
lemma left_step {d : δ} (hnodup : order.Nodup) (s : Destruction δ) (a : DestructionAction)
    (s' : Destruction δ) (h : Looping worker order accepts s)
    (hstep : (destruction grow D d worker order).step s a = some s') :
    (if a.loops then 1 else 0) + s'.left order ≤ s.left order := by
  rcases destruction_cases grow D hstep with ⟨rfl, hcurrent, k, hi, hreg, rfl⟩ |
    ⟨rfl, k, server, hcurrent, -, -, rfl⟩ | ⟨j, b, server, rfl, -, rfl⟩
  · have hlt := length_passedBy_lt (p := s.server.listener.has worker) hnodup (h.ordered k hreg)
    have hle := length_passedBy_le order
      (nextOf order (s.server.listener.has worker) k)
    simp only [Destruction.left, DestructionAction.loops, hcurrent, hi, Option.toList_none,
      Option.toList_some, List.length_nil, List.length_singleton, if_true]
    omega
  · simp only [Destruction.left, DestructionAction.loops, hcurrent, Option.toList_none,
      Option.toList_some, List.length_nil, List.length_singleton, if_true]
    omega
  · exact Nat.le_of_eq (Nat.zero_add _)

/-- While its iterators are valid, the loop can go on. -/
lemma exists_loop_step {d : δ} {s : Destruction δ} (h : Looping worker order accepts s)
    (hvalid : s.Valid worker) (hleft : s.current ≠ none ∨ s.i ≠ none) :
    ∃ a s', a.loops = true ∧ (destruction grow D d worker order).step s a = some s' := by
  cases hcurrent : s.current with
  | some k =>
    obtain ⟨server, hclose, -⟩ := closing_step grow D (d := d) h.tidy h.live k
    refine ⟨.close, ⟨server, none, s.i⟩, rfl, ?_⟩
    simp only [destruction, hcurrent, Listener.has_iff.mpr (hvalid k (.inl hcurrent)), if_true,
      hclose, Option.map_some]
  | none =>
    obtain ⟨k, hi⟩ := Option.ne_none_iff_exists'.mp (hleft.resolve_left fun hne => hne hcurrent)
    refine ⟨.advance, ⟨s.server, some k, nextOf order (s.server.listener.has worker) k⟩, rfl, ?_⟩
    simp only [destruction, hcurrent, hi, Listener.has_iff.mpr (hvalid k (.inr hi)), if_true]

/-! ## Runs -/

/-- Every step of a server leaves each open socket with a handler that holds it. -/
lemma held_step {d : δ} (s : Server δ) (a : ServerAction) (s' : Server δ)
    (h : ∀ c ∈ s.connections, OneRead c.state.2)
    (hstep : (serverSystem grow D d).step s a = some s') :
    ∀ c ∈ s'.connections, OneRead c.state.2 := by
  intro c hc
  cases a with
  | accept outcome =>
    obtain ⟨l, -, rfl⟩ := Option.map_eq_some_iff.mp hstep
    rcases List.mem_append.mp hc with hold | hnew
    · exact h c hold
    · unfold Server.accepted at hnew
      split_ifs at hnew
      · obtain ⟨p, -, rfl⟩ := List.mem_map.mp hnew
        exact (Reading.openSocket grow D).oneRead
      · exact absurd hnew List.not_mem_nil
  | handle j b =>
    obtain ⟨-, c₁, st, hc₁, hst, rfl⟩ := serverSystem_handle grow D hstep
    rcases List.mem_or_eq_of_mem_set hc with hold | rfl
    · exact h c hold
    · exact oneRead_step grow D c₁.state b st (h c₁ (List.mem_of_getElem? hc₁)) hst

/-- The loop starts at the first socket, with nothing passed. -/
lemma looping_destroy {s : Server δ} (h : s.Tidy) (hlive : s.listener.terminated = false)
    (hheld : ∀ c ∈ s.connections, OneRead c.state.2)
    (horder : ∀ k, k ∈ order ↔ s.listener.Registered worker k) :
    Looping worker order s.listener.accepts (s.destroy worker order) ∧
      (s.destroy worker order).Valid worker := by
  have hfirst : ∀ k, (s.destroy worker order).PointsTo k → s.listener.Registered worker k := by
    rintro k (hk | hk)
    · exact absurd hk.symm (Option.some_ne_none k)
    · exact Listener.has_iff.mp (List.find?_some hk)
  refine ⟨⟨h, hlive, rfl, hheld, fun k hk => (horder k).mpr hk,
    fun k hk => (horder k).mpr (hfirst k hk), fun k hk => absurd hk.symm (Option.some_ne_none k),
    fun k hk _ c hc hworker hnumber => ?_⟩, hfirst⟩
  by_contra hopen
  have hhas := Listener.has_iff.mpr ((h.registered worker k).mpr
    (.inr ⟨c, hc, hworker, hnumber, Bool.not_eq_false _ ▸ hopen⟩))
  exact Bool.false_ne_true ((mem_passedBy_firstOf hk).symm.trans hhas)

/-- **The destruction of a worker.** Let a listener and its sockets have made any run, and let the
worker be destroyed then, in any order of its sockets and with any steps of the sockets between
those of the loop. The iterators of the loop are valid all the time exactly when no such step closes
a socket that one of them points to. The loop takes two steps for each socket at most, and while its
iterators are valid it can go on until it ends. When it has ended, all the connections of the worker
are closed, and `mSockets` has the socket that the accept is outstanding on, if it is this worker's,
and no other. And whatever socket is open is held by a handler, so none is destroyed while it is
being closed.

**Proof sketch.** A close takes the socket it closes from the set and no other
(`registered_handle`); `i` has passed it (`Looping.current`). What `i` passes is `current`, or no
longer in the set and so closed (`mem_passedBy_nextOf`, `Looping.passed`). -/
theorem graceful_close (d : δ) (n : ℕ) (l : Listener) (hl : Listener.new n = some l)
    (as : List ServerAction) (s : Server δ)
    (h : (serverSystem grow D d).run ⟨l, []⟩ as = some s) (hlive : s.listener.terminated = false)
    (worker : ℕ) (order : List ℕ) (hnodup : order.Nodup)
    (horder : ∀ k, k ∈ order ↔ s.listener.Registered worker k)
    (bs : List DestructionAction) (t : Destruction δ)
    (hrun : (destruction grow D d worker order).run (s.destroy worker order) bs = some t) :
    ((destruction grow D d worker order).Always (Destruction.Valid worker)
        (s.destroy worker order) bs ↔
      (destruction grow D d worker order).Along (Spares grow D worker)
        (s.destroy worker order) bs) ∧
    bs.countP DestructionAction.loops ≤ 2 * order.length ∧
    (t.Valid worker → t.current ≠ none ∨ t.i ≠ none →
      ∃ a t', a.loops = true ∧ (destruction grow D d worker order).step t a = some t') ∧
    (t.current = none → t.i = none →
      (∀ c ∈ t.server.connections, c.worker = worker → c.isOpen = false) ∧
      ∀ k, t.server.listener.Registered worker k ↔ (worker, k) ∈ s.listener.accepts) ∧
    ∀ c ∈ t.server.connections, c.isOpen = true → 1 ≤ c.state.2.handlers := by
  have hstarted : s.Started l :=
    (serverSystem grow D d).run_invariant (started_step grow D hl) h (started_new hl)
  have hheld := (serverSystem grow D d).run_invariant
    (I := fun s => ∀ c ∈ s.connections, OneRead c.state.2) (held_step grow D) h
    (fun c hc => absurd hc List.not_mem_nil)
  obtain ⟨hstart, hvalid⟩ := looping_destroy (hstarted.tidy hlive) hlive hheld horder
  have hloop := (destruction grow D d worker order).run_invariant (looping_step grow D hnodup) hrun
    hstart
  refine ⟨?_, ?_, exists_loop_step grow D hloop, fun hcurrent hi => ?_, fun c hc hopen => ?_⟩
  · exact (destruction grow D d worker order).always_iff_along (looping_step grow D hnodup)
      (valid_step grow D hnodup) hrun hstart hvalid
  · have hcount := (destruction grow D d worker order).run_countP_le
      (looping_step grow D hnodup) (left_step grow D hnodup) hrun hstart
    have hleft : (s.destroy worker order).left order ≤ 2 * order.length := by
      simp only [Destruction.left, Server.destroy, Option.toList_none, List.length_nil]
      omega
    omega
  · have hclosed : ∀ c ∈ t.server.connections, c.worker = worker → c.isOpen = false := by
      intro c hc hworker
      by_contra hopen
      have hreg := (hloop.tidy.registered worker c.number).mpr
        (.inr ⟨c, hc, hworker, rfl, Bool.not_eq_false _ ▸ hopen⟩)
      have hpassed : c.number ∈ passedBy order t.i := by
        rw [hi]
        exact hloop.ordered _ hreg
      refine hopen (hloop.passed c.number hpassed ?_ c hc hworker rfl)
      rw [hcurrent]
      exact (Option.some_ne_none _).symm
    refine ⟨hclosed, fun k => ?_⟩
    rw [hloop.tidy.registered, hloop.accepts]
    refine or_iff_left ?_
    rintro ⟨c, hc, hworker, -, hopen⟩
    exact Bool.false_ne_true ((hclosed c hc hworker).symm.trans hopen)
  · have hread := (hloop.held c hc).opened hopen
    unfold Socket.handlers
    omega

/-- While a worker with three connections and the pending socket is destroyed, the first connection
receives a byte before it is closed, and the read of the third fails before `i` gets there. -/
def closingThree : List DestructionAction :=
  [.advance, .handle 0 (.receive (.complete [7] 0)), .close, .handle 2 (.receive .fail), .advance,
    .close, .advance, .close]

/-- The loop passes the third connection over, and ends with all of them closed. -/
theorem graceful_close_three : ∃ l s t, Listener.new 1 = some l ∧
    (serverSystem (fun _ n => n) Derived.takeAll ()).run ⟨l, []⟩
      [.accept .connected, .accept .connected, .accept .connected] = some s ∧
    (destruction (fun _ n => n) Derived.takeAll () 0 [0, 1, 2, 3]).run (s.destroy 0 [0, 1, 2, 3])
      closingThree = some t ∧
    (∀ c ∈ t.server.connections, c.worker = 0 → c.isOpen = false) ∧
    ∀ k, t.server.listener.Registered 0 k ↔ (0, k) ∈ s.listener.accepts := by
  obtain ⟨s, hrun, hlive, hsockets, hends⟩ :=
    (serverSystem (fun _ n => n) Derived.takeAll ()).exists_run_of_any
      (fun s => s.listener.terminated = false ∧
        s.listener.workerThreads[0]? = some ⟨[3, 2, 1, 0]⟩ ∧
        ((destruction (fun _ n => n) Derived.takeAll () 0 [0, 1, 2, 3]).run
          (s.destroy 0 [0, 1, 2, 3]) closingThree).any
            (fun t => t.current = none ∧ t.i = none) = true)
      ⟨⟨[⟨[0]⟩], [(0, 0)], 1, false⟩, []⟩
      [.accept .connected, .accept .connected, .accept .connected] (by decide +kernel)
  obtain ⟨t, hloop, hcurrent, hi⟩ := (destruction (fun _ n => n) Derived.takeAll () 0
    [0, 1, 2, 3]).exists_run_of_any (fun t => t.current = none ∧ t.i = none)
    (s.destroy 0 [0, 1, 2, 3]) closingThree hends
  have horder : ∀ k, k ∈ [0, 1, 2, 3] ↔ s.listener.Registered 0 k := fun k =>
    (List.reverse_perm [3, 2, 1, 0]).mem_iff.trans (Listener.registered_iff_mem hsockets k).symm
  exact ⟨_, s, t, rfl, hrun, hloop, (graceful_close (fun _ n => n) Derived.takeAll () 1 _ rfl _ s
    hrun hlive 0 [0, 1, 2, 3] (by decide) horder closingThree t hloop).2.2.2.1 hcurrent hi⟩

end SteerStone
