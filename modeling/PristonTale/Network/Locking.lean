import PristonTale.Foundations.Locks

set_option relaxedAutoImplicit false
set_option autoImplicit false

/-!
# The mutexes of the server

What the functions of the server do with their mutexes (`Shared/Network/Socket.cpp`,
`Shared/Network/NetworkThread.h`, `Shared/Network/Listener.h`, `Shared/Database/ConnectionPool.h`,
`Shared/Database/QueryDatabase.cpp`). None of the mutexes is recursive. `CloseSocket` calls the
close handler while it holds `m_ClosedMutex`, and that takes the mutex of the worker; each of the
other functions holds one mutex at a time. `OnWriteComplete` looks at the error before it takes
`m_Mutex`, so it closes the socket without it.

## Main definitions

* `SteerStone.ServerMutex` — the mutexes.
* `SteerStone.HandlerCall`, `SteerStone.ServerCall` — what a thread calls, and with which branches
  taken; `SteerStone.ServerCall.locks` — what that does with the mutexes.

## Main results

* `SteerStone.ServerCall.disciplined` — each call takes the mutexes in one order.
* `SteerStone.calls_return` — no interleaving of any threads is a deadlock.

## Implementation notes

* A branch that depends on the state of a socket is a parameter of the call: every outcome is
  admitted, also those that the state excludes.
* What the functions call outside of the server returns. In particular the mutexes that plog locks
  to write a line are left out: it releases them before it returns, and calls nothing of the server.
* An `OnAccept` that an exception leaves is left out too: `Open` throws with no mutex held.
-/

namespace SteerStone

open Foundations

/-- The mutexes of the server. -/
inductive ServerMutex where
  /-- `m_ClosedMutex` of a socket. -/
  | closed (socket : ℕ)
  /-- `m_Mutex` of a socket. -/
  | output (socket : ℕ)
  /-- `m_Mutex` of a `NetworkThread`. -/
  | sockets (worker : ℕ)
  /-- `m_Mutex` of the `ConnectionPool`. -/
  | pool
  deriving DecidableEq, Repr

/-- The order in which the mutexes are taken. -/
def ServerMutex.rank : ServerMutex → ℕ
  | .closed _ => 0
  | .output _ | .sockets _ | .pool => 1

/-- What is done under a `std::lock_guard`. -/
def guarded (m : ServerMutex) (body : List (LockOp ServerMutex)) : List (LockOp ServerMutex) :=
  .lock m :: (body ++ [.unlock m])

/-! ## The functions -/

/-- `NetworkThread::CreateSocket`. -/
def createSocketLocks (worker : ℕ) : List (LockOp ServerMutex) := guarded (.sockets worker) []

/-- `NetworkThread::RemoveSocket`. -/
def removeSocketLocks (worker : ℕ) : List (LockOp ServerMutex) := guarded (.sockets worker) []

/-- `Socket::CloseSocket`, of a socket of a worker: it is closed already, or the close handler is
called, which is `RemoveSocket`. -/
def closeSocketLocks (socket worker : ℕ) (isClosed : Bool) : List (LockOp ServerMutex) :=
  guarded (.closed socket) (if isClosed then [] else removeSocketLocks worker)

/-- `Socket::Write`. -/
def writeLocks (socket : ℕ) : List (LockOp ServerMutex) := guarded (.output socket) []

/-- `Socket::FlushOut`: `IsClosed` is tested before the mutex is taken. -/
def flushOutLocks (socket : ℕ) (isClosed : Bool) : List (LockOp ServerMutex) :=
  if isClosed then [] else guarded (.output socket) []

/-- `Socket::OnError`: `IsClosed` is tested, and once more in `CloseSocket`. -/
def onErrorLocks (socket worker : ℕ) (isClosed isClosedThen : Bool) : List (LockOp ServerMutex) :=
  if isClosed then [] else closeSocketLocks socket worker isClosedThen

/-- `Socket::OnWriteComplete`: the error and `IsClosed` are tested before the mutex is taken. -/
def onWriteCompleteLocks (socket worker : ℕ) (error isClosed isClosedThen : Bool) :
    List (LockOp ServerMutex) :=
  if error then onErrorLocks socket worker isClosed isClosedThen
  else if isClosed then []
  else guarded (.output socket) []

/-- `ConnectionPool::Borrow`. -/
def borrowLocks : List (LockOp ServerMutex) := guarded .pool []

/-- `ConnectionPool::UnBorrow`. -/
def unBorrowLocks : List (LockOp ServerMutex) := guarded .pool []

/-- What a packet handler calls on its socket and on the database. -/
inductive HandlerCall where
  /-- `SendPacket`, which calls `Write`. -/
  | sendPacket
  /-- `CloseSocket`. -/
  | closeSocket (isClosed : Bool)
  /-- The constructor of a `QueryDatabase`. -/
  | construct
  /-- Its destructor. -/
  | destroy
  deriving DecidableEq, Repr

/-- What a call of a packet handler does with the mutexes. -/
def HandlerCall.locks (socket worker : ℕ) : HandlerCall → List (LockOp ServerMutex)
  | .sendPacket => writeLocks socket
  | .closeSocket isClosed => closeSocketLocks socket worker isClosed
  | .construct => borrowLocks
  | .destroy => unBorrowLocks

/-- What the threads of the server call: completions, the flush timer, the acceptor, and any thread
that writes to a socket or closes it. -/
inductive ServerCall where
  /-- `OnRead` with an error. -/
  | onReadError (socket worker : ℕ) (isClosed isClosedThen : Bool)
  /-- `OnRead`: the packet handlers make these calls, and the socket is closed in the end if they
  ask for it. -/
  | onRead (socket worker : ℕ) (calls : List HandlerCall) (close : Option Bool)
  /-- `FlushOut`. -/
  | flushOut (socket : ℕ) (isClosed : Bool)
  /-- `OnWriteComplete`. -/
  | onWriteComplete (socket worker : ℕ) (error isClosed isClosedThen : Bool)
  /-- `Write`. -/
  | write (socket : ℕ)
  /-- `CloseSocket`. -/
  | closeSocket (socket worker : ℕ) (isClosed : Bool)
  /-- `OnAccept`: `RemoveSocket` of the worker, or `Open`, which sends the version check if the
  remote endpoint is there; then `BeginAccept` with the next worker. -/
  | onAccept (socket worker next : ℕ) (error opened : Bool)
  deriving DecidableEq, Repr

/-- What a call does with the mutexes. -/
def ServerCall.locks : ServerCall → List (LockOp ServerMutex)
  | .onReadError socket worker isClosed isClosedThen =>
    onErrorLocks socket worker isClosed isClosedThen
  | .onRead socket worker calls close =>
    (calls.map (HandlerCall.locks socket worker)).flatten ++
      match close with
      | some isClosed => closeSocketLocks socket worker isClosed
      | none => []
  | .flushOut socket isClosed => flushOutLocks socket isClosed
  | .onWriteComplete socket worker error isClosed isClosedThen =>
    onWriteCompleteLocks socket worker error isClosed isClosedThen
  | .write socket => writeLocks socket
  | .closeSocket socket worker isClosed => closeSocketLocks socket worker isClosed
  | .onAccept socket worker next error opened =>
    (if error then removeSocketLocks worker else if opened then writeLocks socket else []) ++
      createSocketLocks next

/-- The threads of the server, each with the calls it will make. -/
def serverThreads (threads : List (List ServerCall)) : List (LockThread ServerMutex) :=
  threads.map fun calls => ⟨[], (calls.map ServerCall.locks).flatten⟩

/-! ## The order -/

/-- One mutex, taken and released. -/
lemma disciplined_guarded_nil (m : ServerMutex) :
    Disciplined ServerMutex.rank [] (guarded m []) := by
  refine ⟨fun m' hm' => absurd hm' List.not_mem_nil, List.mem_cons_self, ?_⟩
  rw [List.erase_cons_head]
  rfl

/-- **`CloseSocket` takes its mutex, and then that of the worker.** -/
lemma disciplined_closeSocket (socket worker : ℕ) (isClosed : Bool) :
    Disciplined ServerMutex.rank [] (closeSocketLocks socket worker isClosed) := by
  cases isClosed with
  | true => exact disciplined_guarded_nil _
  | false =>
    refine ⟨fun m' hm' => absurd hm' List.not_mem_nil, fun m' hm' => ?_, List.mem_cons_self, ?_, ?_⟩
    · rw [List.mem_singleton.mp hm']
      exact Nat.zero_lt_one
    · rw [List.erase_cons_head]
      exact List.mem_cons_self
    · rw [List.erase_cons_head, List.erase_cons_head]
      rfl

/-- A branch in which no mutex is taken. -/
lemma disciplined_ite {p : List (LockOp ServerMutex)} (b : Bool)
    (h : Disciplined ServerMutex.rank [] p) :
    Disciplined ServerMutex.rank [] (if b then [] else p) := by
  cases b with
  | true => rfl
  | false => exact h

/-- A packet handler takes the mutexes in order. -/
lemma HandlerCall.disciplined (socket worker : ℕ) (c : HandlerCall) :
    Disciplined ServerMutex.rank [] (c.locks socket worker) := by
  cases c with
  | closeSocket isClosed => exact disciplined_closeSocket socket worker isClosed
  | sendPacket | construct | destroy => exact disciplined_guarded_nil _

/-- **Each call takes the mutexes in one order**, and has released them when it returns. -/
theorem ServerCall.disciplined (c : ServerCall) : Disciplined ServerMutex.rank [] c.locks := by
  cases c with
  | onReadError socket worker isClosed isClosedThen =>
    exact disciplined_ite _ (disciplined_closeSocket socket worker isClosedThen)
  | onRead socket worker calls close =>
    refine (Disciplined.flatten fun p hp => ?_).append ?_
    · obtain ⟨c, -, rfl⟩ := List.mem_map.mp hp
      exact c.disciplined socket worker
    · cases close with
      | none => rfl
      | some isClosed => exact disciplined_closeSocket socket worker isClosed
  | flushOut socket isClosed => exact disciplined_ite _ (disciplined_guarded_nil _)
  | onWriteComplete socket worker error isClosed isClosedThen =>
    cases error with
    | true => exact disciplined_ite _ (disciplined_closeSocket socket worker isClosedThen)
    | false => exact disciplined_ite _ (disciplined_guarded_nil _)
  | write socket => exact disciplined_guarded_nil _
  | closeSocket socket worker isClosed => exact disciplined_closeSocket socket worker isClosed
  | onAccept socket worker next error opened =>
    refine Disciplined.append ?_ (disciplined_guarded_nil _)
    cases error with
    | true => exact disciplined_guarded_nil _
    | false =>
      cases opened with
      | true => exact disciplined_guarded_nil _
      | false => rfl

/-- The threads start disciplined. -/
lemma lockInvariant_serverThreads (threads : List (List ServerCall)) :
    LockInvariant ServerMutex.rank (serverThreads threads) := by
  refine ⟨fun t ht => ?_, ?_⟩
  · obtain ⟨calls, -, rfl⟩ := List.mem_map.mp ht
    refine Disciplined.flatten fun p hp => ?_
    obtain ⟨c, -, rfl⟩ := List.mem_map.mp hp
    exact c.disciplined
  · have hnone : (serverThreads threads).flatMap LockThread.held = [] := by
      rw [List.flatMap_eq_nil_iff]
      intro t ht
      obtain ⟨calls, -, rfl⟩ := List.mem_map.mp ht
      rfl
    rw [hnone]
    exact List.nodup_nil

/-- **No deadlock.** For any number of threads, each with any sequence of calls of the functions of
sockets, workers, the listener and the packet handlers, on any sockets, with any branches taken, and
for every interleaving of what they do with their mutexes: no mutex is ever held twice; there are no
more steps than what the calls do; as long as a call has not returned some thread can take a step;
and where none can, all calls have returned and all mutexes are free.

**Proof sketch.** Each call takes `m_ClosedMutex` before the mutex of the worker and holds no other
two at once (`ServerCall.disciplined`), so the general result about ranked mutexes applies
(`lockSystem_completes`, `exists_step_of_disciplined`). -/
theorem calls_return (threads : List (List ServerCall)) (is : List ℕ)
    (ts : List (LockThread ServerMutex))
    (hrun : lockSystem.run (serverThreads threads) is = some ts) :
    (ts.flatMap LockThread.held).Nodup ∧
    is.length ≤ (threads.map fun calls => (calls.map ServerCall.locks).flatten.length).sum ∧
    ((∃ t ∈ ts, t.program ≠ []) → ∃ i ts', lockSystem.step ts i = some ts') ∧
    ((∀ i, lockSystem.step ts i = none) → ∀ t ∈ ts, t.program = [] ∧ t.held = []) := by
  have hstart := lockInvariant_serverThreads threads
  obtain ⟨hexclusive, hlength, hdone⟩ := lockSystem_completes hstart hrun
  have htotal : remaining (serverThreads threads) =
      (threads.map fun calls => (calls.map ServerCall.locks).flatten.length).sum := by
    rw [remaining, serverThreads, List.map_map]
    rfl
  refine ⟨hexclusive, by omega, fun hne => ?_, hdone⟩
  exact exists_step_of_disciplined (lockSystem.run_invariant
    (fun _ _ _ hts hstep => lockInvariant_step hts hstep) hrun hstart) hne

/-- Two threads close one socket while a third removes it from the worker: the second waits for the
first, and the first for the third; the third can go on. -/
theorem calls_return_close : ∃ ts,
    lockSystem.run (serverThreads [[.closeSocket 0 0 false], [.closeSocket 0 0 true],
      [.onAccept 1 0 0 true false]]) [0, 2] = some ts ∧
    lockSystem.step ts 0 = none ∧ lockSystem.step ts 1 = none ∧
    ∃ i ts', lockSystem.step ts i = some ts' :=
  ⟨_, rfl, rfl, rfl, (calls_return [[.closeSocket 0 0 false], [.closeSocket 0 0 true],
    [.onAccept 1 0 0 true false]] [0, 2] _ rfl).2.2.1 ⟨_, List.mem_cons_self, nofun⟩⟩

end SteerStone
