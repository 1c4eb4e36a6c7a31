import PristonTale.Network.SocketRead
import PristonTale.Network.SocketWrite

set_option relaxedAutoImplicit false
set_option autoImplicit false

/-!
# Closing a socket

Both sides of a socket as one transition system: the completions of reads and writes, the flush
timer, and the threads that call `Write`, `ForceFlushOut` and `CloseSocket`, in any order. Any of
them can be the one that closes the socket, with the others still outstanding. Each continuation
tests `IsClosed` before it starts an operation, and `CloseSocket` before it calls the close handler.

## Main definitions

* `SteerStone.SocketAction`, `SteerStone.socketSystem` — the transition system.
* `SteerStone.SocketAction.retire` — asio takes the operation that completes off its queue.
* `SteerStone.StaysClosed` — nothing is reported or started again.

## Main results

* `SteerStone.staysClosed_step` — a step of a closed socket starts nothing.
* `SteerStone.closing_is_final` — closing is reported once, and nothing is started afterwards.
-/

namespace SteerStone

open Foundations

/-- What can happen to a socket. -/
inductive SocketAction where
  /-- On the receiving side. -/
  | receive (a : ReadAction)
  /-- On the sending side, or a thread closes the socket. -/
  | transmit (a : WriteAction)

variable {δ : Type} (grow : ℕ → ℕ → ℕ) (D : Derived δ)

/-- Both sides of a socket. -/
def socketSystem : Transition (δ × Socket) SocketAction where
  step st
    | .receive a => (readSystem grow D).step st a
    | .transmit a => ((writeSystem grow).step st.2 a).map fun s => (st.1, s)

/-- The socket when asio has taken the operation that completes off its queue, before the handler
runs. -/
def SocketAction.retire (s : Socket) : SocketAction → Socket
  | .receive _ => { s with reads := s.reads.tail }
  | .transmit .flushTimer => { s with waits := s.waits.tail }
  | .transmit (.writeComplete _ _) => { s with writes := s.writes.tail }
  | .transmit .writeFail => { s with writes := s.writes.tail }
  | .transmit _ => s

/-- A closed socket afterwards: still closed, with no report of the close and no operation more. A
wait that is cancelled is still outstanding. -/
structure StaysClosed (s s' : Socket) : Prop where
  /-- The socket is closed. -/
  isOpen : s'.isOpen = false
  /-- The close handler is not called. -/
  closeReports : s'.closeReports = s.closeReports
  /-- No `async_read_some` is started. -/
  reads : s'.reads = s.reads
  /-- No `async_write_some` is started. -/
  writes : s'.writes = s.writes
  /-- No wait is started. -/
  waits : s'.waits.length = s.waits.length

/-- One for an open socket, and one for each report: what a close moves from the first to the
second. -/
def reportsDue (s : Socket) : ℕ := s.closeReports + s.isOpen.toNat

/-! ## Closed sockets -/

namespace StaysClosed

variable {s t u : Socket}

/-- A closed socket with which nothing happens. -/
lemma refl (h : s.isOpen = false) : StaysClosed s s := ⟨h, rfl, rfl, rfl, rfl⟩

/-- One after the other. -/
lemma trans (h : StaysClosed s t) (h' : StaysClosed t u) : StaysClosed s u :=
  ⟨h'.isOpen, h'.closeReports.trans h.closeReports, h'.reads.trans h.reads,
    h'.writes.trans h.writes, h'.waits.trans h.waits⟩

/-- `CloseSocket` tests `IsClosed`. -/
lemma closeSocket (h : s.isOpen = false) : StaysClosed s s.closeSocket := by
  unfold Socket.closeSocket
  rw [if_neg (by simp [h])]
  exact .refl h

/-- `StartAsyncRead` tests `IsClosed`. -/
lemma startAsyncRead (h : s.isOpen = false) : StaysClosed s s.startAsyncRead := by
  unfold Socket.startAsyncRead
  rw [if_neg (by simp [h])]
  exact ⟨h, rfl, rfl, rfl, rfl⟩

/-- `StartWriteFlushTimer`, which `Write` calls, tests `IsClosed`. -/
lemma write (h : s.isOpen = false) (bytes : List UInt8) : StaysClosed s (s.write grow bytes) := by
  unfold Socket.write Socket.startWriteFlushTimer
  dsimp only
  split_ifs with hidle hbuffering hopen
  · exact ⟨h, rfl, rfl, rfl, rfl⟩
  · exact absurd hopen (by simp [h])
  · exact ⟨h, rfl, rfl, rfl, rfl⟩
  · exact ⟨h, rfl, rfl, rfl, rfl⟩

/-- `ForceFlushOut` only cancels. -/
lemma forceFlushOut (h : s.isOpen = false) : StaysClosed s s.forceFlushOut :=
  ⟨h, rfl, rfl, rfl, List.length_map _⟩

/-- `FlushOut` tests `IsClosed`. -/
lemma flushOut (h : s.isOpen = false) : StaysClosed s s.flushOut := by
  unfold Socket.flushOut
  rw [if_neg (by simp [h])]
  exact ⟨h, rfl, rfl, rfl, rfl⟩

/-- `OnWriteComplete` tests `IsClosed`. -/
lemma onWriteComplete (h : s.isOpen = false) (length : ℕ) :
    StaysClosed s (s.onWriteComplete length) := by
  unfold Socket.onWriteComplete
  rw [if_neg (by simp [h])]
  exact ⟨h, rfl, rfl, rfl, rfl⟩

/-- `OnRead` tests `IsClosed`. -/
lemma onRead (h : s.isOpen = false) (d : δ) (length available : ℕ) :
    StaysClosed s (s.onRead grow D d length available).2 := by
  unfold Socket.onRead
  rw [if_neg (by simp [h])]
  exact ⟨h, rfl, rfl, rfl, rfl⟩

/-- One call of the derived class. -/
lemma call (h : s.isOpen = false) (c : Call) : StaysClosed s (s.call grow c) := by
  cases c with
  | read n =>
    simp only [Socket.call, Socket.read]
    split_ifs
    · exact .refl h
    · exact ⟨h, rfl, rfl, rfl, rfl⟩
  | readSkip n => exact ⟨h, rfl, rfl, rfl, rfl⟩
  | write bytes => exact write grow h bytes
  | forceFlushOut => exact forceFlushOut h
  | closeSocket => exact closeSocket h

/-- Whatever the derived class calls after the socket is closed. -/
lemma calls (h : s.isOpen = false) (cs : List Call) : StaysClosed s (s.calls grow cs) := by
  induction cs generalizing s with
  | nil => exact .refl h
  | cons c cs ih =>
    have hcall := call grow h c
    rw [Socket.calls_cons]
    exact hcall.trans (ih hcall.isOpen)

end StaysClosed

/-! ## What a step does -/

/-- What a step of the receiving side can be, whatever is outstanding. -/
lemma readSystem_step_any {st st' : δ × Socket} {a : ReadAction}
    (h : (readSystem grow D).step st a = some st') :
    (∃ bytes available, a = .complete bytes available ∧
      st' = (({ st.2 with reads := st.2.reads.tail } : Socket).deliver bytes).onRead grow D st.1
        bytes.length available) ∨
    (a = .fail ∧ st' = (st.1, ({ st.2 with reads := st.2.reads.tail } : Socket).onReadError)) := by
  obtain ⟨d, s⟩ := st
  cases hreads : s.reads with
  | nil => cases a <;> simp [readSystem, hreads] at h
  | cons op ops =>
    cases a with
    | complete bytes available =>
      simp only [readSystem, hreads] at h
      split_ifs at h
      exact .inl ⟨bytes, available, rfl, by simpa [hreads] using h.symm⟩
    | fail =>
      simp only [readSystem, hreads, Option.some.injEq] at h
      exact .inr ⟨rfl, by simpa [hreads] using h.symm⟩

/-- **A step of a closed socket starts nothing** and reports nothing.

**Proof sketch.** Each of the continuations tests `IsClosed` first. -/
theorem staysClosed_step {st st' : δ × Socket} {a : SocketAction}
    (hclosed : st.2.isOpen = false) (h : (socketSystem grow D).step st a = some st') :
    StaysClosed (a.retire st.2) st'.2 := by
  cases a with
  | receive a =>
    rcases readSystem_step_any grow D h with ⟨bytes, available, rfl, rfl⟩ | ⟨rfl, rfl⟩
    · have hdeliver : StaysClosed { st.2 with reads := st.2.reads.tail }
          (({ st.2 with reads := st.2.reads.tail } : Socket).deliver bytes) :=
        ⟨hclosed, rfl, rfl, rfl, rfl⟩
      exact hdeliver.trans (.onRead grow D hdeliver.isOpen st.1 _ _)
    · rw [Socket.onReadError, Socket.onError_eq]
      have hidle : StaysClosed { st.2 with reads := st.2.reads.tail }
          { st.2 with reads := st.2.reads.tail, readState := .idle } :=
        ⟨hclosed, rfl, rfl, rfl, rfl⟩
      exact hidle.trans (.closeSocket hclosed)
  | transmit a =>
    obtain ⟨t, ht, rfl⟩ := Option.map_eq_some_iff.mp h
    rcases writeSystem_step_cases grow ht with ⟨bytes, rfl, rfl⟩ | ⟨rfl, rfl⟩ |
      ⟨w, ws, rfl, hw, rfl⟩ | ⟨op, ops, length, stale, rfl, hw, -, rfl⟩ |
      ⟨op, ops, rfl, hw, rfl⟩ | ⟨rfl, rfl⟩
    · exact .write grow hclosed bytes
    · exact .forceFlushOut hclosed
    · simp only [SocketAction.retire, hw, List.tail_cons]
      exact .flushOut hclosed
    · have hdone := StaysClosed.onWriteComplete
        (s := { st.2 with
          writes := ops
          accepted := st.2.accepted ++ st.2.transmitted op length stale }) hclosed length
      exact ⟨hdone.isOpen, hdone.closeReports, hdone.reads,
        by rw [hdone.writes]; simp [SocketAction.retire, hw], hdone.waits⟩
    · rw [Socket.onError_eq]
      simp only [SocketAction.retire, hw, List.tail_cons]
      exact .closeSocket hclosed
    · exact .closeSocket hclosed

/-! ## Reports -/

section Reports

variable (s : Socket)

/-- `CloseSocket` leaves the number of reports that are due. -/
@[simp] lemma reportsDue_closeSocket : reportsDue s.closeSocket = reportsDue s := by
  unfold reportsDue Socket.closeSocket
  split_ifs with h
  · simp [h]
  · rfl

/-- `StartAsyncRead` leaves the number of reports that are due. -/
@[simp] lemma reportsDue_startAsyncRead : reportsDue s.startAsyncRead = reportsDue s := by
  unfold reportsDue Socket.startAsyncRead; split_ifs <;> rfl

/-- `Write` leaves the number of reports that are due. -/
@[simp] lemma reportsDue_write (bytes : List UInt8) :
    reportsDue (s.write grow bytes) = reportsDue s := by
  unfold reportsDue Socket.write Socket.startWriteFlushTimer; dsimp only; split_ifs <;> rfl

/-- `FlushOut` leaves the number of reports that are due. -/
@[simp] lemma reportsDue_flushOut : reportsDue s.flushOut = reportsDue s := by
  unfold reportsDue Socket.flushOut; split_ifs <;> rfl

/-- `OnWriteComplete` leaves the number of reports that are due. -/
@[simp] lemma reportsDue_onWriteComplete (length : ℕ) :
    reportsDue (s.onWriteComplete length) = reportsDue s := by
  unfold reportsDue Socket.onWriteComplete; dsimp only; split_ifs <;> rfl

/-- No call of the derived class changes how many reports are due. -/
lemma reportsDue_calls (cs : List Call) : reportsDue (s.calls grow cs) = reportsDue s := by
  induction cs generalizing s with
  | nil => rfl
  | cons c cs ih =>
    rw [Socket.calls_cons, ih]
    cases c with
    | read n => simp only [Socket.call, Socket.read]; split_ifs <;> rfl
    | readSkip n => rfl
    | write bytes => exact reportsDue_write grow s bytes
    | forceFlushOut => rfl
    | closeSocket => exact reportsDue_closeSocket s

/-- `OnRead` does not change how many reports are due. -/
lemma reportsDue_onRead (d : δ) (length available : ℕ) :
    reportsDue (s.onRead grow D d length available).2 = reportsDue s := by
  have hcalls : ∀ cs, reportsDue ((s.advance length).calls grow cs) = reportsDue s :=
    fun cs => (reportsDue_calls grow _ cs).trans rfl
  unfold Socket.onRead Socket.process
  dsimp only
  split_ifs
  · rw [reportsDue_startAsyncRead]; rfl
  · rw [reportsDue_startAsyncRead]; exact hcalls _
  · rw [reportsDue_startAsyncRead]; exact hcalls _
  · rw [reportsDue_closeSocket]; exact hcalls _
  · exact hcalls _
  · rfl

end Reports

/-- No step changes how many reports are due. -/
lemma reportsDue_step {st st' : δ × Socket} {a : SocketAction}
    (h : (socketSystem grow D).step st a = some st') : reportsDue st'.2 = reportsDue st.2 := by
  cases a with
  | receive a =>
    rcases readSystem_step_any grow D h with ⟨bytes, available, rfl, rfl⟩ | ⟨rfl, rfl⟩
    · exact (reportsDue_onRead grow D _ _ _ _).trans rfl
    · rw [Socket.onReadError, Socket.onError_eq]
      exact (reportsDue_closeSocket _).trans rfl
  | transmit a =>
    obtain ⟨t, ht, rfl⟩ := Option.map_eq_some_iff.mp h
    rcases writeSystem_step_cases grow ht with ⟨bytes, rfl, rfl⟩ | ⟨rfl, rfl⟩ |
      ⟨w, ws, rfl, hw, rfl⟩ | ⟨op, ops, length, stale, rfl, hw, -, rfl⟩ |
      ⟨op, ops, rfl, hw, rfl⟩ | ⟨rfl, rfl⟩
    · exact reportsDue_write grow _ bytes
    · rfl
    · exact (reportsDue_flushOut _).trans rfl
    · exact (reportsDue_onWriteComplete _ _).trans rfl
    · rw [Socket.onError_eq]
      exact (reportsDue_closeSocket _).trans rfl
    · exact reportsDue_closeSocket _

/-! ## The step that closes -/

/-- No call of the derived class starts a write. -/
lemma calls_writes (s : Socket) (cs : List Call) : (s.calls grow cs).writes = s.writes := by
  induction cs generalizing s with
  | nil => rfl
  | cons c cs ih =>
    rw [Socket.calls_cons, ih]
    cases c with
    | read n => simp only [Socket.call, Socket.read]; split_ifs <;> rfl
    | readSkip n => rfl
    | write bytes => exact Socket.write_writes grow s bytes
    | forceFlushOut => rfl
    | closeSocket => exact Socket.closeSocket_writes s

/-- An `OnRead` that leaves the socket closed has started no read and no write. -/
lemma onRead_of_closed (s : Socket) (d : δ) (length available : ℕ)
    (h : (s.onRead grow D d length available).2.isOpen = false) :
    (s.onRead grow D d length available).2.reads = s.reads ∧
      (s.onRead grow D d length available).2.writes = s.writes := by
  have hreads : ∀ cs, ((s.advance length).calls grow cs).reads = s.reads := by
    intro cs
    rw [Socket.calls_reads]
    rfl
  have hwrites : ∀ cs, ((s.advance length).calls grow cs).writes = s.writes := by
    intro cs
    rw [calls_writes]
    rfl
  -- `StartAsyncRead` at the end of the handler finds the socket closed
  have hstart : ∀ t : Socket, t.startAsyncRead.isOpen = false → t.reads = s.reads →
      t.writes = s.writes →
      t.startAsyncRead.reads = s.reads ∧ t.startAsyncRead.writes = s.writes := by
    intro t ht hr hw
    rw [Socket.startAsyncRead_isOpen] at ht
    have hstays := StaysClosed.startAsyncRead ht
    exact ⟨hstays.reads.trans hr, hstays.writes.trans hw⟩
  unfold Socket.onRead Socket.process at h ⊢
  dsimp only at h ⊢
  split_ifs at h ⊢
  · exact hstart _ h rfl rfl
  · exact hstart _ h (hreads _) (hwrites _)
  · exact hstart _ h (hreads _) (hwrites _)
  · exact ⟨by rw [Socket.closeSocket_reads, hreads], by rw [Socket.closeSocket_writes, hwrites]⟩
  · exact ⟨hreads _, hwrites _⟩
  · exact ⟨rfl, rfl⟩

/-- A step that leaves the socket closed starts no read and no write. -/
lemma starts_none_of_closed {st st' : δ × Socket} {a : SocketAction}
    (h : (socketSystem grow D).step st a = some st') (hclosed : st'.2.isOpen = false) :
    st'.2.reads = (a.retire st.2).reads ∧ st'.2.writes = (a.retire st.2).writes := by
  cases a with
  | receive a =>
    rcases readSystem_step_any grow D h with ⟨bytes, available, rfl, rfl⟩ | ⟨rfl, rfl⟩
    · exact onRead_of_closed grow D _ _ _ _ hclosed
    · rw [Socket.onReadError, Socket.onError_eq]
      exact ⟨by simp [SocketAction.retire], by simp [SocketAction.retire]⟩
  | transmit a =>
    obtain ⟨t, ht, rfl⟩ := Option.map_eq_some_iff.mp h
    have hstep := writeSystem_step_cases grow ht
    rcases hstep with ⟨bytes, rfl, rfl⟩ | ⟨rfl, rfl⟩ |
      ⟨w, ws, rfl, hw, rfl⟩ | ⟨op, ops, length, stale, rfl, hw, -, rfl⟩ |
      ⟨op, ops, rfl, hw, rfl⟩ | ⟨rfl, rfl⟩
    · exact ⟨by simp [SocketAction.retire], by simp [SocketAction.retire]⟩
    · exact ⟨rfl, rfl⟩
    · have hbefore : st.2.isOpen = false := by simpa using hclosed
      have hstays := staysClosed_step grow D hbefore h
      exact ⟨hstays.reads, hstays.writes⟩
    · have hbefore : st.2.isOpen = false := by simpa using hclosed
      have hstays := staysClosed_step grow D hbefore h
      exact ⟨hstays.reads, hstays.writes⟩
    · rw [Socket.onError_eq]
      exact ⟨by simp [SocketAction.retire], by simp [SocketAction.retire, hw]⟩
    · exact ⟨by simp [SocketAction.retire], by simp [SocketAction.retire]⟩

/-! ## Runs -/

/-- `Open` leaves one report due. -/
lemma reportsDue_openSocket : reportsDue (Socket.openSocket grow D) = 1 := by
  rw [Socket.openSocket, reportsDue_startAsyncRead, reportsDue_calls]
  rfl

/-- **Closing is final and reported once.** In every run of a socket opened by `Open`, for every
derived class and every order of completions, timer waits and calls of other threads: the close
handler has not been called while the socket is open, and has been called once when it is closed.
A step of a closed socket leaves it closed and starts no `async_read_some`, no `async_write_some`
and no wait; the step that closes it starts no read and no write; and what the derived class calls
after the socket is closed starts nothing either.

**Proof sketch.** A close turns the open socket into a report, and nothing else changes either
(`reportsDue_step`). Every continuation tests `IsClosed` before it starts an operation
(`staysClosed_step`, `starts_none_of_closed`). -/
theorem closing_is_final (d : δ) (as : List SocketAction) (st : δ × Socket)
    (h : (socketSystem grow D).run (d, Socket.openSocket grow D) as = some st) :
    (st.2.isOpen = true → st.2.closeReports = 0) ∧
      (st.2.isOpen = false → st.2.closeReports = 1) ∧
      (∀ a st', (socketSystem grow D).step st a = some st' → st.2.isOpen = false →
        StaysClosed (a.retire st.2) st'.2) ∧
      (∀ a st', (socketSystem grow D).step st a = some st' → st'.2.isOpen = false →
        st'.2.reads = (a.retire st.2).reads ∧ st'.2.writes = (a.retire st.2).writes) ∧
      ∀ s cs, s.isOpen = false → StaysClosed s (s.calls grow cs) := by
  have hdue : reportsDue st.2 = 1 := by
    apply (socketSystem grow D).run_invariant (I := fun st => reportsDue st.2 = 1) _ h
    · exact reportsDue_openSocket grow D
    · intro s a s' hs hstep
      rw [reportsDue_step grow D hstep, hs]
  unfold reportsDue at hdue
  refine ⟨?_, ?_, ?_, ?_, ?_⟩
  · intro hopen
    rw [hopen, Bool.toNat_true] at hdue
    omega
  · intro hclosed
    rw [hclosed, Bool.toNat_false] at hdue
    omega
  · intro a st' hstep hclosed
    exact staysClosed_step grow D hclosed hstep
  · intro a st' hstep hclosed
    exact starts_none_of_closed grow D hstep hclosed
  · intro s cs hclosed
    exact StaysClosed.calls grow hclosed cs

/-- A socket closed by another thread while its read is outstanding: one report, and the failure
of the read adds none. -/
theorem closing_is_final_once : ∃ st,
    (socketSystem (fun _ n => n) Derived.takeAll).run
        ((), Socket.openSocket (fun _ n => n) Derived.takeAll)
        [.transmit .close, .receive .fail] = some st ∧ st.2.closeReports = 1 := by
  have hopen := (Reading.openSocket (fun _ n => n) Derived.takeAll).opened
    (Socket.openSocket_isOpen (fun _ n => n) Derived.takeAll)
  obtain ⟨st, hrun⟩ : ∃ st, (socketSystem (fun _ n => n) Derived.takeAll).run
      ((), Socket.openSocket (fun _ n => n) Derived.takeAll)
      [.transmit .close, .receive .fail] = some st := by
    simp [Transition.run, socketSystem, writeSystem, readSystem, hopen]
  have hclosed : st.2.isOpen = false := by
    obtain ⟨s₁, h₁, hrest⟩ := (Transition.run_cons_eq_some _).mp hrun
    obtain ⟨s₂, h₂, hlast⟩ := (Transition.run_cons_eq_some _).mp hrest
    have hfirst : s₁.2.isOpen = false := by
      obtain rfl := Option.some.inj h₁
      exact Socket.closeSocket_isOpen _
    obtain rfl : s₂ = st := by simpa using hlast
    exact (staysClosed_step _ _ hfirst h₂).isOpen
  exact ⟨st, hrun, (closing_is_final (fun _ n => n) Derived.takeAll () _ st hrun).2.1 hclosed⟩

end SteerStone
