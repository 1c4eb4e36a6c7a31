import PristonTale.Network.Draining
import PristonTale.Network.SocketClose

set_option relaxedAutoImplicit false
set_option autoImplicit false

/-!
# The sending side of a whole socket

The sending side was taken apart from the socket in `PristonTale.Network.SocketWrite`: threads call
`Write`, handlers run. In the whole socket most of these calls come from the derived class, in the
middle of an `OnRead`. Here the two are put together again: whatever the derived class is, a run of
the whole socket is a run of its sending side, in which each `OnRead` is the calls of the derived
class, one after the other.

## Main definitions

* `SteerStone.SameSending` — two sockets that differ on the receiving side only.
* `SteerStone.Call.sending`, `SteerStone.SocketAction.sending` — a call, and a step of the whole
  socket, as steps of the sending side.
* `SteerStone.sendingRun` — a run of the whole socket as one of the sending side.

## Main results

* `SteerStone.sameSending_step` — each step of the whole socket is a run of its sending side.
* `SteerStone.whole_output_integrity` — the output stream of the whole socket.
-/

namespace SteerStone

open Foundations

variable {δ : Type} (grow : ℕ → ℕ → ℕ) (D : Derived δ)

/-- Two sockets with the same sending side. -/
structure SameSending (s t : Socket) : Prop where
  /-- Both are open, or both are closed. -/
  isOpen : s.isOpen = t.isOpen
  /-- The out-buffer. -/
  outBuffer : s.outBuffer = t.outBuffer
  /-- The write state. -/
  writeState : s.writeState = t.writeState
  /-- The outstanding writes. -/
  writes : s.writes = t.writes
  /-- The outstanding waits. -/
  waits : s.waits = t.waits
  /-- What the transport has accepted. -/
  accepted : s.accepted = t.accepted

/-- A call of the derived class, on the sending side. -/
def Call.sending : Call → List WriteAction
  | .write bytes => [.write bytes]
  | .forceFlushOut => [.forceFlushOut]
  | .closeSocket => [.close]
  | .read _ => []
  | .readSkip _ => []

/-- What an `OnRead` that hands data over does on the sending side: the calls of the derived class,
and the close if its result asks for one. -/
def Processing.sending (p : Processing δ) : List WriteAction :=
  p.calls.flatMap Call.sending ++ if p.result = true ∨ p.errno = .ebadmsg then [] else [.close]

/-- The socket when a read has completed and its bytes have been stored. -/
def Socket.stored (s : Socket) (bytes : List UInt8) : Socket :=
  ({ s with reads := s.reads.tail } : Socket).deliver bytes

/-- A step of the whole socket, on the sending side. -/
def SocketAction.sending (st : δ × Socket) : SocketAction → List WriteAction
  | .transmit a => [a]
  | .receive .fail => [.close]
  | .receive (.complete bytes available) =>
    let s := st.2.stored bytes
    if s.isOpen = true ∧ ¬ Socket.growsFor s.inBuffer.buffer.size bytes.length available then
      (D.processIncomingData st.1 (s.advance bytes.length)).sending
    else []

/-- A run of the whole socket from `Open` on, on the sending side. -/
def sendingRun (d : δ) (as : List SocketAction) : List WriteAction :=
  D.sendVersionCheck.map .write ++
    (socketSystem grow D).trace (SocketAction.sending D) (d, Socket.openSocket grow D) as

/-! ## One operation -/

namespace SameSending

variable {s t u : Socket}

/-- A socket has its own sending side. -/
lemma refl (s : Socket) : SameSending s s := ⟨rfl, rfl, rfl, rfl, rfl, rfl⟩

/-- Having the same sending side is transitive. -/
lemma trans (h : SameSending s t) (h' : SameSending t u) : SameSending s u :=
  ⟨h.isOpen.trans h'.isOpen, h.outBuffer.trans h'.outBuffer, h.writeState.trans h'.writeState,
    h.writes.trans h'.writes, h.waits.trans h'.waits, h.accepted.trans h'.accepted⟩

/-- Having the same sending side is symmetric. -/
lemma symm (h : SameSending s t) : SameSending t s :=
  ⟨h.isOpen.symm, h.outBuffer.symm, h.writeState.symm, h.writes.symm, h.waits.symm,
    h.accepted.symm⟩

/-- Whether the state is coherent is decided by the sending side. -/
lemma coherent (h : SameSending s t) (hc : Coherent s) : Coherent t := by
  unfold Coherent at hc ⊢
  rw [← h.writeState, ← h.writes, ← h.waits, ← h.outBuffer]
  exact hc

/-- `CloseSocket` keeps sending sides the same. -/
lemma closeSocket (h : SameSending s t) : SameSending s.closeSocket t.closeSocket := by
  unfold Socket.closeSocket
  rw [h.isOpen]
  split_ifs
  · exact ⟨rfl, h.outBuffer, h.writeState, h.writes, h.waits, h.accepted⟩
  · exact h

/-- `Write` keeps sending sides the same. -/
lemma write (h : SameSending s t) (bytes : List UInt8) :
    SameSending (s.write grow bytes) (t.write grow bytes) := by
  have hbuffer : s.outBuffer.write grow bytes = t.outBuffer.write grow bytes := by rw [h.outBuffer]
  unfold Socket.write Socket.startWriteFlushTimer
  dsimp only
  rw [h.isOpen, h.writeState]
  split_ifs
  · exact ⟨rfl, hbuffer, rfl, h.writes, h.waits, h.accepted⟩
  · exact ⟨rfl, hbuffer, rfl, h.writes, by simp only [h.waits], h.accepted⟩
  · exact ⟨rfl, hbuffer, rfl, h.writes, h.waits, h.accepted⟩
  · exact ⟨rfl, hbuffer, rfl, h.writes, h.waits, h.accepted⟩

/-- `ForceFlushOut` keeps sending sides the same. -/
lemma forceFlushOut (h : SameSending s t) : SameSending s.forceFlushOut t.forceFlushOut :=
  ⟨h.isOpen, h.outBuffer, h.writeState, h.writes, congrArg (List.map _) h.waits, h.accepted⟩

/-- The start of a write operation keeps sending sides the same. -/
lemma asyncWriteSome (h : SameSending s t) : SameSending s.asyncWriteSome t.asyncWriteSome :=
  ⟨h.isOpen, h.outBuffer, h.writeState,
    by simp only [Socket.asyncWriteSome, h.writes, h.outBuffer], h.waits, h.accepted⟩

/-- `FlushOut` keeps sending sides the same. -/
lemma flushOut (h : SameSending s t) : SameSending s.flushOut t.flushOut := by
  unfold Socket.flushOut
  rw [h.isOpen]
  split_ifs
  · exact asyncWriteSome ⟨rfl, h.outBuffer, rfl, h.writes, h.waits, h.accepted⟩
  · exact ⟨rfl, h.outBuffer, rfl, h.writes, h.waits, h.accepted⟩

/-- `OnWriteComplete` keeps sending sides the same. -/
lemma onWriteComplete (h : SameSending s t) (length : ℕ) :
    SameSending (s.onWriteComplete length) (t.onWriteComplete length) := by
  unfold Socket.onWriteComplete
  dsimp only
  rw [h.isOpen, h.outBuffer]
  split_ifs
  · exact asyncWriteSome ⟨rfl, rfl, h.writeState, h.writes, h.waits, h.accepted⟩
  · exact ⟨rfl, rfl, rfl, h.writes, h.waits, h.accepted⟩
  · exact ⟨rfl, rfl, rfl, h.writes, h.waits, h.accepted⟩

/-- `StartAsyncRead` is on the receiving side. -/
lemma startAsyncRead (h : SameSending s t) : SameSending s t.startAsyncRead := by
  refine h.trans ?_
  unfold Socket.startAsyncRead
  split_ifs
  · exact ⟨rfl, rfl, rfl, rfl, rfl, rfl⟩
  · exact ⟨rfl, rfl, rfl, rfl, rfl, rfl⟩

/-- One call of the derived class, as a run of the sending side. -/
lemma call (h : SameSending s t) (c : Call) : ∃ s',
    (writeSystem grow).run s c.sending = some s' ∧ SameSending s' (t.call grow c) := by
  cases c with
  | read n =>
    refine ⟨s, rfl, h.trans ?_⟩
    simp only [Socket.call, Socket.read]
    split_ifs
    · exact refl t
    · exact ⟨rfl, rfl, rfl, rfl, rfl, rfl⟩
  | readSkip n => exact ⟨s, rfl, h.trans ⟨rfl, rfl, rfl, rfl, rfl, rfl⟩⟩
  | write bytes => exact ⟨_, rfl, h.write grow bytes⟩
  | forceFlushOut => exact ⟨_, rfl, h.forceFlushOut⟩
  | closeSocket => exact ⟨_, rfl, h.closeSocket⟩

/-- The calls of the derived class, as a run of the sending side. -/
lemma calls (h : SameSending s t) (cs : List Call) : ∃ s',
    (writeSystem grow).run s (cs.flatMap Call.sending) = some s' ∧
      SameSending s' (t.calls grow cs) := by
  induction cs generalizing s t with
  | nil => exact ⟨s, rfl, h⟩
  | cons c cs ih =>
    obtain ⟨s₁, hfirst, h₁⟩ := h.call grow c
    obtain ⟨s', hrest, h'⟩ := ih h₁
    refine ⟨s', ?_, h'⟩
    rw [List.flatMap_cons, (writeSystem grow).run_append _ hfirst]
    exact hrest

/-- What `OnRead` does with the data it hands over, as a run of the sending side. -/
lemma process (h : SameSending s t) (d : δ) : ∃ s',
    (writeSystem grow).run s (D.processIncomingData d t).sending = some s' ∧
      SameSending s' (t.process grow D d).2 := by
  obtain ⟨s₁, hcalls, h₁⟩ := h.calls grow (D.processIncomingData d t).calls
  unfold Processing.sending Socket.process
  rw [(writeSystem grow).run_append _ hcalls]
  by_cases hresult : (D.processIncomingData d t).result = true
  · rw [if_pos (Or.inl hresult), if_pos hresult]
    have hreset : SameSending s₁
        (t.calls grow (D.processIncomingData d t).calls).resetRead :=
      h₁.trans ⟨rfl, rfl, rfl, rfl, rfl, rfl⟩
    exact ⟨s₁, rfl, hreset.startAsyncRead⟩
  · rw [if_neg hresult]
    by_cases herrno : (D.processIncomingData d t).errno = .ebadmsg
    · rw [if_pos (Or.inr herrno), if_pos herrno]
      have hmoved : SameSending s₁
          (t.calls grow (D.processIncomingData d t).calls).moveRemaining :=
        h₁.trans ⟨rfl, rfl, rfl, rfl, rfl, rfl⟩
      exact ⟨s₁, rfl, hmoved.startAsyncRead⟩
    · rw [if_neg (not_or.mpr ⟨hresult, herrno⟩), if_neg herrno]
      refine ⟨s₁.closeSocket, rfl, ?_⟩
      have hclose := Socket.onError_eq (t.calls grow (D.processIncomingData d t).calls)
      unfold Socket.onError at hclose
      dsimp only
      rw [hclose]
      exact h₁.closeSocket

/-- `OnRead`, as a run of the sending side. -/
lemma onRead (h : SameSending s t) (d : δ) (length available : ℕ) : ∃ s',
    (writeSystem grow).run s (if t.isOpen = true ∧
        ¬ Socket.growsFor t.inBuffer.buffer.size length available then
      (D.processIncomingData d (t.advance length)).sending else []) = some s' ∧
      SameSending s' (t.onRead grow D d length available).2 := by
  unfold Socket.onRead
  by_cases hopen : t.isOpen = true
  · rw [if_pos hopen]
    by_cases hgrow : Socket.growsFor t.inBuffer.buffer.size length available
    · rw [if_neg fun hc => hc.2 hgrow, if_pos hgrow]
      have henlarged : SameSending s ((t.advance length).enlarge grow available) :=
        h.trans ⟨rfl, rfl, rfl, rfl, rfl, rfl⟩
      exact ⟨s, rfl, henlarged.startAsyncRead⟩
    · rw [if_pos ⟨hopen, hgrow⟩, if_neg hgrow]
      have hadvanced : SameSending s (t.advance length) := h.trans ⟨rfl, rfl, rfl, rfl, rfl, rfl⟩
      exact hadvanced.process grow D d
  · rw [if_neg hopen, if_neg fun hc => hopen hc.1]
    exact ⟨s, rfl, h.trans ⟨rfl, rfl, rfl, rfl, rfl, rfl⟩⟩

end SameSending

/-! ## Steps and runs -/

/-- A step of one sending side is a step of any other that is the same. -/
lemma sameSending_writeStep {s t t' : Socket} {a : WriteAction} (h : SameSending s t)
    (hstep : (writeSystem grow).step t a = some t') :
    ∃ s', (writeSystem grow).step s a = some s' ∧ SameSending s' t' := by
  rcases writeSystem_step_cases grow hstep with ⟨bytes, rfl, rfl⟩ | ⟨rfl, rfl⟩ |
    ⟨w, ws, rfl, hw, rfl⟩ | ⟨op, ops, n, stale, rfl, hw, hle, rfl⟩ | ⟨op, ops, rfl, hw, rfl⟩ |
    ⟨rfl, rfl⟩
  · exact ⟨_, rfl, h.write grow bytes⟩
  · exact ⟨_, rfl, h.forceFlushOut⟩
  · refine ⟨{ s with waits := ws }.flushOut, by simp only [writeSystem, h.waits, hw], ?_⟩
    exact SameSending.flushOut ⟨h.isOpen, h.outBuffer, h.writeState, h.writes, rfl, h.accepted⟩
  · have htaken : SameSending
        { s with writes := ops, accepted := s.accepted ++ s.transmitted op n stale }
        { t with writes := ops, accepted := t.accepted ++ t.transmitted op n stale } :=
      ⟨h.isOpen, h.outBuffer, h.writeState, rfl, h.waits,
        by simp only [Socket.transmitted, h.outBuffer, h.accepted]⟩
    exact ⟨_, by simp only [writeSystem, h.writes, hw, if_pos hle], htaken.onWriteComplete n⟩
  · have htaken : SameSending { s with writes := ops } { t with writes := ops } :=
      ⟨h.isOpen, h.outBuffer, h.writeState, rfl, h.waits, h.accepted⟩
    refine ⟨_, by simp only [writeSystem, h.writes, hw]; rfl, ?_⟩
    rw [Socket.onError_eq, Socket.onError_eq]
    exact htaken.closeSocket
  · exact ⟨_, rfl, h.closeSocket⟩

/-- **Each step of the whole socket is a run of its sending side.** -/
theorem sameSending_step {s : Socket} {st st' : δ × Socket} {a : SocketAction}
    (h : SameSending s st.2) (hstep : (socketSystem grow D).step st a = some st') :
    ∃ s', (writeSystem grow).run s (a.sending D st) = some s' ∧ SameSending s' st'.2 := by
  cases a with
  | receive a =>
    rcases readSystem_step_any grow D hstep with ⟨bytes, available, rfl, rfl⟩ | ⟨rfl, rfl⟩
    · have hstored : SameSending s (st.2.stored bytes) := h.trans ⟨rfl, rfl, rfl, rfl, rfl, rfl⟩
      exact hstored.onRead grow D st.1 bytes.length available
    · refine ⟨s.closeSocket, rfl, ?_⟩
      rw [Socket.onReadError, Socket.onError_eq]
      exact SameSending.closeSocket (h.trans ⟨rfl, rfl, rfl, rfl, rfl, rfl⟩)
  | transmit a =>
    obtain ⟨t, ht, rfl⟩ := Option.map_eq_some_iff.mp hstep
    obtain ⟨s', hs', hsame⟩ := sameSending_writeStep grow h ht
    exact ⟨s', by rw [SocketAction.sending, (writeSystem grow).run_cons_of_step [] hs']; rfl, hsame⟩

/-- `Open`, as a run of the sending side. -/
lemma sameSending_openSocket : ∃ s,
    (writeSystem grow).run Socket.fresh (D.sendVersionCheck.map .write) = some s ∧
      SameSending s (Socket.openSocket grow D) := by
  obtain ⟨s, hrun, hsame⟩ := (SameSending.refl Socket.fresh).calls grow
    (D.sendVersionCheck.map .write)
  refine ⟨s, ?_, hsame.startAsyncRead⟩
  have himage : (D.sendVersionCheck.map Call.write).flatMap Call.sending =
      D.sendVersionCheck.map .write := by
    rw [List.flatMap_map]
    exact List.flatMap_pure_eq_map _ _
  rwa [himage] at hrun

/-- A run of the whole socket from `Open` on, as a run of the sending side from the start. -/
lemma run_sendingRun {d : δ} {as : List SocketAction} {st : δ × Socket}
    (h : (socketSystem grow D).run (d, Socket.openSocket grow D) as = some st) : ∃ s,
    (writeSystem grow).run Socket.fresh (sendingRun grow D d as) = some s ∧
      SameSending s st.2 := by
  obtain ⟨s₀, hfirst, h₀⟩ := sameSending_openSocket grow D
  obtain ⟨s, hrest, hsame⟩ := (socketSystem grow D).run_simulates_run (writeSystem grow)
    (R := fun st s => SameSending s st.2)
    (fun st a st' s hs hstep => sameSending_step grow D hs hstep) h h₀
  exact ⟨s, by rw [sendingRun, (writeSystem grow).run_append _ hfirst, hrest], hsame⟩

/-- The write state of an open socket, after a run from `Open` on. -/
lemma coherent_of_run {d : δ} {as : List SocketAction} {st : δ × Socket}
    (h : (socketSystem grow D).run (d, Socket.openSocket grow D) as = some st)
    (hopen : st.2.isOpen = true) : Coherent st.2 := by
  obtain ⟨s, hrun, hsame⟩ := run_sendingRun grow D h
  exact hsame.coherent ((writeSystem grow).run_invariant
    (I := fun s => s.isOpen = true → Coherent s) (coherent_step grow) hrun
    (fun _ => coherent_fresh) (hsame.isOpen.trans hopen))

/-- The bytes written in a run from `Open` on are those accepted and those in the out-buffer. -/
lemma output_of_run {d : δ} {as : List SocketAction} {st : δ × Socket}
    (h : (socketSystem grow D).run (d, Socket.openSocket grow D) as = some st)
    (hkeep : (writeSystem grow).Along KeepsBlock Socket.fresh (sendingRun grow D d as))
    (hopen : st.2.isOpen = true) :
    st.2.accepted ++ st.2.outBuffer.buffer.data.take st.2.outBuffer.writePosition =
      (sendingRun grow D d as).flatMap WriteAction.written := by
  obtain ⟨s, hrun, hsame⟩ := run_sendingRun grow D h
  obtain ⟨c, href, hpushed⟩ := outRefines_of_run grow hrun hkeep (hsame.isOpen.trans hopen)
  rw [← hsame.accepted, ← hsame.outBuffer, href.accepted, href.queue, c.law, hpushed]

/-- A run of one sending side is a run of any other that is the same. -/
lemma sameSending_writeRun {s t t' : Socket} {bs : List WriteAction} (h : SameSending s t)
    (hrun : (writeSystem grow).run t bs = some t') :
    ∃ s', (writeSystem grow).run s bs = some s' ∧ SameSending s' t' := by
  induction bs generalizing s t with
  | nil =>
    obtain rfl : t = t' := by simpa using hrun
    exact ⟨s, rfl, h⟩
  | cons b bs ih =>
    obtain ⟨t₁, hstep, hrest⟩ := ((writeSystem grow).run_cons_eq_some).mp hrun
    obtain ⟨s₁, hstep', hsame⟩ := sameSending_writeStep grow h hstep
    obtain ⟨s', hrun', hsame'⟩ := ih hsame hrest
    exact ⟨s', ((writeSystem grow).run_cons_of_step bs hstep').trans hrun', hsame'⟩

/-- What delivers to one sending side delivers to any other that is the same. -/
lemma delivers_congr {s t : Socket} {bs : List WriteAction} (h : SameSending s t)
    (hdelivers : (writeSystem grow).Along Delivers t bs) :
    (writeSystem grow).Along Delivers s bs := by
  induction bs generalizing s t with
  | nil => trivial
  | cons b bs ih =>
    refine ⟨?_, fun s₁ hstep => ?_⟩
    · have hfirst := hdelivers.1
      cases b with
      | writeComplete length stale =>
        show ∀ op ∈ s.writes, _
        rwa [h.writes]
      | _ => exact hfirst
    · obtain ⟨t₁, hstep', hsame⟩ := sameSending_writeStep grow h.symm hstep
      exact ih hsame.symm (hdelivers.2 t₁ hstep')

/-- **The output stream of the whole socket.** For every derived class and every run of a socket
that was opened: its sending side has made the run in which the calls of the derived class stand in
the place of each `OnRead`. So while the socket is open its write state says what is outstanding;
and if no `Write` made while a write is outstanding outgrows the capacity of the vector, be it made
by the derived class or by a thread, the bytes the transport has accepted, followed by those in the
out-buffer, are those written by anybody, in order.

**Proof sketch.** Each step of the whole socket is a run of its sending side (`run_sendingRun`),
and the runs of the sending side refine a channel (`outRefines_of_run`). -/
theorem whole_output_integrity (d : δ) (as : List SocketAction) (st : δ × Socket)
    (h : (socketSystem grow D).run (d, Socket.openSocket grow D) as = some st) :
    (∃ s, (writeSystem grow).run Socket.fresh (sendingRun grow D d as) = some s ∧
      SameSending s st.2) ∧
    (st.2.isOpen = true → Coherent st.2) ∧
    ((writeSystem grow).Along KeepsBlock Socket.fresh (sendingRun grow D d as) →
      st.2.isOpen = true →
      st.2.accepted ++ st.2.outBuffer.buffer.data.take st.2.outBuffer.writePosition =
        (sendingRun grow D d as).flatMap WriteAction.written) :=
  ⟨run_sendingRun grow D h, coherent_of_run grow D h,
    fun hkeep hopen => output_of_run grow D h hkeep hopen⟩

/-- A step of the receiving side is one of the system of reads. -/
lemma socketSystem_receive (st : δ × Socket) (a : ReadAction) :
    (socketSystem grow D).step st (.receive a) = (readSystem grow D).step st a := rfl

/-- A first completion that is handed to a class that returns true and does not close the socket. -/
lemma exists_first_step (d : δ) (bytes : List UInt8) (hle : bytes.length ≤ 4096)
    (hresult : (D.processIncomingData d
      ((Socket.openSocket grow D).arrived bytes)).result = true)
    (hcalls : .closeSocket ∉ (D.processIncomingData d
      ((Socket.openSocket grow D).arrived bytes)).calls) :
    ∃ st, (socketSystem grow D).run (d, Socket.openSocket grow D)
        [.receive (.complete bytes 0)] = some st ∧ st.2.isOpen = true ∧
      sendingRun grow D d [.receive (.complete bytes 0)] = D.sendVersionCheck.map .write ++
        (D.processIncomingData d ((Socket.openSocket grow D).arrived bytes)).sending := by
  have hfresh := Socket.openSocket_isOpen grow D
  have hrun := run_complete grow D d bytes 0 (Reading.openSocket grow D) hfresh
    (by simpa using hle) []
  rw [if_neg fun h => absurd h.1 (lt_irrefl 0), Transition.run_nil] at hrun
  obtain ⟨st, hstep, hlast⟩ := (Transition.run_cons_eq_some _).mp hrun
  obtain rfl := Option.some.inj hlast
  have hstep' : (socketSystem grow D).step (d, Socket.openSocket grow D)
      (.receive (.complete bytes 0)) = _ := hstep
  refine ⟨_, (socketSystem grow D).run_cons_of_step [] hstep', ?_, ?_⟩
  · rw [Socket.process, if_pos hresult]
    exact (Socket.startAsyncRead_isOpen _).trans
      ((Socket.calls_isOpen _ _ _).mpr ⟨hfresh, hcalls⟩)
  · have hstored : ((Socket.openSocket grow D).stored bytes).advance bytes.length =
        (Socket.openSocket grow D).arrived bytes := by
      have hreads : (Socket.openSocket grow D).reads.tail = [] := by
        rw [(Reading.openSocket grow D).opened hfresh, List.tail_cons]
      rw [Socket.stored, hreads]
      rfl
    rw [sendingRun, Transition.trace_cons_of_step _ [] hstep', SocketAction.sending]
    dsimp only
    rw [if_pos ⟨hfresh, fun h => absurd h.1 (lt_irrefl 0)⟩, hstored]
    exact congrArg _ (List.append_nil _)

/-- The class that answers whatever it receives with one byte. -/
def Derived.answer : Derived Unit where
  processIncomingData _ s := ⟨[.readSkip s.readLengthRemaining, .write [74]], true, .other, ()⟩
  sendVersionCheck := [[1]]

/-- The version, and the answer to one byte that arrives, wait in the order they were written. -/
theorem whole_output_integrity_answer : ∃ st,
    (socketSystem (fun _ n => n) .answer).run ((), Socket.openSocket (fun _ n => n) .answer)
      [.receive (.complete [7] 0)] = some st ∧
      st.2.accepted ++ st.2.outBuffer.buffer.data.take st.2.outBuffer.writePosition = [1, 74] := by
  obtain ⟨st, hrun, hopen, hsending⟩ := exists_first_step (fun _ n => n) Derived.answer () [7]
    (by decide) rfl (by simp [Derived.answer])
  have hkeep : (writeSystem fun _ n => n).Along KeepsBlock Socket.fresh
      [.write [1], .write [74]] := by
    refine ⟨fun hne => absurd rfl hne, fun s hs => ⟨fun hne => absurd ?_ hne, fun _ _ => trivial⟩⟩
    obtain rfl := Option.some.inj hs
    exact Socket.write_writes (fun _ n => n) Socket.fresh [1]
  have h := (whole_output_integrity (fun _ n => n) Derived.answer () _ st hrun).2.2
  rw [hsending] at h
  exact ⟨st, hrun, h hkeep hopen⟩

end SteerStone
