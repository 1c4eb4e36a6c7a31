import PristonTale.Network.SendingSide

set_option relaxedAutoImplicit false
set_option autoImplicit false

/-!
# The receiving side of a whole socket

As `PristonTale.Network.SendingSide` does for the sending side: while the socket is open, a run of
the whole socket is the run of its reads alone. What the derived class writes, what other threads
write and when the handlers of the sending side run makes no difference to what it is handed, if it
looks at nothing but what was received.

## Main definitions

* `SteerStone.SameReceiving` — two sockets that differ on the sending side only.
* `SteerStone.Derived.LooksAtInput` — a derived class decides on what was received.
* `SteerStone.receivingRun` — the reads of a run.

## Main results

* `SteerStone.sameReceiving_run` — the reads of a run are a run.
* `SteerStone.whole_input_conservation` — the input stream of the whole socket.
-/

namespace SteerStone

open Foundations

variable {δ : Type} (grow : ℕ → ℕ → ℕ) (D : Derived δ)

/-- Two sockets with the same receiving side. -/
structure SameReceiving (s t : Socket) : Prop where
  /-- Both are open, or both are closed. -/
  isOpen : s.isOpen = t.isOpen
  /-- The in-buffer. -/
  inBuffer : s.inBuffer = t.inBuffer
  /-- The read state. -/
  readState : s.readState = t.readState
  /-- The outstanding reads. -/
  reads : s.reads = t.reads
  /-- What the derived class has consumed. -/
  consumed : s.consumed = t.consumed

/-- `ProcessIncomingData` decides on what was received: the sending side makes no difference. -/
def Derived.LooksAtInput (D : Derived δ) : Prop :=
  ∀ d s t, SameReceiving s t → D.processIncomingData d s = D.processIncomingData d t

/-- A step of the whole socket, on the receiving side. -/
def SocketAction.receiving : SocketAction → List ReadAction
  | .receive a => [a]
  | .transmit _ => []

/-- The reads of a run. -/
def receivingRun (as : List SocketAction) : List ReadAction := as.flatMap SocketAction.receiving

/-! ## One operation -/

namespace SameReceiving

variable {s t : Socket}

/-- A socket has its own receiving side. -/
lemma refl (s : Socket) : SameReceiving s s := ⟨rfl, rfl, rfl, rfl, rfl⟩

/-- `CloseSocket` keeps receiving sides the same. -/
lemma closeSocket (h : SameReceiving s t) : SameReceiving s.closeSocket t.closeSocket :=
  ⟨by rw [Socket.closeSocket_isOpen, Socket.closeSocket_isOpen],
    by rw [Socket.closeSocket_inBuffer, Socket.closeSocket_inBuffer, h.inBuffer],
    by unfold Socket.closeSocket; split_ifs <;> exact h.readState,
    by rw [Socket.closeSocket_reads, Socket.closeSocket_reads, h.reads],
    by rw [Socket.closeSocket_consumed, Socket.closeSocket_consumed, h.consumed]⟩

/-- `StartAsyncRead` keeps receiving sides the same. -/
lemma startAsyncRead (h : SameReceiving s t) :
    SameReceiving s.startAsyncRead t.startAsyncRead := by
  unfold Socket.startAsyncRead
  rw [h.isOpen]
  split_ifs
  · exact ⟨rfl, h.inBuffer, rfl, by simp only [h.reads, h.inBuffer], h.consumed⟩
  · exact ⟨rfl, h.inBuffer, rfl, h.reads, h.consumed⟩

/-- Taking bytes keeps receiving sides the same. -/
lemma consume (h : SameReceiving s t) (length : ℕ) :
    SameReceiving (s.consume length) (t.consume length) :=
  ⟨h.isOpen, by simp only [Socket.consume, h.inBuffer], h.readState, h.reads,
    by simp only [Socket.consume, h.inBuffer, h.consumed]⟩

/-- `Write` is on the sending side. -/
lemma write (s : Socket) (bytes : List UInt8) : SameReceiving (s.write grow bytes) s := by
  refine ⟨Socket.write_isOpen grow s bytes, Socket.write_inBuffer grow s bytes, ?_,
    Socket.write_reads grow s bytes, Socket.write_consumed grow s bytes⟩
  unfold Socket.write Socket.startWriteFlushTimer
  dsimp only
  split_ifs <;> rfl

/-- Having the same receiving side is transitive. -/
lemma trans {u : Socket} (h : SameReceiving s t) (h' : SameReceiving t u) : SameReceiving s u :=
  ⟨h.isOpen.trans h'.isOpen, h.inBuffer.trans h'.inBuffer, h.readState.trans h'.readState,
    h.reads.trans h'.reads, h.consumed.trans h'.consumed⟩

/-- Having the same receiving side is symmetric. -/
lemma symm (h : SameReceiving s t) : SameReceiving t s :=
  ⟨h.isOpen.symm, h.inBuffer.symm, h.readState.symm, h.reads.symm, h.consumed.symm⟩

/-- One call of the derived class. -/
lemma call (h : SameReceiving s t) (c : Call) :
    SameReceiving (s.call grow c) (t.call grow c) := by
  cases c with
  | read n =>
    have hremaining : s.readLengthRemaining = t.readLengthRemaining :=
      congrArg PacketBuffer.readLengthRemaining h.inBuffer
    simp only [Socket.call, Socket.read, hremaining]
    split_ifs
    · exact h
    · exact h.consume n
  | readSkip n => exact h.consume n
  | write bytes => exact (write grow s bytes).trans (h.trans (write grow t bytes).symm)
  | forceFlushOut => exact ⟨h.isOpen, h.inBuffer, h.readState, h.reads, h.consumed⟩
  | closeSocket => exact h.closeSocket

/-- The calls of the derived class. -/
lemma calls (h : SameReceiving s t) (cs : List Call) :
    SameReceiving (s.calls grow cs) (t.calls grow cs) := by
  induction cs generalizing s t with
  | nil => exact h
  | cons c cs ih => exact ih (h.call grow c)

/-- What `OnRead` does with the data it hands over. -/
lemma process (hD : D.LooksAtInput) (h : SameReceiving s t) (d : δ) :
    (s.process grow D d).1 = (t.process grow D d).1 ∧
      SameReceiving (s.process grow D d).2 (t.process grow D d).2 := by
  have hcalls := h.calls grow (D.processIncomingData d t).calls
  unfold Socket.process
  rw [hD d s t h]
  dsimp only
  split_ifs with hresult herrno hs ht ht
  · refine ⟨rfl, startAsyncRead ⟨hcalls.isOpen, ?_, hcalls.readState, hcalls.reads,
      hcalls.consumed⟩⟩
    simp only [Socket.resetRead, hcalls.inBuffer]
  · refine ⟨rfl, startAsyncRead ⟨hcalls.isOpen, ?_, hcalls.readState, hcalls.reads,
      hcalls.consumed⟩⟩
    simp only [Socket.moveRemaining, hcalls.inBuffer]
  · exact ⟨rfl, hcalls.closeSocket⟩
  · exact absurd (hcalls.isOpen.symm.trans hs) ht
  · exact absurd (hcalls.isOpen.trans ht) hs
  · exact ⟨rfl, hcalls⟩

/-- `OnRead`. -/
lemma onRead (hD : D.LooksAtInput) (h : SameReceiving s t) (d : δ) (length available : ℕ) :
    (s.onRead grow D d length available).1 = (t.onRead grow D d length available).1 ∧
      SameReceiving (s.onRead grow D d length available).2
        (t.onRead grow D d length available).2 := by
  have hadvanced : SameReceiving (s.advance length) (t.advance length) :=
    ⟨h.isOpen, by simp only [Socket.advance, h.inBuffer], h.readState, h.reads, h.consumed⟩
  unfold Socket.onRead
  rw [h.isOpen, h.inBuffer]
  split_ifs
  · refine ⟨rfl, startAsyncRead ⟨hadvanced.isOpen, ?_, hadvanced.readState, hadvanced.reads,
      hadvanced.consumed⟩⟩
    simp only [Socket.enlarge, hadvanced.inBuffer]
  · exact hadvanced.process grow D hD d
  · exact ⟨rfl, rfl, rfl, rfl, h.reads, h.consumed⟩

end SameReceiving

/-! ## Steps and runs -/

/-- A read that completes is one on any socket with the same receiving side. -/
lemma sameReceiving_readStep (hD : D.LooksAtInput) {d : δ} {s t : Socket}
    (h : SameReceiving t s) {a : ReadAction} {st : δ × Socket}
    (hstep : (readSystem grow D).step (d, s) a = some st) :
    ∃ t', (readSystem grow D).step (d, t) a = some (st.1, t') ∧ SameReceiving t' st.2 := by
  cases hreads : s.reads with
  | nil => cases a <;> simp [readSystem, hreads] at hstep
  | cons op ops =>
    have hreads' : t.reads = op :: ops := h.reads.trans hreads
    cases a with
    | complete bytes available =>
      simp only [readSystem, hreads] at hstep
      split_ifs at hstep with hfit
      obtain rfl := Option.some.inj hstep
      have hstored : SameReceiving (({ t with reads := ops } : Socket).deliver bytes)
          (({ s with reads := ops } : Socket).deliver bytes) :=
        ⟨h.isOpen, by simp only [Socket.deliver, h.inBuffer], h.readState, rfl, h.consumed⟩
      obtain ⟨hfst, hsame⟩ := hstored.onRead grow D hD d bytes.length available
      refine ⟨_, ?_, hsame⟩
      simp only [readSystem, hreads', if_pos hfit]
      exact congrArg some (Prod.ext hfst rfl)
    | fail =>
      simp only [readSystem, hreads, Option.some.injEq] at hstep
      subst hstep
      refine ⟨{ t with reads := ops }.onReadError, by simp only [readSystem, hreads'], ?_⟩
      rw [Socket.onReadError, Socket.onReadError, Socket.onError_eq, Socket.onError_eq]
      exact SameReceiving.closeSocket ⟨h.isOpen, h.inBuffer, rfl, rfl, h.consumed⟩

/-- A step of the sending side leaves the receiving side, as long as the socket is open. -/
lemma sameReceiving_writeStep {s t : Socket} {a : WriteAction}
    (hstep : (writeSystem grow).step s a = some t) (hopen : t.isOpen = true) :
    SameReceiving s t := by
  rcases writeSystem_step_cases grow hstep with ⟨bytes, rfl, rfl⟩ | ⟨rfl, rfl⟩ |
    ⟨w, ws, rfl, -, rfl⟩ | ⟨op, ops, n, stale, rfl, -, -, rfl⟩ | ⟨op, ops, rfl, -, rfl⟩ |
    ⟨rfl, rfl⟩
  · exact (SameReceiving.write grow s bytes).symm
  · exact ⟨rfl, rfl, rfl, rfl, rfl⟩
  · unfold Socket.flushOut
    split_ifs <;> exact ⟨rfl, rfl, rfl, rfl, rfl⟩
  · unfold Socket.onWriteComplete
    dsimp only
    split_ifs <;> exact ⟨rfl, rfl, rfl, rfl, rfl⟩
  · rw [Socket.onError_eq, Socket.closeSocket_isOpen] at hopen
    exact absurd hopen Bool.false_ne_true
  · rw [Socket.closeSocket_isOpen] at hopen
    exact absurd hopen Bool.false_ne_true

/-- A socket that is open at the end of a run was open at its start. -/
lemma isOpen_of_socket_run {st st' : δ × Socket} {as : List SocketAction}
    (h : (socketSystem grow D).run st as = some st') (hopen : st'.2.isOpen = true) :
    st.2.isOpen = true := by
  by_contra hclosed
  have hend := (socketSystem grow D).run_invariant (I := fun st => st.2.isOpen = false)
    (fun st a st' hst hstep => (staysClosed_step grow D hst hstep).isOpen) h
    (Bool.not_eq_true _ ▸ hclosed)
  exact Bool.false_ne_true (hend.symm.trans hopen)

/-- **The reads of a run are a run**, while the socket is open, with the same receiving side and the
same derived class. -/
theorem sameReceiving_run (hD : D.LooksAtInput) {st st' : δ × Socket} {as : List SocketAction}
    (h : (socketSystem grow D).run st as = some st') (hopen : st'.2.isOpen = true) {t : Socket}
    (ht : SameReceiving t st.2) :
    ∃ t', (readSystem grow D).run (st.1, t) (receivingRun as) = some (st'.1, t') ∧
      SameReceiving t' st'.2 := by
  induction as generalizing st t with
  | nil =>
    obtain rfl : st = st' := by simpa using h
    exact ⟨t, rfl, ht⟩
  | cons a as ih =>
    obtain ⟨st₁, hstep, hrest⟩ := ((socketSystem grow D).run_cons_eq_some).mp h
    cases a with
    | receive a =>
      obtain ⟨t₁, hstep₁, hsame⟩ := sameReceiving_readStep grow D hD ht hstep
      obtain ⟨t', hrun, hsame'⟩ := ih hrest hsame
      exact ⟨t', ((readSystem grow D).run_cons_of_step _ hstep₁).trans hrun, hsame'⟩
    | transmit a =>
      obtain ⟨s₁, hs₁, rfl⟩ := Option.map_eq_some_iff.mp hstep
      have hopen₁ := isOpen_of_socket_run grow D hrest hopen
      exact ih hrest (ht.trans (sameReceiving_writeStep grow hs₁ hopen₁))

/-- **The input stream of the whole socket.** For every derived class that conforms to the protocol
of `ProcessIncomingData` and looks at nothing but what was received, and every run of a socket that
was opened and still is open: the reads alone, without anything of the sending side, are a run that
leads to the same receiving side and the same derived class. The bytes the derived class has
consumed, followed by those that wait in the in-buffer, are the bytes received, in order, and one
read is outstanding.

**Proof sketch.** A step of the sending side does not touch the receiving side unless it closes the
socket (`sameReceiving_writeStep`), and `OnRead` does the same on two sockets with the same
receiving side (`SameReceiving.onRead`). The run of the reads refines a channel
(`readSystem_refines`). -/
theorem whole_input_conservation (hconforms : D.Conforms) (hD : D.LooksAtInput) (d : δ)
    (as : List SocketAction) (st : δ × Socket)
    (h : (socketSystem grow D).run (d, Socket.openSocket grow D) as = some st)
    (hopen : st.2.isOpen = true) :
    (∃ t, (readSystem grow D).run (d, Socket.openSocket grow D) (receivingRun as) =
      some (st.1, t) ∧ SameReceiving t st.2) ∧
    st.2.consumed ++ st.2.inBuffer.pending = (receivingRun as).flatMap ReadAction.bytes ∧
    st.2.reads.length = 1 := by
  obtain ⟨t, hrun, hsame⟩ := sameReceiving_run grow D hD h hopen
    (SameReceiving.refl (Socket.openSocket grow D))
  obtain ⟨c, hpushed, href, hreading⟩ := readSystem_refines grow D hconforms hrun
  refine ⟨⟨t, hrun, hsame⟩, ?_, ?_⟩
  · rw [← hsame.consumed, ← hsame.inBuffer, href.consumed, href.pending, c.law, hpushed]
  · rw [← hsame.reads, hreading.opened (hsame.isOpen.trans hopen)]
    rfl

/-- A class that waits for bytes decides on how many there are. -/
lemma Derived.awaits_looksAtInput (n : ℕ) : (Derived.awaits n).LooksAtInput := by
  intro d s t h
  have hremaining : s.readLengthRemaining = t.readLengthRemaining :=
    congrArg PacketBuffer.readLengthRemaining h.inBuffer
  simp only [Derived.awaits, hremaining]

/-- Bytes arrive at a class that waits for three of them, while a byte that another thread writes is
sent. -/
def receiveWhileSending : List SocketAction :=
  [.receive (.complete [1, 2] 0), .transmit (.write [9]), .transmit .flushTimer,
    .receive (.complete [3, 4] 0), .transmit (.writeComplete 1 fun _ => 0),
    .receive (.complete [5] 0)]

/-- The byte is sent, and those that arrive are conserved. -/
theorem whole_input_conservation_awaits : ∃ st,
    (socketSystem (fun _ n => n) (.awaits 3)).run ((), Socket.openSocket (fun _ n => n) (.awaits 3))
      receiveWhileSending = some st ∧
    st.2.accepted = [9] ∧ st.2.consumed = [1, 2, 3, 4] ∧
    st.2.consumed ++ st.2.inBuffer.pending = [1, 2, 3, 4, 5] := by
  obtain ⟨st, hrun, hopen, haccepted, hconsumed⟩ :=
    (socketSystem (fun _ n => n) (.awaits 3)).exists_run_of_any
      (fun st => st.2.isOpen = true ∧ st.2.accepted = [9] ∧ st.2.consumed = [1, 2, 3, 4])
      ((), Socket.openSocket (fun _ n => n) (.awaits 3)) receiveWhileSending (by decide +kernel)
  exact ⟨st, hrun, haccepted, hconsumed, (whole_input_conservation (fun _ n => n) (.awaits 3)
    (Derived.awaits_conforms 3) (Derived.awaits_looksAtInput 3) () _ st hrun hopen).2.1⟩

end SteerStone
