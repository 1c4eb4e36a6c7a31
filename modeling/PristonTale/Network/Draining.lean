import PristonTale.Network.SocketWrite

set_option relaxedAutoImplicit false
set_option autoImplicit false

/-!
# Draining the out-buffer

What `Write` puts into the out-buffer leaves it without any further call: the flush timer submits
it, and each completion submits what is left. So once the threads stop writing, the handlers that
are outstanding are all that is needed, there is always one until the buffer is empty, and they run
a bounded number of times.

## Main definitions

* `SteerStone.Delivers` — a handler runs, and the transport takes a byte at least if it was given
  one.
* `SteerStone.Socket.backlog` — how many handlers can still run.

## Main results

* `SteerStone.backlog_step`, `SteerStone.exists_delivers` — a handler lowers the backlog, and one
  can run until the socket is idle.
* `SteerStone.outRefines_of_run` — a run refines a channel into which the written bytes are pushed.
* `SteerStone.draining` — the out-buffer drains.
-/

namespace SteerStone

open Foundations

variable (grow : ℕ → ℕ → ℕ)

/-- A handler of the sending side runs and succeeds: a wait of the timer ends, or the outstanding
write completes, with one byte at least if it was given any. -/
def Delivers (s : Socket) : WriteAction → Prop
  | .flushTimer => True
  | .writeComplete length _ => ∀ op ∈ s.writes, 0 < op.length → 0 < length
  | _ => False

instance (s : Socket) : DecidablePred (Delivers s)
  | .flushTimer => isTrue trivial
  | .writeComplete _ _ => inferInstanceAs (Decidable (∀ op ∈ s.writes, _))
  | .write _ | .forceFlushOut | .writeFail | .close => isFalse id

/-- A bound on how often handlers that deliver can run: once for each byte that waits, and the
flush timer and the submissions that are given no byte besides. -/
def Socket.backlog (s : Socket) : ℕ :=
  match s.writeState with
  | .idle => 0
  | .buffering => s.outBuffer.writePosition + 3
  | .sending => s.outBuffer.writePosition + if ∃ op ∈ s.writes, op.length = 0 then 2 else 1

namespace Socket

variable {s : Socket}

/-- An idle socket has nothing to do. -/
lemma backlog_idle (h : s.writeState = .idle) : s.backlog = 0 := by
  simp [backlog, h]

/-- A socket that is buffering has its timer to wait for, and its bytes to send. -/
lemma backlog_buffering (h : s.writeState = .buffering) :
    s.backlog = s.outBuffer.writePosition + 3 := by
  simp [backlog, h]

/-- A socket that is sending has its operation to complete, and its bytes to send. -/
lemma backlog_sending {op : WriteOp} (h : s.writeState = .sending) (hw : s.writes = [op]) :
    s.backlog = s.outBuffer.writePosition + if op.length = 0 then 2 else 1 := by
  simp [backlog, h, hw]

/-- The backlog is little more than what waits in the buffer. -/
lemma backlog_le : s.backlog ≤ s.outBuffer.writePosition + 3 := by
  unfold backlog
  split
  · exact Nat.zero_le _
  · exact Nat.le_refl _
  · split_ifs <;> omega

end Socket

/-- The socket is open and what it has outstanding is what its write state says. -/
def OpenCoherent (s : Socket) : Prop := s.isOpen = true ∧ Coherent s

/-- A handler that delivers leaves the socket open. -/
lemma openCoherent_step {s t : Socket} {a : WriteAction} (h : OpenCoherent s)
    (hdelivers : Delivers s a) (hstep : (writeSystem grow).step s a = some t) : OpenCoherent t := by
  have hopen : t.isOpen = true := by
    rcases writeSystem_step_cases grow hstep with ⟨bytes, rfl, -⟩ | ⟨rfl, -⟩ |
      ⟨_, _, rfl, -, rfl⟩ | ⟨_, _, _, _, rfl, -, -, rfl⟩ | ⟨_, _, rfl, -, -⟩ | ⟨rfl, -⟩
    · exact hdelivers.elim
    · exact hdelivers.elim
    · rw [Socket.flushOut_isOpen]
      exact h.1
    · rw [Socket.onWriteComplete_isOpen]
      exact h.1
    · exact hdelivers.elim
    · exact hdelivers.elim
  exact ⟨hopen, coherent_step grow s a t (fun _ => h.2) hstep hopen⟩

/-- **A handler that delivers lowers the backlog.**

**Proof sketch.** The timer turns what waits into a write. A write that was given bytes takes one
of them from the buffer at least; one that was given none is followed by one that is given all, if
any were written in the meantime. -/
lemma backlog_step {s t : Socket} {a : WriteAction} (h : OpenCoherent s)
    (hdelivers : Delivers s a) (hstep : (writeSystem grow).step s a = some t) :
    t.backlog < s.backlog := by
  obtain ⟨hopen, hc⟩ := h
  rcases writeSystem_step_cases grow hstep with ⟨bytes, rfl, -⟩ | ⟨rfl, -⟩ |
    ⟨w, ws, rfl, hw, rfl⟩ | ⟨op, ops, n, stale, rfl, hw, hle, rfl⟩ | ⟨_, _, rfl, -, -⟩ | ⟨rfl, -⟩
  · exact hdelivers.elim
  · exact hdelivers.elim
  · obtain ⟨hs, -, hwrites⟩ := hc.of_waits hw
    have hstate : ({ s with waits := ws }.flushOut : Socket).writeState = .sending := by
      simp [Socket.flushOut, hopen, Socket.asyncWriteSome]
    have hop : ({ s with waits := ws }.flushOut : Socket).writes =
        [⟨s.outBuffer.writePosition, s.outBuffer.buffer.size, s.outBuffer.buffer.block⟩] := by
      simp [Socket.flushOut, hopen, Socket.asyncWriteSome, hwrites]
    rw [Socket.backlog_sending hstate hop, Socket.backlog_buffering hs, Socket.flushOut_outBuffer]
    split_ifs <;> dsimp only <;> omega
  · obtain ⟨hs, hwaits, rfl, hpos⟩ := hc.of_writes hw
    have htaken : 0 < op.length → 0 < n :=
      hdelivers op (by rw [hw]; exact List.mem_singleton_self _)
    set u : Socket := { s with
      writes := []
      accepted := s.accepted ++ s.transmitted op n stale } with hu
    have hbuffer : (u.onWriteComplete n).outBuffer = Socket.compact s.outBuffer n :=
      Socket.onWriteComplete_outBuffer u hopen n
    have hleft : (u.onWriteComplete n).outBuffer.writePosition = s.outBuffer.writePosition - n := by
      rw [hbuffer, Socket.writePosition_compact]
    rw [Socket.backlog_sending hs hw]
    by_cases hrest : 0 < (Socket.compact s.outBuffer n).writePosition
    · have hstate : (u.onWriteComplete n).writeState = .sending := by
        simp [Socket.onWriteComplete, hu, hopen, hrest, Socket.asyncWriteSome, hs]
      have hop : ∃ size block, (u.onWriteComplete n).writes =
          [⟨(Socket.compact s.outBuffer n).writePosition, size, block⟩] := by
        simp [Socket.onWriteComplete, hu, hopen, hrest, Socket.asyncWriteSome]
      obtain ⟨size, block, hop⟩ := hop
      rw [Socket.backlog_sending hstate hop, hleft, if_neg (Nat.ne_of_gt hrest)]
      split_ifs <;> omega
    · have hstate : (u.onWriteComplete n).writeState = .idle := by
        simp [Socket.onWriteComplete, hu, hopen, hrest]
      rw [Socket.backlog_idle hstate]
      split_ifs <;> omega
  · exact hdelivers.elim
  · exact hdelivers.elim

/-- **A handler can run until the socket is idle**, and deliver what it was given.

**Proof sketch.** What is outstanding is what the write state says: the wait of the timer, or the
write, which can complete with all of its bytes. -/
lemma exists_delivers {s : Socket} (h : OpenCoherent s) (hbusy : s.writeState ≠ .idle) :
    ∃ a t, Delivers s a ∧ (writeSystem grow).step s a = some t := by
  cases hs : s.writeState with
  | idle => exact absurd hs hbusy
  | buffering =>
    obtain ⟨w, hw⟩ := List.length_eq_one_iff.mp (h.2.buffering hs).1
    exact ⟨.flushTimer, { s with waits := [] }.flushOut, trivial, by simp only [writeSystem, hw]⟩
  | sending =>
    obtain ⟨-, op, hw, -⟩ := h.2.sending hs
    refine ⟨.writeComplete op.length fun _ => 0, _, ?_, by
      simp only [writeSystem, hw]
      exact if_pos le_rfl⟩
    intro op' hop' hpos
    rw [hw, List.mem_singleton] at hop'
    rwa [hop'] at hpos

/-- A handler that delivers writes nothing into the out-buffer. -/
lemma written_eq_nil_of_delivers {s t : Socket} {as : List WriteAction}
    (h : (writeSystem grow).run s as = some t)
    (hdelivers : (writeSystem grow).Along Delivers s as) :
    as.flatMap WriteAction.written = [] := by
  induction as generalizing s with
  | nil => rfl
  | cons a as ih =>
    obtain ⟨s', hstep, hrest⟩ := ((writeSystem grow).run_cons_eq_some).mp h
    have hnone : a.written = [] := by
      cases a with
      | write bytes => exact hdelivers.1.elim
      | _ => rfl
    rw [List.flatMap_cons, hnone, List.nil_append]
    exact ih hrest (hdelivers.2 s' hstep)

/-- **A run of the sending side refines a channel** into which the bytes written were pushed, if it
keeps the block of each outstanding write. -/
theorem outRefines_of_run {as : List WriteAction} {s : Socket}
    (h : (writeSystem grow).run Socket.fresh as = some s)
    (hkeep : (writeSystem grow).Along KeepsBlock Socket.fresh as) (hopen : s.isOpen = true) :
    ∃ c : Channel UInt8, OutRefines s c ∧ c.pushed = as.flatMap WriteAction.written := by
  have hfresh : OutRefines Socket.fresh .empty :=
    ⟨PacketBuffer.valid_new _, rfl, by simp, rfl, by simp [Socket.fresh]⟩
  obtain ⟨c, hsteps, hR⟩ := (writeSystem grow).run_simulates
    (R := fun s c => s.isOpen = true → Coherent s ∧ OutRefines s c)
    (fun s a t c hR hC => writeSystem_simulates grow s a t c hR hC) h hkeep
    (fun _ => ⟨coherent_fresh, hfresh⟩)
  refine ⟨c, (hR hopen).2, ?_⟩
  simpa using Channel.pushed_of_steps hsteps

/-- Handlers that deliver leave the socket open, and are no more than the bytes that wait, and
three. -/
lemma delivers_run {s t : Socket} {bs : List WriteAction} (h : OpenCoherent s)
    (hrun : (writeSystem grow).run s bs = some t)
    (hdelivers : (writeSystem grow).Along Delivers s bs) :
    OpenCoherent t ∧ bs.length ≤ s.outBuffer.writePosition + 3 := by
  obtain ⟨ht, hle⟩ := (writeSystem grow).run_length_le (I := OpenCoherent) (m := Socket.backlog)
    (fun s a s' hs hd hstep => ⟨openCoherent_step grow hs hd hstep, backlog_step grow hs hd hstep⟩)
    hrun hdelivers h
  have hbacklog := Socket.backlog_le (s := s)
  exact ⟨ht, by omega⟩

/-- What was written stays accepted or in the out-buffer while handlers deliver. -/
lemma output_of_delivers {as bs : List WriteAction} {s t : Socket}
    (h : (writeSystem grow).run Socket.fresh as = some s)
    (hkeep : (writeSystem grow).Along KeepsBlock Socket.fresh as)
    (hrun : (writeSystem grow).run s bs = some t)
    (hdelivers : (writeSystem grow).Along Delivers s bs) (hopen : t.isOpen = true) :
    t.accepted ++ t.outBuffer.buffer.data.take t.outBuffer.writePosition =
      as.flatMap WriteAction.written := by
  have hall : (writeSystem grow).run Socket.fresh (as ++ bs) = some t :=
    ((writeSystem grow).run_append bs h).trans hrun
  have hkeeps : (writeSystem grow).Along KeepsBlock Socket.fresh (as ++ bs) := by
    refine ((writeSystem grow).along_append bs h).mpr ⟨hkeep, hdelivers.imp _ ?_⟩
    intro s a hd
    cases a with
    | write bytes => exact hd.elim
    | _ => trivial
  obtain ⟨c, href, hpushed⟩ := outRefines_of_run grow hall hkeeps hopen
  rw [href.accepted, href.queue, c.law, hpushed, List.flatMap_append,
    written_eq_nil_of_delivers grow hrun hdelivers, List.append_nil]

/-- **The out-buffer drains.** From every state of an open socket that a run reaches, let the
handlers run, and let each write that was given bytes take one of them at least. Then the socket
stays open; there are no more of these handlers than bytes that wait, and three; one of them can run
as long as the socket is not idle; and when it is idle, the transport has accepted all bytes
written, in order, if the run kept the block of each outstanding write.

**Proof sketch.** The backlog is a measure (`backlog_step`) and is not stuck (`exists_delivers`). In
an idle socket the buffer is empty, so everything written has been accepted
(`output_of_delivers`). -/
theorem draining (as : List WriteAction) (s : Socket)
    (h : (writeSystem grow).run Socket.fresh as = some s) (hopen : s.isOpen = true)
    (bs : List WriteAction) (t : Socket) (hrun : (writeSystem grow).run s bs = some t)
    (hdelivers : (writeSystem grow).Along Delivers s bs) :
    t.isOpen = true ∧ bs.length ≤ s.outBuffer.writePosition + 3 ∧
      (t.writeState ≠ .idle → ∃ a t', Delivers t a ∧ (writeSystem grow).step t a = some t') ∧
      (t.writeState = .idle → (writeSystem grow).Along KeepsBlock Socket.fresh as →
        t.accepted = as.flatMap WriteAction.written) := by
  have hs : OpenCoherent s :=
    ⟨hopen, (writeSystem grow).run_invariant (I := fun s => s.isOpen = true → Coherent s)
      (coherent_step grow) h (fun _ => coherent_fresh) hopen⟩
  obtain ⟨ht, hle⟩ := delivers_run grow hs hrun hdelivers
  refine ⟨ht.1, hle, exists_delivers grow ht, fun hidle hkeep => ?_⟩
  have hout := output_of_delivers grow h hkeep hrun hdelivers ht.1
  rwa [(ht.2.idle hidle).2.2, List.take_zero, List.append_nil] at hout

/-- One byte written, submitted and sent: the socket is idle again, and the byte accepted. -/
theorem draining_one_byte : ∃ s t,
    (writeSystem fun _ n => n).run Socket.fresh [.write [74]] = some s ∧
      (writeSystem fun _ n => n).run s [.flushTimer, .writeComplete 1 fun _ => 0] = some t ∧
      t.writeState = .idle ∧ t.accepted = [74] := by
  have hkeep : (writeSystem fun _ n => n).Along KeepsBlock Socket.fresh [.write [74]] :=
    ⟨fun hne => absurd rfl hne, fun _ _ => trivial⟩
  have hdelivers : ∀ s, (writeSystem fun _ n => n).Along Delivers s
      [.flushTimer, .writeComplete 1 fun _ => 0] :=
    fun s => ⟨trivial, fun _ _ => ⟨fun _ _ _ => Nat.one_pos, fun _ _ => trivial⟩⟩
  exact ⟨_, _, rfl, rfl, rfl, (draining (fun _ n => n) [.write [74]] _ rfl rfl
    [.flushTimer, .writeComplete 1 fun _ => 0] _ rfl (hdelivers _)).2.2.2 rfl hkeep⟩

end SteerStone
