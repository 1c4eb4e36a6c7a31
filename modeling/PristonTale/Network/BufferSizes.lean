import PristonTale.Network.Connections

set_option relaxedAutoImplicit false
set_option autoImplicit false

/-!
# The memory of a socket

Neither of the two vectors of a socket is ever made smaller (`Shared/Network/Socket.cpp`,
`Shared/Network/PacketBuffer.cpp`). `Write` enlarges that of the out-buffer to what it has to hold,
and the other functions leave it as it is, so its size is decided by the history. `OnRead` enlarges
that of the in-buffer by what waits in the socket, whenever this and what has just been read are
more than all of it; so it stops to grow once it is as large as the two can be.

## Main definitions

* `SteerStone.PacketBuffer.Grows` — bytes were added to an out-buffer.
* `SteerStone.Roomy` — the outstanding read has the room that is left in the in-buffer.
* `SteerStone.SocketAction.BringsWithin` — how much a completion brings and leaves behind.

## Main results

* `SteerStone.buffer_sizes` — the sizes of the two vectors after any run.
-/

namespace SteerStone

open Foundations

variable {δ : Type} (grow : ℕ → ℕ → ℕ) (D : Derived δ)

/-! ## The out-buffer -/

namespace PacketBuffer

/-- An out-buffer: it is valid, and nobody has read from it. -/
structure Unread (b : PacketBuffer) : Prop where
  /-- It is valid. -/
  valid : b.Valid
  /-- Its read position is at the start. -/
  readPosition : b.readPosition = 0

/-- Bytes were added to `b`, if any, and its vector is as large as they need. -/
structure Grows (b b' : PacketBuffer) : Prop where
  /-- It still is an out-buffer. -/
  unread : b'.Unread
  /-- No bytes were taken out. -/
  le : b.writePosition ≤ b'.writePosition
  /-- The vector has become as large as needed. -/
  size : b'.buffer.size = max b.buffer.size b'.writePosition

variable {b b' b'' : PacketBuffer}

/-- No bytes were added. -/
lemma Unread.grows (h : b.Unread) : b.Grows b :=
  ⟨h, le_rfl, (Nat.max_eq_left h.valid.write_le).symm⟩

/-- `Write` adds its bytes. -/
lemma Unread.grows_write (h : b.Unread) (bytes : List UInt8) : b.Grows (b.write grow bytes) :=
  ⟨⟨h.valid.write grow bytes, h.readPosition⟩, Nat.le_add_right _ _, size_write grow b bytes⟩

/-- Bytes added after others. -/
lemma Grows.trans (h : b.Grows b') (h' : b'.Grows b'') : b.Grows b'' := by
  refine ⟨h'.unread, Nat.le_trans h.le h'.le, ?_⟩
  rw [h'.size, h.size, Nat.max_assoc, Nat.max_eq_right h'.le]

end PacketBuffer

/-- A call of the derived class adds bytes if it is `Write`. -/
lemma Socket.grows_call {s : Socket} (h : s.outBuffer.Unread) (c : Call) :
    s.outBuffer.Grows (s.call grow c).outBuffer := by
  cases c with
  | read n =>
    have hsame : (s.call grow (.read n)).outBuffer = s.outBuffer := by
      simp only [Socket.call, Socket.read, Socket.consume]
      split_ifs <;> rfl
    rw [hsame]
    exact h.grows
  | readSkip n => exact h.grows
  | write bytes =>
    rw [Socket.call, Socket.write_outBuffer]
    exact h.grows_write grow bytes
  | forceFlushOut => exact h.grows
  | closeSocket =>
    rw [Socket.call, Socket.closeSocket_outBuffer]
    exact h.grows

/-- The calls of the derived class add bytes. -/
lemma Socket.grows_calls {s : Socket} (h : s.outBuffer.Unread) (cs : List Call) :
    s.outBuffer.Grows (s.calls grow cs).outBuffer := by
  induction cs generalizing s with
  | nil => exact h.grows
  | cons c cs ih =>
    rw [Socket.calls_cons]
    have hfirst := Socket.grows_call grow h c
    exact hfirst.trans (ih hfirst.unread)

/-- `StartAsyncRead` leaves the out-buffer alone. -/
lemma Socket.startAsyncRead_outBuffer (s : Socket) : s.startAsyncRead.outBuffer = s.outBuffer := by
  unfold Socket.startAsyncRead
  split_ifs <;> rfl

/-- `OnRead` adds what the derived class writes. -/
lemma Socket.grows_onRead {s : Socket} (h : s.outBuffer.Unread) (d : δ) (length available : ℕ) :
    s.outBuffer.Grows (s.onRead grow D d length available).2.outBuffer := by
  unfold Socket.onRead
  split_ifs with hopen hgrows
  · rw [Socket.startAsyncRead_outBuffer]
    exact h.grows
  · have hcalls := Socket.grows_calls (s := s.advance length) grow h
      (D.processIncomingData d (s.advance length)).calls
    unfold Socket.process
    dsimp only
    split_ifs
    · rw [Socket.startAsyncRead_outBuffer]
      exact hcalls
    · rw [Socket.startAsyncRead_outBuffer]
      exact hcalls
    · rw [Socket.closeSocket_outBuffer]
      exact hcalls
    · exact hcalls
  · exact h.grows

/-- `Open` adds what `SendVersionCheck` writes. -/
lemma Socket.grows_openSocket :
    (PacketBuffer.new storageInitialSize).Grows (Socket.openSocket grow D).outBuffer := by
  rw [Socket.openSocket, Socket.startAsyncRead_outBuffer]
  exact Socket.grows_calls (s := Socket.fresh) grow ⟨PacketBuffer.valid_new _, rfl⟩ _

/-- `OnWriteComplete` takes bytes out and leaves the vector as large as it is. -/
lemma Socket.size_onWriteComplete {s : Socket} (h : s.outBuffer.Unread) (n : ℕ) :
    (s.onWriteComplete n).outBuffer.Unread ∧ (s.onWriteComplete n).outBuffer.buffer.size =
      max s.outBuffer.buffer.size (s.onWriteComplete n).outBuffer.writePosition := by
  cases hopen : s.isOpen with
  | true =>
    rw [Socket.onWriteComplete_outBuffer s hopen]
    obtain ⟨hvalid, hread⟩ := Socket.valid_compact h.valid h.readPosition n
    have hle := hvalid.write_le
    rw [Socket.size_compact h.valid] at hle ⊢
    exact ⟨⟨hvalid, hread⟩, (Nat.max_eq_left hle).symm⟩
  | false =>
    have hsame : (s.onWriteComplete n).outBuffer = s.outBuffer := by
      unfold Socket.onWriteComplete
      rw [if_neg (by simp [hopen])]
    rw [hsame]
    exact ⟨h, h.grows.size⟩

/-- **One step and the out-buffer**: its vector has become as large as the bytes in it need, and no
smaller. -/
lemma size_outBuffer_step {st st' : δ × Socket} {a : SocketAction} (h : st.2.outBuffer.Unread)
    (hstep : (socketSystem grow D).step st a = some st') :
    st'.2.outBuffer.Unread ∧ st'.2.outBuffer.buffer.size =
      max st.2.outBuffer.buffer.size st'.2.outBuffer.writePosition := by
  cases a with
  | receive a =>
    rcases readSystem_step_any grow D hstep with ⟨bytes, available, rfl, rfl⟩ | ⟨rfl, rfl⟩
    · have hgrows := Socket.grows_onRead
        (s := ({ st.2 with reads := st.2.reads.tail } : Socket).deliver bytes) grow D h st.1
        bytes.length available
      exact ⟨hgrows.unread, hgrows.size⟩
    · rw [Socket.onReadError, Socket.onError_eq, Socket.closeSocket_outBuffer]
      exact ⟨h, h.grows.size⟩
  | transmit a =>
    obtain ⟨t, ht, rfl⟩ := Option.map_eq_some_iff.mp hstep
    rcases writeSystem_step_cases grow ht with ⟨bytes, rfl, rfl⟩ | ⟨rfl, rfl⟩ |
      ⟨w, ws, rfl, -, rfl⟩ | ⟨op, ops, n, stale, rfl, -, -, rfl⟩ | ⟨op, ops, rfl, -, rfl⟩ |
      ⟨rfl, rfl⟩
    · rw [Socket.write_outBuffer]
      exact ⟨(h.grows_write grow bytes).unread, (h.grows_write grow bytes).size⟩
    · exact ⟨h, h.grows.size⟩
    · rw [Socket.flushOut_outBuffer]
      exact ⟨h, h.grows.size⟩
    · exact Socket.size_onWriteComplete (s := { st.2 with
        writes := ops
        accepted := st.2.accepted ++ st.2.transmitted op n stale }) h n
    · rw [Socket.onError_eq, Socket.closeSocket_outBuffer]
      exact ⟨h, h.grows.size⟩
    · rw [Socket.closeSocket_outBuffer]
      exact ⟨h, h.grows.size⟩

/-! ## The in-buffer -/

/-- **Room**: the write position is inside the in-buffer, one read is outstanding at most, and it
has the room behind that position. -/
structure Roomy (s : Socket) : Prop where
  /-- The write position is inside. -/
  write_le : s.inBuffer.writePosition ≤ s.inBuffer.buffer.size
  /-- One read is outstanding at most. -/
  single : s.reads.length ≤ 1
  /-- It has the room that is left. -/
  room : ∀ op ∈ s.reads, op.length = s.inBuffer.buffer.size - s.inBuffer.writePosition

/-- Without an outstanding read. -/
lemma Roomy.of_reads {s : Socket} (hreads : s.reads = [])
    (hle : s.inBuffer.writePosition ≤ s.inBuffer.buffer.size) : Roomy s :=
  ⟨hle, by rw [hreads]; exact Nat.zero_le 1, by rw [hreads]; nofun⟩

/-- `StartAsyncRead` starts a read with the room that is left. -/
lemma Roomy.startAsyncRead {s : Socket} (hreads : s.reads = [])
    (hle : s.inBuffer.writePosition ≤ s.inBuffer.buffer.size) : Roomy s.startAsyncRead := by
  unfold Socket.startAsyncRead
  split_ifs
  · refine ⟨hle, ?_, fun op hop => ?_⟩
    · rw [hreads]
      exact le_rfl
    · rw [hreads] at hop
      obtain rfl := List.mem_singleton.mp hop
      rfl
  · exact .of_reads hreads hle

/-- No call of the derived class moves the write position of the in-buffer. -/
lemma Socket.calls_writePosition (s : Socket) (cs : List Call) :
    (s.calls grow cs).inBuffer.writePosition = s.inBuffer.writePosition := by
  induction cs generalizing s with
  | nil => rfl
  | cons c cs ih =>
    rw [Socket.calls_cons, ih]
    cases c with
    | read n =>
      simp only [Socket.call, Socket.read, Socket.consume]
      split_ifs <;> rfl
    | readSkip n => rfl
    | write bytes => rw [Socket.call, Socket.write_inBuffer]
    | forceFlushOut => rfl
    | closeSocket => rw [Socket.call, Socket.closeSocket_inBuffer]

/-- Moving the bytes not yet read to the start keeps the size. -/
lemma Socket.moveRemaining_room {s : Socket}
    (hle : s.inBuffer.writePosition ≤ s.inBuffer.buffer.size) :
    s.moveRemaining.inBuffer.writePosition ≤ s.moveRemaining.inBuffer.buffer.size ∧
      s.moveRemaining.inBuffer.buffer.size = s.inBuffer.buffer.size := by
  have hsize : s.moveRemaining.inBuffer.buffer.size = s.inBuffer.buffer.size := by
    refine StdVector.size_copyIn _ ?_
    simp only [PacketBuffer.pending, List.length_drop, List.length_take]
    unfold StdVector.size at hle ⊢
    omega
  refine ⟨?_, hsize⟩
  rw [hsize]
  exact Nat.le_trans (Nat.sub_le _ _) hle

/-- Handing data to the derived class keeps the size of the in-buffer. -/
lemma Socket.process_room {s : Socket} (hreads : s.reads = [])
    (hle : s.inBuffer.writePosition ≤ s.inBuffer.buffer.size) (d : δ) :
    Roomy (Socket.process grow D d s).2 ∧
      (Socket.process grow D d s).2.inBuffer.buffer.size = s.inBuffer.buffer.size := by
  have hbuffer := Socket.calls_buffer grow s (D.processIncomingData d s).calls
  have hposition := Socket.calls_writePosition grow s (D.processIncomingData d s).calls
  have hnone : (s.calls grow (D.processIncomingData d s).calls).reads = [] := by
    rw [Socket.calls_reads, hreads]
  have hle' : (s.calls grow (D.processIncomingData d s).calls).inBuffer.writePosition ≤
      (s.calls grow (D.processIncomingData d s).calls).inBuffer.buffer.size := by
    rwa [hbuffer, hposition]
  unfold Socket.process
  dsimp only
  split_ifs
  · rw [Socket.startAsyncRead_inBuffer]
    exact ⟨.startAsyncRead hnone (Nat.zero_le _), congrArg StdVector.size hbuffer⟩
  · obtain ⟨hroom, hsize⟩ := Socket.moveRemaining_room hle'
    rw [Socket.startAsyncRead_inBuffer]
    exact ⟨.startAsyncRead hnone hroom, hsize.trans (congrArg StdVector.size hbuffer)⟩
  · refine ⟨.of_reads ?_ ?_, ?_⟩
    · rw [Socket.closeSocket_reads, hnone]
    · rwa [Socket.closeSocket_inBuffer]
    · rw [Socket.closeSocket_inBuffer, hbuffer]
  · exact ⟨.of_reads hnone hle', congrArg StdVector.size hbuffer⟩

/-- `OnRead` keeps the size of the in-buffer, or adds what waits in the socket. -/
lemma Socket.onRead_room {s : Socket} (hreads : s.reads = []) {length : ℕ}
    (hfit : s.inBuffer.writePosition + length ≤ s.inBuffer.buffer.size) (d : δ) (available : ℕ) :
    Roomy (s.onRead grow D d length available).2 ∧
      ((s.onRead grow D d length available).2.inBuffer.buffer.size = s.inBuffer.buffer.size ∨
        s.inBuffer.buffer.size < length + available ∧
          (s.onRead grow D d length available).2.inBuffer.buffer.size =
            s.inBuffer.buffer.size + available) := by
  unfold Socket.onRead
  split_ifs with hopen hgrows
  · have hsize : ((s.advance length).enlarge grow available).inBuffer.buffer.size =
        s.inBuffer.buffer.size + available := by
      simp only [Socket.enlarge, StdVector.size_resize, Socket.advance]
    rw [Socket.startAsyncRead_inBuffer]
    refine ⟨.startAsyncRead hreads ?_, .inr ⟨hgrows.2, hsize⟩⟩
    rw [hsize]
    exact Nat.le_trans hfit (Nat.le_add_right _ _)
  · obtain ⟨hroomy, hsize⟩ := Socket.process_room (s := s.advance length) grow D hreads hfit d
    exact ⟨hroomy, .inl hsize⟩
  · refine ⟨.of_reads hreads ?_, .inl rfl⟩
    dsimp only
    omega

/-- A completion brings no more than `r` bytes, with those it leaves waiting in the socket. -/
def SocketAction.BringsWithin (r : ℕ) : SocketAction → Prop
  | .receive (.complete bytes available) => bytes.length + available ≤ r
  | _ => True

/-- No step of the sending side touches the in-buffer. -/
lemma writeSystem_inBuffer {s t : Socket} {a : WriteAction}
    (hstep : (writeSystem grow).step s a = some t) : t.inBuffer = s.inBuffer := by
  rcases writeSystem_step_cases grow hstep with ⟨bytes, rfl, rfl⟩ | ⟨rfl, rfl⟩ |
    ⟨w, ws, rfl, -, rfl⟩ | ⟨op, ops, n, stale, rfl, -, -, rfl⟩ | ⟨op, ops, rfl, -, rfl⟩ | ⟨rfl, rfl⟩
  · exact Socket.write_inBuffer grow s bytes
  · rfl
  · unfold Socket.flushOut; split_ifs <;> rfl
  · unfold Socket.onWriteComplete; dsimp only; split_ifs <;> rfl
  · rw [Socket.onError_eq, Socket.closeSocket_inBuffer]
  · exact Socket.closeSocket_inBuffer s

/-- **One step and the in-buffer**: its size stays, or a completion adds what it leaves waiting in
the socket, which with what it brings is more than the size.

**Proof sketch.** The bytes of a completion fit into the room of the only outstanding read, so
storing them leaves the size, and `OnRead` enlarges the vector or does not (`Socket.onRead_room`).
The other steps do not touch the in-buffer. -/
lemma size_inBuffer_step {st st' : δ × Socket} {a : SocketAction} (h : Roomy st.2)
    (hstep : (socketSystem grow D).step st a = some st') :
    Roomy st'.2 ∧ (st'.2.inBuffer.buffer.size = st.2.inBuffer.buffer.size ∨
      ∃ bytes available, a = .receive (.complete bytes available) ∧
        st.2.inBuffer.buffer.size < bytes.length + available ∧
        st'.2.inBuffer.buffer.size = st.2.inBuffer.buffer.size + available) := by
  cases a with
  | receive a =>
    obtain ⟨d, s⟩ := st
    cases hreads : s.reads with
    | nil => cases a <;> simp [socketSystem, readSystem, hreads] at hstep
    | cons op ops =>
      have hroom := h.room op (by rw [hreads]; exact List.mem_cons_self)
      have hops : ops = [] := by
        have hle := h.single
        rw [hreads, List.length_cons] at hle
        exact List.length_eq_zero_iff.mp (by omega)
      have hwrite := h.write_le
      dsimp only at hroom hwrite
      cases a with
      | complete bytes available =>
        simp only [socketSystem, readSystem, hreads] at hstep
        split_ifs at hstep with hle
        obtain rfl := Option.some.inj hstep
        have hfit : s.inBuffer.writePosition + bytes.length ≤ s.inBuffer.buffer.size := by omega
        have hsize : (({ s with reads := ops } : Socket).deliver bytes).inBuffer.buffer.size =
            s.inBuffer.buffer.size := StdVector.size_copyIn _ hfit
        obtain ⟨hroomy, hsizes⟩ := Socket.onRead_room
          (s := ({ s with reads := ops } : Socket).deliver bytes) grow D hops
          (by rw [hsize]; exact hfit) d available
        rw [hsize] at hsizes
        rcases hsizes with hsame | ⟨hlt, hsame⟩
        · exact ⟨hroomy, .inl hsame⟩
        · exact ⟨hroomy, .inr ⟨bytes, available, rfl, hlt, hsame⟩⟩
      | fail =>
        simp only [socketSystem, readSystem, hreads] at hstep
        obtain rfl := Option.some.inj hstep
        rw [Socket.onReadError, Socket.onError_eq]
        refine ⟨.of_reads ?_ ?_, .inl ?_⟩
        · rw [Socket.closeSocket_reads]
          exact hops
        · rwa [Socket.closeSocket_inBuffer]
        · rw [Socket.closeSocket_inBuffer]
  | transmit a =>
    obtain ⟨t, ht, rfl⟩ := Option.map_eq_some_iff.mp hstep
    have hsame := writeSystem_inBuffer grow ht
    have hreads := writeSystem_reads grow ht
    refine ⟨⟨?_, ?_, ?_⟩, .inl ?_⟩
    · rw [hsame]
      exact h.write_le
    · rw [hreads]
      exact h.single
    · rw [hreads, hsame]
      exact h.room
    · rw [hsame]

/-! ## Runs -/

/-- **The memory of a socket.** For every derived class and every run of a socket that was opened,
also when other threads go on writing to it after it has been closed:

* the vector of the out-buffer is as large as at first, or as the largest number of bytes that ever
  waited to be sent at one time if that is more;
* that of the in-buffer has never become smaller, and if no completion brings more than `r` bytes
  with those it leaves waiting in the socket, it is no larger than at first, or less than twice `r`.

**Proof sketch.** A step leaves the out-buffer as large as the bytes in it need
(`size_outBuffer_step`), so its size follows the largest number of bytes along the run. `OnRead`
enlarges an in-buffer of less than `r` bytes, by no more than `r` (`size_inBuffer_step`). -/
theorem buffer_sizes (d : δ) (as : List SocketAction) (st : δ × Socket)
    (h : (socketSystem grow D).run (d, Socket.openSocket grow D) as = some st) :
    st.2.outBuffer.buffer.size = max storageInitialSize
      ((socketSystem grow D).peak (fun st => st.2.outBuffer.writePosition)
        (d, Socket.openSocket grow D) as) ∧
    storageInitialSize ≤ st.2.inBuffer.buffer.size ∧
    ∀ r, (∀ a ∈ as, a.BringsWithin r) →
      st.2.inBuffer.buffer.size ≤ storageInitialSize ∨ st.2.inBuffer.buffer.size < 2 * r := by
  have hstart := Socket.grows_openSocket grow D
  have hroomy : Roomy (Socket.openSocket grow D) := by
    refine .startAsyncRead (by rw [Socket.calls_reads]; rfl) ?_
    rw [Socket.calls_writePosition]
    exact Nat.zero_le _
  have hfirst : (Socket.openSocket grow D).inBuffer.buffer.size = storageInitialSize := by
    rw [Socket.openSocket_inBuffer, PacketBuffer.size_new]
    rfl
  refine ⟨?_, ?_, fun r hr => ?_⟩
  · -- `m` is the largest number of bytes so far
    have hpeak := (socketSystem grow D).run_peak
      (R := fun st m => st.2.outBuffer.Unread ∧
        st.2.outBuffer.buffer.size = max storageInitialSize m)
      (f := fun st => st.2.outBuffer.writePosition)
      (fun s a s' m hs hstep => by
        obtain ⟨hunread, hsize⟩ := size_outBuffer_step grow D hs.1 hstep
        exact ⟨hunread, by rw [hsize, hs.2, Nat.max_assoc]⟩)
      h ⟨hstart.unread, by rw [hstart.size, PacketBuffer.size_new]⟩ le_rfl
    have hle := (socketSystem grow D).le_peak (fun st => st.2.outBuffer.writePosition)
      (d, Socket.openSocket grow D) as
    rw [hpeak.2, Nat.max_eq_right hle]
  · have hinv := (socketSystem grow D).run_invariant
      (I := fun st => Roomy st.2 ∧ storageInitialSize ≤ st.2.inBuffer.buffer.size)
      (fun s a s' hs hstep => by
        obtain ⟨hroomy', hsize⟩ := size_inBuffer_step grow D hs.1 hstep
        refine ⟨hroomy', ?_⟩
        rcases hsize with hsize | ⟨-, available, -, -, hsize⟩ <;> rw [hsize]
        · exact hs.2
        · exact Nat.le_add_right_of_le hs.2)
      h ⟨hroomy, hfirst.ge⟩
    exact hinv.2
  · have hinv := (socketSystem grow D).run_invariant_along
      (I := fun st => Roomy st.2 ∧ (st.2.inBuffer.buffer.size ≤ storageInitialSize ∨
        st.2.inBuffer.buffer.size < 2 * r))
      (C := fun _ a => a.BringsWithin r)
      (fun s a s' hs ha hstep => by
        obtain ⟨hroomy', hsize⟩ := size_inBuffer_step grow D hs.1 hstep
        refine ⟨hroomy', ?_⟩
        rcases hsize with hsize | ⟨bytes, available, rfl, hlt, hsize⟩
        · rw [hsize]
          exact hs.2
        · have hwithin : bytes.length + available ≤ r := ha
          right
          omega)
      h ((socketSystem grow D).along_of_forall (fun a ha _ => hr a ha) _) ⟨hroomy, .inl hfirst.le⟩
    exact hinv.2

/-- A first completion that brings one byte and leaves 4096 waiting in the socket, which is one more
than all of the in-buffer. -/
theorem buffer_sizes_enlarged : ∃ st,
    (socketSystem (fun _ n => n) Derived.answer).run
      ((), Socket.openSocket (fun _ n => n) Derived.answer)
      [.receive (.complete [7] 4096)] = some st ∧
    (st.2.inBuffer.buffer.size ≤ storageInitialSize ∨ st.2.inBuffer.buffer.size < 2 * 4097) := by
  have hread := run_complete (fun _ n => n) Derived.answer () [7] 4096
    (Reading.openSocket (fun _ n => n) Derived.answer)
    (Socket.openSocket_isOpen (fun _ n => n) Derived.answer) (by simp) []
  rw [Transition.run_nil] at hread
  obtain ⟨st, hstep, -⟩ := (Transition.run_cons_eq_some _).mp hread
  have hrun : (socketSystem (fun _ n => n) Derived.answer).run
      ((), Socket.openSocket (fun _ n => n) Derived.answer)
      [.receive (.complete [7] 4096)] = some st := by
    rw [Transition.run_cons_of_step _ []
      ((socketSystem_receive (fun _ n => n) Derived.answer _ _).trans hstep), Transition.run_nil]
  exact ⟨st, hrun, (buffer_sizes (fun _ n => n) Derived.answer ()
    [.receive (.complete [7] 4096)] st hrun).2.2 4097 (by simp [SocketAction.BringsWithin])⟩

end SteerStone
