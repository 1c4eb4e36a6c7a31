import PristonTale.Network.SocketRead

set_option relaxedAutoImplicit false
set_option autoImplicit false

/-!
# Read progress

Whether every `async_read_some` is given room to read into. `OnRead` enlarges the in-buffer when
the bytes of the last completion and those still available outgrow it, but the room left for the
next read depends on the bytes of all completions since the in-buffer was last emptied. When these
fill it and the derived class asks for more, the next read is into an empty range: it completes at
once with no bytes, and the socket is where it was.

## Main definitions

* `SteerStone.Stalls` — a completion that leaves a full in-buffer and a derived class that waits.
* `SteerStone.Derived.awaits` — a class that waits for a packet of a given length.

## Main results

* `SteerStone.read_progress_iff` — every read has room exactly when no completion stalls.
* `SteerStone.read_progress_stuck` — a packet longer than the in-buffer stalls the socket for ever.
-/

namespace SteerStone

open Foundations

variable {δ : Type} (grow : ℕ → ℕ → ℕ) (D : Derived δ)

/-- A completion stalls: its bytes fill the in-buffer to the end, `OnRead` does not enlarge it, and
the derived class takes none of the bytes, leaves the socket open and asks for more. -/
def Stalls (st : δ × Socket) : ReadAction → Prop
  | .complete bytes available =>
    st.2.inBuffer.writePosition + bytes.length = st.2.inBuffer.buffer.size ∧
      ¬ Socket.growsFor st.2.inBuffer.buffer.size bytes.length available ∧
      (D.processIncomingData st.1 (st.2.arrived bytes)).result = false ∧
      (D.processIncomingData st.1 (st.2.arrived bytes)).errno = .ebadmsg ∧
      leftAfter st.2.inBuffer.buffer.size
        (D.processIncomingData st.1 (st.2.arrived bytes)).calls = st.2.inBuffer.buffer.size ∧
      Call.closeSocket ∉ (D.processIncomingData st.1 (st.2.arrived bytes)).calls
  | .fail => False

instance (st : δ × Socket) : DecidablePred (Stalls D st)
  | .complete _ _ => inferInstanceAs (Decidable (_ ∧ _))
  | .fail => isFalse id

/-- Every outstanding read has room to read into. -/
def HasRoom (st : δ × Socket) : Prop := ∀ op ∈ st.2.reads, 0 < op.length

/-- Between two completions the in-buffer is valid and its vector is not empty, and while the
socket is open the unread bytes are at the start. -/
structure AtRest (s : Socket) : Prop where
  /-- The positions are in order and inside the vector. -/
  valid : s.inBuffer.Valid
  /-- The unread bytes are at the start. -/
  read_zero : s.isOpen = true → s.inBuffer.readPosition = 0
  /-- The vector is not empty. -/
  size_pos : 0 < s.inBuffer.buffer.size
  /-- One read is outstanding while the socket is open. -/
  reading : Reading s

/-! ## What the calls leave -/

/-- The calls of a list do not leave more than there was. -/
lemma leftAfter_le (n : ℕ) (cs : List Call) : leftAfter n cs ≤ n := by
  induction cs generalizing n with
  | nil => exact le_rfl
  | cons c cs ih =>
    cases c with
    | read k =>
      have := ih (if n < k then n else n - k)
      simp only [leftAfter]
      split_ifs at this ⊢ <;> omega
    | readSkip k =>
      have := ih (n - k)
      simp only [leftAfter]
      omega
    | write bytes => exact ih n
    | forceFlushOut => exact ih n
    | closeSocket => exact ih n

/-- The calls leave as much as there is room for only when that was there and they took nothing. -/
lemma not_leftAfter_lt_iff {n size : ℕ} (hn : n ≤ size) (cs : List Call) :
    ¬ leftAfter n cs < size ↔ n = size ∧ leftAfter size cs = size := by
  have hle := leftAfter_le n cs
  constructor
  · intro h
    have hfull : n = size := by omega
    subst hfull
    exact ⟨rfl, by omega⟩
  · rintro ⟨rfl, h⟩
    omega

/-- A valid in-buffer is the channel that holds its unread bytes. -/
lemma InRefines.self {s : Socket} (h : s.inBuffer.Valid) :
    InRefines s ⟨s.consumed ++ s.inBuffer.pending, s.consumed, s.inBuffer.pending, rfl⟩ :=
  ⟨h, rfl, rfl⟩

/-- After the calls of a derived class that takes bytes within what there is, the in-buffer is
still valid, as large as it was, and holds what the calls leave. -/
lemma calls_valid {s : Socket} {cs : List Call} (hv : s.inBuffer.Valid)
    (hin : SkipsWithin s.readLengthRemaining cs) :
    (s.calls grow cs).inBuffer.Valid ∧
      (s.calls grow cs).readLengthRemaining = leftAfter s.readLengthRemaining cs := by
  obtain ⟨n, href, hleft⟩ := InRefines.calls grow cs (InRefines.self hv) hin
  exact ⟨href.valid, hleft⟩

/-! ## Where a handler ends -/

/-- `StartAsyncRead` gives the read the room after the write position. -/
lemma hasRoom_startAsyncRead (d : δ) {s : Socket} (hr : s.reads = []) :
    HasRoom (d, s.startAsyncRead) ↔
      (s.isOpen = true → s.inBuffer.writePosition < s.inBuffer.buffer.size) := by
  unfold HasRoom Socket.startAsyncRead
  by_cases hopen : s.isOpen = true
  · simp only [hopen, if_true, hr, List.nil_append, List.mem_singleton, forall_eq, forall_const,
      Nat.sub_pos_iff_lt]
  · simp [hopen, hr]

/-- No read is outstanding, so none lacks room. -/
lemma hasRoom_of_no_reads (d : δ) {s : Socket} (hr : s.reads = []) : HasRoom (d, s) := by
  intro op hop
  rw [hr] at hop
  exact absurd hop List.not_mem_nil

/-- Reading on leaves the in-buffer at rest, with room: it was enlarged by what is available. -/
lemma atRest_enlarge {s : Socket} (h : s.inBuffer.Valid)
    (hz : s.inBuffer.readPosition = 0) (hr : s.reads = []) (d : δ) {available : ℕ}
    (hav : 0 < available) :
    AtRest (s.enlarge grow available).startAsyncRead ∧
      HasRoom (d, (s.enlarge grow available).startAsyncRead) := by
  have hw := h.write_le
  have hsize : (s.enlarge grow available).inBuffer.buffer.size =
      s.inBuffer.buffer.size + available := StdVector.size_resize _ _ _ _
  have hv := (InRefines.enlarge grow (InRefines.self h) available).valid
  refine ⟨⟨?_, ?_, ?_, Reading.start hr⟩, ?_⟩
  · rwa [Socket.startAsyncRead_inBuffer]
  · intro _
    rwa [Socket.startAsyncRead_inBuffer]
  · rw [Socket.startAsyncRead_inBuffer, hsize]
    omega
  · apply (hasRoom_startAsyncRead d (s := s.enlarge grow available) hr).mpr
    intro _
    show s.inBuffer.writePosition < _
    omega

/-- Starting over leaves the in-buffer at rest, with room: all of it. -/
lemma atRest_resetRead {s : Socket} (hsize : 0 < s.inBuffer.buffer.size) (hr : s.reads = [])
    (d : δ) : AtRest s.resetRead.startAsyncRead ∧ HasRoom (d, s.resetRead.startAsyncRead) := by
  refine ⟨⟨?_, ?_, ?_, Reading.start hr⟩, ?_⟩
  · rw [Socket.startAsyncRead_inBuffer]
    exact ⟨le_rfl, Nat.zero_le _⟩
  · intro _
    rw [Socket.startAsyncRead_inBuffer]
    rfl
  · rw [Socket.startAsyncRead_inBuffer]
    exact hsize
  · apply (hasRoom_startAsyncRead d (s := s.resetRead) hr).mpr
    intro _
    exact hsize

/-- Moving the unread bytes to the start leaves the in-buffer at rest; the next read has room
unless these fill the vector. -/
lemma atRest_moveRemaining {s : Socket} (h : s.inBuffer.Valid)
    (hsize : 0 < s.inBuffer.buffer.size) (hr : s.reads = []) (d : δ) :
    AtRest s.moveRemaining.startAsyncRead ∧
      (HasRoom (d, s.moveRemaining.startAsyncRead) ↔
        (s.isOpen = true → s.readLengthRemaining < s.inBuffer.buffer.size)) := by
  have hv := (InRefines.moveRemaining (InRefines.self h)).valid
  have hlen : s.inBuffer.pending.length ≤ s.inBuffer.buffer.size := by
    have := h.write_le
    rw [PacketBuffer.length_pending h, PacketBuffer.readLengthRemaining]
    omega
  have hsame : s.moveRemaining.inBuffer.buffer.size = s.inBuffer.buffer.size :=
    StdVector.size_copyIn _ (by omega)
  refine ⟨⟨?_, ?_, ?_, Reading.start hr⟩, ?_⟩
  · rwa [Socket.startAsyncRead_inBuffer]
  · intro _
    rw [Socket.startAsyncRead_inBuffer]
    rfl
  · rwa [Socket.startAsyncRead_inBuffer, hsame]
  · have hstart := hasRoom_startAsyncRead d (s := s.moveRemaining) hr
    rw [hsame] at hstart
    exact hstart

/-- A closed socket with no read outstanding is at rest. -/
lemma atRest_of_closed {s : Socket} (hv : s.inBuffer.Valid)
    (hsize : 0 < s.inBuffer.buffer.size) (hopen : s.isOpen = false) (hr : s.reads = []) :
    AtRest s := by
  refine ⟨hv, ?_, hsize, .of_closed hopen hr⟩
  intro ho
  simp [hopen] at ho

/-- With any other `errno` than `EBADMSG` the socket is closed if it was open, and at rest. -/
lemma atRest_closeIfOpen {s : Socket} (hv : s.inBuffer.Valid) (hsize : 0 < s.inBuffer.buffer.size)
    (hr : s.reads = []) (d : δ) :
    AtRest (if s.isOpen = true then s.closeSocket else s) ∧
      HasRoom (d, if s.isOpen = true then s.closeSocket else s) := by
  split
  case isTrue hopen =>
    have hreads : s.closeSocket.reads = [] := by rw [Socket.closeSocket_reads, hr]
    refine ⟨atRest_of_closed ?_ ?_ ?_ hreads, hasRoom_of_no_reads d hreads⟩
    · rwa [Socket.closeSocket_inBuffer]
    · rwa [Socket.closeSocket_inBuffer]
    · rw [Socket.closeSocket_isOpen]
  case isFalse hclosed =>
    have hfalse : s.isOpen = false := by simpa using hclosed
    exact ⟨atRest_of_closed hv hsize hfalse hr, hasRoom_of_no_reads d hr⟩

/-! ## One completion -/

/-- Handing a full or partly filled in-buffer to the derived class leaves it at rest; the next
read lacks room exactly when the vector is full, the derived class takes nothing and asks for
more, and the socket stays open.

**Proof sketch.** When the derived class returns true the in-buffer starts over; with any `errno`
other than `EBADMSG` the socket is closed. Otherwise the unread bytes are moved to the start, and
there is room unless what the calls leave is the whole vector: then nothing was free before, and
nothing was taken. -/
lemma atRest_process
    (hD : ∀ d s, SkipsWithin s.readLengthRemaining (D.processIncomingData d s).calls) (d : δ)
    {s : Socket} (hv : s.inBuffer.Valid) (hz : s.inBuffer.readPosition = 0)
    (hsize : 0 < s.inBuffer.buffer.size) (hr : s.reads = []) (hopen : s.isOpen = true) :
    AtRest (s.process grow D d).2 ∧
      (HasRoom (s.process grow D d) ↔
        ¬ (s.inBuffer.writePosition = s.inBuffer.buffer.size ∧
          (D.processIncomingData d s).result = false ∧
          (D.processIncomingData d s).errno = .ebadmsg ∧
          leftAfter s.inBuffer.buffer.size (D.processIncomingData d s).calls =
            s.inBuffer.buffer.size ∧
          Call.closeSocket ∉ (D.processIncomingData d s).calls)) := by
  set p := D.processIncomingData d s with hp
  obtain ⟨hv', hleft⟩ := calls_valid grow hv (hD d s)
  rw [← hp] at hv' hleft
  have hbuffer := s.calls_buffer grow p.calls
  have hreads : (s.calls grow p.calls).reads = [] := by rw [Socket.calls_reads, hr]
  have hsize' : 0 < (s.calls grow p.calls).inBuffer.buffer.size := by rwa [hbuffer]
  unfold Socket.process
  rw [← hp]
  dsimp only
  by_cases hres : p.result = true
  · rw [if_pos hres]
    obtain ⟨hrest, hroom⟩ := atRest_resetRead hsize' hreads p.next
    exact ⟨hrest, by simp [hroom, hres]⟩
  · rw [if_neg hres]
    by_cases herr : p.errno = .ebadmsg
    · rw [if_pos herr]
      obtain ⟨hrest, hroom⟩ := atRest_moveRemaining hv' hsize' hreads p.next
      refine ⟨hrest, ?_⟩
      have hremaining : s.readLengthRemaining = s.inBuffer.writePosition := by
        unfold Socket.readLengthRemaining PacketBuffer.readLengthRemaining
        omega
      have hfull := not_leftAfter_lt_iff hv.write_le p.calls
      have hfalse : p.result = false := by simpa using hres
      rw [hroom, hleft, hbuffer, s.calls_isOpen grow, hremaining]
      constructor
      · rintro hlt ⟨hwrite, -, -, hall, hcall⟩
        exact hfull.mpr ⟨hwrite, hall⟩ (hlt ⟨hopen, hcall⟩)
      · rintro hnot ⟨-, hcall⟩
        by_contra hge
        obtain ⟨hwrite, hall⟩ := hfull.mp hge
        exact hnot ⟨hwrite, hfalse, herr, hall, hcall⟩
    · rw [if_neg herr]
      obtain ⟨hrest, hroom⟩ := atRest_closeIfOpen hv' hsize' hreads p.next
      refine ⟨hrest, iff_of_true hroom ?_⟩
      rintro ⟨-, -, hbadmsg, -⟩
      exact herr hbadmsg

/-- **One step**: the in-buffer is at rest again, and the next read has room unless the completion
stalls. -/
lemma hasRoom_step
    (hD : ∀ d s, SkipsWithin s.readLengthRemaining (D.processIncomingData d s).calls)
    (st : δ × Socket) (a : ReadAction) (st' : δ × Socket) (h : AtRest st.2)
    (hstep : (readSystem grow D).step st a = some st') :
    AtRest st'.2 ∧ (HasRoom st' ↔ ¬ Stalls D st a) := by
  obtain ⟨d, s⟩ := st
  obtain ⟨hopen, ⟨bytes, available, rfl, hfit, rfl⟩ | ⟨rfl, rfl⟩⟩ :=
    readSystem_step_cases grow D h.reading h.valid hstep
  · have harr : (s.arrived bytes).inBuffer.Valid := ((InRefines.self h.valid).arrive hfit).valid
    have hsize : (s.arrived bytes).inBuffer.buffer.size = s.inBuffer.buffer.size :=
      StdVector.size_copyIn _ hfit
    have hz : (s.arrived bytes).inBuffer.readPosition = 0 := h.read_zero hopen
    rw [Socket.onRead_arrived grow D d hopen available hfit]
    by_cases hgrow : Socket.growsFor s.inBuffer.buffer.size bytes.length available
    · rw [if_pos hgrow]
      obtain ⟨hrest, hroom⟩ := atRest_enlarge grow harr hz rfl d hgrow.1
      exact ⟨hrest, by simp [hroom, Stalls, hgrow]⟩
    · rw [if_neg hgrow]
      obtain ⟨hrest, hroom⟩ := atRest_process grow D hD d harr hz
        (by rw [hsize]; exact h.size_pos) rfl hopen
      refine ⟨hrest, ?_⟩
      rw [hroom, hsize]
      simp only [Stalls, hgrow, not_false_eq_true, true_and]
      rfl
  · rw [Socket.onReadError, Socket.onError_eq]
    constructor
    · exact atRest_of_closed (by simpa using h.valid) (by simpa using h.size_pos) (by simp)
        (by simp)
    · have hroom := hasRoom_of_no_reads (δ := δ) d
        (s := ({ s with reads := [], readState := .idle } : Socket).closeSocket) (by simp)
      simpa [Stalls] using hroom

/-! ## Runs -/

/-- An opened socket is at rest. -/
lemma AtRest.openSocket : AtRest (Socket.openSocket grow D) where
  valid := (InRefines.openSocket grow D).valid
  read_zero _ := by rw [Socket.openSocket_inBuffer]; rfl
  size_pos := by rw [Socket.openSocket_inBuffer, PacketBuffer.size_new]; decide
  reading := Reading.openSocket grow D

/-- The first read of an opened socket has room. -/
lemma hasRoom_openSocket (d : δ) : HasRoom (d, Socket.openSocket grow D) := by
  intro op hop
  rw [(Reading.openSocket grow D).opened (Socket.openSocket_isOpen grow D),
    Socket.openSocket_inBuffer, List.mem_singleton] at hop
  rw [hop, PacketBuffer.size_new, PacketBuffer.writePosition_new]
  decide

/-- **Read progress.** For every derived class whose `ProcessIncomingData` takes bytes within what
there is to read, and every run of completions: every `async_read_some` is given a non-empty range
exactly when no completion stalls, that is, unless one fills the in-buffer to the end without
`OnRead` enlarging it and the derived class asks for more without taking any of it.

**Proof sketch.** Between completions the in-buffer is at rest, and a step keeps that; it leaves
the next read room unless it stalls (`hasRoom_step`). -/
theorem read_progress_iff
    (hD : ∀ d s, SkipsWithin s.readLengthRemaining (D.processIncomingData d s).calls) (d : δ)
    (as : List ReadAction) (st : δ × Socket)
    (h : (readSystem grow D).run (d, Socket.openSocket grow D) as = some st) :
    (readSystem grow D).Always HasRoom (d, Socket.openSocket grow D) as ↔
      (readSystem grow D).Along (fun st a => ¬ Stalls D st a)
        (d, Socket.openSocket grow D) as := by
  apply (readSystem grow D).always_iff_along (I := fun st => AtRest st.2) _ _ h
  · exact AtRest.openSocket grow D
  · exact hasRoom_openSocket grow D d
  · intro st a st' hI hstep
    exact (hasRoom_step grow D hD st a st' hI hstep).1
  · intro st a st' hI _ hstep
    exact (hasRoom_step grow D hD st a st' hI hstep).2

/-! ## A packet longer than the in-buffer -/

/-- A packet of six bytes arrives in three fragments, of which the second makes the in-buffer grow;
the last brings the start of the next packet. -/
def fragments : List ReadAction :=
  [.complete [1, 2] 0, .complete [3] 4096, .complete [4, 5, 6, 7] 0]

/-- A class that waits for six bytes never stalls on them, so each read has room. -/
theorem read_progress_awaits : ∃ st,
    (readSystem (fun _ n => n) (Derived.awaits 6)).run
        ((), Socket.openSocket (fun _ n => n) (Derived.awaits 6)) fragments = some st ∧
      (readSystem (fun _ n => n) (Derived.awaits 6)).Always HasRoom
        ((), Socket.openSocket (fun _ n => n) (Derived.awaits 6)) fragments := by
  obtain ⟨st, hrun, -⟩ := (readSystem (fun _ n => n) (Derived.awaits 6)).exists_run_of_any
    (fun _ => True) ((), Socket.openSocket (fun _ n => n) (Derived.awaits 6)) fragments
    (by decide +kernel)
  exact ⟨st, hrun, (read_progress_iff (fun _ n => n) (Derived.awaits 6)
    (Derived.awaits_conforms 6).within () _ _ hrun).mpr (by decide +kernel)⟩

/-- The in-buffer is full of the first bytes of a packet longer than it, and the outstanding read
has no room. -/
structure Stuck (n : ℕ) (s : Socket) : Prop where
  /-- The socket is open. -/
  opened : s.isOpen = true
  /-- Nothing has been read. -/
  read_zero : s.inBuffer.readPosition = 0
  /-- The vector is full. -/
  full : s.inBuffer.writePosition = s.inBuffer.buffer.size
  /-- The packet is longer. -/
  short : s.inBuffer.buffer.size < n
  /-- The outstanding read has no room. -/
  reads : s.reads = [⟨0⟩]

/-- Bytes that fill the in-buffer with the start of a longer packet leave the socket stuck. -/
lemma stuck_process {n : ℕ} {s : Socket} (hopen : s.isOpen = true)
    (hz : s.inBuffer.readPosition = 0) (hfull : s.inBuffer.writePosition = s.inBuffer.buffer.size)
    (hshort : s.inBuffer.buffer.size < n) (hr : s.reads = []) :
    Stuck n (s.process grow (Derived.awaits n) ()).2 := by
  have hremaining : s.readLengthRemaining = s.inBuffer.buffer.size := by
    unfold Socket.readLengthRemaining PacketBuffer.readLengthRemaining
    omega
  have hp : (s.process grow (Derived.awaits n) ()).2 = s.moveRemaining.startAsyncRead := by
    unfold Socket.process Derived.awaits
    simp [hremaining, hshort]
  have hvalid : s.inBuffer.Valid := ⟨by omega, by omega⟩
  have hsize : s.moveRemaining.inBuffer.buffer.size = s.inBuffer.buffer.size := by
    apply StdVector.size_copyIn
    rw [PacketBuffer.length_pending hvalid, PacketBuffer.readLengthRemaining]
    omega
  have hwrite : s.moveRemaining.inBuffer.writePosition = s.inBuffer.buffer.size := by
    show s.inBuffer.writePosition - s.inBuffer.readPosition = _
    omega
  have hopen' : s.moveRemaining.isOpen = true := hopen
  rw [hp]
  refine ⟨?_, ?_, ?_, ?_, ?_⟩
  · rw [Socket.startAsyncRead_isOpen]
    exact hopen
  · rw [Socket.startAsyncRead_inBuffer]
    rfl
  · rw [Socket.startAsyncRead_inBuffer, hwrite, hsize]
  · rw [Socket.startAsyncRead_inBuffer, hsize]
    exact hshort
  · have hr' : s.moveRemaining.reads = [] := hr
    unfold Socket.startAsyncRead
    rw [if_pos hopen', hr', hsize, hwrite, Nat.sub_self]
    rfl

/-- A stuck socket is stuck after its read completes, and so after any number of completions. -/
lemma stuck_run {n : ℕ} {s : Socket} (h : Stuck n s) (k : ℕ) :
    ∃ s', (readSystem grow (Derived.awaits n)).run ((), s)
      (List.replicate k (.complete [] 0)) = some ((), s') ∧ Stuck n s' := by
  induction k generalizing s with
  | zero => exact ⟨s, rfl, h⟩
  | succ k ih =>
    have hsize : (s.arrived []).inBuffer.buffer.size = s.inBuffer.buffer.size :=
      StdVector.size_copyIn _ (by rw [h.full]; simp)
    have hreading : Reading s := by
      constructor
      · intro _
        rw [h.reads, h.full, Nat.sub_self]
      · intro hc
        simp [h.opened] at hc
    have hstep := run_complete grow (Derived.awaits n) () [] 0 hreading h.opened
      (by rw [h.full]; simp) (List.replicate k (.complete [] 0))
    rw [if_neg (by simp [Socket.growsFor])] at hstep
    have hfull : (s.arrived []).inBuffer.writePosition = (s.arrived []).inBuffer.buffer.size := by
      rw [hsize, ← h.full]
      rfl
    obtain ⟨s', hrun, hstuck⟩ := ih (stuck_process grow (s := s.arrived []) h.opened h.read_zero
      hfull (by rw [hsize]; exact h.short) rfl)
    exact ⟨s', by rw [List.replicate_succ, hstep]; exact hrun, hstuck⟩

/-- **A packet longer than the in-buffer stalls the socket for ever.** The first 4096 bytes of a
longer packet arrive while no more are available: the next read, and every one after it, has no
room.

**Proof sketch.** `OnRead` does not enlarge the in-buffer, since nothing is available, and moving
the unread bytes frees nothing (`stuck_process`); then a read into an empty range completes
without bytes and changes nothing (`stuck_run`). -/
theorem read_progress_stuck {n : ℕ} (hn : 4096 < n) {bytes : List UInt8}
    (hlen : bytes.length = 4096) (k : ℕ) :
    ∃ s, (readSystem grow (Derived.awaits n)).run
        ((), Socket.openSocket grow (Derived.awaits n))
        (.complete bytes 0 :: List.replicate k (.complete [] 0)) = some ((), s) ∧
      Stuck n s := by
  set s₀ := Socket.openSocket grow (Derived.awaits n) with hs₀
  have hin : s₀.inBuffer = .new 4096 := Socket.openSocket_inBuffer grow _
  have hopen : s₀.isOpen = true := Socket.openSocket_isOpen grow _
  have hfit : s₀.inBuffer.writePosition + bytes.length ≤ s₀.inBuffer.buffer.size := by
    rw [hin, hlen, PacketBuffer.size_new, PacketBuffer.writePosition_new]
  have hrun := run_complete grow (Derived.awaits n) () bytes 0
    (Reading.openSocket grow _) hopen hfit (List.replicate k (.complete [] 0))
  rw [if_neg (by simp [Socket.growsFor])] at hrun
  have hsize : (s₀.arrived bytes).inBuffer.buffer.size = 4096 := by
    have hsame : (s₀.arrived bytes).inBuffer.buffer.size = s₀.inBuffer.buffer.size :=
      StdVector.size_copyIn _ hfit
    rw [hsame, hin, PacketBuffer.size_new]
  have hwrite : (s₀.arrived bytes).inBuffer.writePosition = 4096 := by
    show s₀.inBuffer.writePosition + bytes.length = 4096
    rw [hin, hlen, PacketBuffer.writePosition_new]
  have hzero : (s₀.arrived bytes).inBuffer.readPosition = 0 := by
    show s₀.inBuffer.readPosition = 0
    rw [hin]
    rfl
  have hstuck : Stuck n ((s₀.arrived bytes).process grow (Derived.awaits n) ()).2 :=
    stuck_process grow hopen hzero (by omega) (by omega) rfl
  obtain ⟨s, hrest, h⟩ := stuck_run grow hstuck k
  exact ⟨s, hrun.trans hrest, h⟩

/-- The first 4096 bytes of a packet of 4097 bytes: a class that follows the protocol, and a run
in which a read is given no room. -/
theorem read_progress_fails :
    (Derived.awaits 4097).Conforms ∧
      ¬ (readSystem (fun _ n => n) (Derived.awaits 4097)).Always HasRoom
        ((), Socket.openSocket (fun _ n => n) (Derived.awaits 4097))
        [.complete (List.replicate 4096 0) 0] := by
  refine ⟨Derived.awaits_conforms 4097, ?_⟩
  intro hall
  obtain ⟨s, hrun, hstuck⟩ := read_progress_stuck (fun _ n => n) (n := 4097) (by decide)
    (List.length_replicate (n := 4096) (a := 0)) 0
  obtain ⟨st, hstep, hlast⟩ := (Transition.run_cons_eq_some _).mp hrun
  have hroom : HasRoom ((), s) := by
    have := hall.2 st hstep
    rw [List.replicate_zero, Transition.run_nil, Option.some.injEq] at hlast
    rwa [← hlast]
  have hpos := hroom ⟨0⟩ (by rw [hstuck.reads]; exact List.mem_singleton_self _)
  exact absurd hpos (Nat.lt_irrefl 0)

end SteerStone
