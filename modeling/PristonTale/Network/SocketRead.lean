import PristonTale.Foundations.Channel
import PristonTale.Network.Socket

set_option relaxedAutoImplicit false
set_option autoImplicit false

/-!
# The receiving side of a socket

The receiving side as a transition system: a read completes with some bytes and a value of
`m_Socket.available()`, or it fails. The in-buffer is a first-in first-out channel from the peer
to the derived class. It is one for every derived class that takes bytes only as `OnRead`
documents: within what there is to read, all of it before it returns true, and otherwise with
`errno` set to `EBADMSG`.

## Main definitions

* `SteerStone.ReadAction`, `SteerStone.readSystem` — the transition system.
* `SteerStone.Derived.Conforms` — the protocol `OnRead` documents for `ProcessIncomingData`.
* `SteerStone.InRefines` — the in-buffer as a channel.

## Main results

* `SteerStone.InRefines.onRead` — one completion is one step of the channel.
* `SteerStone.readSystem_simulates` — every step is a step of the channel, and while the socket is
  open one read is outstanding, into the free space of the in-buffer.
* `SteerStone.input_conservation` — the input stream is conserved in every run.
-/

namespace SteerStone

open Foundations

/-- What asio can report on the receiving side: a read of some bytes, with the value of
`m_Socket.available()` that `OnRead` then sees, or a failed read. -/
inductive ReadAction where
  | complete (bytes : List UInt8) (available : ℕ)
  | fail
  deriving DecidableEq, Repr

/-- The bytes an action brings. -/
def ReadAction.bytes : ReadAction → List UInt8
  | .complete bytes _ => bytes
  | .fail => []

variable {δ : Type} (grow : ℕ → ℕ → ℕ) (D : Derived δ)

/-- The receiving side: each outstanding read completes with at most the bytes it has room for, or
fails, and its handler runs. -/
def readSystem : Transition (δ × Socket) ReadAction where
  step
    | (d, s), .complete bytes available =>
      match s.reads with
      | [] => none
      | op :: ops =>
        if bytes.length ≤ op.length then
          some (({ s with reads := ops }.deliver bytes).onRead grow D d bytes.length available)
        else none
    | (d, s), .fail =>
      match s.reads with
      | [] => none
      | _ :: ops => some (d, { s with reads := ops }.onReadError)

/-! ## The protocol of `ProcessIncomingData` -/

/-- What is left of `n` unread bytes after the calls of a list: `Read` takes nothing when it is
asked for more than there is. -/
def leftAfter : ℕ → List Call → ℕ
  | n, [] => n
  | n, .read k :: cs => leftAfter (if n < k then n else n - k) cs
  | n, .readSkip k :: cs => leftAfter (n - k) cs
  | n, _ :: cs => leftAfter n cs

/-- The calls of a list skip no more than what there is to read, `n` bytes at first. -/
def SkipsWithin : ℕ → List Call → Prop
  | _, [] => True
  | n, .read k :: cs => SkipsWithin (if n < k then n else n - k) cs
  | n, .readSkip k :: cs => k ≤ n ∧ SkipsWithin (n - k) cs
  | n, _ :: cs => SkipsWithin n cs

/-- The protocol `OnRead` documents: bytes are taken only within what there is to read, true is
returned only when all of it has been taken, and false only with `errno` set to `EBADMSG`. -/
structure Derived.Conforms (D : Derived δ) : Prop where
  /-- No call skips past the end. -/
  within : ∀ d s, SkipsWithin s.readLengthRemaining (D.processIncomingData d s).calls
  /-- True means that everything was taken. -/
  all_taken : ∀ d s, (D.processIncomingData d s).result = true →
    leftAfter s.readLengthRemaining (D.processIncomingData d s).calls = 0
  /-- False comes with `EBADMSG`. -/
  ebadmsg : ∀ d s, (D.processIncomingData d s).result = false →
    (D.processIncomingData d s).errno = .ebadmsg

/-! ## The in-buffer as a channel -/

/-- The receiving side of `s` is the channel `c`: its in-buffer is valid, the derived class has
consumed what was popped, and the bytes between the two positions are the queue. -/
structure InRefines (s : Socket) (c : Channel UInt8) : Prop where
  /-- The positions of the in-buffer are in order and inside the vector. -/
  valid : s.inBuffer.Valid
  /-- What the derived class took is what was popped. -/
  consumed : s.consumed = c.popped
  /-- What waits between the positions is the queue. -/
  pending : s.inBuffer.pending = c.queue

namespace InRefines

variable {s s' : Socket} {c : Channel UInt8}

/-- Only the in-buffer and what was consumed matter. -/
lemma congr (h : InRefines s c) (hb : s'.inBuffer = s.inBuffer)
    (hc : s'.consumed = s.consumed) : InRefines s' c :=
  ⟨hb ▸ h.valid, hc ▸ h.consumed, hb ▸ h.pending⟩

/-- There is as much to read as is queued. -/
lemma remaining (h : InRefines s c) : s.readLengthRemaining = c.queue.length := by
  rw [← h.pending, PacketBuffer.length_pending h.valid]
  rfl

/-- The bytes of a completed read are pushed once `OnRead` has advanced the write position. -/
lemma arrive (h : InRefines s c) {bytes : List UInt8}
    (hfit : s.inBuffer.writePosition + bytes.length ≤ s.inBuffer.buffer.size) :
    InRefines ((s.deliver bytes).advance bytes.length) (c.push bytes) := by
  have hw : s.inBuffer.writePosition ≤ s.inBuffer.buffer.data.length := h.valid.write_le
  have hr := h.valid.read_le
  refine ⟨⟨?_, ?_⟩, h.consumed, ?_⟩
  · simp only [Socket.advance, Socket.deliver]
    omega
  · simp only [Socket.advance, Socket.deliver]
    rw [StdVector.size_copyIn _ hfit]
    exact hfit
  · have hlen : s.inBuffer.readPosition ≤
        (s.inBuffer.buffer.data.take s.inBuffer.writePosition).length := by
      rw [List.length_take]
      omega
    simp only [Socket.advance, Socket.deliver, PacketBuffer.pending, StdVector.data_copyIn,
      Channel.push_queue, ← h.pending]
    rw [take_overwrite bytes hw, List.drop_append_of_le_length hlen]

/-- Enlarging the in-buffer keeps the channel. -/
lemma enlarge (h : InRefines s c) (available : ℕ) :
    InRefines (s.enlarge grow available) c := by
  have hw := h.valid.write_le
  refine ⟨⟨h.valid.read_le, ?_⟩, h.consumed, ?_⟩
  · simp only [Socket.enlarge, StdVector.size_resize]
    omega
  · rw [← h.pending]
    simp only [Socket.enlarge, PacketBuffer.pending]
    rw [StdVector.take_data_resize grow _ 0 (Nat.le_add_right _ _) hw]

/-- Taking bytes within what there is to read pops them. -/
lemma consume (h : InRefines s c) {n : ℕ} (hn : n ≤ s.readLengthRemaining) :
    InRefines (s.consume n) (c.pop n) := by
  refine ⟨h.valid.read hn, ?_, ?_⟩
  · simp only [Socket.consume, Channel.pop_popped, h.consumed, ← h.pending,
      PacketBuffer.read_fst hn]
  · simp only [Socket.consume, Channel.pop_queue, ← h.pending, PacketBuffer.pending_read]

/-- Moving the unread bytes to the start keeps the channel. -/
lemma moveRemaining (h : InRefines s c) : InRefines s.moveRemaining c := by
  have hw : s.inBuffer.writePosition ≤ s.inBuffer.buffer.data.length := h.valid.write_le
  have hlen : s.inBuffer.pending.length = s.inBuffer.writePosition - s.inBuffer.readPosition :=
    PacketBuffer.length_pending h.valid
  have htake : (overwrite s.inBuffer.buffer.data 0 s.inBuffer.pending).take
      (s.inBuffer.writePosition - s.inBuffer.readPosition) = s.inBuffer.pending := by
    have := take_overwrite (l := s.inBuffer.buffer.data) (i := 0) s.inBuffer.pending
      (Nat.zero_le _)
    simpa [hlen] using this
  refine ⟨⟨Nat.zero_le _, ?_⟩, h.consumed, ?_⟩
  · simp only [Socket.moveRemaining]
    rw [StdVector.size_copyIn _ (by unfold StdVector.size; omega)]
    unfold StdVector.size
    omega
  · rw [← h.pending]
    simp only [Socket.moveRemaining, PacketBuffer.pending, StdVector.data_copyIn, List.drop_zero]
    exact htake

/-- Setting the positions back keeps the channel once everything has been taken. -/
lemma resetRead (h : InRefines s c) (hempty : c.queue = []) : InRefines s.resetRead c :=
  ⟨⟨le_rfl, Nat.zero_le _⟩, h.consumed, by
    simp [Socket.resetRead, PacketBuffer.pending, hempty]⟩

/-- The calls of the derived class pop what they take.

**Proof sketch.** Induction on the calls. `Read` and `ReadSkip` within what there is pop that many
bytes; every other call leaves the in-buffer alone. -/
lemma calls (cs : List Call) : ∀ {s : Socket} {c : Channel UInt8}, InRefines s c →
    SkipsWithin s.readLengthRemaining cs →
    ∃ n, InRefines (s.calls grow cs) (c.pop n) ∧
      (s.calls grow cs).readLengthRemaining = leftAfter s.readLengthRemaining cs := by
  induction cs with
  | nil =>
    intro s c h _
    exact ⟨0, by simpa using h, rfl⟩
  | cons call cs ih =>
    intro s c h hin
    -- a call that takes `n` bytes, and the rest of the calls
    have taking : ∀ (n : ℕ), n ≤ s.readLengthRemaining →
        SkipsWithin (s.readLengthRemaining - n) cs → s.call grow call = s.consume n →
        ∃ m, InRefines (s.calls grow (call :: cs)) (c.pop m) ∧
          (s.calls grow (call :: cs)).readLengthRemaining =
            leftAfter (s.readLengthRemaining - n) cs := by
      intro n hn hrest hcall
      have hleft : (s.consume n).readLengthRemaining = s.readLengthRemaining - n := by
        rw [(h.consume hn).remaining, h.remaining, Channel.pop_queue, List.length_drop]
      obtain ⟨m, hm, hlen⟩ := ih (h.consume hn) (by rwa [hleft])
      rw [Socket.calls_cons, hcall]
      exact ⟨n + m, by rwa [← Channel.pop_pop], by rw [hlen, hleft]⟩
    -- a call that takes nothing, and the rest of the calls
    have idle : SkipsWithin s.readLengthRemaining cs →
        (s.call grow call).inBuffer = s.inBuffer → (s.call grow call).consumed = s.consumed →
        ∃ m, InRefines (s.calls grow (call :: cs)) (c.pop m) ∧
          (s.calls grow (call :: cs)).readLengthRemaining =
            leftAfter s.readLengthRemaining cs := by
      intro hrest hb hc
      have hleft : (s.call grow call).readLengthRemaining = s.readLengthRemaining := by
        unfold Socket.readLengthRemaining
        rw [hb]
      obtain ⟨m, hm, hlen⟩ := ih (h.congr hb hc) (by rwa [hleft])
      rw [Socket.calls_cons]
      exact ⟨m, hm, by rw [hlen, hleft]⟩
    cases call with
    | read n =>
      by_cases hn : s.readLengthRemaining < n
      · simp only [SkipsWithin, leftAfter, if_pos hn] at hin ⊢
        exact idle hin (by simp [Socket.call, Socket.read, hn])
          (by simp [Socket.call, Socket.read, hn])
      · simp only [SkipsWithin, leftAfter, if_neg hn] at hin ⊢
        exact taking n (by omega) hin (by simp [Socket.call, Socket.read, hn])
    | readSkip n => exact taking n hin.1 hin.2 rfl
    | write bytes => exact idle hin (s.write_inBuffer grow bytes) (s.write_consumed grow bytes)
    | forceFlushOut => exact idle hin rfl rfl
    | closeSocket => exact idle hin s.closeSocket_inBuffer s.closeSocket_consumed

/-- Handing the data to a derived class that conforms pops what it takes, whichever way it
returns. -/
lemma process (hD : D.Conforms) (d : δ) (h : InRefines s c) :
    ∃ n, InRefines (s.process grow D d).2 (c.pop n) := by
  obtain ⟨n, hn, hleft⟩ := InRefines.calls grow _ h (hD.within d s)
  refine ⟨n, ?_⟩
  unfold Socket.process
  dsimp only
  cases hres : (D.processIncomingData d s).result with
  | true =>
    have hempty : (c.pop n).queue = [] := by
      rw [← List.length_eq_zero_iff, ← hn.remaining, hleft, hD.all_taken d s hres]
    exact (hn.resetRead hempty).congr (by simp) (by simp)
  | false =>
    simp only [hD.ebadmsg d s hres, Bool.false_eq_true, if_false, if_true]
    exact hn.moveRemaining.congr (by simp) (by simp)

/-- **One completion is one step of the channel**: the bytes that arrived are pushed, and what
the derived class takes of the queue is popped. -/
theorem onRead (hD : D.Conforms) (d : δ) (h : InRefines s c) (hopen : s.isOpen = true)
    {bytes : List UInt8} (available : ℕ)
    (hfit : s.inBuffer.writePosition + bytes.length ≤ s.inBuffer.buffer.size) :
    ∃ n, InRefines ((s.deliver bytes).onRead grow D d bytes.length available).2
      ((c.push bytes).pop n) := by
  have harr := h.arrive hfit
  have hopen' : (s.deliver bytes).isOpen = true := hopen
  unfold Socket.onRead
  rw [if_pos hopen']
  split_ifs
  · exact ⟨0, by simpa using (harr.enlarge grow available).congr (by simp) (by simp)⟩
  · exact harr.process grow D hD d

end InRefines

/-! ## Outstanding reads -/

/-- While the socket is open one read is outstanding, into the free space of the in-buffer; once
it is closed none is. -/
structure Reading (s : Socket) : Prop where
  /-- One read while open. -/
  opened : s.isOpen = true → s.reads = [⟨s.inBuffer.buffer.size - s.inBuffer.writePosition⟩]
  /-- None once closed. -/
  closed : s.isOpen = false → s.reads = []

namespace Reading

variable {s : Socket}

/-- `StartAsyncRead` starts the one read. -/
lemma start (h : s.reads = []) : Reading s.startAsyncRead := by
  unfold Socket.startAsyncRead
  split_ifs with hopen
  · constructor
    · intro _
      simp [h]
    · intro hc
      simp [hopen] at hc
  · constructor
    · intro ho
      exact absurd ho hopen
    · intro _
      exact h

/-- A closed socket with no read outstanding. -/
lemma of_closed (hopen : s.isOpen = false) (h : s.reads = []) : Reading s :=
  ⟨fun ho => by simp [hopen] at ho, fun _ => h⟩

/-- An outstanding read means that the socket is open and the read is the only one. -/
lemma cons (h : Reading s) {op : ReadOp} {ops : List ReadOp} (hr : s.reads = op :: ops) :
    s.isOpen = true ∧ ops = [] ∧
      op.length = s.inBuffer.buffer.size - s.inBuffer.writePosition := by
  cases hopen : s.isOpen with
  | true =>
    have := h.opened hopen
    rw [hr, List.cons.injEq] at this
    exact ⟨rfl, this.2, by rw [this.1]⟩
  | false => simp [h.closed hopen] at hr

/-- `OnRead` leaves one read outstanding, or a closed socket with none. -/
lemma onRead (d : δ) (s : Socket) (length available : ℕ) (hopen : s.isOpen = true)
    (hr : s.reads = []) : Reading (s.onRead grow D d length available).2 := by
  unfold Socket.onRead Socket.process
  rw [if_pos hopen]
  dsimp only
  have hcalls : ∀ cs, ((s.advance length).calls grow cs).reads = [] :=
    fun cs => by rw [Socket.calls_reads]; exact hr
  split_ifs with h₁ h₂ h₃ h₄
  · exact start hr
  · exact start (hcalls _)
  · exact start (hcalls _)
  · exact of_closed (by simp) (by rw [Socket.closeSocket_reads]; exact hcalls _)
  · exact of_closed (by simpa using h₄) (hcalls _)

end Reading

/-! ## Runs -/

/-- The socket once the bytes of its one outstanding read have arrived: asio has stored them and
`OnRead` has advanced the write position. -/
def Socket.arrived (s : Socket) (bytes : List UInt8) : Socket :=
  ({ s with reads := [] }.deliver bytes).advance bytes.length

/-- `OnRead` on an open socket: read on into an enlarged in-buffer, or hand the data over. -/
lemma Socket.onRead_arrived (d : δ) {s : Socket} (hopen : s.isOpen = true) {bytes : List UInt8}
    (available : ℕ) (hfit : s.inBuffer.writePosition + bytes.length ≤ s.inBuffer.buffer.size) :
    ({ s with reads := [] }.deliver bytes).onRead grow D d bytes.length available =
      if growsFor s.inBuffer.buffer.size bytes.length available then
        (d, ((s.arrived bytes).enlarge grow available).startAsyncRead)
      else (s.arrived bytes).process grow D d := by
  have hopen' : ({ s with reads := [] }.deliver bytes).isOpen = true := hopen
  have hsize : ({ s with reads := [] }.deliver bytes).inBuffer.buffer.size =
      s.inBuffer.buffer.size := StdVector.size_copyIn _ hfit
  unfold onRead
  rw [if_pos hopen', hsize]
  rfl

/-- What a step of the receiving side can be. -/
lemma readSystem_step_cases {d : δ} {s : Socket} {a : ReadAction} {st : δ × Socket}
    (hr : Reading s) (hv : s.inBuffer.Valid)
    (h : (readSystem grow D).step (d, s) a = some st) :
    s.isOpen = true ∧
      ((∃ bytes available, a = .complete bytes available ∧
          s.inBuffer.writePosition + bytes.length ≤ s.inBuffer.buffer.size ∧
          st = ({ s with reads := [] }.deliver bytes).onRead grow D d bytes.length available) ∨
        (a = .fail ∧ st = (d, { s with reads := [] }.onReadError))) := by
  have hw := hv.write_le
  cases hreads : s.reads with
  | nil => cases a <;> simp [readSystem, hreads] at h
  | cons op ops =>
    obtain ⟨hopen, rfl, hlen⟩ := hr.cons hreads
    refine ⟨hopen, ?_⟩
    cases a with
    | complete bytes available =>
      simp only [readSystem, hreads] at h
      split_ifs at h with hfit
      refine .inl ⟨bytes, available, rfl, by omega, ?_⟩
      simpa using h.symm
    | fail =>
      simp only [readSystem, hreads, Option.some.injEq] at h
      exact .inr ⟨rfl, h.symm⟩

/-- A read of at most the bytes there is room for is a step. -/
lemma readSystem_complete {d : δ} {s : Socket} {op : ReadOp} {bytes : List UInt8}
    (available : ℕ) (hreads : s.reads = [op]) (hfit : bytes.length ≤ op.length) :
    (readSystem grow D).step (d, s) (.complete bytes available) =
      some (({ s with reads := [] }.deliver bytes).onRead grow D d bytes.length available) := by
  simp only [readSystem, hreads, if_pos hfit]

/-- A failed read is a step of the channel that moves nothing, and leaves the socket closed. -/
lemma InRefines.onReadError {s : Socket} {c : Channel UInt8} (h : InRefines s c) :
    InRefines { s with reads := [] }.onReadError c := by
  rw [Socket.onReadError, Socket.onError_eq]
  exact h.congr (by simp) (by simp)

/-- A failed read leaves no read outstanding. -/
lemma Reading.onReadError (s : Socket) : Reading { s with reads := [] }.onReadError := by
  rw [Socket.onReadError, Socket.onError_eq]
  exact .of_closed (by simp) (by simp)

/-- The relation between the receiving side and its channel is kept by every step. -/
lemma readSystem_simulates (hD : D.Conforms) (st : δ × Socket) (a : ReadAction)
    (st' : δ × Socket) (c : Channel UInt8) (h : InRefines st.2 c ∧ Reading st.2)
    (hstep : (readSystem grow D).step st a = some st') :
    ∃ c', Channel.Carries ReadAction.bytes c a c' ∧ InRefines st'.2 c' ∧ Reading st'.2 := by
  obtain ⟨d, s⟩ := st
  obtain ⟨href, hr⟩ := h
  have href' : InRefines { s with reads := [] } c := href.congr rfl rfl
  obtain ⟨hopen, ⟨bytes, available, rfl, hfit, rfl⟩ | ⟨rfl, rfl⟩⟩ :=
    readSystem_step_cases grow D hr href.valid hstep
  · obtain ⟨n, hn⟩ := href'.onRead grow D hD d hopen available hfit
    exact ⟨_, ⟨n, rfl⟩, hn, Reading.onRead grow D d _ _ _ hopen rfl⟩
  · exact ⟨c, ⟨0, by simp [ReadAction.bytes]⟩, href.onReadError,
      Reading.onReadError s⟩

/-- An opened socket is the empty channel. -/
lemma InRefines.openSocket : InRefines (Socket.openSocket grow D) .empty where
  valid := by simpa using PacketBuffer.valid_new 4096
  consumed := by simp
  pending := by simp

/-- `Open` starts the first read. -/
lemma Reading.openSocket : Reading (Socket.openSocket grow D) :=
  .start (by simp [Socket.fresh])

/-- An open socket with a read outstanding can complete it with the bytes there is room for. -/
lemma run_complete (d : δ) {s : Socket} (bytes : List UInt8) (available : ℕ) (hr : Reading s)
    (hopen : s.isOpen = true)
    (hfit : s.inBuffer.writePosition + bytes.length ≤ s.inBuffer.buffer.size)
    (as : List ReadAction) :
    (readSystem grow D).run (d, s) (.complete bytes available :: as) =
      (readSystem grow D).run
        (if Socket.growsFor s.inBuffer.buffer.size bytes.length available then
          (d, ((s.arrived bytes).enlarge grow available).startAsyncRead)
        else (s.arrived bytes).process grow D d) as := by
  have hroom : bytes.length ≤ s.inBuffer.buffer.size - s.inBuffer.writePosition := by omega
  have hstep := readSystem_complete grow D (d := d) available (hr.opened hopen) hroom
  rw [Socket.onRead_arrived grow D d hopen available hfit] at hstep
  exact (readSystem grow D).run_cons_of_step as hstep

/-- A new socket can complete its first read with up to 4096 bytes. -/
lemma exists_first_completion (d : δ) (bytes : List UInt8) (available : ℕ)
    (hle : bytes.length ≤ 4096) :
    ∃ st, (readSystem grow D).run (d, Socket.openSocket grow D)
      [.complete bytes available] = some st :=
  ⟨_, run_complete grow D d bytes available (Reading.openSocket grow D)
    (Socket.openSocket_isOpen grow D) (by simpa using hle) []⟩

/-- **The receiving side refines its channel**: after every run the in-buffer is that of a channel
into which the bytes of the run were pushed. -/
theorem readSystem_refines (hD : D.Conforms) {d : δ} {as : List ReadAction} {st : δ × Socket}
    (h : (readSystem grow D).run (d, Socket.openSocket grow D) as = some st) :
    ∃ c, c.pushed = as.flatMap ReadAction.bytes ∧ InRefines st.2 c ∧ Reading st.2 := by
  obtain ⟨c, hsteps, hR⟩ := (readSystem grow D).run_simulates
    (fun st a st' c hR _ => readSystem_simulates grow D hD st a st' c hR) h
    ((readSystem grow D).along_true _ as) ⟨InRefines.openSocket grow D, Reading.openSocket grow D⟩
  exact ⟨c, by simpa using Channel.pushed_of_steps hsteps, hR⟩

/-- The first calls of a list skip within what there is to read when all of them do. -/
lemma skipsWithin_initial {pre cs : List Call} {n : ℕ} (hpre : pre <+: cs)
    (hs : SkipsWithin n cs) : SkipsWithin n pre := by
  induction pre generalizing cs n with
  | nil => trivial
  | cons c pre ih =>
    cases cs with
    | nil => simp at hpre
    | cons c' cs =>
      obtain ⟨rfl, htail⟩ := List.cons_prefix_cons.mp hpre
      cases c with
      | readSkip k => exact ⟨hs.1, ih htail hs.2⟩
      | read k =>
        show SkipsWithin (if n < k then n else n - k) pre
        exact ih htail hs
      | write bytes =>
        show SkipsWithin n pre
        exact ih htail hs
      | forceFlushOut =>
        show SkipsWithin n pre
        exact ih htail hs
      | closeSocket =>
        show SkipsWithin n pre
        exact ih htail hs

/-- **The input stream is conserved.** For every derived class that conforms to the protocol of
`ProcessIncomingData` and every run of the receiving side: the bytes the derived class has
consumed, followed by those between the two positions of the in-buffer, are the bytes received, in
order; the positions are in order and inside the vector; and while the socket is open exactly one
read is outstanding. The first two also hold at every moment while the derived class handles the
next completion.

**Proof sketch.** The receiving side refines a channel (`readSystem_refines`), whose law is
conservation; during a completion it is the same channel with the arrived bytes pushed
(`InRefines.arrive`) and what was taken so far popped (`InRefines.calls`). -/
theorem input_conservation (hD : D.Conforms) (d : δ) (as : List ReadAction) (st : δ × Socket)
    (h : (readSystem grow D).run (d, Socket.openSocket grow D) as = some st) :
    st.2.consumed ++ st.2.inBuffer.pending = as.flatMap ReadAction.bytes ∧
      st.2.inBuffer.Valid ∧
      (st.2.isOpen = true → st.2.reads.length = 1) ∧
      ∀ bytes available st', (readSystem grow D).step st (.complete bytes available) = some st' →
        ∀ pre, pre <+: (D.processIncomingData st.1 (st.2.arrived bytes)).calls →
          ((st.2.arrived bytes).calls grow pre).consumed ++
              ((st.2.arrived bytes).calls grow pre).inBuffer.pending =
            as.flatMap ReadAction.bytes ++ bytes ∧
          ((st.2.arrived bytes).calls grow pre).inBuffer.Valid := by
  obtain ⟨c, hpushed, href, hr⟩ := readSystem_refines grow D hD h
  refine ⟨?_, href.valid, ?_, ?_⟩
  · rw [href.consumed, href.pending, c.law, hpushed]
  · intro hopen
    rw [hr.opened hopen]
    rfl
  · intro bytes available st' hstep pre hpre
    obtain ⟨-, ⟨bs, av, ha, hfit, -⟩ | ⟨ha, -⟩⟩ := readSystem_step_cases grow D hr href.valid hstep
    · simp only [ReadAction.complete.injEq] at ha
      obtain ⟨rfl, rfl⟩ := ha
      have href' : InRefines { st.2 with reads := [] } c := href.congr rfl rfl
      have harr : InRefines (st.2.arrived bytes) (c.push bytes) := href'.arrive hfit
      have hin := skipsWithin_initial hpre (hD.within st.1 (st.2.arrived bytes))
      obtain ⟨n, hn, -⟩ := InRefines.calls grow pre harr hin
      refine ⟨?_, hn.valid⟩
      rw [hn.consumed, hn.pending, ((c.push bytes).pop n).law]
      simp [hpushed]
    · exact absurd ha (by simp)

/-- The simplest class that conforms: it takes everything and returns true. -/
def Derived.takeAll : Derived Unit where
  processIncomingData _ s := ⟨[.read s.readLengthRemaining], true, .other, ()⟩
  sendVersionCheck := []

/-- A class that waits until `n` bytes have arrived, and then takes all there are: what a class
does that has read a header which announces `n` bytes. -/
def Derived.awaits (n : ℕ) : Derived Unit where
  processIncomingData _ s :=
    if s.readLengthRemaining < n then ⟨[], false, .ebadmsg, ()⟩
    else ⟨[.read s.readLengthRemaining], true, .other, ()⟩
  sendVersionCheck := []

/-- Waiting for a packet follows the protocol of `ProcessIncomingData`. -/
lemma Derived.awaits_conforms (n : ℕ) : (Derived.awaits n).Conforms := by
  constructor
  · intro d s
    simp only [Derived.awaits]
    split_ifs <;> simp [SkipsWithin]
  · intro d s hres
    simp only [Derived.awaits] at hres ⊢
    split_ifs with hlt
    · simp [hlt] at hres
    · simp [leftAfter]
  · intro d s hres
    simp only [Derived.awaits] at hres ⊢
    split_ifs with hlt
    · rfl
    · simp [hlt] at hres

/-- A class that waits for three bytes has taken four of five that arrive in three completions; the
last of them waits. -/
theorem input_conservation_awaits : ∃ st,
    (readSystem (fun _ n => n) (Derived.awaits 3)).run
        ((), Socket.openSocket (fun _ n => n) (Derived.awaits 3))
        [.complete [1, 2] 0, .complete [3, 4] 0, .complete [5] 0] = some st ∧
      st.2.consumed = [1, 2, 3, 4] ∧
      st.2.consumed ++ st.2.inBuffer.pending = [1, 2, 3, 4, 5] := by
  obtain ⟨st, hrun, hconsumed⟩ := (readSystem (fun _ n => n) (Derived.awaits 3)).exists_run_of_any
    (fun st => st.2.consumed = [1, 2, 3, 4])
    ((), Socket.openSocket (fun _ n => n) (Derived.awaits 3))
    [.complete [1, 2] 0, .complete [3, 4] 0, .complete [5] 0] (by decide +kernel)
  exact ⟨st, hrun, hconsumed, (input_conservation (fun _ n => n) (Derived.awaits 3)
    (Derived.awaits_conforms 3) () _ _ hrun).1⟩

end SteerStone
