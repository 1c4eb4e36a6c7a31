import PristonTale.Foundations.Channel
import PristonTale.Network.Socket

set_option relaxedAutoImplicit false
set_option autoImplicit false

/-!
# The sending side of a socket

The sending side as a transition system: threads call `Write` and `ForceFlushOut`, and asio runs
the handlers of the flush timer and of the outstanding write. Each of them holds `m_Mutex`, so
each is one step.

The three write states say what is outstanding (`Coherent`), and the out-buffer is a first-in
first-out channel from `Write` to the transport. It is one as long as the bytes an outstanding
write was given stay where they are: `PacketBuffer::Write` resizes the vector in every write
state, and a vector that outgrows its block while a write is outstanding leaves the transport
reading freed memory.

## Main definitions

* `SteerStone.WriteAction`, `SteerStone.writeSystem` — the transition system.
* `SteerStone.Coherent` — what the write state says about the outstanding operations.
* `SteerStone.KeepsBlock`, `SteerStone.KeepsSize` — when a step leaves the storage of an
  outstanding write alone.
* `SteerStone.OutRefines` — the out-buffer as a channel.

## Main results

* `SteerStone.write_state_machine` — the write state machine, in every run.
* `SteerStone.stable_storage_iff` — the vector keeps its size during sends exactly when every
  `Write` during a send fits.
* `SteerStone.output_stream_integrity` — the output stream is intact in every run that keeps the
  block of each outstanding write.
-/

namespace SteerStone

open Foundations

/-- What can happen on the sending side. -/
inductive WriteAction where
  /-- A thread calls `Write`. -/
  | write (bytes : List UInt8)
  /-- A thread calls `ForceFlushOut`. -/
  | forceFlushOut
  /-- A wait of the flush timer ends. -/
  | flushTimer
  /-- The outstanding write succeeds with `length` bytes; `stale` is what freed memory holds. -/
  | writeComplete (length : ℕ) (stale : ℕ → UInt8)
  /-- The outstanding write fails. -/
  | writeFail
  /-- Some thread closes the socket. -/
  | close

/-- The bytes an action passes to `Write`. -/
def WriteAction.written : WriteAction → List UInt8
  | .write bytes => bytes
  | _ => []

/-- The bytes the transport finds in the first `length` places of the range an outstanding write
was given: those of the vector while it is in the same block, and what the freed block holds once
it has moved. -/
def Socket.transmitted (s : Socket) (op : WriteOp) (length : ℕ) (stale : ℕ → UInt8) :
    List UInt8 :=
  if op.block = s.outBuffer.buffer.block then s.outBuffer.buffer.data.take length
  else (List.range length).map stale

variable (grow : ℕ → ℕ → ℕ)

/-- The sending side: the calls of the threads, and the handlers of what is outstanding. -/
def writeSystem : Transition Socket WriteAction where
  step s
    | .write bytes => some (s.write grow bytes)
    | .forceFlushOut => some s.forceFlushOut
    | .flushTimer =>
      match s.waits with
      | [] => none
      | _ :: ws => some { s with waits := ws }.flushOut
    | .writeComplete length stale =>
      match s.writes with
      | [] => none
      | op :: ops =>
        if length ≤ op.length then
          some ({ s with
            writes := ops
            accepted := s.accepted ++ s.transmitted op length stale }.onWriteComplete length)
        else none
    | .writeFail =>
      match s.writes with
      | [] => none
      | _ :: ops => some { s with writes := ops }.onError
    | .close => some s.closeSocket

/-- What the write state says about the outstanding operations: nothing is outstanding and the
buffer is empty, or one wait is, or one write of bytes that are in the buffer. -/
def Coherent (s : Socket) : Prop :=
  match s.writeState with
  | .idle => s.waits = [] ∧ s.writes = [] ∧ s.outBuffer.writePosition = 0
  | .buffering => s.waits.length = 1 ∧ s.writes = []
  | .sending => s.waits = [] ∧ ∃ op, s.writes = [op] ∧ op.length ≤ s.outBuffer.writePosition

/-! ## What a step can be -/

/-- What a step of the sending side can be. -/
lemma writeSystem_step_cases {s t : Socket} {a : WriteAction}
    (h : (writeSystem grow).step s a = some t) :
    (∃ bytes, a = .write bytes ∧ t = s.write grow bytes) ∨
    (a = .forceFlushOut ∧ t = s.forceFlushOut) ∨
    (∃ w ws, a = .flushTimer ∧ s.waits = w :: ws ∧ t = { s with waits := ws }.flushOut) ∨
    (∃ op ops length stale, a = .writeComplete length stale ∧ s.writes = op :: ops ∧
      length ≤ op.length ∧
      t = { s with
        writes := ops
        accepted := s.accepted ++ s.transmitted op length stale }.onWriteComplete length) ∨
    (∃ op ops, a = .writeFail ∧ s.writes = op :: ops ∧ t = { s with writes := ops }.onError) ∨
    (a = .close ∧ t = s.closeSocket) := by
  cases a with
  | write bytes => exact .inl ⟨bytes, rfl, by simpa [writeSystem] using h.symm⟩
  | forceFlushOut => exact .inr (.inl ⟨rfl, by simpa [writeSystem] using h.symm⟩)
  | flushTimer =>
    refine .inr (.inr (.inl ?_))
    cases hw : s.waits with
    | nil => simp [writeSystem, hw] at h
    | cons w ws => exact ⟨w, ws, rfl, rfl, by simpa [writeSystem, hw] using h.symm⟩
  | writeComplete length stale =>
    refine .inr (.inr (.inr (.inl ?_)))
    cases hw : s.writes with
    | nil => simp [writeSystem, hw] at h
    | cons op ops =>
      simp only [writeSystem, hw] at h
      split_ifs at h with hle
      exact ⟨op, ops, length, stale, rfl, rfl, hle, by simpa using h.symm⟩
  | writeFail =>
    refine .inr (.inr (.inr (.inr (.inl ?_))))
    cases hw : s.writes with
    | nil => simp [writeSystem, hw] at h
    | cons op ops => exact ⟨op, ops, rfl, rfl, by simpa [writeSystem, hw] using h.symm⟩
  | close => exact .inr (.inr (.inr (.inr (.inr ⟨rfl, by simpa [writeSystem] using h.symm⟩))))

/-- No step opens a socket. -/
lemma isOpen_of_step {s t : Socket} {a : WriteAction}
    (h : (writeSystem grow).step s a = some t) (hopen : t.isOpen = true) : s.isOpen = true := by
  rcases writeSystem_step_cases grow h with ⟨_, rfl, rfl⟩ | ⟨rfl, rfl⟩ | ⟨_, _, rfl, -, rfl⟩ |
    ⟨_, _, _, _, rfl, -, -, rfl⟩ | ⟨_, _, rfl, -, rfl⟩ | ⟨rfl, rfl⟩
  · simpa using hopen
  · exact hopen
  · simpa using hopen
  · simpa using hopen
  · simp [Socket.onError_eq] at hopen
  · simp at hopen

/-! ## The out-buffer after a partial write -/

namespace Socket

variable {b : PacketBuffer}

/-- What is left in the buffer after its first `n` bytes have been sent. -/
lemma take_compact (hv : b.Valid) (n : ℕ) :
    (compact b n).buffer.data.take (compact b n).writePosition =
      (b.buffer.data.take b.writePosition).drop n := by
  have hw : b.writePosition ≤ b.buffer.data.length := hv.write_le
  unfold compact
  split_ifs with hlt
  · have hlen : ((b.buffer.data.take b.writePosition).drop n).length = b.writePosition - n := by
      rw [List.length_drop, List.length_take]
      omega
    have htake := take_overwrite (l := b.buffer.data) (i := 0)
      ((b.buffer.data.take b.writePosition).drop n) (Nat.zero_le _)
    simpa [hlen] using htake
  · rw [List.take_zero, List.drop_eq_nil_of_le (by rw [List.length_take]; omega)]

/-- `OnWriteComplete` keeps the size of the vector. -/
lemma size_compact (hv : b.Valid) (n : ℕ) : (compact b n).buffer.size = b.buffer.size := by
  have hw : b.writePosition ≤ b.buffer.data.length := hv.write_le
  unfold compact
  split_ifs with hlt
  · refine StdVector.size_copyIn _ ?_
    rw [List.length_drop, List.length_take]
    unfold StdVector.size
    omega
  · rfl

/-- The write position after the first `n` bytes have been sent. -/
lemma writePosition_compact (n : ℕ) : (compact b n).writePosition = b.writePosition - n := by
  unfold compact
  split_ifs with hlt
  · rfl
  · dsimp only
    omega

/-- `OnWriteComplete` keeps the out-buffer valid: nobody reads from it. -/
lemma valid_compact (hv : b.Valid) (hread : b.readPosition = 0) (n : ℕ) :
    (compact b n).Valid ∧ (compact b n).readPosition = 0 := by
  have hw := hv.write_le
  have hr : (compact b n).readPosition = 0 := by
    unfold compact
    split_ifs <;> exact hread
  refine ⟨⟨by rw [hr]; exact Nat.zero_le _, ?_⟩, hr⟩
  rw [size_compact hv, writePosition_compact]
  omega

end Socket

/-! ## The write state machine -/

namespace Coherent

variable {s : Socket}

/-- Nothing outstanding, nothing in the buffer. -/
lemma of_idle (hs : s.writeState = .idle) (hwaits : s.waits = []) (hwrites : s.writes = [])
    (hpos : s.outBuffer.writePosition = 0) : Coherent s := by
  simp [Coherent, hs, hwaits, hwrites, hpos]

/-- One wait outstanding. -/
lemma of_buffering (hs : s.writeState = .buffering) (hwaits : s.waits.length = 1)
    (hwrites : s.writes = []) : Coherent s := by
  simp [Coherent, hs, hwaits, hwrites]

/-- One write outstanding. -/
lemma of_sending {op : WriteOp} (hs : s.writeState = .sending) (hwaits : s.waits = [])
    (hwrites : s.writes = [op]) (hle : op.length ≤ s.outBuffer.writePosition) : Coherent s := by
  simp [Coherent, hs, hwaits, hwrites, hle]

/-- An idle socket has nothing outstanding and an empty out-buffer. -/
lemma idle (h : Coherent s) (hs : s.writeState = .idle) :
    s.waits = [] ∧ s.writes = [] ∧ s.outBuffer.writePosition = 0 := by
  simpa [Coherent, hs] using h

/-- A buffering socket has one wait outstanding. -/
lemma buffering (h : Coherent s) (hs : s.writeState = .buffering) :
    s.waits.length = 1 ∧ s.writes = [] := by
  simpa [Coherent, hs] using h

/-- A sending socket has one write outstanding, of bytes that are in the out-buffer. -/
lemma sending (h : Coherent s) (hs : s.writeState = .sending) :
    s.waits = [] ∧ ∃ op, s.writes = [op] ∧ op.length ≤ s.outBuffer.writePosition := by
  simpa [Coherent, hs] using h

/-- A wait is outstanding in a buffering socket only. -/
lemma of_waits (h : Coherent s) {w : Wait} {ws : List Wait} (hw : s.waits = w :: ws) :
    s.writeState = .buffering ∧ ws = [] ∧ s.writes = [] := by
  cases hs : s.writeState with
  | idle =>
    have hwaits := (h.idle hs).1
    simp [hw] at hwaits
  | buffering =>
    obtain ⟨hlen, hwrites⟩ := h.buffering hs
    rw [hw, List.length_cons] at hlen
    exact ⟨rfl, List.length_eq_zero_iff.mp (by omega), hwrites⟩
  | sending =>
    have hwaits := (h.sending hs).1
    simp [hw] at hwaits

/-- A write is outstanding in a sending socket only, and it is the only one. -/
lemma of_writes (h : Coherent s) {op : WriteOp} {ops : List WriteOp}
    (hw : s.writes = op :: ops) :
    s.writeState = .sending ∧ s.waits = [] ∧ ops = [] ∧
      op.length ≤ s.outBuffer.writePosition := by
  cases hs : s.writeState with
  | idle =>
    have hwrites := (h.idle hs).2.1
    simp [hw] at hwrites
  | buffering =>
    have hwrites := (h.buffering hs).2
    simp [hw] at hwrites
  | sending =>
    obtain ⟨hwaits, op', hwrites, hle⟩ := h.sending hs
    rw [hw, List.cons.injEq] at hwrites
    obtain ⟨rfl, rfl⟩ := hwrites
    exact ⟨rfl, hwaits, rfl, hle⟩

/-- `Write` starts the timer when nothing is outstanding, and otherwise only adds bytes. -/
lemma write (h : Coherent s) (hopen : s.isOpen = true) (bytes : List UInt8) :
    Coherent (s.write grow bytes) := by
  have hpos : s.outBuffer.writePosition ≤ (s.outBuffer.write grow bytes).writePosition :=
    Nat.le_add_right _ _
  unfold Socket.write
  cases hs : s.writeState with
  | idle =>
    obtain ⟨hwaits, hwrites, -⟩ := h.idle hs
    simp only [if_true, Socket.startWriteFlushTimer, hopen, reduceCtorEq, if_false]
    exact of_buffering rfl (by simp [hwaits]) hwrites
  | buffering =>
    obtain ⟨hwaits, hwrites⟩ := h.buffering hs
    simp only [reduceCtorEq, if_false]
    exact of_buffering rfl hwaits hwrites
  | sending =>
    obtain ⟨hwaits, op, hwrites, hle⟩ := h.sending hs
    simp only [reduceCtorEq, if_false]
    exact of_sending rfl hwaits hwrites (Nat.le_trans hle hpos)

/-- `ForceFlushOut` cancels a wait, whose handler is still to run. -/
lemma forceFlushOut (h : Coherent s) : Coherent s.forceFlushOut := by
  unfold Coherent Socket.forceFlushOut at *
  cases hs : s.writeState <;> simp only [hs] at h ⊢
  · simpa using h
  · simpa using h
  · simpa using h

/-- The handler of the flush timer submits the buffer. -/
lemma flushTimer (h : Coherent s) (hopen : s.isOpen = true) {w : Wait} {ws : List Wait}
    (hw : s.waits = w :: ws) : Coherent { s with waits := ws }.flushOut := by
  obtain ⟨-, hws, hwrites⟩ := h.of_waits hw
  simp only [Socket.flushOut, hopen, if_true, Socket.asyncWriteSome, hwrites, List.nil_append]
  exact of_sending rfl hws rfl le_rfl

/-- `OnWriteComplete` submits what is left, or goes idle if nothing is. -/
lemma writeComplete (h : Coherent s) (hopen : s.isOpen = true) {op : WriteOp}
    {ops : List WriteOp} (hw : s.writes = op :: ops) (length : ℕ) (accepted : List UInt8) :
    Coherent ({ s with writes := ops, accepted := accepted }.onWriteComplete length) := by
  obtain ⟨hs, hwaits, hops, -⟩ := h.of_writes hw
  simp only [Socket.onWriteComplete, hopen, if_true]
  split_ifs with hpos
  · simp only [Socket.asyncWriteSome, hops, List.nil_append]
    exact of_sending hs hwaits rfl le_rfl
  · exact of_idle rfl hwaits hops (by simpa using hpos)

end Coherent

/-- Every step of an open socket keeps the write state coherent. -/
lemma coherent_step (s : Socket) (a : WriteAction) (t : Socket)
    (h : s.isOpen = true → Coherent s) (hstep : (writeSystem grow).step s a = some t) :
    t.isOpen = true → Coherent t := by
  intro ht
  have hopen := isOpen_of_step grow hstep ht
  have hc := h hopen
  rcases writeSystem_step_cases grow hstep with ⟨bytes, rfl, rfl⟩ | ⟨rfl, rfl⟩ |
    ⟨_, _, rfl, hw, rfl⟩ | ⟨_, _, _, _, rfl, hw, -, rfl⟩ | ⟨_, _, rfl, -, rfl⟩ | ⟨rfl, rfl⟩
  · exact hc.write grow hopen bytes
  · exact hc.forceFlushOut
  · exact hc.flushTimer hopen hw
  · exact hc.writeComplete hopen hw _ _
  · simp [Socket.onError_eq] at ht
  · simp at ht

/-- A fresh socket is coherent. -/
lemma coherent_fresh : Coherent Socket.fresh := .of_idle rfl rfl rfl rfl

/-- **The write state machine.** In every state of an open socket, after every run: the socket is
buffering iff one timer wait is outstanding and no write, sending iff one write is outstanding and
no wait, and idle iff neither is, with an empty out-buffer. So bytes in the buffer never wait for
nothing; the assertions of `FlushOut` and of `OnWriteComplete` hold whenever these handlers can
run; and two writes are never outstanding together.

**Proof sketch.** `Coherent` is an invariant (`coherent_step`); each part is read off it in the
three write states. -/
theorem write_state_machine (as : List WriteAction) (s : Socket)
    (h : (writeSystem grow).run Socket.fresh as = some s) (hopen : s.isOpen = true) :
    (s.writeState = .buffering ↔ s.waits.length = 1 ∧ s.writes = []) ∧
      (s.writeState = .sending ↔ s.writes.length = 1 ∧ s.waits = []) ∧
      (s.writeState = .idle ↔ s.waits = [] ∧ s.writes = []) ∧
      (s.writeState = .idle → s.outBuffer.writePosition = 0) ∧
      (0 < s.outBuffer.writePosition → s.waits ≠ [] ∨ s.writes ≠ []) ∧
      (s.waits ≠ [] → s.writeState = .buffering) ∧
      (∀ op ∈ s.writes, ∀ length ≤ op.length,
        s.writeState = .sending ∧ length ≤ s.outBuffer.writePosition) ∧
      s.writes.length ≤ 1 := by
  have hc : Coherent s :=
    (writeSystem grow).run_invariant (I := fun s => s.isOpen = true → Coherent s)
      (coherent_step grow) h (fun _ => coherent_fresh) hopen
  cases hs : s.writeState with
  | idle =>
    obtain ⟨hwaits, hwrites, hpos⟩ := hc.idle hs
    simp [hwaits, hwrites, hpos]
  | buffering =>
    obtain ⟨hwaits, hwrites⟩ := hc.buffering hs
    have hne : s.waits ≠ [] := by
      intro hnil
      simp [hnil] at hwaits
    simp [hwaits, hwrites, hne]
  | sending =>
    obtain ⟨hwaits, op, hwrites, hle⟩ := hc.sending hs
    have hpos : ∀ length ≤ op.length, length ≤ s.outBuffer.writePosition := by
      intro length hl
      exact Nat.le_trans hl hle
    simpa [hwaits, hwrites] using hpos

/-- One byte written and submitted: the socket is sending. -/
theorem write_state_machine_sending : ∃ s,
    (writeSystem fun _ n => n).run Socket.fresh [.write [74], .flushTimer] = some s ∧
      s.writeState = .sending ∧ s.writes.length = 1 ∧ s.waits = [] := by
  have hm := fun s h hopen =>
    write_state_machine (fun _ n => n) [.write [74], .flushTimer] s h hopen
  exact ⟨_, rfl, rfl, ((hm _ rfl rfl).2.1.mp rfl)⟩

/-! ## The storage of an outstanding write -/

/-- The vector has the size it had when each outstanding write was submitted. -/
def SizeKept (s : Socket) : Prop := ∀ op ∈ s.writes, s.outBuffer.buffer.size = op.size

/-- The step does not resize the vector under an outstanding write: a `Write` during a send fits
in the vector as it is. -/
def KeepsSize (s : Socket) : WriteAction → Prop
  | .write bytes => s.writes ≠ [] →
      s.outBuffer.writePosition + bytes.length ≤ s.outBuffer.buffer.size
  | _ => True

/-- `Write` keeps the size an outstanding write relies on exactly when its bytes fit. -/
lemma sizeKept_write_iff {s : Socket} (h : SizeKept s) (bytes : List UInt8) :
    SizeKept (s.write grow bytes) ↔ KeepsSize s (.write bytes) := by
  simp only [SizeKept, KeepsSize, Socket.write_writes, Socket.write_outBuffer,
    PacketBuffer.size_write]
  constructor
  · intro hnew hne
    obtain ⟨op, hop⟩ := List.exists_mem_of_ne_nil _ hne
    have h₁ := hnew op hop
    have h₂ := h op hop
    omega
  · intro hfit op hop
    have h₁ := hfit (List.ne_nil_of_mem hop)
    have h₂ := h op hop
    omega

/-- The handlers submit the vector as it is, so they never break the size of what they submit.

**Proof sketch.** By the kind of step. A `Write` keeps the size exactly if it fits
(`sizeKept_write_iff`). `FlushOut` and `OnWriteComplete` submit a write of the size that the vector
has then, the second after the only one outstanding has completed; closing leaves both alone. -/
lemma sizeKept_step {s t : Socket} {a : WriteAction} (hc : s.isOpen = true → Coherent s)
    (h : SizeKept s) (hstep : (writeSystem grow).step s a = some t) :
    SizeKept t ↔ KeepsSize s a := by
  rcases writeSystem_step_cases grow hstep with ⟨bytes, rfl, rfl⟩ | ⟨rfl, rfl⟩ |
    ⟨_, ws, rfl, hw, rfl⟩ | ⟨op, ops, n, stale, rfl, hw, -, rfl⟩ | ⟨op, ops, rfl, hw, rfl⟩ |
    ⟨rfl, rfl⟩
  · exact sizeKept_write_iff grow h bytes
  · exact iff_of_true h trivial
  · refine iff_of_true ?_ trivial
    unfold Socket.flushOut
    split_ifs
    · intro op hop
      rcases List.mem_append.mp hop with hop | hop
      · exact h op hop
      · obtain rfl := List.mem_singleton.mp hop
        rfl
    · exact h
  · refine iff_of_true ?_ trivial
    unfold Socket.onWriteComplete
    split_ifs with hopen
    · -- on an open socket the completed write was the only one
      obtain ⟨-, -, hops, -⟩ := (hc hopen).of_writes hw
      dsimp only
      split_ifs
      · intro op' hop'
        obtain rfl : op' = _ := by simpa [Socket.asyncWriteSome, hops] using hop'
        rfl
      · intro op' hop'
        simp [hops] at hop'
    · intro op' hop'
      exact h op' (hw ▸ List.mem_cons_of_mem _ hop')
  · refine iff_of_true ?_ trivial
    rw [Socket.onError_eq]
    intro op' hop'
    rw [Socket.closeSocket_writes] at hop'
    rw [Socket.closeSocket_outBuffer]
    exact h op' (hw ▸ List.mem_cons_of_mem _ hop')
  · refine iff_of_true ?_ trivial
    intro op' hop'
    rw [Socket.closeSocket_writes] at hop'
    rw [Socket.closeSocket_outBuffer]
    exact h op' hop'

/-- **Stable storage during a send, exactly.** In every run, the vector of the out-buffer has, in
each state the run passes, the size it had when the outstanding write was submitted, if and only
if every `Write` made while a write is outstanding finds room for its bytes between
`m_WritePosition` and the end of the vector.

**Proof sketch.** An open socket is coherent throughout (`coherent_step`), and a step from such a
socket keeps the size exactly if it is no `Write` without room (`sizeKept_step`). -/
theorem stable_storage_iff (as : List WriteAction) (s : Socket)
    (h : (writeSystem grow).run Socket.fresh as = some s) :
    (writeSystem grow).Always SizeKept Socket.fresh as ↔
      (writeSystem grow).Along KeepsSize Socket.fresh as :=
  (writeSystem grow).always_iff_along (I := fun s => s.isOpen = true → Coherent s)
    (coherent_step grow) (fun _ _ _ hc hk hstep => sizeKept_step grow hc hk hstep) h
    (fun _ => coherent_fresh) (by simp [SizeKept, Socket.fresh])

/-- The socket while the first byte written to it is being sent. -/
def sendingByte (b : UInt8) : Socket :=
  { Socket.fresh.write grow [b] with waits := [] }.flushOut

/-- The first byte is in the vector as it was allocated. -/
lemma sendingByte_outBuffer (b : UInt8) :
    (sendingByte grow b).outBuffer.writePosition = 1 ∧
      (sendingByte grow b).outBuffer.buffer.size = 4096 ∧
      (sendingByte grow b).outBuffer.buffer.capacity = 4096 ∧
      (sendingByte grow b).outBuffer.buffer.block = 0 := by
  have hfit : (PacketBuffer.new 4096).writePosition + [b].length ≤
      (PacketBuffer.new 4096).buffer.capacity := by simp
  have hb : (sendingByte grow b).outBuffer = PacketBuffer.write grow (.new 4096) [b] := by
    simp [sendingByte]
  rw [hb, PacketBuffer.size_write, PacketBuffer.capacity_write grow hfit,
    PacketBuffer.block_write grow hfit]
  simp

/-- A run that outgrows the vector during a send: one byte is submitted, then 4096 more written. -/
def outgrowing : List WriteAction := [.write [74], .flushTimer, .write (List.replicate 4096 0)]

/-- The storage of an outstanding write is not stable: 4096 bytes written while one byte is being
sent resize the vector. -/
theorem stable_storage_fails : ∃ s,
    (writeSystem fun _ n => n).run Socket.fresh outgrowing = some s ∧
      s.writeState = .sending ∧ ∃ op ∈ s.writes, s.outBuffer.buffer.size ≠ op.size := by
  refine ⟨_, rfl, rfl, _, List.mem_singleton.mpr rfl, ?_⟩
  simp only [Socket.write_outBuffer, Socket.flushOut_outBuffer, PacketBuffer.size_write,
    Socket.fresh_outBuffer, PacketBuffer.size_new, PacketBuffer.writePosition_write,
    PacketBuffer.writePosition_new, List.length_replicate, List.length_singleton]
  decide

/-- One byte written, submitted and sent keeps the size throughout. -/
theorem stable_storage_iff_one_byte :
    (writeSystem fun _ n => n).Always SizeKept Socket.fresh
      [.write [74], .flushTimer, .writeComplete 1 fun _ => 0] := by
  refine (stable_storage_iff (fun _ n => n) _ _ rfl).mpr ?_
  simp [Transition.Along, KeepsSize, Socket.fresh]

/-! ## The out-buffer as a channel -/

/-- The sending side of `s` is the channel `c`: the bytes up to the write position are the queue,
the transport has accepted what was popped, and what outstanding writes were given is where the
vector is. -/
structure OutRefines (s : Socket) (c : Channel UInt8) : Prop where
  /-- The positions of the out-buffer are in order and inside the vector. -/
  valid : s.outBuffer.Valid
  /-- Nobody reads from the out-buffer. -/
  unread : s.outBuffer.readPosition = 0
  /-- What waits in the buffer is the queue. -/
  queue : s.outBuffer.buffer.data.take s.outBuffer.writePosition = c.queue
  /-- What the transport accepted is what was popped. -/
  accepted : s.accepted = c.popped
  /-- Outstanding writes point into the vector's block. -/
  live : ∀ op ∈ s.writes, op.block = s.outBuffer.buffer.block

/-- The step leaves the vector in its block under an outstanding write: a `Write` during a send
fits in the capacity. -/
def KeepsBlock (s : Socket) : WriteAction → Prop
  | .write bytes => s.writes ≠ [] →
      s.outBuffer.writePosition + bytes.length ≤ s.outBuffer.buffer.capacity
  | _ => True

instance (s : Socket) : DecidablePred (KeepsBlock s)
  | .write _ => inferInstanceAs (Decidable (_ → _))
  | .forceFlushOut | .flushTimer | .writeComplete _ _ | .writeFail | .close => isTrue trivial

namespace OutRefines

variable {s : Socket} {c : Channel UInt8}

/-- `Write` pushes its bytes. -/
lemma write (h : OutRefines s c) {bytes : List UInt8} (hfit : KeepsBlock s (.write bytes)) :
    OutRefines (s.write grow bytes) (c.push bytes) where
  valid := by simpa using h.valid.write grow bytes
  unread := by simpa [PacketBuffer.write] using h.unread
  queue := by
    rw [Socket.write_outBuffer, PacketBuffer.take_write grow h.valid, h.queue]
    rfl
  accepted := by simpa using h.accepted
  live := by
    intro op hop
    rw [Socket.write_writes] at hop
    rw [Socket.write_outBuffer, h.live op hop,
      PacketBuffer.block_write grow (hfit (List.ne_nil_of_mem hop))]

/-- `ForceFlushOut` leaves the buffer and the outstanding writes alone. -/
lemma forceFlushOut (h : OutRefines s c) : OutRefines s.forceFlushOut c where
  valid := h.valid
  unread := h.unread
  queue := h.queue
  accepted := h.accepted
  live := h.live

/-- `FlushOut` submits the vector where it is. -/
lemma flushTimer (h : OutRefines s c) (ws : List Wait) :
    OutRefines { s with waits := ws }.flushOut c where
  valid := by simpa using h.valid
  unread := by simpa using h.unread
  queue := by simpa using h.queue
  accepted := by simpa using h.accepted
  live := by
    unfold Socket.flushOut
    split_ifs
    · intro op hop
      rcases List.mem_append.mp hop with hop | hop
      · exact h.live op hop
      · obtain rfl := List.mem_singleton.mp hop
        rfl
    · exact h.live

/-- A write of `length` bytes pops them: the transport finds them where they were submitted.

**Proof sketch.** The completed write points into the vector's block, so what the transport read
is the first `length` bytes of the vector, and these are queued bytes because the write was given
no more than the buffer held. `OnWriteComplete` drops the same bytes (`take_compact`) and submits
the rest where it is. -/
lemma writeComplete (h : OutRefines s c) (hc : Coherent s) (hopen : s.isOpen = true)
    {op : WriteOp} {ops : List WriteOp} (hw : s.writes = op :: ops) {length : ℕ}
    (hle : length ≤ op.length) (stale : ℕ → UInt8) :
    OutRefines ({ s with
      writes := ops
      accepted := s.accepted ++ s.transmitted op length stale }.onWriteComplete length)
      (c.pop length) := by
  obtain ⟨-, -, hops, hpos⟩ := hc.of_writes hw
  have hbuf : ({ s with
      writes := ops
      accepted := s.accepted ++ s.transmitted op length stale }.onWriteComplete length).outBuffer =
      Socket.compact s.outBuffer length := Socket.onWriteComplete_outBuffer
    { s with writes := ops, accepted := s.accepted ++ s.transmitted op length stale } hopen length
  have hlive : op.block = s.outBuffer.buffer.block := h.live op (hw ▸ List.mem_cons_self)
  have hvalid := Socket.valid_compact h.valid h.unread length
  refine ⟨by rw [hbuf]; exact hvalid.1, by rw [hbuf]; exact hvalid.2, ?_, ?_, ?_⟩
  · rw [hbuf, Socket.take_compact h.valid, h.queue]
    rfl
  · rw [Socket.onWriteComplete_accepted, Channel.pop_popped, ← h.accepted, ← h.queue,
      List.take_take, Nat.min_eq_left (Nat.le_trans hle hpos)]
    simp [Socket.transmitted, hlive]
  · intro op' hop'
    rw [hbuf]
    unfold Socket.onWriteComplete at hop'
    simp only [hopen, if_true] at hop'
    split_ifs at hop'
    · obtain rfl : op' = _ := by simpa [Socket.asyncWriteSome, hops] using hop'
      rfl
    · simp [hops] at hop'

end OutRefines

/-- The relation between the sending side and its channel is kept by every step of an open socket
that leaves the block of an outstanding write alone. -/
lemma writeSystem_simulates (s : Socket) (a : WriteAction) (t : Socket) (c : Channel UInt8)
    (h : s.isOpen = true → Coherent s ∧ OutRefines s c) (hkeep : KeepsBlock s a)
    (hstep : (writeSystem grow).step s a = some t) :
    ∃ c', Channel.Carries WriteAction.written c a c' ∧
      (t.isOpen = true → Coherent t ∧ OutRefines t c') := by
  by_cases ht : t.isOpen = true
  · have hopen := isOpen_of_step grow hstep ht
    obtain ⟨hc, href⟩ := h hopen
    have hc' := coherent_step grow s a t (fun _ => hc) hstep ht
    rcases writeSystem_step_cases grow hstep with ⟨bytes, rfl, rfl⟩ | ⟨rfl, rfl⟩ |
      ⟨_, ws, rfl, hw, rfl⟩ | ⟨op, ops, n, stale, rfl, hw, hle, rfl⟩ | ⟨_, _, rfl, -, rfl⟩ |
      ⟨rfl, rfl⟩
    · exact ⟨c.push bytes, ⟨0, by simp [WriteAction.written]⟩,
        fun _ => ⟨hc', href.write grow hkeep⟩⟩
    · exact ⟨c, ⟨0, by simp [WriteAction.written]⟩, fun _ => ⟨hc', href.forceFlushOut⟩⟩
    · exact ⟨c, ⟨0, by simp [WriteAction.written]⟩, fun _ => ⟨hc', href.flushTimer ws⟩⟩
    · exact ⟨c.pop n, ⟨n, by simp [WriteAction.written]⟩,
        fun _ => ⟨hc', href.writeComplete hc hopen hw hle stale⟩⟩
    · simp [Socket.onError_eq] at ht
    · simp at ht
  · exact ⟨_, ⟨0, rfl⟩, fun ho => absurd ho ht⟩

/-- **The output stream is intact.** In every run in which no `Write` made while a write is
outstanding outgrows the capacity of the vector, and in every state of it in which the socket is
open: the bytes the transport has accepted, followed by those in the out-buffer, are the bytes
written, in the order of the calls.

**Proof sketch.** The sending side refines a channel (`writeSystem_simulates`) into which the
written bytes were pushed; the law of the channel is the claim. -/
theorem output_stream_integrity (as : List WriteAction) (s : Socket)
    (h : (writeSystem grow).run Socket.fresh as = some s)
    (hkeep : (writeSystem grow).Along KeepsBlock Socket.fresh as) (hopen : s.isOpen = true) :
    s.accepted ++ s.outBuffer.buffer.data.take s.outBuffer.writePosition =
      as.flatMap WriteAction.written := by
  have hfresh : OutRefines Socket.fresh .empty :=
    ⟨PacketBuffer.valid_new _, rfl, by simp, rfl, by simp [Socket.fresh]⟩
  obtain ⟨c, hsteps, hR⟩ := (writeSystem grow).run_simulates
    (R := fun s c => s.isOpen = true → Coherent s ∧ OutRefines s c)
    (fun s a t c hR hC => writeSystem_simulates grow s a t c hR hC) h hkeep
    (fun _ => ⟨coherent_fresh, hfresh⟩)
  obtain ⟨-, href⟩ := hR hopen
  rw [href.accepted, href.queue, c.law]
  simpa using Channel.pushed_of_steps hsteps

/-- Two bytes written one after the other, the second during the send of the first, are sent and
kept in order. -/
theorem output_stream_integrity_two_bytes : ∃ s,
    (writeSystem fun _ n => n).run Socket.fresh
        [.write [74], .flushTimer, .write [75], .writeComplete 1 fun _ => 0] = some s ∧
      s.accepted ++ s.outBuffer.buffer.data.take s.outBuffer.writePosition = [74, 75] := by
  have hkeep : (writeSystem fun _ n => n).Along KeepsBlock Socket.fresh
      [.write [74], .flushTimer, .write [75], .writeComplete 1 fun _ => 0] := by
    refine ⟨fun hne => absurd rfl hne, ?_⟩
    intro s₁ h₁
    refine ⟨trivial, ?_⟩
    intro s₂ h₂
    obtain rfl := Option.some.inj h₁
    obtain rfl : sendingByte (fun _ n => n) 74 = s₂ := Option.some.inj h₂
    -- the second byte is written while the first is being sent
    refine ⟨?_, fun _ _ => ⟨trivial, fun _ _ => trivial⟩⟩
    intro _
    obtain ⟨hpos, -, hcap, -⟩ := sendingByte_outBuffer (fun _ n => n) 74
    rw [hpos, hcap]
    decide
  exact ⟨_, rfl, output_stream_integrity (fun _ n => n) _ _ rfl hkeep rfl⟩

/-- When a `Write` moves the vector while the first byte is being sent, the transport sends what
the freed block holds. -/
lemma accepted_of_outgrown (b : UInt8) {bytes : List UInt8} (stale : ℕ → UInt8)
    (hlong : 4096 ≤ bytes.length) : ∃ s,
    (writeSystem grow).run Socket.fresh
        [.write [b], .flushTimer, .write bytes, .writeComplete 1 stale] = some s ∧
      s.isOpen = true ∧ s.accepted = [stale 0] := by
  obtain ⟨hpos, hsize, hcap, hblock⟩ := sendingByte_outBuffer grow b
  have hmoved : ((sendingByte grow b).write grow bytes).outBuffer.buffer.block = 1 := by
    rw [Socket.write_outBuffer, PacketBuffer.block_write_of_lt grow (by omega) (by omega), hblock]
  let op : WriteOp := ⟨1, 4096, 0⟩
  have hrun : (writeSystem grow).run Socket.fresh
      [.write [b], .flushTimer, .write bytes, .writeComplete 1 stale] =
      (writeSystem grow).step ((sendingByte grow b).write grow bytes)
        (.writeComplete 1 stale) := by
    rfl
  have hwrites : ((sendingByte grow b).write grow bytes).writes = [op] := by
    have hop : (sendingByte grow b).writes = [⟨(sendingByte grow b).outBuffer.writePosition,
      (sendingByte grow b).outBuffer.buffer.size,
      (sendingByte grow b).outBuffer.buffer.block⟩] := rfl
    rw [Socket.write_writes, hop, hpos, hsize, hblock]
  refine ⟨_, by rw [hrun]; simp only [writeSystem, hwrites]; rw [if_pos (by decide)], ?_, ?_⟩
  · rw [Socket.onWriteComplete_isOpen]
    rfl
  · rw [Socket.onWriteComplete_accepted]
    dsimp only [Socket.transmitted]
    rw [hmoved, if_neg (by decide)]
    rfl

/-- A byte the freed block may hold by the time the transport reads it. -/
def freed : ℕ → UInt8 := fun _ => 221

/-- The output stream is not intact when the vector moves during a send: the transport sends what
the freed block holds instead of the byte written. -/
theorem output_stream_fails : ∃ s,
    (writeSystem fun _ n => n).run Socket.fresh
        (outgrowing ++ [WriteAction.writeComplete 1 freed]) = some s ∧
      s.isOpen = true ∧
      s.accepted ++ s.outBuffer.buffer.data.take s.outBuffer.writePosition ≠
        (outgrowing ++ [WriteAction.writeComplete 1 freed]).flatMap WriteAction.written := by
  obtain ⟨s, hrun, hopen, hacc⟩ := accepted_of_outgrown (fun _ n => n) 74 freed
    (Nat.le_of_eq List.length_replicate.symm)
  refine ⟨s, hrun, hopen, ?_⟩
  intro heq
  rw [hacc] at heq
  have hhead : some (freed 0) = some 74 := congrArg List.head? heq
  exact absurd hhead (by decide)

end SteerStone
