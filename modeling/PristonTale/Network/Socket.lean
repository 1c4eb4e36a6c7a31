import PristonTale.Network.PacketBuffer

set_option relaxedAutoImplicit false
set_option autoImplicit false

/-!
# Sockets

The class `Socket` (`Shared/Network/Socket.cpp`), one definition for each of its functions, with
the operations it has outstanding at `boost::asio`: reads, writes and timer waits. Each handler
(`OnRead`, `FlushOut`, `OnWriteComplete`) is one function of the socket here; the order in which
asio runs them is left to the transition systems of `PristonTale.Network.SocketRead` and
`PristonTale.Network.SocketWrite`.

The derived class is a parameter. Its `ProcessIncomingData` is given by what it does: the member
functions of `Socket` it calls, in order, its result, and `errno` when it returns.

## Main definitions

* `SteerStone.Socket` — the members of the class and its outstanding operations.
* `SteerStone.Derived` — a derived class.
* `SteerStone.Socket.openSocket`, `SteerStone.Socket.startAsyncRead`, `SteerStone.Socket.onRead`
  — the receiving side.
* `SteerStone.Socket.write`, `SteerStone.Socket.flushOut`, `SteerStone.Socket.onWriteComplete` —
  the sending side.

## Implementation notes

* `m_RemoteEndPoint`, `m_Address` and `m_Port` are left out; no function below reads them.
* A wait of the flush timer runs its handler once, whether the timer expires or is cancelled, and
  the handler ignores the error code. So a cancelled wait stays outstanding.
* `consumed` and `accepted` are history: the class has no such members.
* The new capacity of a vector that outgrows its block is chosen by the C++ library; the
  parameter `grow` stands for its choice.
* `m_Socket.close()` and `m_Socket.available()` are taken not to throw: what follows an exception
  that leaves `CloseSocket` or `OnRead` is not modelled.
-/

namespace SteerStone

open Foundations

/-- `WriteState`. -/
inductive WriteState where
  | idle
  | buffering
  | sending
  deriving DecidableEq, Repr

/-- `ReadState`. -/
inductive ReadState where
  | idle
  | reading
  deriving DecidableEq, Repr

/-- An outstanding `async_read_some`. -/
structure ReadOp where
  /-- The size of the range it was given. -/
  length : ℕ
  deriving DecidableEq, Repr

/-- An outstanding `async_write_some`: it was given the first bytes of `m_OutBuffer->m_Buffer`. -/
structure WriteOp where
  /-- The number of bytes it was given. -/
  length : ℕ
  /-- The size of the vector when it was submitted. -/
  size : ℕ
  /-- The block the vector was in when it was submitted. -/
  block : ℕ
  deriving DecidableEq, Repr

/-- An outstanding wait of the flush timer. -/
inductive Wait where
  | armed
  | cancelled
  deriving DecidableEq, Repr

/-- A `Socket`, with its outstanding operations. -/
structure Socket where
  /-- `m_Socket.is_open()`. -/
  isOpen : Bool
  /-- `m_InBuffer`. -/
  inBuffer : PacketBuffer
  /-- `m_OutBuffer`. -/
  outBuffer : PacketBuffer
  /-- `m_WriteState`. -/
  writeState : WriteState
  /-- `m_ReadState`. -/
  readState : ReadState
  /-- The outstanding `async_read_some`s. -/
  reads : List ReadOp
  /-- The outstanding `async_write_some`s. -/
  writes : List WriteOp
  /-- The outstanding waits of `m_OutBufferFlushTimer`. -/
  waits : List Wait
  /-- How many times `m_CloseHandler` was called. -/
  closeReports : ℕ
  /-- The bytes the derived class has taken from `m_InBuffer` so far. -/
  consumed : List UInt8
  /-- The bytes the transport has accepted so far. -/
  accepted : List UInt8

/-- The values of `errno` that `OnRead` tells apart. -/
inductive Errno where
  | ebadmsg
  | other
  deriving DecidableEq, Repr

/-- A member function of `Socket` as the derived class calls it. -/
inductive Call where
  | read (length : ℕ)
  | readSkip (length : ℕ)
  | write (bytes : List UInt8)
  | forceFlushOut
  | closeSocket
  deriving DecidableEq, Repr

/-- What one call of `ProcessIncomingData` does: the member functions it calls, its result,
`errno` when it returns, and the derived class's own state then. -/
structure Processing (δ : Type) where
  /-- The calls, in order. -/
  calls : List Call
  /-- The result. -/
  result : Bool
  /-- `errno` at the return. -/
  errno : Errno
  /-- The derived class's own state at the return. -/
  next : δ

/-- A class derived from `Socket`, with `δ` the state it adds. -/
structure Derived (δ : Type) where
  /-- `ProcessIncomingData`. -/
  processIncomingData : δ → Socket → Processing δ
  /-- `SendVersionCheck`, as the byte strings it passes to `Write`. -/
  sendVersionCheck : List (List UInt8)

namespace Socket

/-- The socket in `Open` when its two buffers have been reset. -/
def fresh : Socket where
  isOpen := true
  inBuffer := .new storageInitialSize
  outBuffer := .new storageInitialSize
  writeState := .idle
  readState := .idle
  reads := []
  writes := []
  waits := []
  closeReports := 0
  consumed := []
  accepted := []

/-- `CloseSocket`: report the close to the close handler, unless the socket is closed already. -/
def closeSocket (s : Socket) : Socket :=
  if s.isOpen then { s with isOpen := false, closeReports := s.closeReports + 1 } else s

/-- `OnError`. -/
def onError (s : Socket) : Socket := if s.isOpen then s.closeSocket else s

/-! ## Receiving -/

/-- `StartAsyncRead`: read into the free space after the write position. -/
def startAsyncRead (s : Socket) : Socket :=
  if s.isOpen then
    { s with
      readState := .reading
      reads := s.reads ++ [⟨s.inBuffer.buffer.size - s.inBuffer.writePosition⟩] }
  else { s with readState := .idle }

/-- `ReadLengthRemaining`. -/
def readLengthRemaining (s : Socket) : ℕ := s.inBuffer.readLengthRemaining

/-- Take `length` bytes from the in-buffer. -/
def consume (s : Socket) (length : ℕ) : Socket :=
  { s with
    inBuffer := (s.inBuffer.read length).2
    consumed := s.consumed ++ (s.inBuffer.read length).1 }

/-- `Read`: refuse to read more than there is. -/
def read (s : Socket) (length : ℕ) : Bool × Socket :=
  if s.readLengthRemaining < length then (false, s) else (true, s.consume length)

/-- `ReadSkip`. -/
def readSkip (s : Socket) (length : ℕ) : Socket := s.consume length

/-! ## Sending -/

/-- `StartWriteFlushTimer`. Setting the expiry time cancels the waits on the timer. -/
def startWriteFlushTimer (s : Socket) : Socket :=
  if s.writeState = .buffering then s
  else if s.isOpen then
    { s with
      writeState := .buffering
      waits := s.waits.map (fun _ => .cancelled) ++ [.armed] }
  else { s with writeState := .idle }

/-- `Write`. -/
def write (grow : ℕ → ℕ → ℕ) (s : Socket) (bytes : List UInt8) : Socket :=
  let s' := { s with outBuffer := s.outBuffer.write grow bytes }
  if s'.writeState = .idle then s'.startWriteFlushTimer else s'

/-- `ForceFlushOut`. -/
def forceFlushOut (s : Socket) : Socket :=
  { s with waits := s.waits.map fun _ => .cancelled }

/-- Submit everything in the out-buffer to `async_write_some`. -/
def asyncWriteSome (s : Socket) : Socket :=
  { s with
    writes := s.writes ++
      [⟨s.outBuffer.writePosition, s.outBuffer.buffer.size, s.outBuffer.buffer.block⟩] }

/-- `FlushOut`. Its assertion `m_WriteState == WriteState::Buffering` is compiled out of the
default build. -/
def flushOut (s : Socket) : Socket :=
  if s.isOpen then { s with writeState := .sending }.asyncWriteSome
  else { s with writeState := .idle }

/-- The out-buffer after `OnWriteComplete` has dropped its first `length` bytes: the rest is moved
to the start, as `memmove` would move it. -/
def compact (b : PacketBuffer) (length : ℕ) : PacketBuffer :=
  if length < b.writePosition then
    { b with
      buffer := b.buffer.copyIn 0 ((b.buffer.data.take b.writePosition).drop length)
      writePosition := b.writePosition - length }
  else { b with writePosition := 0 }

/-- `OnWriteComplete` after a successful write of `length` bytes. Its assertions
`m_WriteState == WriteState::Sending` and `p_Length <= m_WritePosition` are compiled out of the
default build. -/
def onWriteComplete (s : Socket) (length : ℕ) : Socket :=
  if s.isOpen then
    let s' := { s with outBuffer := compact s.outBuffer length }
    if 0 < s'.outBuffer.writePosition then s'.asyncWriteSome else { s' with writeState := .idle }
  else { s with writeState := .idle }

/-! ## Handing data to the derived class -/

/-- One call of the derived class. -/
def call (grow : ℕ → ℕ → ℕ) (s : Socket) : Call → Socket
  | .read length => (s.read length).2
  | .readSkip length => s.readSkip length
  | .write bytes => s.write grow bytes
  | .forceFlushOut => s.forceFlushOut
  | .closeSocket => s.closeSocket

/-- The calls of the derived class, in order. -/
def calls (grow : ℕ → ℕ → ℕ) (s : Socket) (cs : List Call) : Socket := cs.foldl (call grow) s

/-- `Open`, once the remote endpoint is known. -/
def openSocket {δ : Type} (grow : ℕ → ℕ → ℕ) (D : Derived δ) : Socket :=
  (fresh.calls grow (D.sendVersionCheck.map .write)).startAsyncRead

/-- asio stores the bytes of a completed read in the range it was given. -/
def deliver (s : Socket) (bytes : List UInt8) : Socket :=
  { s with
    inBuffer := { s.inBuffer with
      buffer := s.inBuffer.buffer.copyIn s.inBuffer.writePosition bytes } }

/-- `m_InBuffer->m_WritePosition += p_Length`. -/
def advance (s : Socket) (length : ℕ) : Socket :=
  { s with inBuffer := { s.inBuffer with writePosition := s.inBuffer.writePosition + length } }

/-- Enlarge the in-buffer by the number of bytes that wait in the socket. -/
def enlarge (grow : ℕ → ℕ → ℕ) (s : Socket) (available : ℕ) : Socket :=
  { s with
    inBuffer := { s.inBuffer with
      buffer := s.inBuffer.buffer.resize grow (s.inBuffer.buffer.size + available) 0 } }

/-- Move the bytes not yet read to the start of the in-buffer. -/
def moveRemaining (s : Socket) : Socket :=
  { s with
    inBuffer :=
      { writePosition := s.inBuffer.writePosition - s.inBuffer.readPosition
        readPosition := 0
        buffer := s.inBuffer.buffer.copyIn 0 s.inBuffer.pending } }

/-- Set both positions of the in-buffer back to the start. -/
def resetRead (s : Socket) : Socket :=
  { s with inBuffer := { s.inBuffer with writePosition := 0, readPosition := 0 } }

/-- The test `OnRead` makes to find out whether it should enlarge the in-buffer and read on. -/
def growsFor (size length available : ℕ) : Prop := 0 < available ∧ size < length + available

instance (size length available : ℕ) : Decidable (growsFor size length available) :=
  inferInstanceAs (Decidable (_ ∧ _))

/-- The rest of `OnRead`, when it does not read on: hand the data to the derived class. -/
def process {δ : Type} (grow : ℕ → ℕ → ℕ) (D : Derived δ) (d : δ) (s : Socket) : δ × Socket :=
  let p := D.processIncomingData d s
  let s' := s.calls grow p.calls
  if p.result then (p.next, s'.resetRead.startAsyncRead)
  else if p.errno = .ebadmsg then (p.next, s'.moveRemaining.startAsyncRead)
  else (p.next, if s'.isOpen then s'.closeSocket else s')

/-- `OnRead` after a successful read of `length` bytes, `m_Socket.available()` returning
`available`. -/
def onRead {δ : Type} (grow : ℕ → ℕ → ℕ) (D : Derived δ) (d : δ) (s : Socket)
    (length available : ℕ) : δ × Socket :=
  if s.isOpen then
    if growsFor s.inBuffer.buffer.size length available then
      (d, ((s.advance length).enlarge grow available).startAsyncRead)
    else process grow D d (s.advance length)
  else (d, { s with readState := .idle })

/-- `OnRead` after a read that failed. -/
def onReadError (s : Socket) : Socket := { s with readState := .idle }.onError

/-! ## What the functions leave unchanged -/

section Frame

variable (grow : ℕ → ℕ → ℕ) (s : Socket)

/-- The in-buffer starts with 4096 bytes. -/
@[simp] lemma fresh_inBuffer : fresh.inBuffer = .new 4096 := rfl

/-- So does the out-buffer. -/
@[simp] lemma fresh_outBuffer : fresh.outBuffer = .new 4096 := rfl

/-- `CloseSocket` leaves the in-buffer alone. -/
@[simp] lemma closeSocket_inBuffer : s.closeSocket.inBuffer = s.inBuffer := by
  unfold closeSocket; split_ifs <;> rfl

/-- `CloseSocket` leaves the out-buffer alone. -/
@[simp] lemma closeSocket_outBuffer : s.closeSocket.outBuffer = s.outBuffer := by
  unfold closeSocket; split_ifs <;> rfl

/-- `CloseSocket` consumes nothing. -/
@[simp] lemma closeSocket_consumed : s.closeSocket.consumed = s.consumed := by
  unfold closeSocket; split_ifs <;> rfl

/-- `CloseSocket` leaves the outstanding reads to complete. -/
@[simp] lemma closeSocket_reads : s.closeSocket.reads = s.reads := by
  unfold closeSocket; split_ifs <;> rfl

/-- `CloseSocket` leaves the outstanding writes to complete. -/
@[simp] lemma closeSocket_writes : s.closeSocket.writes = s.writes := by
  unfold closeSocket; split_ifs <;> rfl

/-- `CloseSocket` leaves a closed socket. -/
@[simp] lemma closeSocket_isOpen : s.closeSocket.isOpen = false := by
  unfold closeSocket
  split_ifs with h
  · rfl
  · simpa using h

/-- `OnError` closes the socket. -/
lemma onError_eq : s.onError = s.closeSocket := by
  unfold onError closeSocket
  split_ifs <;> rfl

/-- `StartAsyncRead` leaves the in-buffer alone. -/
@[simp] lemma startAsyncRead_inBuffer : s.startAsyncRead.inBuffer = s.inBuffer := by
  unfold startAsyncRead; split_ifs <;> rfl

/-- `StartAsyncRead` consumes nothing. -/
@[simp] lemma startAsyncRead_consumed : s.startAsyncRead.consumed = s.consumed := by
  unfold startAsyncRead; split_ifs <;> rfl

/-- `StartAsyncRead` does not close the socket. -/
@[simp] lemma startAsyncRead_isOpen : s.startAsyncRead.isOpen = s.isOpen := by
  unfold startAsyncRead; split_ifs <;> rfl

/-- `StartWriteFlushTimer` leaves the in-buffer alone. -/
@[simp] lemma startWriteFlushTimer_inBuffer :
    s.startWriteFlushTimer.inBuffer = s.inBuffer := by
  unfold startWriteFlushTimer; split_ifs <;> rfl

/-- `StartWriteFlushTimer` leaves the out-buffer alone. -/
@[simp] lemma startWriteFlushTimer_outBuffer :
    s.startWriteFlushTimer.outBuffer = s.outBuffer := by
  unfold startWriteFlushTimer; split_ifs <;> rfl

/-- `StartWriteFlushTimer` consumes nothing. -/
@[simp] lemma startWriteFlushTimer_consumed :
    s.startWriteFlushTimer.consumed = s.consumed := by
  unfold startWriteFlushTimer; split_ifs <;> rfl

/-- `StartWriteFlushTimer` passes nothing to the network. -/
@[simp] lemma startWriteFlushTimer_accepted :
    s.startWriteFlushTimer.accepted = s.accepted := by
  unfold startWriteFlushTimer; split_ifs <;> rfl

/-- `StartWriteFlushTimer` starts no read. -/
@[simp] lemma startWriteFlushTimer_reads : s.startWriteFlushTimer.reads = s.reads := by
  unfold startWriteFlushTimer; split_ifs <;> rfl

/-- `StartWriteFlushTimer` starts no write operation. -/
@[simp] lemma startWriteFlushTimer_writes : s.startWriteFlushTimer.writes = s.writes := by
  unfold startWriteFlushTimer; split_ifs <;> rfl

/-- `StartWriteFlushTimer` does not close the socket. -/
@[simp] lemma startWriteFlushTimer_isOpen : s.startWriteFlushTimer.isOpen = s.isOpen := by
  unfold startWriteFlushTimer; split_ifs <;> rfl

/-- `Write` leaves the in-buffer alone. -/
@[simp] lemma write_inBuffer (bytes : List UInt8) :
    (s.write grow bytes).inBuffer = s.inBuffer := by
  unfold write; dsimp only; split_ifs <;> simp

/-- `Write` appends to the out-buffer. -/
@[simp] lemma write_outBuffer (bytes : List UInt8) :
    (s.write grow bytes).outBuffer = s.outBuffer.write grow bytes := by
  unfold write; dsimp only; split_ifs <;> simp

/-- `Write` consumes nothing. -/
@[simp] lemma write_consumed (bytes : List UInt8) :
    (s.write grow bytes).consumed = s.consumed := by
  unfold write; dsimp only; split_ifs <;> simp

/-- `Write` passes nothing to the network itself. -/
@[simp] lemma write_accepted (bytes : List UInt8) :
    (s.write grow bytes).accepted = s.accepted := by
  unfold write; dsimp only; split_ifs <;> simp

/-- `Write` starts no read. -/
@[simp] lemma write_reads (bytes : List UInt8) : (s.write grow bytes).reads = s.reads := by
  unfold write; dsimp only; split_ifs <;> simp

/-- `Write` starts no write operation. -/
@[simp] lemma write_writes (bytes : List UInt8) : (s.write grow bytes).writes = s.writes := by
  unfold write; dsimp only; split_ifs <;> simp

/-- `Write` does not close the socket. -/
@[simp] lemma write_isOpen (bytes : List UInt8) : (s.write grow bytes).isOpen = s.isOpen := by
  unfold write; dsimp only; split_ifs <;> simp

/-- `FlushOut` does not close the socket. -/
@[simp] lemma flushOut_isOpen : s.flushOut.isOpen = s.isOpen := by
  unfold flushOut; split_ifs <;> rfl

/-- `FlushOut` leaves the out-buffer alone. -/
@[simp] lemma flushOut_outBuffer : s.flushOut.outBuffer = s.outBuffer := by
  unfold flushOut; split_ifs <;> rfl

/-- `FlushOut` starts a write operation, which has not sent anything yet. -/
@[simp] lemma flushOut_accepted : s.flushOut.accepted = s.accepted := by
  unfold flushOut; split_ifs <;> rfl

/-- `OnWriteComplete` does not close the socket. -/
@[simp] lemma onWriteComplete_isOpen (n : ℕ) : (s.onWriteComplete n).isOpen = s.isOpen := by
  unfold onWriteComplete; dsimp only; split_ifs <;> rfl

/-- `OnWriteComplete` starts a write operation at most. -/
@[simp] lemma onWriteComplete_accepted (n : ℕ) :
    (s.onWriteComplete n).accepted = s.accepted := by
  unfold onWriteComplete; dsimp only; split_ifs <;> rfl

/-- On an open socket `OnWriteComplete` drops the bytes that were sent. -/
lemma onWriteComplete_outBuffer (hopen : s.isOpen = true) (n : ℕ) :
    (s.onWriteComplete n).outBuffer = compact s.outBuffer n := by
  unfold onWriteComplete; rw [if_pos hopen]; dsimp only; split_ifs <;> rfl

/-- No call of the derived class starts or ends a read. -/
@[simp] lemma call_reads (c : Call) : (s.call grow c).reads = s.reads := by
  cases c with
  | read n => simp only [call, read, consume]; split_ifs <;> rfl
  | readSkip n => rfl
  | write bytes => exact write_reads grow s bytes
  | forceFlushOut => rfl
  | closeSocket => exact closeSocket_reads s

/-- No calls do nothing. -/
@[simp] lemma calls_nil : s.calls grow [] = s := rfl

/-- Calls are made one after the other. -/
lemma calls_cons (c : Call) (cs : List Call) :
    s.calls grow (c :: cs) = (s.call grow c).calls grow cs := rfl

/-- The calls of a derived class leave an open socket open unless one of them closes it, and a
closed one closed. -/
lemma calls_isOpen (cs : List Call) :
    (s.calls grow cs).isOpen = true ↔ s.isOpen = true ∧ Call.closeSocket ∉ cs := by
  induction cs generalizing s with
  | nil => simp
  | cons c cs ih =>
    rw [calls_cons, ih]
    cases c with
    | read n =>
      have hsame : (s.call grow (.read n)).isOpen = s.isOpen := by
        simp only [call, read, consume]; split_ifs <;> rfl
      simp [hsame]
    | readSkip n => simp [call, readSkip, consume]
    | write bytes => simp [call]
    | forceFlushOut => simp [call, forceFlushOut]
    | closeSocket => simp [call]

/-- No call of the derived class touches the vector of the in-buffer. -/
lemma calls_buffer (cs : List Call) :
    (s.calls grow cs).inBuffer.buffer = s.inBuffer.buffer := by
  induction cs generalizing s with
  | nil => rfl
  | cons c cs ih =>
    rw [calls_cons, ih]
    cases c with
    | read n => simp only [call, read, consume]; split_ifs <;> rfl
    | readSkip n => rfl
    | write bytes => simp [call]
    | forceFlushOut => rfl
    | closeSocket => simp [call]

/-- Calls of `Write` only leave the receiving side alone. -/
lemma calls_map_write (bss : List (List UInt8)) :
    (s.calls grow (bss.map .write)).inBuffer = s.inBuffer ∧
      (s.calls grow (bss.map .write)).consumed = s.consumed ∧
      (s.calls grow (bss.map .write)).isOpen = s.isOpen := by
  induction bss generalizing s with
  | nil => exact ⟨rfl, rfl, rfl⟩
  | cons bs bss ih =>
    rw [List.map_cons, calls_cons]
    obtain ⟨hb, hc, ho⟩ := ih (s.call grow (.write bs))
    exact ⟨hb.trans (s.write_inBuffer grow bs), hc.trans (s.write_consumed grow bs),
      ho.trans (s.write_isOpen grow bs)⟩

/-- No calls of the derived class start or end a read. -/
@[simp] lemma calls_reads (cs : List Call) : (s.calls grow cs).reads = s.reads := by
  induction cs generalizing s with
  | nil => rfl
  | cons c cs ih => rw [calls_cons, ih, call_reads]

/-- `Open` leaves an empty in-buffer. -/
@[simp] lemma openSocket_inBuffer {δ : Type} (D : Derived δ) :
    (openSocket grow D).inBuffer = .new 4096 := by
  simp [openSocket, (calls_map_write grow fresh D.sendVersionCheck).1]

/-- After `Open` nothing is consumed. -/
@[simp] lemma openSocket_consumed {δ : Type} (D : Derived δ) :
    (openSocket grow D).consumed = [] := by
  rw [openSocket, startAsyncRead_consumed, (calls_map_write grow fresh D.sendVersionCheck).2.1]
  rfl

/-- `Open` opens the socket. -/
@[simp] lemma openSocket_isOpen {δ : Type} (D : Derived δ) :
    (openSocket grow D).isOpen = true := by
  rw [openSocket, startAsyncRead_isOpen, (calls_map_write grow fresh D.sendVersionCheck).2.2]
  rfl

end Frame

end Socket

end SteerStone
