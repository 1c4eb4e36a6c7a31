import Mathlib.Data.Nat.Basic
import PristonTale.Foundations.StdVector

set_option relaxedAutoImplicit false
set_option autoImplicit false

/-!
# Packet buffers

`PacketBuffer` (`Shared/Network/PacketBuffer.cpp`): a vector of bytes with a write position and a
read position. `Socket` has two of them and, as a friend class, also moves their positions and
their bytes itself; what it does there is in `PristonTale.Network.Socket`.

The positions are `size_t` in the source. No operation below takes the read position past the
write position while its caller asks for no more than `ReadLengthRemaining`, so the differences
are taken in `ℕ`.

## Main definitions

* `SteerStone.PacketBuffer` — the vector and its two positions.
* `SteerStone.PacketBuffer.read`, `SteerStone.PacketBuffer.write` — its operations.
* `SteerStone.PacketBuffer.pending` — the bytes between the positions.

## Main results

* `SteerStone.PacketBuffer.pending_read` — reading takes pending bytes from the front.
* `SteerStone.PacketBuffer.take_write` — writing puts its bytes after those up to the write
  position.
* `SteerStone.PacketBuffer.block_write`, `SteerStone.PacketBuffer.block_write_of_lt` — writing moves
  the bytes to a fresh block exactly when they outgrow the capacity.
-/

namespace SteerStone

open Foundations

/-- `STORAGE_INITIAL_SIZE`. -/
def storageInitialSize : ℕ := 4096

/-- A `PacketBuffer`. -/
structure PacketBuffer where
  /-- `m_WritePosition`. -/
  writePosition : ℕ
  /-- `m_ReadPosition`. -/
  readPosition : ℕ
  /-- `m_Buffer`. -/
  buffer : StdVector UInt8

namespace PacketBuffer

/-- The constructor: `initializeSize` zero bytes and both positions at the start. -/
def new (initializeSize : ℕ) : PacketBuffer := ⟨0, 0, .replicate initializeSize 0⟩

/-- `ReadLengthRemaining`. -/
def readLengthRemaining (b : PacketBuffer) : ℕ := b.writePosition - b.readPosition

/-- `Read`: the `length` bytes at the read position, which moves past them. The assertion
`ReadLengthRemaining() >= p_Length` is compiled out of the default build. -/
def read (b : PacketBuffer) (length : ℕ) : List UInt8 × PacketBuffer :=
  ((b.buffer.data.drop b.readPosition).take length,
    { b with readPosition := b.readPosition + length })

/-- The vector after `Write` has made room: enlarged to `newLength` if it is smaller. -/
def fitted (grow : ℕ → ℕ → ℕ) (b : PacketBuffer) (newLength : ℕ) : StdVector UInt8 :=
  if b.buffer.size < newLength then b.buffer.resize grow newLength 0 else b.buffer

/-- `Write`: make room for the bytes, then copy them in at the write position, which moves past
them. -/
def write (grow : ℕ → ℕ → ℕ) (b : PacketBuffer) (bytes : List UInt8) : PacketBuffer :=
  { b with
    buffer := (b.fitted grow (b.writePosition + bytes.length)).copyIn b.writePosition bytes
    writePosition := b.writePosition + bytes.length }

/-- The bytes written and not yet read. -/
def pending (b : PacketBuffer) : List UInt8 :=
  (b.buffer.data.take b.writePosition).drop b.readPosition

/-- The positions are in order and inside the vector. -/
structure Valid (b : PacketBuffer) : Prop where
  /-- The read position has not passed the write position. -/
  read_le : b.readPosition ≤ b.writePosition
  /-- The write position is inside the vector. -/
  write_le : b.writePosition ≤ b.buffer.size

variable {b : PacketBuffer}

/-- A new buffer has the size it is made with. -/
@[simp] lemma size_new (n : ℕ) : (new n).buffer.size = n := StdVector.size_replicate n 0

/-- Its block has that size. -/
@[simp] lemma capacity_new (n : ℕ) : (new n).buffer.capacity = n := rfl

/-- No block was allocated before it. -/
@[simp] lemma block_new (n : ℕ) : (new n).buffer.block = 0 := rfl

/-- A new buffer is empty. -/
@[simp] lemma writePosition_new (n : ℕ) : (new n).writePosition = 0 := rfl

/-- Writing moves the write position. -/
@[simp] lemma writePosition_write (grow : ℕ → ℕ → ℕ) (b : PacketBuffer) (bytes : List UInt8) :
    (b.write grow bytes).writePosition = b.writePosition + bytes.length := rfl

/-- A new buffer is valid. -/
lemma valid_new (n : ℕ) : (new n).Valid := ⟨le_rfl, Nat.zero_le _⟩

/-- A new buffer holds nothing to read. -/
@[simp] lemma pending_new (n : ℕ) : (new n).pending = [] := by simp [new, pending]

/-- There are as many pending bytes as `ReadLengthRemaining` says. -/
lemma length_pending (h : b.Valid) : b.pending.length = b.readLengthRemaining := by
  have hw : b.writePosition ≤ b.buffer.data.length := h.write_le
  simp only [pending, readLengthRemaining, List.length_drop, List.length_take]
  omega

/-- A read within `ReadLengthRemaining` takes the first pending bytes. -/
lemma read_fst {n : ℕ} (hn : n ≤ b.readLengthRemaining) :
    (b.read n).1 = b.pending.take n := by
  unfold readLengthRemaining at hn
  rw [read, pending, List.drop_take, List.take_take, Nat.min_eq_left hn]

/-- After a read the other bytes are still pending. -/
lemma pending_read (n : ℕ) : (b.read n).2.pending = b.pending.drop n := by
  simp only [read, pending, List.drop_drop]

/-- A read within `ReadLengthRemaining` keeps the buffer valid. -/
lemma Valid.read (h : b.Valid) {n : ℕ} (hn : n ≤ b.readLengthRemaining) :
    (b.read n).2.Valid := by
  have hr := h.read_le
  refine ⟨?_, h.write_le⟩
  simp only [PacketBuffer.read, readLengthRemaining] at hn ⊢
  omega

/-- The vector `Write` copies into is large enough, and no smaller than it was. -/
lemma size_fitted (grow : ℕ → ℕ → ℕ) (b : PacketBuffer) (n : ℕ) :
    (b.fitted grow n).size = max b.buffer.size n := by
  unfold fitted
  split_ifs with hlt
  · rw [StdVector.size_resize, Nat.max_eq_right (Nat.le_of_lt hlt)]
  · rw [Nat.max_eq_left (by omega)]

/-- The vector `Write` copies into has the old bytes. -/
lemma take_fitted (grow : ℕ → ℕ → ℕ) (b : PacketBuffer) {n j : ℕ} (hj : j ≤ b.buffer.size) :
    (b.fitted grow n).data.take j = b.buffer.data.take j := by
  unfold fitted
  split_ifs with hlt
  · exact StdVector.take_data_resize grow _ 0 (Nat.le_of_lt hlt) hj
  · rfl

/-- `Write` leaves the vector as large as the bytes need, and no smaller than it was. -/
lemma size_write (grow : ℕ → ℕ → ℕ) (b : PacketBuffer) (bytes : List UInt8) :
    (b.write grow bytes).buffer.size = max b.buffer.size (b.writePosition + bytes.length) := by
  have hs := size_fitted grow b (b.writePosition + bytes.length)
  rw [← hs]
  refine StdVector.size_copyIn _ ?_
  rw [hs]
  exact Nat.le_max_right _ _

/-- `Write` keeps the buffer valid. -/
lemma Valid.write (grow : ℕ → ℕ → ℕ) (h : b.Valid) (bytes : List UInt8) :
    (b.write grow bytes).Valid := by
  refine ⟨?_, ?_⟩
  · have := h.read_le
    simp only [PacketBuffer.write]
    omega
  · rw [size_write grow]
    exact Nat.le_max_right _ _

/-- `Write` keeps the bytes up to the write position and puts the new ones after them. -/
lemma take_write (grow : ℕ → ℕ → ℕ) (h : b.Valid) (bytes : List UInt8) :
    (b.write grow bytes).buffer.data.take (b.write grow bytes).writePosition =
      b.buffer.data.take b.writePosition ++ bytes := by
  have hw := h.write_le
  have hs := size_fitted grow b (b.writePosition + bytes.length)
  unfold StdVector.size at hs
  simp only [PacketBuffer.write, StdVector.data_copyIn]
  rw [take_overwrite bytes (by omega), take_fitted grow b hw]

/-- `Write` does not move the bytes to another block while they fit in the capacity. -/
lemma block_write (grow : ℕ → ℕ → ℕ) {bytes : List UInt8}
    (hfit : b.writePosition + bytes.length ≤ b.buffer.capacity) :
    (b.write grow bytes).buffer.block = b.buffer.block := by
  simp only [PacketBuffer.write, StdVector.block_copyIn, fitted]
  split_ifs
  · exact StdVector.block_resize_of_le grow _ 0 hfit
  · rfl

/-- `Write` keeps the capacity while the bytes fit in it. -/
lemma capacity_write (grow : ℕ → ℕ → ℕ) {bytes : List UInt8}
    (hfit : b.writePosition + bytes.length ≤ b.buffer.capacity) :
    (b.write grow bytes).buffer.capacity = b.buffer.capacity := by
  simp only [PacketBuffer.write, StdVector.capacity_copyIn, fitted]
  split_ifs
  · exact StdVector.capacity_resize_of_le grow _ 0 hfit
  · rfl

/-- `Write` moves the bytes to a fresh block when they outgrow the capacity. -/
lemma block_write_of_lt (grow : ℕ → ℕ → ℕ) {bytes : List UInt8}
    (hb : b.buffer.size ≤ b.buffer.capacity)
    (hgrow : b.buffer.capacity < b.writePosition + bytes.length) :
    (b.write grow bytes).buffer.block = b.buffer.block + 1 := by
  simp only [PacketBuffer.write, StdVector.block_copyIn, fitted]
  rw [if_pos (by omega), StdVector.block_resize_of_lt grow _ 0 hb hgrow]

end PacketBuffer

end SteerStone
