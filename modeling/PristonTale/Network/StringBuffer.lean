import PristonTale.Foundations.StdVector
import PristonTale.Common.SharedDefines

set_option relaxedAutoImplicit false
set_option autoImplicit false

/-!
# String buffers

`StringBuffer` (`Shared/Network/StringBuffer.h`), to which the fields of a packet are appended, and
`ServerPacket` (`Shared/Network/ServerPacket.h`), which starts one with the packet's header.

## Main definitions

* `SteerStone.StringBuffer` — the bytes and the write position.
* `SteerStone.StringBuffer.append` — `Append`, to which the other `Append` functions come down.
* `SteerStone.ServerPacket.new` — the constructor of `ServerPacket`.

## Main results

* `SteerStone.StringBuffer.append_ofBytes` — appending puts the bytes at the end.

## Implementation notes

The assertion in `Append` is compiled out of the default build. Here a buffer that violates it has
no value, so what is shown holds with the assertion and without it.
-/

namespace SteerStone

open Foundations

/-- A `StringBuffer`. -/
structure StringBuffer where
  /-- `m_WritePosition`. -/
  writePosition : ℕ
  /-- `m_Storage`. -/
  storage : List UInt8

namespace StringBuffer

/-- The number of bytes that `Append` asserts there are fewer of. -/
def sizeLimit : ℕ := 10000000

/-- The constructor: nothing is stored. -/
def new : StringBuffer := ⟨0, []⟩

/-- `Append`: make room for the bytes, then copy them in at the write position, which moves past
them. -/
def append (b : StringBuffer) (bytes : List UInt8) : Option StringBuffer :=
  if bytes = [] then some b
  else if b.storage.length < sizeLimit then
    let needed := b.writePosition + bytes.length
    let fitted :=
      if b.storage.length < needed then
        b.storage ++ List.replicate (needed - b.storage.length) 0
      else b.storage
    some ⟨needed, overwrite fitted b.writePosition bytes⟩
  else none

/-- `AppendBase64`. -/
def appendBase64 (b : StringBuffer) (value : UInt32) : Option StringBuffer :=
  b.append (encodeBase64 value)

/-- `AppendWired`. -/
def appendWired (b : StringBuffer) (value : Int64) : Option StringBuffer :=
  b.append (encodeWired value)

/-- `AppendWiredBool`. -/
def appendWiredBool (b : StringBuffer) (value : Bool) : Option StringBuffer :=
  if value then b.appendWired 1 else b.appendWired 0

/-- `AppendSOT`. -/
def appendSOT (b : StringBuffer) : Option StringBuffer := b.append [2]

/-- `AppendString`. -/
def appendString (b : StringBuffer) (buffer : List UInt8) (delimiter : Bool) :
    Option StringBuffer := do
  let b ← b.append buffer
  if delimiter then b.appendSOT else some b

/-- The buffer to which the bytes have been appended. -/
def ofBytes (bytes : List UInt8) : StringBuffer := ⟨bytes.length, bytes⟩

/-- Appending puts the bytes at the end. -/
lemma append_ofBytes {l : List UInt8} (h : l.length < sizeLimit) (bytes : List UInt8) :
    (ofBytes l).append bytes = some (ofBytes (l ++ bytes)) := by
  by_cases hbytes : bytes = []
  · rw [append, if_pos hbytes, hbytes, List.append_nil]
  · have hpos : 0 < bytes.length := List.length_pos_iff.mpr hbytes
    have hroom : l.length < l.length + bytes.length := by omega
    have hcopy : overwrite (l ++ List.replicate (l.length + bytes.length - l.length) 0) l.length
        bytes = l ++ bytes := by
      rw [overwrite, List.take_left, Nat.add_sub_cancel_left, List.drop_eq_nil_of_le (by simp),
        List.append_nil]
    simp only [append, ofBytes, hbytes, h, hroom, hcopy, if_true, if_false, List.length_append]

end StringBuffer

/-- A `ServerPacket`. -/
structure ServerPacket where
  /-- `m_Buffer`. -/
  buffer : StringBuffer

/-- The constructor of `ServerPacket`: the header is appended first. -/
def ServerPacket.new (headerId : UInt32) : Option ServerPacket :=
  (StringBuffer.new.appendBase64 headerId).map ServerPacket.mk

/-- A new packet holds its header. -/
lemma ServerPacket.new_eq (headerId : UInt32) :
    ServerPacket.new headerId = some ⟨StringBuffer.ofBytes (encodeBase64 headerId)⟩ := by
  have happend := StringBuffer.append_ofBytes (by decide : ([] : List UInt8).length < _)
    (encodeBase64 headerId)
  exact congrArg (Option.map ServerPacket.mk) happend

end SteerStone
