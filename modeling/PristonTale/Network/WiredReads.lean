import PristonTale.Common.WiredNumbers
import PristonTale.Network.ClientPacket
import Mathlib.Tactic.IntervalCases

set_option relaxedAutoImplicit false
set_option autoImplicit false

/-!
# Wired reads

Whether a wired read takes the bytes it decodes. The first byte says how many bytes the number has,
but the source moves the read position by the length of the number encoded again, by the encoder's
rules and as the type it was read to. A client that writes a number in more bytes than it needs, or
a negative one where the server reads an unsigned one, leaves the position inside the number or
past it, and every field after it is read from the wrong place.

## Main definitions

* `SteerStone.Network.ClientPacket.Consumes` — a read that ends behind the number it decodes.
* `SteerStone.Wired.SignedFits`, `SteerStone.Wired.UnsignedFits` — the texts whose number, read as
  signed and as unsigned, is encoded in as many bytes again.

## Main results

* `SteerStone.Network.ClientPacket.wired_reads_consume_iff` — which texts the wired reads consume.
-/

namespace SteerStone

open Foundations Network.ClientPacket

namespace Wired

variable {bytes : List UInt8}

/-- The number as an `int`, encoded again, has as many bytes: it is given in the fewest, and its
absolute value is not so close to 2^32 that the `int` is close to zero. -/
def SignedFits (bytes : List UInt8) : Prop := Shortest bytes ∧ magnitude bytes ≤ 2 ^ 32 - 2 ^ 26

/-- The number as a `uint32`, encoded again, has as many bytes: it is not negative and given in the
fewest, or it is the zero of one byte with a sign, or a negative one of six bytes. -/
def UnsignedFits (bytes : List UInt8) : Prop :=
  if negative bytes then
    count bytes = 1 ∧ magnitude bytes = 0 ∨
      count bytes = 6 ∧ 0 < magnitude bytes ∧ magnitude bytes ≤ 2 ^ 32 - 2 ^ 26
  else Shortest bytes

instance : Decidable (SignedFits bytes) := inferInstanceAs (Decidable (_ ∧ _))

instance : Decidable (UnsignedFits bytes) :=
  inferInstanceAs (Decidable (if negative bytes then count bytes = 1 ∧ magnitude bytes = 0 ∨
    count bytes = 6 ∧ 0 < magnitude bytes ∧ magnitude bytes ≤ 2 ^ 32 - 2 ^ 26 else Shortest bytes))

/-- The number as an `int`. -/
lemma natAbs_signed : (Int32.ofInt (value bytes)).toInt64.toInt.natAbs =
    ((value bytes).bmod (2 ^ 32)).natAbs := by
  rw [Int32.toInt_toInt64, Int32.toInt_ofInt]
  rfl

/-- The number as a `uint32`. -/
lemma natAbs_unsigned :
    (Int32.ofInt (value bytes)).toUInt32.toUInt64.toInt64.toInt.natAbs =
      (value bytes % 2 ^ 32).toNat := by
  rw [toInt_toUInt64_toInt64, ← Int32.toNat_toBitVec, Int32.toBitVec_ofInt, BitVec.toNat_ofInt]
  rfl

/-- **Encoded as an `int`**, a number has as many bytes again exactly when it fits.

**Proof sketch.** Up to 2^31 the absolute value is the number there was. Above, the `int` has the
absolute value that is missing to 2^32; the number had six bytes then, and needs them again as long
as 2^26 are missing. -/
theorem length_signed_iff (h : Complete bytes) :
    (encodeWired (Int32.ofInt (value bytes)).toInt64).length = count bytes ↔ SignedFits bytes := by
  have hlt := magnitude_lt h
  rw [length_encodeWired_eq_iff _ h.1, natAbs_signed, SignedFits, shortest_iff h, value,
    Int.bmod_def]
  obtain ⟨hone, hsix, -⟩ := h
  generalize count bytes = c at *
  generalize magnitude bytes = m at *
  interval_cases c <;> split <;> split <;> omega

/-- **Encoded as a `uint32`**, a number has as many bytes again exactly when it fits.

**Proof sketch.** A negative number is taken from 2^32, so it needs six bytes unless it is zero or
so large that less than 2^26 is left. -/
theorem length_unsigned_iff (h : Complete bytes) :
    (encodeWired (Int32.ofInt (value bytes)).toUInt32.toUInt64.toInt64).length = count bytes ↔
      UnsignedFits bytes := by
  have hlt := magnitude_lt h
  rw [length_encodeWired_eq_iff _ h.1, natAbs_unsigned, UnsignedFits, shortest_iff h, value]
  obtain ⟨hone, hsix, -⟩ := h
  generalize count bytes = c at *
  generalize magnitude bytes = m at *
  interval_cases c <;> split <;> omega

end Wired

namespace Network.ClientPacket

/-- A read consumes what it decodes: it returns, and the read position is behind the bytes of the
number. -/
def Consumes {α : Type} (r : Reader ClientPacket α) (p : ClientPacket) : Prop :=
  ∃ a, r.result p = (some a, input.advance p (Wired.count (input.remaining p)))

/-- Computing with the number that was read does not move the read position. -/
lemma consumes_map_iff {α γ : Type} (f : α → γ) (r : Reader ClientPacket α) (p : ClientPacket) :
    Consumes (f <$> r) p ↔ Consumes r p := by
  rw [Consumes, Consumes, Reader.result_map]
  rcases r.result p with ⟨_ | a, p'⟩
  · simp
  · simp

/-! ## What a wired read leaves -/

/-- A wired read over what memory holds behind the characters that are left: the zero at their end,
and then `behind`. -/
def readWiredOver {α : Type} (behind : List UInt8) (convert : Int32 → α) (widen : α → Int64) :
    Reader ClientPacket α := do
  let p ← get
  let buffer ← substrFrom p.content p.readPosition
  let i := convert (decodeWired (buffer ++ 0 :: behind))
  skip (encodeWired (widen i)).length
  return i

variable {α : Type} (convert : Int32 → α) (widen : α → Int64) {p : ClientPacket}

/-- The wired reads are those with nothing behind the end. -/
lemma readWired_eq : readWired convert widen = readWiredOver [] convert widen := by
  simp only [readWired, readWiredOver, decodeWired_concat_zero]

/-- What a wired read returns and leaves. -/
lemma result_readWiredOver (behind : List UInt8) (hp : input.Valid p) :
    let i := convert (decodeWired (input.remaining p ++ 0 :: behind))
    (readWiredOver behind convert widen).result p = (some i,
      { p with readPosition := (p.readPosition + (encodeWired (widen i)).length) % 2 ^ 64 }) := by
  rw [readWiredOver, Reader.result_bind (Reader.result_get p),
    Reader.result_bind (result_substrFrom hp rfl)]
  rfl

/-- A wired read consumes the number exactly when the number encoded again has as many bytes.

**Proof sketch.** The number's bytes are in the content, so the position behind them is below 2^64,
and a number of 32 bits moves the position by six at most. -/
lemma consumes_readWired_iff (hwiden : ∀ i, (widen (convert i)).toInt.natAbs < 2 ^ 32)
    (hlength : p.content.length < 2 ^ 64) (h : Wired.Complete (input.remaining p)) :
    Consumes (readWired convert widen) p ↔
      (encodeWired (widen (convert (Int32.ofInt (Wired.value (input.remaining p)))))).length =
        Wired.count (input.remaining p) := by
  have hremaining : (input.remaining p).length = p.content.length - p.readPosition :=
    List.length_drop
  have hend : p.readPosition + Wired.count (input.remaining p) ≤ p.content.length := by
    have := h.1
    have := h.2.2
    omega
  have hp : input.Valid p := ⟨by omega, hlength⟩
  have hmost := (length_encodeWired_le_iff _).mpr
    (hwiden (Int32.ofInt (Wired.value (input.remaining p))))
  rw [Consumes, readWired_eq, result_readWiredOver convert widen [] hp, decodeWired_concat_zero,
    Wired.decodeWired_eq h]
  generalize (encodeWired _).length = n at *
  constructor
  · rintro ⟨a, heq⟩
    have hpos : (p.readPosition + n) % 2 ^ 64 =
        p.readPosition + Wired.count (input.remaining p) :=
      congrArg (fun q : Option α × ClientPacket => q.2.readPosition) heq
    omega
  · rintro rfl
    refine ⟨_, Prod.ext rfl ?_⟩
    show ({ p with readPosition := _ } : ClientPacket) = input.advance p _
    rw [Nat.mod_eq_of_lt (by omega)]
    rfl

/-- **Wired reads** consume the numbers that fit their type: read as an `int` or as a `bool`, the
number has to be given in the fewest bytes and not to lie above 2^32 - 2^26; read as a `uint32`, it
has to be given in the fewest bytes if it has no sign, and with a sign it has to be a zero of one
byte or to have six bytes, not all zero, and not to lie above 2^32 - 2^26.

**Proof sketch.** The position is moved by the length of the number encoded again
(`consumes_readWired_iff`), which is the count in the first byte exactly for these texts
(`Wired.length_signed_iff`, `Wired.length_unsigned_iff`). A `bool` is read as an `int`. -/
theorem wired_reads_consume_iff (hlength : p.content.length < 2 ^ 64)
    (h : Wired.Complete (input.remaining p)) :
    (Consumes readWiredInt p ↔ Wired.SignedFits (input.remaining p)) ∧
      (Consumes readWiredUint p ↔ Wired.UnsignedFits (input.remaining p)) ∧
      (Consumes readWiredBool p ↔ Wired.SignedFits (input.remaining p)) := by
  refine ⟨?_, ?_, ?_⟩
  · rw [readWiredInt, consumes_readWired_iff id Int32.toInt64 natAbs_toInt64_lt hlength h]
    exact Wired.length_signed_iff h
  · rw [readWiredUint, consumes_readWired_iff Int32.toUInt32 (fun i => i.toUInt64.toInt64)
      (fun i => natAbs_toUInt64_lt i.toUInt32) hlength h]
    exact Wired.length_unsigned_iff h
  · rw [readWiredBool, bind_pure_comp, consumes_map_iff,
      consumes_readWired_iff Int32.toInt64 id natAbs_toInt64_lt hlength h]
    exact Wired.length_signed_iff h

/-- The number 300 in its three bytes is consumed by every read. -/
theorem wired_reads_consume_three_hundred :
    Consumes readWiredInt ⟨0, [88, 75, 65], 0⟩ ∧ Consumes readWiredUint ⟨0, [88, 75, 65], 0⟩ ∧
      Consumes readWiredBool ⟨0, [88, 75, 65], 0⟩ := by
  have hlength : (⟨0, [88, 75, 65], 0⟩ : ClientPacket).content.length < 2 ^ 64 := by decide
  have hcomplete : Wired.Complete (input.remaining ⟨0, [88, 75, 65], 0⟩) := by decide
  obtain ⟨hint, huint, hbool⟩ := wired_reads_consume_iff hlength hcomplete
  exact ⟨hint.mpr (by decide), huint.mpr (by decide), hbool.mpr (by decide)⟩

/-- The number -1 in its one byte, read as a `uint32`, moves the read position by six, past the end
of the content; a zero in two bytes, read as anything, moves it by one, to the second byte. -/
theorem wired_reads_consume_fails :
    Wired.Complete (input.remaining ⟨0, [77], 0⟩) ∧ ¬ Consumes readWiredUint ⟨0, [77], 0⟩ ∧
      (readWiredUint.result ⟨0, [77], 0⟩).2.readPosition = 6 ∧
    Wired.Complete (input.remaining ⟨0, [80, 64], 0⟩) ∧ ¬ Consumes readWiredInt ⟨0, [80, 64], 0⟩ ∧
      ¬ Consumes readWiredUint ⟨0, [80, 64], 0⟩ ∧ ¬ Consumes readWiredBool ⟨0, [80, 64], 0⟩ ∧
      (readWiredInt.result ⟨0, [80, 64], 0⟩).2.readPosition = 1 := by
  have hmoved : ∀ {α : Type} {r : Reader ClientPacket α} {p : ClientPacket}, Consumes r p →
      (r.result p).2.readPosition = p.readPosition + Wired.count (input.remaining p) := by
    rintro α r p ⟨a, h⟩
    rw [h]
    rfl
  refine ⟨by decide, fun h => ?_, by decide +kernel, by decide, fun h => ?_, fun h => ?_,
    fun h => ?_, by decide +kernel⟩ <;>
  exact absurd (hmoved h) (by decide +kernel)

end Network.ClientPacket

end SteerStone
