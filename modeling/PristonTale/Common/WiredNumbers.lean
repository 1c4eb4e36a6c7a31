import PristonTale.Common.SharedDefines
import Mathlib.Data.List.GetD

set_option relaxedAutoImplicit false
set_option autoImplicit false

/-!
# The wired numbers that a text may hold

`EncodeWired` writes a number in the fewest bytes it can. `DecodeWired` takes more than that: the
count of bytes that the first byte names, with zeros for the highest digits, a sign before a zero,
and 32 bits beside the sign, which an `int` does not hold. Here is what a text says that holds such
a number, and what the decoder makes of it.

## Main definitions

* `SteerStone.Wired.count`, `SteerStone.Wired.negative`, `SteerStone.Wired.magnitude`,
  `SteerStone.Wired.value` — what the bytes say.
* `SteerStone.Wired.Complete` — all the bytes are there, and there are at most six.
* `SteerStone.Wired.Shortest` — the highest digit is not zero.

## Main results

* `SteerStone.Wired.decodeWired_eq` — what is decoded, modulo 2^32.
* `SteerStone.Wired.shortest_iff` — the shortest texts are those whose number needs the bytes.
* `SteerStone.length_encodeWired_eq_iff` — the numbers that are encoded in so many bytes.
-/

namespace SteerStone

/-- **The numbers that are encoded in `c` bytes** are those below `4 * 64 ^ (c - 1)` for which fewer
bytes do not do. -/
lemma length_encodeWired_eq_iff (value : Int64) {c : ℕ} (hc : 1 ≤ c) :
    (encodeWired value).length = c ↔ value.toInt.natAbs < 4 * 64 ^ (c - 1) ∧
      (c = 1 ∨ 4 * 64 ^ (c - 2) ≤ value.toInt.natAbs) := by
  have hpos : 1 ≤ (encodeWired value).length := Nat.succ_le_succ (Nat.zero_le _)
  have hmost := length_encodeWired_le_succ_iff value (c - 1)
  rw [Nat.sub_add_cancel hc] at hmost
  rw [← hmost]
  by_cases hone : c = 1
  · omega
  · have hfewer := length_encodeWired_le_succ_iff value (c - 2)
    rw [show c - 2 + 1 = c - 1 by omega] at hfewer
    have hmore : 4 * 64 ^ (c - 2) ≤ value.toInt.natAbs ↔ ¬ (encodeWired value).length ≤ c - 1 := by
      rw [hfewer, Nat.not_lt]
    rw [hmore]
    omega

/-! ## The digits in a text -/

variable {buffer : List UInt8} {pos n : ℕ}

/-- All the digits are read. -/
lemma length_digitsAt (h : pos + n ≤ buffer.length) : (digitsAt buffer pos n).length = n := by
  rw [digitsAt, List.length_map, List.length_take, List.length_drop]
  omega

/-- The number of the digits. -/
lemma ofDigits_digitsAt_lt (h : pos + n ≤ buffer.length) :
    Nat.ofDigits 64 (digitsAt buffer pos n) < 64 ^ n := by
  have hdigit : ∀ d ∈ digitsAt buffer pos n, d < 64 := fun d => lt_of_mem_digitsAt
  have hlt := Nat.ofDigits_lt_base_pow_length (by decide) hdigit
  rwa [length_digitsAt h] at hlt

/-- The last digit counts the most. -/
lemma ofDigits_digitsAt_succ (h : pos + n < buffer.length) :
    Nat.ofDigits 64 (digitsAt buffer pos (n + 1)) =
      Nat.ofDigits 64 (digitsAt buffer pos n) +
        64 ^ n * (buffer.getD (pos + n) 0 &&& 0x3f).toNat := by
  have hchar : buffer.getD (pos + n) 0 = buffer[pos + n] := (List.getElem_eq_getD 0).symm
  have hdigits : digitsAt buffer pos (n + 1) =
      digitsAt buffer pos n ++ [(buffer[pos + n] &&& 0x3f).toNat] := by
    have hget : (buffer.drop pos)[n]? = some buffer[pos + n] := by
      rw [List.getElem?_drop, List.getElem?_eq_getElem h]
    rw [digitsAt, List.take_add_one, hget, List.map_append]
    rfl
  rw [hdigits, Nat.ofDigits_append, length_digitsAt (by omega), Nat.ofDigits_singleton, hchar]

/-- The loop reads what the characters are, whether they are the text's or its end's. -/
lemma decodeWiredFrom_congr {buffer buffer' : List UInt8}
    (h : ∀ i, buffer.getD i 0 = buffer'.getD i 0) (n b shiftAmount : ℕ) (v : Int32) :
    decodeWiredFrom buffer n b shiftAmount v = decodeWiredFrom buffer' n b shiftAmount v := by
  induction n generalizing b shiftAmount v with
  | zero => rfl
  | succ n ih => rw [decodeWiredFrom, decodeWiredFrom, h b, ih]

/-- The zero at the end of a text is what `decodeWired` takes to be there. -/
lemma decodeWired_concat_zero (buffer : List UInt8) :
    decodeWired (buffer ++ [0]) = decodeWired buffer := by
  have hchar : ∀ i, (buffer ++ [0]).getD i 0 = buffer.getD i 0 := by
    intro i
    rcases Nat.lt_trichotomy i buffer.length with hi | rfl | hi
    · rw [List.getD_append _ _ _ _ hi]
    · simp
    · rw [List.getD_eq_default _ _ (by rw [List.length_append]; exact hi),
        List.getD_eq_default _ _ hi.le]
  simp only [decodeWired, hchar 0, decodeWiredFrom_congr hchar]

namespace Wired

variable (bytes : List UInt8)

/-- The count of bytes in the first byte. -/
def count : ℕ := (bytes.getD 0 0 >>> 3 &&& 7).toNat

/-- The sign in the first byte. -/
def negative : Bool := bytes.getD 0 0 &&& 4 = 4

/-- The number without the sign: the two lowest bits are in the first byte, the digits follow. -/
def magnitude : ℕ :=
  (bytes.getD 0 0 &&& 3).toNat + 4 * Nat.ofDigits 64 (digitsAt bytes 1 (count bytes - 1))

/-- The number with the sign. -/
def value : ℤ := if negative bytes then -(magnitude bytes : ℤ) else magnitude bytes

/-- All the bytes of a number are there; it has one to six of them. -/
def Complete : Prop := 1 ≤ count bytes ∧ count bytes ≤ 6 ∧ count bytes ≤ bytes.length

/-- The number is given in the fewest bytes: the digit in the last one is not zero. -/
def Shortest : Prop := count bytes = 1 ∨ bytes.getD (count bytes - 1) 0 &&& 0x3f ≠ 0

instance : Decidable (Complete bytes) := inferInstanceAs (Decidable (_ ∧ _ ∧ _))
instance : Decidable (Shortest bytes) := inferInstanceAs (Decidable (_ ∨ _))

variable {bytes}

/-- What the two lowest bits of a byte are. -/
lemma and_three_lt (c : UInt8) : (c &&& 3).toNat < 4 := by
  have hmask : (c &&& 3).toNat = c.toNat % 4 := by
    rw [UInt8.toNat_and]
    exact Nat.and_two_pow_sub_one_eq_mod c.toNat 2
  omega

/-- The number fits in its bytes. -/
lemma magnitude_lt (h : Complete bytes) : magnitude bytes < 4 * 64 ^ (count bytes - 1) := by
  have hdigits : Nat.ofDigits 64 (digitsAt bytes 1 (count bytes - 1)) < 64 ^ (count bytes - 1) := by
    apply ofDigits_digitsAt_lt
    have := h.2.2
    have := h.1
    omega
  have hlow := and_three_lt (bytes.getD 0 0)
  rw [magnitude]
  omega

/-- A complete number has 32 bits. -/
lemma magnitude_lt_two_pow (h : Complete bytes) : magnitude bytes < 2 ^ 32 := by
  calc magnitude bytes < 4 * 64 ^ (count bytes - 1) := magnitude_lt h
    _ ≤ 4 * 64 ^ 5 :=
      Nat.mul_le_mul_left 4 (Nat.pow_le_pow_right (by decide) (Nat.sub_le_sub_right h.2.1 1))

/-- **What is decoded** is the number modulo 2^32. -/
theorem decodeWired_eq (h : Complete bytes) : decodeWired bytes = Int32.ofInt (value bytes) := by
  obtain ⟨hone, hsix, hlength⟩ := h
  have hloop : decodeWiredFrom bytes (count bytes - 1) 1 2
      (Int32.ofNat (bytes.getD 0 0 &&& 3).toNat) = Int32.ofNat (magnitude bytes) :=
    decodeWiredFrom_eq (k := 0) (by omega) (by omega) (and_three_lt (bytes.getD 0 0))
  have hdecode : decodeWired bytes = if negative bytes then Int32.ofNat (magnitude bytes) * -1
      else Int32.ofNat (magnitude bytes) := by
    rw [← hloop]
    simp only [decodeWired, negative, count, decide_eq_true_eq]
  rw [hdecode, value]
  split
  · rw [Int32.ofInt_neg, Int32.ofInt_eq_ofNat, Int32.mul_neg, Int32.mul_one]
  · rw [Int32.ofInt_eq_ofNat]

/-- A complete number is the same whatever follows it. -/
lemma value_append (h : Complete bytes) (rest : List UInt8) :
    Complete (bytes ++ rest) ∧ value (bytes ++ rest) = value bytes := by
  obtain ⟨hone, hsix, hlength⟩ := h
  have hfirst : (bytes ++ rest).getD 0 0 = bytes.getD 0 0 := List.getD_append _ _ _ _ (by omega)
  have hcount : count (bytes ++ rest) = count bytes := by rw [count, hfirst, count]
  have hdigits : digitsAt (bytes ++ rest) 1 (count bytes - 1) =
      digitsAt bytes 1 (count bytes - 1) := by
    rw [digitsAt, List.drop_append_of_le_length (by omega), List.take_append_of_le_length, digitsAt]
    rw [List.length_drop]
    omega
  constructor
  · rw [Complete, hcount, List.length_append]
    omega
  · rw [value, value, magnitude, magnitude, negative, negative, hcount, hfirst, hdigits]

/-- **The shortest texts** are those whose number needs all the bytes.

**Proof sketch.** With `k + 2` bytes the last digit counts `4 * 64 ^ k` times, and what comes before
it makes less than that. -/
theorem shortest_iff (h : Complete bytes) :
    Shortest bytes ↔ count bytes = 1 ∨ 4 * 64 ^ (count bytes - 2) ≤ magnitude bytes := by
  obtain ⟨hone, -, hlength⟩ := h
  refine or_congr_right' fun hc => ?_
  obtain ⟨k, hk⟩ : ∃ k, count bytes = k + 2 := ⟨count bytes - 2, by omega⟩
  have hsum := ofDigits_digitsAt_succ (show 1 + k < bytes.length by omega)
  have hfront := ofDigits_digitsAt_lt (show 1 + k ≤ bytes.length by omega)
  have hlow := and_three_lt (bytes.getD 0 0)
  have hzero : bytes.getD (k + 1) 0 &&& 0x3f ≠ 0 ↔ (bytes.getD (k + 1) 0 &&& 0x3f).toNat ≠ 0 :=
    not_congr UInt8.toNat_inj.symm
  rw [Nat.add_comm 1 k] at hsum
  rw [magnitude, hk, Nat.add_sub_cancel, show k + 2 - 1 = k + 1 from rfl, hzero, hsum]
  generalize (bytes.getD (k + 1) 0 &&& 0x3f).toNat = d
  constructor
  · intro hd
    have : 64 ^ k * 1 ≤ 64 ^ k * d := Nat.mul_le_mul_left _ (by omega)
    omega
  · rintro hle rfl
    omega

/-- The first byte of a number of 32 bits has the count of its bytes. -/
lemma count_encodeWired {value : Int64} (h : value.toInt.natAbs < 2 ^ 32) :
    count (encodeWired value) = (encodeWired value).length := by
  have hcount := (length_encodeWired_le_iff value).mpr h
  rw [encodeWired_eq, List.length_cons, List.length_map] at hcount ⊢
  exact (wired_first (Nat.mod_lt _ (by decide)) (Nat.lt_of_le_of_lt hcount (by decide))
    (decide (value < 0))).2.1

end Wired

end SteerStone
