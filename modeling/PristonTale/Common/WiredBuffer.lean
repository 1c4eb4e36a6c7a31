import PristonTale.Common.WiredNumbers
import PristonTale.Foundations.Transition

set_option relaxedAutoImplicit false
set_option autoImplicit false

/-!
# The buffer of `EncodeWired`

`EncodeWired` takes an `int64` and stores its bytes in `wf`, an array of six, without looking where
it is. Here the function is followed store by store in the memory that begins at `wf`, and its loop
round by round. The `abs` is that for `int64`, which `<stdlib.h>` declares in C++. The least `int64`
has no absolute value; `abs` leaves it negative, and its bits never run out.

## Main definitions

* `SteerStone.WiredLoop` — the variables of `EncodeWired`, and the memory from `wf` on.
* `SteerStone.WiredLoop.start`, `SteerStone.WiredLoop.round`, `SteerStone.WiredLoop.finish` — up to
  the loop, one round of it, and what comes after.
* `SteerStone.StaysInBuffer` — the stores are in the array and the string is a wired number.

## Main results

* `SteerStone.WiredLoop.loop_wiredDigits` — the loop stores the digits of `encodeWired`.
* `SteerStone.WiredLoop.never_ends_minValue` — for the least `int64` it does not end.
* `SteerStone.staysInBuffer_iff` — the numbers that stay in the buffer are those of 32 bits.
-/

namespace SteerStone

open Foundations

/-- The variables of `EncodeWired`, and the memory its stores go to. -/
structure WiredLoop where
  /-- `value`. -/
  value : Int64
  /-- `position`. -/
  position : ℕ
  /-- `bytes`. -/
  bytes : ℕ
  /-- The memory from `wf` on; the array is its first six bytes. -/
  memory : List UInt8
  /-- The indices of `wf` that have been stored at. -/
  stored : List ℕ

namespace WiredLoop

/-- The conversion of an `int64` to `char`. -/
def toChar (v : Int64) : UInt8 := v.toInt8.toUInt8

/-- `wf[position++] = c`. -/
def store (s : WiredLoop) (c : UInt8) : WiredLoop :=
  { s with
    memory := s.memory.set s.position c
    position := s.position + 1
    stored := s.stored ++ [s.position] }

/-- Up to the loop: the two lowest bits are stored. -/
def start (memory : List UInt8) (value : Int64) : WiredLoop :=
  let value := value.abs
  let s := store ⟨value, 0, 1, memory, []⟩ (toChar (64 + (value &&& 3)))
  { s with value := value >>> 2 }

/-- A round of the loop, as long as `value` is not zero: a digit of six bits is stored. -/
def round (s : WiredLoop) : Option WiredLoop :=
  if s.value = 0 then none
  else
    let s := store { s with bytes := s.bytes + 1 } (toChar (64 + (s.value &&& 0x3f)))
    some { s with value := s.value >>> 6 }

/-- The rounds of the loop. -/
def loop : Transition WiredLoop Unit := ⟨fun s _ => s.round⟩

/-- After the loop: the count of bytes and the sign are joined to the first byte, and the string is
made of what memory holds from `wf` up to a zero byte and cut, or filled up, to the count. -/
def finish (s : WiredLoop) (value : Int64) : List UInt8 :=
  let negativeMask := if 0 ≤ value then 0 else 4
  let memory := s.memory.set 0
    (s.memory.getD 0 0 ||| UInt8.ofNat (s.bytes <<< 3) ||| UInt8.ofNat negativeMask)
  let tmp := memory.takeWhile (· ≠ 0)
  tmp.take s.bytes ++ List.replicate (s.bytes - tmp.length) 0

/-! ## The numbers of a round -/

/-- A shift to the right of an `int64` divides, down. -/
lemma toInt_shiftRight (v : Int64) : (v >>> 6).toInt = v.toInt / 64 := by
  have hshift : (6 : Int64).toBitVec.smod 64 = 6#64 := by decide
  rw [← Int64.toInt_toBitVec, Int64.toBitVec_shiftRight, hshift, BitVec.sshiftRight',
    BitVec.toInt_sshiftRight, Int.shiftRight_eq_div_pow]
  rfl

/-- The two lowest bits are shifted out. -/
lemma toInt_shiftRight_two (v : Int64) : (v >>> 2).toInt = v.toInt / 4 := by
  have hshift : (2 : Int64).toBitVec.smod 64 = 2#64 := by decide
  rw [← Int64.toInt_toBitVec, Int64.toBitVec_shiftRight, hshift, BitVec.sshiftRight',
    BitVec.toInt_sshiftRight, Int.shiftRight_eq_div_pow]
  rfl

/-- The character of some of the lowest bits. -/
lemma toChar_and {v : Int64} {n : ℕ} (hv : v.toInt = n) (mask : ℕ) :
    toChar (64 + (v &&& Int64.ofNat mask)) = UInt8.ofNat (64 + (n &&& mask)) := by
  have hvalue : v = Int64.ofNat n := by rw [← Int64.ofInt_eq_ofNat, ← hv, Int64.ofInt_toInt]
  have hand : Int64.ofNat n &&& Int64.ofNat mask = Int64.ofNat (n &&& mask) :=
    Int64.toBitVec_inj.mp BitVec.ofNat_and.symm
  have hsum : 64 + Int64.ofNat (n &&& mask) = Int64.ofNat (64 + (n &&& mask)) :=
    (Int64.ofNat_add 64 _).symm
  rw [hvalue, hand, hsum, toChar, Int64.toInt8_ofNat', Int8.toUInt8_ofNat']

/-- The absolute value, where there is one. -/
lemma toInt_abs {v : Int64} (h : v ≠ Int64.minValue) : v.abs.toInt = v.toInt.natAbs :=
  BitVec.toInt_abs_eq_natAbs_of_ne_intMin fun heq => h (Int64.toBitVec_inj.mp heq)

/-! ## A round -/

/-- What a round does. -/
lemma step_eq_some {s s' : WiredLoop} (h : loop.step s () = some s') :
    s.value ≠ 0 ∧ s' =
      { value := s.value >>> 6
        position := s.position + 1
        bytes := s.bytes + 1
        memory := s.memory.set s.position (toChar (64 + (s.value &&& 0x3f)))
        stored := s.stored ++ [s.position] } := by
  have h' : (if s.value = 0 then none else _) = some s' := h
  split at h'
  case isTrue => cases h'
  case isFalse hzero => exact ⟨hzero, (Option.some.inj h').symm⟩

/-- A number that is not zero has another round. -/
lemma exists_step {s : WiredLoop} (h : s.value ≠ 0) : ∃ s', loop.step s () = some s' :=
  ⟨_, if_neg h⟩

/-! ## Large numbers -/

/-- **A number of more than `k` digits**, or a negative one, is stored up to `k` places on.

**Proof sketch.** Induction on `k`. A round divides the number by 64, and a negative number stays
negative. -/
theorem exists_stored_of_large {s : WiredLoop} {k : ℕ}
    (h : 64 ^ k ≤ s.value.toInt ∨ s.value.toInt < 0) :
    ∃ rounds t, loop.run s rounds = some t ∧ s.position + k ∈ t.stored := by
  induction k generalizing s with
  | zero =>
    have hzero : s.value ≠ 0 := by
      intro hvalue
      rw [hvalue, Int64.toInt_zero, pow_zero] at h
      omega
    obtain ⟨s', hstep⟩ := exists_step hzero
    obtain ⟨-, rfl⟩ := step_eq_some hstep
    exact ⟨[()], _, Transition.run_cons_of_step _ [] hstep,
      List.mem_append_right _ List.mem_cons_self⟩
  | succ k ih =>
    have hpow : (64 : ℤ) ^ (k + 1) = 64 * 64 ^ k := pow_succ' 64 k
    have hpos : (0 : ℤ) < 64 ^ k := by positivity
    have hzero : s.value ≠ 0 := by
      intro hvalue
      rw [hvalue, Int64.toInt_zero] at h
      omega
    obtain ⟨s', hstep⟩ := exists_step hzero
    obtain ⟨-, hs'⟩ := step_eq_some hstep
    have hlarge : 64 ^ k ≤ s'.value.toInt ∨ s'.value.toInt < 0 := by
      rw [hs', toInt_shiftRight]
      omega
    have hposition : s'.position = s.position + 1 := by rw [hs']
    obtain ⟨rounds, t, hrun, hstored⟩ := ih hlarge
    refine ⟨() :: rounds, t, ?_, ?_⟩
    · rw [Transition.run_cons_of_step _ _ hstep, hrun]
    · rwa [hposition, Nat.add_right_comm] at hstored

/-! ## Small numbers -/

/-- The digits that are left fit in the places that are left, and no store has been outside. -/
structure Within (s : WiredLoop) : Prop where
  /-- The position is in the array or at its end. -/
  position_le : s.position ≤ 6
  /-- The number is not negative. -/
  value_nonneg : 0 ≤ s.value.toInt
  /-- It has as many digits as there are places, at most. -/
  value_lt : s.value.toInt < 64 ^ (6 - s.position)
  /-- The stores so far were in the array. -/
  stored_lt : ∀ i ∈ s.stored, i < 6

/-- A round stays within. -/
lemma within_step (s : WiredLoop) (a : Unit) (s' : WiredLoop) (hs : Within s)
    (h : loop.step s a = some s') : Within s' := by
  obtain ⟨hposition, hnonneg, hlt, hstored⟩ := hs
  obtain ⟨hzero, rfl⟩ := step_eq_some h
  have hpositive : s.value.toInt ≠ 0 := fun heq =>
    hzero (Int64.toInt_inj.mp (heq.trans Int64.toInt_zero.symm))
  have hroom : s.position ≠ 6 := by
    intro heq
    rw [heq, Nat.sub_self, pow_zero] at hlt
    omega
  have hpow : (64 : ℤ) ^ (6 - s.position) = 64 * 64 ^ (6 - (s.position + 1)) := by
    rw [← pow_succ', show 6 - s.position = 6 - (s.position + 1) + 1 by omega]
  refine ⟨?_, ?_, ?_, ?_⟩
  · show s.position + 1 ≤ 6
    omega
  · show 0 ≤ (s.value >>> 6).toInt
    rw [toInt_shiftRight]
    omega
  · show (s.value >>> 6).toInt < 64 ^ (6 - (s.position + 1))
    rw [toInt_shiftRight]
    omega
  · intro i hi
    rcases List.mem_append.mp hi with hi | hi
    · exact hstored i hi
    · obtain rfl := List.mem_singleton.mp hi
      omega

/-- A round stores the first digit of a number, and leaves the number of the others. -/
lemma exists_step_digit {n : ℕ} {s : WiredLoop} (hvalue : s.value.toInt = n) (hn : n ≠ 0)
    {front rest : List UInt8} {c : UInt8} (hmemory : s.memory = front ++ c :: rest)
    (hposition : s.position = front.length) :
    ∃ s', loop.step s () = some s' ∧ s'.value.toInt = (n >>> 6 : ℕ) ∧ s'.bytes = s.bytes + 1 ∧
      s'.memory = (front ++ [UInt8.ofNat (64 + (n &&& 0x3f))]) ++ rest ∧
      s'.position = (front ++ [UInt8.ofNat (64 + (n &&& 0x3f))]).length := by
  have hzero : s.value ≠ 0 := by
    intro heq
    rw [heq, Int64.toInt_zero] at hvalue
    omega
  obtain ⟨s', hstep⟩ := exists_step hzero
  obtain ⟨-, rfl⟩ := step_eq_some hstep
  refine ⟨_, hstep, ?_, rfl, ?_, ?_⟩
  · show (s.value >>> 6).toInt = _
    rw [toInt_shiftRight, hvalue, Nat.shiftRight_eq_div_pow]
    rfl
  · have hchar := toChar_and hvalue 0x3f
    show s.memory.set s.position _ = _
    rw [hmemory, hposition, List.set_append_right _ _ (Nat.le_refl _), Nat.sub_self,
      List.append_assoc]
    exact congrArg (fun c => front ++ c :: rest) hchar
  · rw [List.length_append, ← hposition]
    rfl

/-- **The loop stores the digits** of `encodeWired` one after the other and ends.

**Proof sketch.** Induction on the number. A round stores the first of `wiredDigits` and leaves the
number that the others are the digits of (`exists_step_digit`). -/
theorem loop_wiredDigits {n : ℕ} {s : WiredLoop} (hvalue : s.value.toInt = n)
    {front rest : List UInt8} (hmemory : s.memory = front ++ rest)
    (hposition : s.position = front.length) (hroom : (wiredDigits n).length ≤ rest.length) :
    ∃ rounds t, loop.run s rounds = some t ∧ t.value = 0 ∧
      t.bytes = s.bytes + (wiredDigits n).length ∧
      t.memory = front ++ wiredDigits n ++ rest.drop (wiredDigits n).length := by
  induction n using Nat.strong_induction_on generalizing s front rest with
  | _ n ih =>
    by_cases hn : n = 0
    · have hzero : s.value = 0 := by
        rw [hn] at hvalue
        exact Int64.toInt_inj.mp (hvalue.trans Int64.toInt_zero.symm)
      have hdigits : wiredDigits n = [] := by rw [wiredDigits, if_pos hn]
      refine ⟨[], s, rfl, hzero, ?_, ?_⟩
      · rw [hdigits, List.length_nil, Nat.add_zero]
      · rw [hdigits, List.length_nil, List.drop_zero, List.append_nil, hmemory]
    · have hdigits : wiredDigits n =
          UInt8.ofNat (64 + (n &&& 0x3f)) :: wiredDigits (n >>> 6) := by
        rw [wiredDigits, if_neg hn]
      have hless : n >>> 6 < n := by
        rw [Nat.shiftRight_eq_div_pow]
        omega
      rw [hdigits, List.length_cons] at hroom ⊢
      obtain ⟨c, rest, rfl⟩ :=
        List.exists_cons_of_length_pos (Nat.lt_of_lt_of_le (Nat.succ_pos _) hroom)
      obtain ⟨s', hstep, hvalue', hbytes', hmemory', hposition'⟩ :=
        exists_step_digit hvalue hn hmemory hposition
      obtain ⟨rounds, t, hrun, hend, hbytes, hleft⟩ :=
        ih (n >>> 6) hless hvalue' hmemory' hposition' (Nat.le_of_succ_le_succ hroom)
      refine ⟨() :: rounds, t, ?_, hend, ?_, ?_⟩
      · rw [Transition.run_cons_of_step _ _ hstep, hrun]
      · rw [hbytes, hbytes', Nat.add_assoc, Nat.add_comm 1]
      · rw [hleft, List.drop_succ_cons, List.append_assoc front]
        rfl

/-- A number of 32 bits has an absolute value. -/
lemma toInt_abs_of_lt {value : Int64} (h : value.toInt.natAbs < 2 ^ 32) :
    value.abs.toInt = value.toInt.natAbs := by
  apply toInt_abs
  rintro rfl
  exact absurd h (by decide)

/-- What comes after the loop makes `encodeWired` of the bytes that were stored, if none of them is
zero: the string made of memory has them all and is cut to them (`resize_cString_encodeWired`). -/
lemma finish_eq {value : Int64} (h : value.toInt.natAbs < 2 ^ 32) {s : WiredLoop}
    {rest : List UInt8} (hbytes : s.bytes = (encodeWired value).length)
    (hmemory : s.memory = UInt8.ofNat (64 + (value.toInt.natAbs &&& 3)) ::
      wiredDigits (value.toInt.natAbs >>> 2) ++ rest) :
    s.finish value = encodeWired value := by
  have hjoined : s.memory.set 0 (s.memory.getD 0 0 ||| UInt8.ofNat (s.bytes <<< 3) |||
      UInt8.ofNat (if 0 ≤ value then 0 else 4)) = encodeWired value ++ rest := by
    rw [hbytes, hmemory, encodeWired, List.length_cons, UInt8.ofNat_or, UInt8.ofNat_or]
    rfl
  have hcut := resize_cString_encodeWired h rest
  have hall : (encodeWired value).length ≤
      ((encodeWired value ++ rest).takeWhile (· ≠ 0)).length := by
    rw [← congrArg List.length hcut, List.length_take]
    exact Nat.min_le_right _ _
  simp only [finish]
  rw [hjoined, hbytes, hcut, Nat.sub_eq_zero_of_le hall, List.replicate_zero, List.append_nil]

/-- **The string of a number of 32 bits** is `encodeWired`, whatever memory held.

**Proof sketch.** The five digits at most are stored behind the first byte (`loop_wiredDigits`), and
what is joined to the first byte makes it that of `encodeWired` (`finish_eq`). -/
theorem exists_finish_eq {value : Int64} (h : value.toInt.natAbs < 2 ^ 32) {memory : List UInt8}
    (hmemory : 6 ≤ memory.length) :
    ∃ rounds s, loop.run (start memory value) rounds = some s ∧ s.value = 0 ∧
      s.finish value = encodeWired value := by
  have habs := toInt_abs_of_lt h
  obtain ⟨b, rest, rfl⟩ := List.exists_cons_of_length_pos (Nat.lt_of_lt_of_le (by decide) hmemory)
  have hcount := (length_encodeWired_le_iff value).mpr h
  have hlength : (encodeWired value).length =
      (wiredDigits (value.toInt.natAbs >>> 2)).length + 1 := rfl
  have hvalue : (start (b :: rest) value).value.toInt = (value.toInt.natAbs >>> 2 : ℕ) := by
    show (value.abs >>> 2).toInt = _
    rw [toInt_shiftRight_two, habs, Nat.shiftRight_eq_div_pow]
    rfl
  have hstart : (start (b :: rest) value).memory =
      [UInt8.ofNat (64 + (value.toInt.natAbs &&& 3))] ++ rest :=
    congrArg (fun c => c :: rest) (toChar_and habs 3)
  have hroom : (wiredDigits (value.toInt.natAbs >>> 2)).length ≤ rest.length := by
    rw [List.length_cons] at hmemory
    omega
  obtain ⟨rounds, s, hrun, hzero, hbytes, hleft⟩ := loop_wiredDigits hvalue hstart rfl hroom
  refine ⟨rounds, s, hrun, hzero, finish_eq h ?_ hleft⟩
  rw [hbytes, hlength, Nat.add_comm]
  rfl

/-- Before the loop, a number of 32 bits has five digits at most. -/
lemma within_start {value : Int64} (h : value.toInt.natAbs < 2 ^ 32) (memory : List UInt8) :
    Within (start memory value) := by
  have habs := toInt_abs_of_lt h
  refine ⟨(by decide : 1 ≤ 6), ?_, ?_, ?_⟩
  · show 0 ≤ (value.abs >>> 2).toInt
    rw [toInt_shiftRight_two, habs]
    omega
  · show (value.abs >>> 2).toInt < 64 ^ 5
    rw [toInt_shiftRight_two, habs]
    omega
  · intro i hi
    obtain rfl := List.mem_singleton.mp hi
    exact (by decide : 0 < 6)

/-- Before the loop, a number past 32 bits has more than five digits or is negative. -/
lemma large_start {value : Int64} (h : 2 ^ 32 ≤ value.toInt.natAbs) (memory : List UInt8) :
    64 ^ 5 ≤ (start memory value).value.toInt ∨ (start memory value).value.toInt < 0 := by
  show 64 ^ 5 ≤ (value.abs >>> 2).toInt ∨ (value.abs >>> 2).toInt < 0
  rw [toInt_shiftRight_two]
  by_cases hmin : value = Int64.minValue
  · right
    rw [hmin]
    decide
  · left
    rw [toInt_abs hmin]
    omega

/-- **The least `int64`** is never shifted to zero, and the loop goes on for ever. -/
theorem never_ends_minValue {memory : List UInt8} {rounds : List Unit} {s : WiredLoop}
    (h : loop.run (start memory Int64.minValue) rounds = some s) : s.value ≠ 0 := by
  have hstart : (start memory Int64.minValue).value.toInt < 0 := by
    show (Int64.minValue.abs >>> 2).toInt < 0
    decide
  have hneg : s.value.toInt < 0 := by
    refine loop.run_invariant (I := fun s => s.value.toInt < 0) (fun s _ s' hs hstep => ?_) h hstart
    obtain ⟨-, rfl⟩ := step_eq_some hstep
    show (s.value >>> 6).toInt < 0
    rw [toInt_shiftRight]
    omega
  intro hzero
  rw [hzero, Int64.toInt_zero] at hneg
  exact absurd hneg (Int.lt_irrefl 0)

end WiredLoop

open WiredLoop

/-- **`EncodeWired` stays in its buffer**: its stores are at the indices 0 to 5 of `wf`, it ends,
the count of bytes in the first byte is the length of the string, and the bytes of the string are
characters from 64 to 127; whatever was in memory before. -/
def StaysInBuffer (value : Int64) : Prop :=
  ∀ memory : List UInt8, 6 ≤ memory.length →
    (∀ rounds s, loop.run (start memory value) rounds = some s → ∀ i ∈ s.stored, i < 6) ∧
    ∃ rounds s, loop.run (start memory value) rounds = some s ∧ s.value = 0 ∧
      Wired.count (s.finish value) = (s.finish value).length ∧
      ∀ c ∈ s.finish value, 64 ≤ c ∧ c ≤ 127

/-- A number past 32 bits is stored at the index 6. -/
lemma not_staysInBuffer {value : Int64} (h : 2 ^ 32 ≤ value.toInt.natAbs) :
    ¬ StaysInBuffer value := by
  intro hstays
  obtain ⟨rounds, s, hrun, hindex⟩ :=
    exists_stored_of_large (large_start h (List.replicate 6 0))
  have hlt : 1 + 5 < 6 := (hstays (List.replicate 6 0) (by decide)).1 rounds s hrun _ hindex
  exact absurd hlt (by decide)

/-- **The buffer of `EncodeWired`** is kept to exactly by the numbers of 32 bits.

**Proof sketch.** A number of 32 bits has five digits at most, so a round that stores has a place
left (`within_step`), and the string is that of `encodeWired` (`exists_finish_eq`). A number past 32
bits comes to the index 6, and so does the least `int64`, which `abs` leaves negative
(`exists_stored_of_large`). -/
theorem staysInBuffer_iff (value : Int64) :
    StaysInBuffer value ↔ value.toInt.natAbs < 2 ^ 32 := by
  constructor
  · intro hstays
    by_contra hlarge
    exact not_staysInBuffer (Nat.le_of_not_lt hlarge) hstays
  · intro h memory hmemory
    constructor
    · intro rounds s hrun
      exact (loop.run_invariant within_step hrun (within_start h memory)).stored_lt
    · obtain ⟨rounds, s, hrun, hzero, hfinish⟩ := exists_finish_eq h hmemory
      refine ⟨rounds, s, hrun, hzero, ?_, ?_⟩
      · rw [hfinish]
        exact Wired.count_encodeWired h
      · rw [hfinish]
        exact fun c hc => range_of_mem_encodeWired h hc

/-- The number 2^32 takes seven bytes, the last stored at the index 6; and the least `int64` goes on
past it. -/
theorem staysInBuffer_fails : ¬ StaysInBuffer 4294967296 ∧ ¬ StaysInBuffer Int64.minValue :=
  ⟨not_staysInBuffer (by decide), not_staysInBuffer (by decide)⟩

end SteerStone
