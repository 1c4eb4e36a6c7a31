import Mathlib.Data.List.Range
import PristonTale.Common.WiredNumbers

set_option relaxedAutoImplicit false
set_option autoImplicit false

/-!
# Wired numbers that are malformed

`DecodeWired` takes the count of bytes from the first byte and checks it against nothing. Its
`catch` clause returns 0, but `operator[]` of a string throws nothing: a text that is too short is
read past its end, and a count of seven shifts an `int` by 32. Only where the zero at the end of the
text is the one byte that is missing, and all the others are blank, does a short text give 0.

## Main definitions

* `SteerStone.DecodeRun`, `SteerStone.decodeWiredRun` — `DecodeWired` with the positions it reads
  and the amounts by which it shifts.
* `SteerStone.DecodesSafely` — it stays within the text, and a short text gives 0.
* `SteerStone.Wired.Blank` — the bytes of a text hold no bit of a number.

## Main results

* `SteerStone.decodeWiredRun_result` — the run computes what `decodeWired` does.
* `SteerStone.decodesSafely_iff` — the texts with which `DecodeWired` is safe.
-/

namespace SteerStone

open Wired

/-- What `DecodeWired` does with a text. -/
structure DecodeRun where
  /-- The positions given to `operator[]`. -/
  reads : List ℕ
  /-- The amounts by which it shifts to the left. -/
  shifts : List ℕ
  /-- What it returns. -/
  result : Int32

/-- The loop of `DecodeWired`, as `decodeWiredFrom` has it. -/
def decodeWiredLoop (buffer : List UInt8) : ℕ → ℕ → ℕ → Int32 → DecodeRun
  | 0, _, _, v => ⟨[], [], v⟩
  | n + 1, b, shiftAmount, v =>
    let rest := decodeWiredLoop buffer n (b + 1) (2 + 6 * b)
      (v ||| Int32.ofNat (buffer.getD b 0 &&& 0x3f).toNat <<< Int32.ofNat shiftAmount)
    ⟨b :: rest.reads, shiftAmount :: rest.shifts, rest.result⟩

/-- `DecodeWired`: the first byte is read three times, for the sign, the count and the two lowest
bits. -/
def decodeWiredRun (buffer : List UInt8) : DecodeRun :=
  let first := buffer.getD 0 0
  let totalBytes := (first >>> 3 &&& 7).toNat
  let loop := decodeWiredLoop buffer (totalBytes - 1) 1 2 (Int32.ofNat (first &&& 3).toNat)
  ⟨[0, 0, 0] ++ loop.reads, loop.shifts,
    if first &&& 4 = 4 then loop.result * -1 else loop.result⟩

/-- **`DecodeWired` is safe on a text**: it reads no index past the end, shifts by less than 32, and
returns 0 when there are fewer bytes than the first one counts. -/
def DecodesSafely (buffer : List UInt8) : Prop :=
  (∀ i ∈ (decodeWiredRun buffer).reads, i ≤ buffer.length) ∧
    (∀ s ∈ (decodeWiredRun buffer).shifts, s < 32) ∧
    (buffer.length < count buffer → (decodeWiredRun buffer).result = 0)

instance (buffer : List UInt8) : Decidable (DecodesSafely buffer) :=
  inferInstanceAs (Decidable (_ ∧ _ ∧ _))

/-- No byte of a text holds a bit of a number. -/
def Wired.Blank (bytes : List UInt8) : Prop :=
  bytes.getD 0 0 &&& 3 = 0 ∧ ∀ c ∈ bytes.drop 1, c &&& 0x3f = 0

instance (bytes : List UInt8) : Decidable (Blank bytes) := inferInstanceAs (Decidable (_ ∧ _))

/-! ## What a run reads, shifts by and returns -/

variable (buffer : List UInt8)

/-- The loop computes what `decodeWiredFrom` does. -/
lemma decodeWiredLoop_result (n b shiftAmount : ℕ) (v : Int32) :
    (decodeWiredLoop buffer n b shiftAmount v).result =
      decodeWiredFrom buffer n b shiftAmount v := by
  induction n generalizing b shiftAmount v with
  | zero => rfl
  | succ n ih => rw [decodeWiredFrom, ← ih, decodeWiredLoop]

/-- The loop reads one position after the other. -/
lemma decodeWiredLoop_reads (n b shiftAmount : ℕ) (v : Int32) :
    (decodeWiredLoop buffer n b shiftAmount v).reads = List.range' b n := by
  induction n generalizing b shiftAmount v with
  | zero => rfl
  | succ n ih => rw [decodeWiredLoop, List.range'_succ, ih]

/-- The loop shifts by six more each time. -/
lemma decodeWiredLoop_shifts (n k : ℕ) (v : Int32) :
    (decodeWiredLoop buffer n (k + 1) (2 + 6 * k) v).shifts =
      (List.range' k n).map fun j => 2 + 6 * j := by
  induction n generalizing k v with
  | zero => rfl
  | succ n ih => rw [decodeWiredLoop, List.range'_succ, List.map_cons, ih]

/-- **The run computes what `decodeWired` does.** -/
theorem decodeWiredRun_result : (decodeWiredRun buffer).result = decodeWired buffer := by
  simp only [decodeWiredRun, decodeWired, decodeWiredLoop_result]

/-- The text is not read past its end when at most its zero is missing. -/
lemma reads_le_iff :
    (∀ i ∈ (decodeWiredRun buffer).reads, i ≤ buffer.length) ↔
      count buffer ≤ buffer.length + 1 := by
  have hreads : (decodeWiredRun buffer).reads = [0, 0, 0] ++ List.range' 1 (count buffer - 1) := by
    simp only [decodeWiredRun, decodeWiredLoop_reads, count]
  simp only [hreads, List.mem_append, List.mem_range'_1]
  constructor
  · intro h
    by_contra hlt
    have := h (count buffer - 1) (Or.inr (by omega))
    omega
  · rintro hle i (hi | hi)
    · have : i = 0 := by simpa using hi
      omega
    · omega

/-- A shift is by less than 32 when there are six bytes at most. -/
lemma shifts_lt_iff :
    (∀ s ∈ (decodeWiredRun buffer).shifts, s < 32) ↔ count buffer ≤ 6 := by
  have hshifts : (decodeWiredRun buffer).shifts =
      (List.range' 0 (count buffer - 1)).map fun j => 2 + 6 * j :=
    decodeWiredLoop_shifts buffer _ 0 _
  simp only [hshifts, List.forall_mem_map, List.mem_range'_1]
  constructor
  · intro h
    by_contra hlt
    have := h 5 (by omega)
    omega
  · intro hle j hj
    omega

/-! ## A text that is one byte short -/

variable {buffer}

/-- A complete number is decoded as 0 when it has no bits. -/
lemma decodeWired_eq_zero_iff {bytes : List UInt8} (h : Complete bytes) :
    decodeWired bytes = 0 ↔ magnitude bytes = 0 := by
  have hlt := magnitude_lt_two_pow h
  rw [decodeWired_eq h, Int32.ofInt_eq_iff_bmod_eq_toInt, Int32.toInt_zero,
    ← Int.dvd_iff_bmod_eq_zero, value]
  show (4294967296 : ℤ) ∣ _ ↔ _
  split <;> omega

/-- A complete number has no bits when its bytes are blank. -/
lemma magnitude_eq_zero_iff {bytes : List UInt8} :
    magnitude bytes = 0 ↔
      bytes.getD 0 0 &&& 3 = 0 ∧ ∀ d ∈ digitsAt bytes 1 (count bytes - 1), d = 0 := by
  have hlow : (bytes.getD 0 0 &&& 3).toNat = 0 ↔ bytes.getD 0 0 &&& 3 = 0 :=
    UInt8.toNat_inj (b := 0)
  have hdigits : Nat.ofDigits 64 (digitsAt bytes 1 (count bytes - 1)) = 0 ↔
      ∀ d ∈ digitsAt bytes 1 (count bytes - 1), d = 0 := by
    constructor
    · exact Nat.digits_zero_of_eq_zero (by decide)
    · intro hall
      rw [List.eq_replicate_of_mem hall, Nat.ofDigits_replicate_zero]
  rw [magnitude, ← hlow, ← hdigits]
  omega

/-- With the zero at the end for its last byte, a text gives 0 when it is blank.

**Proof sketch.** What is decoded is the text with that zero (`decodeWired_concat_zero`), and this
is a complete number. -/
lemma decodeWired_short_iff (hcount : count buffer = buffer.length + 1) (hsix : count buffer ≤ 6) :
    decodeWired buffer = 0 ↔ Blank buffer := by
  have hfirst : (buffer ++ [0]).getD 0 0 = buffer.getD 0 0 := by
    cases buffer <;> rfl
  have hcount' : count (buffer ++ [0]) = buffer.length + 1 := by
    rw [count, hfirst, ← hcount, count]
  have hcomplete : Complete (buffer ++ [0]) := by
    rw [Complete, hcount', List.length_append, List.length_singleton]
    omega
  have hpos : 1 ≤ buffer.length := by
    cases buffer with
    | nil => exact absurd hcount (by decide)
    | cons => exact Nat.succ_le_succ (Nat.zero_le _)
  have hdigits : digitsAt (buffer ++ [0]) 1 buffer.length =
      (buffer.drop 1).map (fun c => (c &&& 0x3f).toNat) ++ [0] := by
    have hdrop : (buffer.drop 1 ++ [0]).length ≤ buffer.length := by
      rw [List.length_append, List.length_drop, List.length_singleton]
      omega
    rw [digitsAt, List.drop_append_of_le_length hpos, List.take_of_length_le hdrop, List.map_append]
    rfl
  have hzero : ∀ c : UInt8, (c &&& 0x3f).toNat = 0 ↔ c &&& 0x3f = 0 := fun c =>
    UInt8.toNat_inj (b := 0)
  rw [← decodeWired_concat_zero, decodeWired_eq_zero_iff hcomplete, magnitude_eq_zero_iff, hfirst,
    hcount', Nat.add_sub_cancel, hdigits, Blank]
  simp only [List.mem_append, List.mem_singleton, or_imp, forall_and, forall_eq, and_true,
    List.forall_mem_map, hzero]

/-! ## Safety -/

/-- **The texts with which `DecodeWired` is safe**: the first byte counts six bytes at most, and
they are all there, or the last one is missing and the others are blank.

**Proof sketch.** The positions read are those of the bytes counted (`reads_le_iff`), and the
shifts grow with them (`shifts_lt_iff`). So at most the last byte can be missing; the zero at the
end of the text is read for it, and the result is 0 when the text is blank
(`decodeWired_short_iff`). -/
theorem decodesSafely_iff (buffer : List UInt8) :
    DecodesSafely buffer ↔ count buffer ≤ 6 ∧
      (count buffer ≤ buffer.length ∨ count buffer = buffer.length + 1 ∧ Blank buffer) := by
  rw [DecodesSafely, reads_le_iff, shifts_lt_iff, decodeWiredRun_result]
  constructor
  · rintro ⟨hle, hsix, hshort⟩
    refine ⟨hsix, ?_⟩
    rcases Nat.lt_or_ge buffer.length (count buffer) with hlt | hge
    · have hcount : count buffer = buffer.length + 1 := by omega
      exact Or.inr ⟨hcount, (decodeWired_short_iff hcount hsix).mp (hshort hlt)⟩
    · exact Or.inl hge
  · rintro ⟨hsix, hge | ⟨hcount, hblank⟩⟩
    · exact ⟨by omega, hsix, fun hlt => by omega⟩
    · exact ⟨by omega, hsix, fun _ => (decodeWired_short_iff hcount hsix).mpr hblank⟩

/-- A text of one byte that counts three is read past its end; one that counts two gives its lowest
bits; and with seven bytes the last shift is by 32. -/
theorem decodesSafely_fails :
    ¬ DecodesSafely [0x58] ∧ ¬ DecodesSafely [0x51] ∧ decodeWired [0x51] = 1 ∧
      ¬ DecodesSafely [0x78, 0x40, 0x40, 0x40, 0x40, 0x40, 0x40] := by
  decide +kernel

end SteerStone
