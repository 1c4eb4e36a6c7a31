import Mathlib.Data.Nat.Digits.Lemmas
import Mathlib.Tactic.Common
import Mathlib.Tactic.Linarith
import Mathlib.Tactic.Ring

set_option relaxedAutoImplicit false
set_option autoImplicit false

/-!
# Shared functions

`StrSplit` and the two number formats of the fields of a packet, base64 and wired
(`Shared/Common/SharedDefines.cpp`). A wired number is its two lowest bits in the first byte, with
the sign and the count of bytes, and then digits of six bits, the lowest first.

## Main definitions

* `SteerStone.strSplit` — `StrSplit`.
* `SteerStone.encodeBase64`, `SteerStone.decodeBase64` — `EncodeBase64`, `DecodeBase64`.
* `SteerStone.encodeWired`, `SteerStone.decodeWired` — `EncodeWired`, `DecodeWired`.

## Main results

* `SteerStone.decodeBase64_encodeBase64` — base64 numbers below 4096 are read back.
* `SteerStone.decodeWired_encodeWired` — wired numbers of 32 bits are read back, whatever follows.
* `SteerStone.length_encodeWired_le_iff` — they are those that take six bytes at most.
-/

namespace SteerStone

/-- The loop of `StrSplit`: the rest of the text, and the token that is being read. -/
def strSplitFrom (separator : List Char) : List Char → List Char → List (List Char)
  | [], token => if token = [] then [] else [token]
  | c :: cs, token =>
    if c ∈ separator then
      if token = [] then strSplitFrom separator cs []
      else token :: strSplitFrom separator cs []
    else strSplitFrom separator cs (token ++ [c])

/-- `StrSplit`: the tokens between the characters of the separator; empty ones are left out. -/
def strSplit (src separator : String) : List String :=
  (strSplitFrom separator.toList src.toList []).map String.ofList

/-- A database info string, and one without a database. -/
example : strSplit "127.0.0.1;3306;quad;quad;habbo" ";" =
      ["127.0.0.1", "3306", "quad", "quad", "habbo"] ∧
    strSplit "127.0.0.1;3306;;quad" ";" = ["127.0.0.1", "3306", "quad"] := by decide

/-! ## Base64 -/

/-- `EncodeBase64`: the two lowest digits of six bits, the higher one first. -/
def encodeBase64 (value : UInt32) : List UInt8 :=
  [1, 2].map fun x : UInt32 => (64 + (value >>> (6 * (2 - x)) &&& 0x3f)).toUInt8

/-- The loop of `DecodeBase64`, from the last character down: `y` characters have been read. -/
def decodeBase64From : List UInt8 → ℕ → Int32 → Int32
  | [], _, intTot => intTot
  | c :: cs, y, intTot =>
    let intTmp := (c - 64).toInt8.toInt32
    let intTmp := if 0 < y then intTmp * Int32.ofNat (64 ^ y) else intTmp
    decodeBase64From cs (y + 1) (intTot + intTmp)

/-- `DecodeBase64`. Its callers give it two characters at most; from the seventh on, the power of
64 does not fit in an `int`, and converting it is undefined. -/
def decodeBase64 (buffer : List UInt8) : Int32 := decodeBase64From buffer.reverse 0 0

/-- A value is encoded as two characters. -/
@[simp] lemma length_encodeBase64 (value : UInt32) : (encodeBase64 value).length = 2 := rfl

/-- A digit of six bits is the character minus 64. -/
lemma toInt32_char {d : ℕ} (hd : d < 64) :
    (UInt8.ofNat (64 + d) - 64).toInt8.toInt32 = Int32.ofNat d := by
  have hall : ∀ d : Fin 64, (UInt8.ofNat (64 + d) - 64).toInt8.toInt32 = Int32.ofNat d := by decide
  exact hall ⟨d, hd⟩

/-- The characters of a number below 4096. -/
lemma encodeBase64_eq {value : UInt32} (h : value < 4096) :
    encodeBase64 value =
      [UInt8.ofNat (64 + value.toNat / 64), UInt8.ofNat (64 + value.toNat % 64)] := by
  have hlt : value.toNat < 4096 := UInt32.lt_iff_toNat_lt.mp h
  have hmask : ∀ n : ℕ, n &&& 63 = n % 64 := fun n => Nat.and_two_pow_sub_one_eq_mod n 6
  have hhigh : value.toNat / 64 % 64 = value.toNat / 64 := by omega
  simp only [encodeBase64, List.map_cons, List.map_nil, List.cons.injEq, and_true]
  constructor
  · apply UInt8.toNat_inj.mp
    simp [hmask, Nat.shiftRight_eq_div_pow, hhigh]
  · apply UInt8.toNat_inj.mp
    simp [hmask]

/-- **Base64 numbers below 4096** are read back. -/
theorem decodeBase64_encodeBase64 {value : UInt32} (h : value < 4096) :
    decodeBase64 (encodeBase64 value) = value.toInt32 := by
  have hlt : value.toNat < 4096 := UInt32.lt_iff_toNat_lt.mp h
  have hsum : value.toNat % 64 + value.toNat / 64 * 64 = value.toNat := by omega
  have hlow := toInt32_char (Nat.mod_lt value.toNat (by decide : 0 < 64))
  have hhigh := toInt32_char (show value.toNat / 64 < 64 by omega)
  calc decodeBase64 (encodeBase64 value)
      = 0 + Int32.ofNat (value.toNat % 64) +
          Int32.ofNat (value.toNat / 64) * Int32.ofNat (64 ^ 1) := by
        rw [encodeBase64_eq h, ← hlow, ← hhigh]
        rfl
    _ = Int32.ofNat (value.toNat % 64 + value.toNat / 64 * 64 ^ 1) := by
        rw [Int32.zero_add, Int32.ofNat_add, Int32.ofNat_mul]
    _ = value.toInt32 := by
        rw [pow_one, hsum, ← UInt32.toInt32_ofNat', UInt32.ofNat_toNat]

/-! ## Wired numbers -/

/-- The loop of `EncodeWired`: a digit of six bits at a time, the lowest first. -/
def wiredDigits (value : ℕ) : List UInt8 :=
  if value = 0 then [] else UInt8.ofNat (64 + (value &&& 0x3f)) :: wiredDigits (value >>> 6)
termination_by value
decreasing_by
  rw [Nat.shiftRight_eq_div_pow]
  exact Nat.div_lt_self (by omega) (by decide)

/-- `EncodeWired`, the bytes stored in `wf`: the two lowest bits, the sign and the count of bytes,
then the digits. The string is made of what memory holds from `wf` up to a zero byte and then cut
to the count of bytes, so it is these bytes (`resize_cString_encodeWired`). The array has room for
six of them; numbers past 32 bits take more (`length_encodeWired_le_iff`). -/
def encodeWired (value : Int64) : List UInt8 :=
  let negativeMask := if 0 ≤ value then 0 else 4
  let magnitude := value.toInt.natAbs
  let digits := wiredDigits (magnitude >>> 2)
  let bytes := digits.length + 1
  UInt8.ofNat ((64 + (magnitude &&& 3)) ||| bytes <<< 3 ||| negativeMask) :: digits

/-- The loop of `DecodeWired`, with `n` digits to go: `b` is also the position. -/
def decodeWiredFrom (buffer : List UInt8) : ℕ → ℕ → ℕ → Int32 → Int32
  | 0, _, _, v => v
  | n + 1, b, shiftAmount, v =>
    decodeWiredFrom buffer n (b + 1) (2 + 6 * b)
      (v ||| Int32.ofNat (buffer.getD b 0 &&& 0x3f).toNat <<< Int32.ofNat shiftAmount)

/-- `DecodeWired`. The character at the end of a string is zero; past it, the source reads memory
that is not the string's, and nothing is promised. -/
def decodeWired (buffer : List UInt8) : Int32 :=
  let first := buffer.getD 0 0
  let totalBytes := (first >>> 3 &&& 7).toNat
  let v := decodeWiredFrom buffer (totalBytes - 1) 1 2 (Int32.ofNat (first &&& 3).toNat)
  if first &&& 4 = 4 then v * -1 else v

/-- The digits of a wired number are those to the base 64. -/
lemma wiredDigits_eq (n : ℕ) :
    wiredDigits n = (Nat.digits 64 n).map fun d => UInt8.ofNat (64 + d) := by
  induction n using Nat.strong_induction_on with
  | _ n ih =>
    rw [wiredDigits]
    by_cases hn : n = 0
    · simp [hn]
    · have hdiv : n / 64 < n := Nat.div_lt_self (by omega) (by decide)
      have hmask : n &&& 63 = n % 64 := Nat.and_two_pow_sub_one_eq_mod n 6
      rw [if_neg hn, Nat.digits_def' (by decide) (by omega), List.map_cons,
        Nat.shiftRight_eq_div_pow, ih _ hdiv, hmask]

/-- The numbers that take at most `k` digits after the first byte. -/
lemma length_encodeWired_le_succ_iff (value : Int64) (k : ℕ) :
    (encodeWired value).length ≤ k + 1 ↔ value.toInt.natAbs < 4 * 64 ^ k := by
  have hdigits := Nat.digits_length_le_iff (k := k) (by decide : 1 < 64) (value.toInt.natAbs / 4)
  rw [encodeWired, List.length_cons, Nat.shiftRight_eq_div_pow, wiredDigits_eq, List.length_map,
    Nat.succ_le_succ_iff, hdigits]
  omega

/-- The numbers that take six bytes at most are those of 32 bits. -/
lemma length_encodeWired_le_iff (value : Int64) :
    (encodeWired value).length ≤ 6 ↔ value.toInt.natAbs < 2 ^ 32 :=
  length_encodeWired_le_succ_iff value 5

/-- What the first byte of a wired number holds. -/
lemma wired_first {low bytes : ℕ} (hlow : low < 4) (hbytes : bytes < 8) (negative : Bool) :
    let first := UInt8.ofNat ((64 + low) ||| bytes <<< 3 ||| if negative then 4 else 0)
    (first &&& 3).toNat = low ∧ (first >>> 3 &&& 7).toNat = bytes ∧
      (first &&& 4 = 4 ↔ negative = true) := by
  have hall : ∀ (low : Fin 4) (bytes : Fin 8) (negative : Bool),
      let first := UInt8.ofNat ((64 + low.val) ||| bytes.val <<< 3 ||| if negative then 4 else 0)
      (first &&& 3).toNat = low ∧ (first >>> 3 &&& 7).toNat = bytes ∧
        (first &&& 4 = 4 ↔ negative = true) := by decide
  exact hall ⟨low, hlow⟩ ⟨bytes, hbytes⟩ negative

/-- Joining a digit above the bits there are adds it. -/
lemma ofNat_or_shiftLeft {n d s : ℕ} (hn : n < 2 ^ s) (hs : s < 32) :
    Int32.ofNat n ||| Int32.ofNat d <<< Int32.ofNat s = Int32.ofNat (n + 2 ^ s * d) := by
  have hall : ∀ s : Fin 32, (Int32.ofNat s).toBitVec.smod 32 = BitVec.ofNat 32 s := by decide
  have hshift : (Int32.ofNat s).toBitVec.smod 32 = BitVec.ofNat 32 s := hall ⟨s, hs⟩
  have hor : n + 2 ^ s * d = n ||| d <<< s := by
    rw [Nat.add_comm, Nat.two_pow_add_eq_or_of_lt hn, Nat.or_comm, Nat.shiftLeft_eq, Nat.mul_comm]
  apply Int32.toBitVec_inj.mp
  rw [Int32.toBitVec_or, Int32.toBitVec_shiftLeft, hshift, hor]
  apply BitVec.eq_of_toNat_eq
  have hs' : s % 2 ^ 32 = s := Nat.mod_eq_of_lt (Nat.lt_trans hs (by decide))
  simp only [Int32.toBitVec_ofNat', BitVec.toNat_or, BitVec.shiftLeft_eq', BitVec.toNat_shiftLeft,
    BitVec.toNat_ofNat, hs', Nat.or_mod_two_pow, Nat.shiftLeft_eq, Nat.mod_mul_mod]

/-- What a text gives as `n` digits of six bits from position `pos` on. -/
def digitsAt (buffer : List UInt8) (pos n : ℕ) : List ℕ :=
  ((buffer.drop pos).take n).map fun c => (c &&& 0x3f).toNat

/-- A digit is below 64. -/
lemma lt_of_mem_digitsAt {buffer : List UInt8} {pos n d : ℕ} (h : d ∈ digitsAt buffer pos n) :
    d < 64 := by
  obtain ⟨c, -, rfl⟩ := List.mem_map.mp h
  have hmask : (c &&& 0x3f).toNat = c.toNat % 64 := by
    rw [UInt8.toNat_and]
    exact Nat.and_two_pow_sub_one_eq_mod c.toNat 6
  omega

/-- The digits of a number that was written as characters. -/
lemma digitsAt_chars {ds : List ℕ} (hds : ∀ d ∈ ds, d < 64) (first : UInt8) (rest : List UInt8) :
    digitsAt (first :: (ds.map (fun d => UInt8.ofNat (64 + d)) ++ rest)) 1 ds.length = ds := by
  have hdigit : ∀ d : Fin 64, (UInt8.ofNat (64 + d) &&& 0x3f).toNat = d := by decide
  have htake : (ds.map (fun d => UInt8.ofNat (64 + d)) ++ rest).take ds.length =
      ds.map fun d => UInt8.ofNat (64 + d) := by
    rw [List.take_append_of_le_length (by rw [List.length_map]), List.take_of_length_le]
    rw [List.length_map]
  rw [digitsAt, List.drop_succ_cons, List.drop_zero, htake, List.map_map]
  calc ds.map ((fun c : UInt8 => (c &&& 0x3f).toNat) ∘ fun d => UInt8.ofNat (64 + d))
      = ds.map id := List.map_congr_left fun d hd => hdigit ⟨d, hds d hd⟩
    _ = ds := List.map_id ds

/-- **The loop of `DecodeWired`** adds the number of the digits that follow, shifted.

**Proof sketch.** Induction on the count of digits. The bits joined so far are below the shift, so a
digit is added above them (`ofNat_or_shiftLeft`); with at most five digits the shift stays
below 32. -/
theorem decodeWiredFrom_eq {buffer : List UInt8} {n k v : ℕ} (hlength : k + 1 + n ≤ buffer.length)
    (hk : k + n ≤ 5) (hv : v < 2 ^ (2 + 6 * k)) :
    decodeWiredFrom buffer n (k + 1) (2 + 6 * k) (Int32.ofNat v) =
      Int32.ofNat (v + 2 ^ (2 + 6 * k) * Nat.ofDigits 64 (digitsAt buffer (k + 1) n)) := by
  induction n generalizing k v with
  | zero => rfl
  | succ n ih =>
    have hlt : k + 1 < buffer.length := by omega
    have hchar : buffer.getD (k + 1) 0 = buffer[k + 1] := List.getElem_eq_getD 0 |>.symm
    have hdigits : digitsAt buffer (k + 1) (n + 1) =
        (buffer[k + 1] &&& 0x3f).toNat :: digitsAt buffer (k + 1 + 1) n := by
      rw [digitsAt, List.drop_eq_getElem_cons hlt, List.take_succ_cons, List.map_cons, digitsAt]
    have hd : (buffer[k + 1] &&& 0x3f).toNat < 64 :=
      lt_of_mem_digitsAt (hdigits ▸ List.mem_cons_self)
    rw [decodeWiredFrom, hchar, hdigits]
    generalize (buffer[k + 1] &&& 0x3f).toNat = d at hd
    have hpow : 2 ^ (2 + 6 * (k + 1)) = 64 * 2 ^ (2 + 6 * k) := by ring
    have hnext : v + 2 ^ (2 + 6 * k) * d < 2 ^ (2 + 6 * (k + 1)) := by
      nlinarith
    rw [ofNat_or_shiftLeft hv (by omega), ih (by omega) (by omega) hnext, hpow, Nat.ofDigits_cons]
    congr 1
    ring

/-- The bytes of a wired number, by its digits. -/
lemma encodeWired_eq (value : Int64) :
    encodeWired value =
      UInt8.ofNat ((64 + value.toInt.natAbs % 4) |||
        ((Nat.digits 64 (value.toInt.natAbs / 4)).length + 1) <<< 3 |||
          if decide (value < 0) then 4 else 0) ::
      (Nat.digits 64 (value.toInt.natAbs / 4)).map fun d => UInt8.ofNat (64 + d) := by
  have hlow : value.toInt.natAbs &&& 3 = value.toInt.natAbs % 4 :=
    Nat.and_two_pow_sub_one_eq_mod _ 2
  have hsign : (if 0 ≤ value then 0 else 4) = if decide (value < 0) then 4 else 0 := by
    by_cases h : value < 0
    · rw [if_neg (Int64.not_le.mpr h), decide_eq_true h, if_pos rfl]
    · rw [if_pos (Int64.not_lt.mp h), decide_eq_false h, if_neg Bool.false_ne_true]
  rw [encodeWired, wiredDigits_eq, Nat.shiftRight_eq_div_pow, List.length_map, hlow, hsign]

/-- The bytes of a wired number of 32 bits are characters from 64 to 127. -/
lemma range_of_mem_encodeWired {value : Int64} (h : value.toInt.natAbs < 2 ^ 32) {c : UInt8}
    (hc : c ∈ encodeWired value) : 64 ≤ c ∧ c ≤ 127 := by
  have hcount := (length_encodeWired_le_iff value).mpr h
  rw [encodeWired_eq, List.length_cons, List.length_map] at hcount
  rw [encodeWired_eq, List.mem_cons, List.mem_map] at hc
  rcases hc with rfl | ⟨d, hd, rfl⟩
  · have hall : ∀ (low : Fin 4) (bytes : Fin 8) (negative : Bool),
        let first := UInt8.ofNat ((64 + low.val) ||| bytes.val <<< 3 ||| if negative then 4 else 0)
        64 ≤ first ∧ first ≤ 127 := by decide
    exact hall ⟨value.toInt.natAbs % 4, Nat.mod_lt _ (by decide)⟩
      ⟨_, Nat.lt_of_le_of_lt hcount (by decide)⟩ (decide (value < 0))
  · have hall : ∀ d : Fin 64, 64 ≤ UInt8.ofNat (64 + d) ∧ UInt8.ofNat (64 + d) ≤ 127 := by decide
    exact hall ⟨d, Nat.digits_lt_base (by decide) hd⟩

/-- `std::string tmp(wf)` and `tmp.resize(bytes)`: the string read from `wf` up to a zero byte and
cut to the count of bytes is what was stored, whatever memory holds behind it. -/
lemma resize_cString_encodeWired {value : Int64} (h : value.toInt.natAbs < 2 ^ 32)
    (beyond : List UInt8) :
    ((encodeWired value ++ beyond).takeWhile (· ≠ 0)).take (encodeWired value).length =
      encodeWired value := by
  have hzero : ∀ c ∈ encodeWired value, decide (c ≠ 0) = true := by
    intro c hc
    rw [decide_eq_true_eq]
    rintro rfl
    exact absurd (range_of_mem_encodeWired h hc).1 (by decide)
  rw [List.takeWhile_append_of_pos hzero, List.take_left]

/-- **Wired numbers of 32 bits** are read back, whatever follows them.

**Proof sketch.** The first byte gives the sign, the two lowest bits and the count of digits, of
which there are five at most; the loop adds these digits (`decodeWiredFrom_eq`). The sum is the
absolute value, and negating it modulo 2^32 gives the number. -/
theorem decodeWired_encodeWired {value : Int64} (h : value.toInt.natAbs < 2 ^ 32)
    (rest : List UInt8) : decodeWired (encodeWired value ++ rest) = value.toInt32 := by
  have hcount := (length_encodeWired_le_iff value).mpr h
  rw [encodeWired_eq, List.length_cons, List.length_map] at hcount
  rw [encodeWired_eq]
  generalize hm : value.toInt.natAbs = m at hcount h ⊢
  have hds : ∀ d ∈ Nat.digits 64 (m / 4), d < 64 := fun d hd => Nat.digits_lt_base (by decide) hd
  have hsum : m % 4 + 2 ^ 2 * Nat.ofDigits 64 (Nat.digits 64 (m / 4)) = m := by
    rw [Nat.ofDigits_digits]
    omega
  obtain ⟨hlow, hbytes, hsign⟩ := wired_first (Nat.mod_lt m (by decide : 0 < 4))
    (Nat.lt_of_le_of_lt hcount (by decide)) (decide (value < 0))
  generalize UInt8.ofNat ((64 + m % 4) ||| ((Nat.digits 64 (m / 4)).length + 1) <<< 3 |||
    if decide (value < 0) then 4 else 0) = first at hlow hbytes hsign ⊢
  have hloop : decodeWiredFrom
      (first :: ((Nat.digits 64 (m / 4)).map (fun d => UInt8.ofNat (64 + d)) ++ rest))
      (Nat.digits 64 (m / 4)).length 1 2 (Int32.ofNat (m % 4)) = Int32.ofNat m := by
    have hlength : 0 + 1 + (Nat.digits 64 (m / 4)).length ≤
        (first :: ((Nat.digits 64 (m / 4)).map (fun d => UInt8.ofNat (64 + d)) ++
          rest)).length := by
      rw [List.length_cons, List.length_append, List.length_map]
      omega
    have hbits : m % 4 < 2 ^ (2 + 6 * 0) := Nat.mod_lt m (by decide)
    have heq := decodeWiredFrom_eq hlength (by omega) hbits
    rw [digitsAt_chars hds] at heq
    rw [← congrArg Int32.ofNat hsum]
    exact heq
  simp only [decodeWired, List.cons_append, List.getD_cons_zero, hbytes, hlow, hsign,
    Nat.add_sub_cancel, decide_eq_true_eq, hloop]
  split
  case isTrue hneg =>
    have hvalue : value.toInt = -(m : ℤ) := by
      have := Int64.lt_iff_toInt_lt.mp hneg
      rw [Int64.toInt_zero] at this
      omega
    rw [← Int32.ofInt_int64ToInt, hvalue, Int32.ofInt_neg, Int32.ofInt_eq_ofNat, Int32.mul_neg,
      Int32.mul_one]
  case isFalse hneg =>
    have hvalue : value.toInt = (m : ℤ) := by
      have := Int64.le_iff_toInt_le.mp (Int64.not_lt.mp hneg)
      rw [Int64.toInt_zero] at this
      omega
    rw [← Int32.ofInt_int64ToInt, hvalue, Int32.ofInt_eq_ofNat]

/-- The characters `H`, `I` and `M`, and a number of three bytes. -/
example : encodeWired 0 = [72] ∧ encodeWired 1 = [73] ∧ encodeWired (-1) = [77] ∧
    encodeWired 300 = [88, 64 + 11, 64 + 1] := by decide +kernel

end SteerStone
