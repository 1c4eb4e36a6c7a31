import Mathlib.Algebra.Group.Int.Defs
import Mathlib.Algebra.Group.Nat.Defs
import Mathlib.Data.List.Basic
import Mathlib.Tactic.Common

set_option relaxedAutoImplicit false
set_option autoImplicit false

/-!
# Password hashes

The hash of a password as the account table stores it (`Shared/Common/SHA1.cpp`), and the upper
case in which it is hashed. SHA-1 itself is a parameter; a `Digest` is what it returns.

`ByteArrayToHexStr` has a second mode, for the bytes in reverse, that nothing in the server uses. It
takes its first index from `p_Reverse - 1` where the length minus one is meant, so it renders the
first byte of the array and no other.

## Main definitions

* `SteerStone.byteArrayToHexStr` — the bytes of an array in hexadecimal.
* `SteerStone.calculateSHA1Hash` — the hash of a text, in hexadecimal.

## Main results

* `SteerStone.calculateSHA1Hash_eq` — the hash is rendered without reading past the digest.
* `SteerStone.byteArrayToHexStr_iff` — the arrays that are rendered in order, and in reverse.
-/

namespace SteerStone

/-- What `SHA1` returns: `SHA_DIGEST_LENGTH` bytes. -/
structure Digest where
  /-- The bytes. -/
  bytes : List UInt8
  /-- Their number. -/
  length_bytes : bytes.length = 20

/-- A hexadecimal digit, in upper case. -/
def hexDigit (d : ℕ) : UInt8 := if d < 10 then UInt8.ofNat (48 + d) else UInt8.ofNat (55 + d)

/-- `sprintf` with the format `%02X`. -/
def hexByte (b : UInt8) : List UInt8 := [hexDigit (b.toNat / 16), hexDigit (b.toNat % 16)]

/-- The loop of `ByteArrayToHexStr`, from index `i` on. It ends only where `i` is `end`; there is no
result when it reads outside of the array before that, or when `i`, an `int32`, overflows. -/
def renderFrom (bytes : List UInt8) (stop : ℤ) (reverse : Bool) (i : ℤ) : Option (List UInt8) :=
  if i = stop then some []
  else if 0 ≤ i ∧ i < bytes.length then
    let op : ℤ := if reverse then -1 else 1
    if i + op ≤ 2147483647 then
      (renderFrom bytes stop reverse (i + op)).map (hexByte (bytes.getD i.toNat 0) ++ ·)
    else none
  else none
termination_by if reverse then (i + 1).toNat else (bytes.length - i).toNat
decreasing_by
  cases reverse
  · simp
    omega
  · simp
    omega

/-- `ByteArrayToHexStr`. `p_ArrayLen` is converted to an `int32`, and `p_Reverse`, a `bool`, to a
number. -/
def byteArrayToHexStr (bytes : List UInt8) (arrayLen : UInt32) (reverse : Bool) :
    Option (List UInt8) :=
  let init : ℤ := if reverse then (reverse.toNat : ℤ) - 1 else 0
  let stop : ℤ := if reverse then -1 else arrayLen.toInt32.toInt
  renderFrom bytes stop reverse init

/-- `CalculateSHA1Hash`. -/
def calculateSHA1Hash (sha1 : List UInt8 → Digest) (content : List UInt8) :
    Option (List UInt8) :=
  byteArrayToHexStr (sha1 content).bytes 20 false

/-- `boost::to_upper_copy`, in the classic locale. -/
def toUpper (text : List UInt8) : List UInt8 :=
  text.map fun c => if 97 ≤ c ∧ c ≤ 122 then c - 32 else c

/-- The forward loop renders the bytes of the array from index `i` up to `stop`.

**Proof sketch.** Induction on the rounds left: the byte at `i` is rendered, and the loop goes on
with the next index, which is at most `stop`. -/
lemma renderFrom_forward (bytes : List UInt8) {rounds i stop : ℕ} (hstop : i + rounds = stop)
    (hlength : stop ≤ bytes.length) (hint : stop < 2 ^ 31) :
    renderFrom bytes stop false i = some (((bytes.drop i).take rounds).flatMap hexByte) := by
  induction rounds generalizing i with
  | zero =>
    rw [renderFrom, if_pos (by omega)]
    rfl
  | succ rounds ih =>
    have hi : i < bytes.length := by omega
    have hrest := ih (i := i + 1) (by omega)
    have hchar : bytes.getD i 0 = bytes[i] := (List.getElem_eq_getD 0).symm
    push_cast at hrest
    rw [renderFrom, if_neg (by omega), if_pos (by omega)]
    dsimp only
    rw [if_neg Bool.false_ne_true, if_pos (by omega), hrest, Int.toNat_natCast, hchar,
      List.drop_eq_getElem_cons hi, List.take_succ_cons, List.flatMap_cons]
    rfl

/-- **The hash is rendered without reading past the digest.** -/
theorem calculateSHA1Hash_eq (sha1 : List UInt8 → Digest) (content : List UInt8) :
    calculateSHA1Hash sha1 content = some ((sha1 content).bytes.flatMap hexByte) := by
  have hlen := (sha1 content).length_bytes
  have h := renderFrom_forward (sha1 content).bytes (Nat.zero_add 20) (by omega) (by decide)
  rw [List.drop_zero, List.take_of_length_le (by omega)] at h
  exact h

/-! ## Rendering an array -/

/-- Two bytes of different value have different digits. -/
lemma hexByte_injective : Function.Injective hexByte := by
  have hdigit : ∀ d d' : Fin 16, hexDigit d = hexDigit d' → d = d' := by decide
  intro b b' h
  obtain ⟨hhigh, hlow⟩ := List.cons_eq_cons.mp h
  have hb : b.toNat < 256 := UInt8.toNat_lt b
  have hb' : b'.toNat < 256 := UInt8.toNat_lt b'
  have hdiv : b.toNat / 16 = b'.toNat / 16 := congrArg Fin.val
    (hdigit ⟨b.toNat / 16, by omega⟩ ⟨b'.toNat / 16, by omega⟩ hhigh)
  have hmod : b.toNat % 16 = b'.toNat % 16 := congrArg Fin.val
    (hdigit ⟨b.toNat % 16, by omega⟩ ⟨b'.toNat % 16, by omega⟩ (List.cons_eq_cons.mp hlow).1)
  apply UInt8.toNat_inj.mp
  omega

/-- The digits of an array, two for each byte. -/
lemma length_flatMap_hexByte (bytes : List UInt8) :
    (bytes.flatMap hexByte).length = 2 * bytes.length := by
  induction bytes with
  | nil => rfl
  | cons b bytes ih =>
    rw [List.flatMap_cons, List.length_append, ih, List.length_cons]
    show 2 + 2 * bytes.length = _
    omega

/-- The digits determine the array. -/
lemma flatMap_hexByte_injective {bytes bytes' : List UInt8}
    (h : bytes.flatMap hexByte = bytes'.flatMap hexByte) : bytes = bytes' := by
  induction bytes generalizing bytes' with
  | nil =>
    have hlength := congrArg List.length h
    rw [length_flatMap_hexByte, length_flatMap_hexByte, List.length_nil] at hlength
    exact (List.length_eq_zero_iff.mp (by omega)).symm
  | cons b bytes ih =>
    cases bytes' with
    | nil => simp [hexByte] at h
    | cons b' bytes' =>
      rw [List.flatMap_cons, List.flatMap_cons] at h
      obtain ⟨hb, hrest⟩ := List.append_inj h rfl
      rw [hexByte_injective hb, ih hrest]

/-- The forward loop does not return when it starts behind its end.

**Proof sketch.** Induction on what is left of the array: no index is `end` any more, so the loop
reads past the array, unless `i` overflows first. -/
lemma renderFrom_past (bytes : List UInt8) {left : ℕ} {stop i : ℤ}
    (hleft : (bytes.length - i).toNat = left) (h : stop < i) :
    renderFrom bytes stop false i = none := by
  induction left generalizing i with
  | zero =>
    rw [renderFrom, if_neg (by omega), if_neg (by omega)]
  | succ left ih =>
    have hrest := ih (i := i + 1) (by omega) (by omega)
    rw [renderFrom, if_neg (by omega)]
    dsimp only
    rw [if_neg Bool.false_ne_true, hrest, Option.map_none, ite_self, ite_self]

/-- The reverse mode renders the first byte only. -/
lemma byteArrayToHexStr_reverse (bytes : List UInt8) (arrayLen : UInt32) :
    byteArrayToHexStr bytes arrayLen true = bytes.head?.map hexByte := by
  cases bytes with
  | nil =>
    show renderFrom [] (-1) true 0 = none
    rw [renderFrom, if_neg (by decide), if_neg (by decide)]
  | cons b bytes =>
    have hend : renderFrom (b :: bytes) (-1) true (-1) = some [] := by rw [renderFrom, if_pos rfl]
    show renderFrom (b :: bytes) (-1) true 0 = some (hexByte b)
    rw [renderFrom, if_neg (by decide), if_pos (by rw [List.length_cons]; omega)]
    dsimp only
    rw [if_pos rfl, if_pos (by decide), Int.zero_add, hend]
    exact congrArg some (List.append_nil _)

/-- The length of an array as an `int32`. -/
lemma toInt_length {n : ℕ} (h : n < 2 ^ 32) :
    (UInt32.ofNat n).toInt32.toInt = if n < 2 ^ 31 then (n : ℤ) else n - 2 ^ 32 := by
  rw [UInt32.toInt32_ofNat', Int32.toInt_ofNat', Int.bmod_def, show Int32.size = 2 ^ 32 from rfl]
  split_ifs <;> omega

/-- **Hex rendering, exactly.** For every array whose length is a `uint32`: without `p_Reverse` the
bytes are rendered in order, reading within the array, if and only if the length is below 2^31; with
it, they are rendered in reverse if and only if there is one byte. A rendering has two digits for
each byte, and no other array has it.

**Proof sketch.** Forward, the loop reaches `end` after as many rounds as there are bytes
(`renderFrom_forward`); a longer length is negative as an `int32`, and the loop does not end
(`renderFrom_past`). In reverse it starts at index 0, so that it renders the first byte and ends
(`byteArrayToHexStr_reverse`). -/
theorem byteArrayToHexStr_iff (bytes : List UInt8) (hlength : bytes.length < 2 ^ 32) :
    (byteArrayToHexStr bytes (UInt32.ofNat bytes.length) false = some (bytes.flatMap hexByte) ↔
      bytes.length < 2 ^ 31) ∧
    (byteArrayToHexStr bytes (UInt32.ofNat bytes.length) true =
        some (bytes.reverse.flatMap hexByte) ↔ bytes.length = 1) ∧
    (bytes.flatMap hexByte).length = 2 * bytes.length ∧
    ∀ bytes', bytes'.flatMap hexByte = bytes.flatMap hexByte → bytes' = bytes := by
  refine ⟨?_, ?_, length_flatMap_hexByte bytes, fun bytes' h => flatMap_hexByte_injective h⟩
  · show renderFrom bytes _ false 0 = _ ↔ _
    rw [toInt_length hlength]
    by_cases hint : bytes.length < 2 ^ 31
    · have hall := renderFrom_forward bytes (Nat.zero_add _) (Nat.le_refl _) hint
      rw [List.drop_zero, List.take_length] at hall
      rw [if_pos hint]
      exact iff_of_true hall hint
    · rw [if_neg hint, renderFrom_past bytes rfl (by omega)]
      exact iff_of_false nofun hint
  · rw [byteArrayToHexStr_reverse]
    constructor
    · intro h
      obtain ⟨b, hb, heq⟩ := Option.map_eq_some_iff.mp h
      have htwo := congrArg List.length heq
      rw [length_flatMap_hexByte, List.length_reverse] at htwo
      have : (hexByte b).length = 2 := rfl
      omega
    · intro hone
      obtain ⟨b, rfl⟩ := List.length_eq_one_iff.mp hone
      exact congrArg some (List.append_nil _).symm

/-- Two bytes in order. -/
theorem byteArrayToHexStr_two : byteArrayToHexStr [0x0a, 0xff] 2 false =
    some ([0x0a, 0xff].flatMap hexByte) :=
  (byteArrayToHexStr_iff [0x0a, 0xff] (by decide)).1.mpr (by decide)

/-- Two bytes in reverse: the first one is rendered, and then the loop ends. -/
theorem byteArrayToHexStr_fails :
    byteArrayToHexStr [0x0a, 0xff] 2 true = some (hexByte 0x0a) ∧
      byteArrayToHexStr [0x0a, 0xff] 2 true ≠ some ([0x0a, 0xff].reverse.flatMap hexByte) ∧
      byteArrayToHexStr [] 0 true = none := by
  rw [byteArrayToHexStr_reverse, byteArrayToHexStr_reverse]
  decide

end SteerStone
