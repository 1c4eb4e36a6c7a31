import Mathlib.Data.List.Basic
import Mathlib.Tactic.Common
import Mathlib.Tactic.Ring

set_option relaxedAutoImplicit false
set_option autoImplicit false

/-!
# Little-endian numbers

Numbers as the machine stores them, in a fixed number of bytes with the lowest first.

## Main definitions

* `Foundations.leBytes` — the bytes of a number.
* `Foundations.leNat` — the number of a list of bytes.

## Main results

* `Foundations.leNat_leBytes`, `Foundations.leBytes_leNat` — each undoes the other, up to the
  numbers that fit.
* `Foundations.leNat_eq_iff` — which bytes have a given number.
-/

namespace Foundations

/-- The `w` lowest bytes of `n`, the lowest first. -/
def leBytes : ℕ → ℕ → List UInt8
  | 0, _ => []
  | w + 1, n => UInt8.ofNat n :: leBytes w (n / 256)

/-- The number whose bytes are those of a list, the lowest first. -/
def leNat : List UInt8 → ℕ
  | [] => 0
  | b :: bs => b.toNat + 256 * leNat bs

/-- The bytes are as many as asked for. -/
@[simp] lemma length_leBytes (w n : ℕ) : (leBytes w n).length = w := by
  induction w generalizing n with
  | zero => rfl
  | succ w ih => rw [leBytes, List.length_cons, ih]

/-- The lowest bytes of a number are the first of its bytes. -/
lemma take_leBytes {w w' : ℕ} (n : ℕ) (h : w ≤ w') : (leBytes w' n).take w = leBytes w n := by
  induction w generalizing w' n with
  | zero => simp [leBytes]
  | succ w ih =>
    obtain ⟨v, rfl⟩ : ∃ v, w' = v + 1 := ⟨w' - 1, by omega⟩
    rw [leBytes, leBytes, List.take_succ_cons, ih (n / 256) (by omega)]

/-- Reading the bytes of a number gives the number, as far as it fits. -/
lemma leNat_leBytes (w n : ℕ) : leNat (leBytes w n) = n % 256 ^ w := by
  induction w generalizing n with
  | zero => simp [leBytes, leNat, Nat.mod_one]
  | succ w ih =>
    have hbyte : (UInt8.ofNat n).toNat = n % 256 := by simp
    rw [leBytes, leNat, hbyte, ih, pow_succ', Nat.mod_mul]

/-- A number that fits is read back. -/
lemma leNat_leBytes_of_lt {w n : ℕ} (h : n < 256 ^ w) : leNat (leBytes w n) = n := by
  rw [leNat_leBytes, Nat.mod_eq_of_lt h]

/-- The bytes of the number of a list are the list. -/
lemma leBytes_leNat (bs : List UInt8) : leBytes bs.length (leNat bs) = bs := by
  induction bs with
  | nil => rfl
  | cons b bs ih =>
    have hb := b.toNat_lt
    have hlow : UInt8.ofNat (b.toNat + 256 * leNat bs) = b := by
      apply UInt8.toNat_inj.mp
      simp only [UInt8.toNat_ofNat']
      omega
    have hhigh : (b.toNat + 256 * leNat bs) / 256 = leNat bs := by omega
    rw [List.length_cons, leNat, leBytes, hlow, hhigh, ih]

/-- The number of `w` bytes is `n`, a number that fits, exactly when they are the bytes of `n`. -/
lemma leNat_eq_iff {w n : ℕ} {bs : List UInt8} (hlen : bs.length = w) (hn : n < 256 ^ w) :
    leNat bs = n ↔ bs = leBytes w n := by
  constructor
  · rintro rfl
    rw [← hlen, leBytes_leNat]
  · rintro rfl
    exact leNat_leBytes_of_lt hn

end Foundations
