import Mathlib.Algebra.BigOperators.Group.List.Basic
import Mathlib.Algebra.GroupWithZero.Nat
import Mathlib.Tactic.Common

set_option relaxedAutoImplicit false
set_option autoImplicit false

/-!
# The world timer

The class `WorldTimer` (`Shared/Common/Timer.cpp`): `Tick` takes the server time, in milliseconds
modulo 2^32, and returns the difference to the time of the tick before. Across a wrap of the 32 bits
the difference is computed from `0xFFFFFFFF`, the last value before the wrap, so the millisecond
that leads from it to 0 is lost.

## Main definitions

* `SteerStone.getTimeDifference`, `SteerStone.WorldTimer.tick` — the functions.
* `SteerStone.WorldTimer.ticks` — what a run of ticks returns.
* `SteerStone.Steady` — server times that do not go back, less than 2^31 apart.

## Main results

* `SteerStone.getTimeDifference_steady` — the difference is short by the wraps.
* `SteerStone.sum_ticks_add_wraps` — so is the sum over a run.
* `SteerStone.elapsed_iff` — the difference, and the sum, are the time elapsed exactly when there is
  no wrap.

## Implementation notes

* The server time is a natural number; `Tick` gets it modulo 2^32.
* The members of a new timer hold anything.
-/

namespace SteerStone

/-- `GetTimeDifference`. -/
def getTimeDifference (oldMSTime newMSTime : UInt32) : UInt32 :=
  if oldMSTime > newMSTime then
    let diff1 := 0xFFFFFFFF - oldMSTime + newMSTime
    let diff2 := oldMSTime - newMSTime
    if diff2 < diff1 then diff2 else diff1
  else newMSTime - oldMSTime

/-- A `WorldTimer`. -/
structure WorldTimer where
  /-- `m_Time`. -/
  time : UInt32
  /-- `m_PrevTime`. -/
  prevTime : UInt32

namespace WorldTimer

/-- `Tick`, at a server time: what it returns, and the timer then. -/
def tick (timer : WorldTimer) (serverTime : ℕ) : UInt32 × WorldTimer :=
  let timer := { timer with prevTime := timer.time }
  let timer := { timer with time := UInt32.ofNat serverTime }
  (getTimeDifference timer.prevTime timer.time, timer)

/-- What ticks at these server times return. -/
def ticks (timer : WorldTimer) : List ℕ → List UInt32
  | [] => []
  | serverTime :: rest => (timer.tick serverTime).1 :: (timer.tick serverTime).2.ticks rest

end WorldTimer

/-- Server times that do not go back, less than 2^31 milliseconds apart. -/
def Steady (times : List ℕ) : Prop := times.IsChain fun t t' => t ≤ t' ∧ t' - t < 2 ^ 31

/-! ## One difference -/

/-- How often the 32 bits wrap around from one server time to another. -/
def wraps (t t' : ℕ) : ℕ := t' / 2 ^ 32 - t / 2 ^ 32

/-- **The difference of two server times** less than 2^31 apart is short by the wraps between them.

**Proof sketch.** Without a wrap, the later time is not the smaller one, and they are subtracted.
With one, the first candidate is the difference minus one, and the second is more than 2^31. -/
theorem getTimeDifference_steady {t t' : ℕ} (hle : t ≤ t') (hlt : t' - t < 2 ^ 31) :
    (getTimeDifference (UInt32.ofNat t) (UInt32.ofNat t')).toNat + wraps t t' = t' - t := by
  have hold : (UInt32.ofNat t).toNat = t % 2 ^ 32 := UInt32.toNat_ofNat
  have hnew : (UInt32.ofNat t').toNat = t' % 2 ^ 32 := UInt32.toNat_ofNat
  generalize UInt32.ofNat t = old at hold ⊢
  generalize UInt32.ofNat t' = new at hnew ⊢
  unfold getTimeDifference wraps
  by_cases hwrap : old > new
  · have hgt : new.toNat < old.toNat := UInt32.lt_iff_toNat_lt.mp hwrap
    have hlt32 : old.toNat < 2 ^ 32 := UInt32.toNat_lt old
    have hfirst : (0xFFFFFFFF - old).toNat = 2 ^ 32 - 1 - old.toNat := by
      rw [UInt32.toNat_sub_of_le _ _ (UInt32.le_iff_toNat_le.mpr (Nat.le_sub_one_of_lt hlt32))]
      rfl
    have hdiff1 : (0xFFFFFFFF - old + new).toNat = 2 ^ 32 - 1 - old.toNat + new.toNat := by
      rw [UInt32.toNat_add, hfirst, Nat.mod_eq_of_lt (by omega)]
    have hdiff2 : (old - new).toNat = old.toNat - new.toNat :=
      UInt32.toNat_sub_of_le _ _ (UInt32.le_iff_toNat_le.mpr (Nat.le_of_lt hgt))
    have hmin : ¬ old - new < 0xFFFFFFFF - old + new := by
      rw [UInt32.lt_iff_toNat_lt, hdiff1, hdiff2]
      omega
    rw [if_pos hwrap]
    dsimp only
    rw [if_neg hmin, hdiff1]
    omega
  · have hge : old.toNat ≤ new.toNat := UInt32.le_iff_toNat_le.mp (UInt32.not_lt.mp hwrap)
    rw [if_neg hwrap, UInt32.toNat_sub_of_le _ _ (UInt32.le_iff_toNat_le.mpr hge)]
    omega

/-! ## A run of ticks -/

/-- The ticks of a timer that has been ticked at server time `t`.

**Proof sketch.** Induction on the server times: a tick returns the difference to the one before,
short by the wraps between the two (`getTimeDifference_steady`), and leaves a timer that has been
ticked then. -/
lemma sum_ticks_from (timer : WorldTimer) {t : ℕ} {ts : List ℕ}
    (htimer : timer.time = UInt32.ofNat t) (hsteady : Steady (t :: ts)) :
    t ≤ ts.getLastD t ∧
      ((timer.ticks ts).map UInt32.toNat).sum + wraps t (ts.getLastD t) = ts.getLastD t - t := by
  induction ts generalizing timer t with
  | nil =>
    refine ⟨Nat.le_refl _, ?_⟩
    rw [WorldTimer.ticks, List.getLastD_nil, wraps, Nat.sub_self, Nat.sub_self]
    rfl
  | cons t' ts ih =>
    obtain ⟨⟨hle, hlt⟩, hrest⟩ := List.isChain_cons_cons.mp hsteady
    have hfirst := getTimeDifference_steady hle hlt
    obtain ⟨hle', hsum⟩ := ih (timer.tick t').2 rfl hrest
    have hreturned : (timer.tick t').1 =
        getTimeDifference (UInt32.ofNat t) (UInt32.ofNat t') := by
      rw [← htimer]
      rfl
    rw [List.getLastD_cons, WorldTimer.ticks, List.map_cons, List.sum_cons, hreturned]
    unfold wraps at hfirst hsum ⊢
    have hblock := Nat.div_le_div_right (c := 2 ^ 32) hle
    have hblock' := Nat.div_le_div_right (c := 2 ^ 32) hle'
    exact ⟨by omega, by omega⟩

/-- **The sum over a run of ticks** is short by the wraps, whatever the timer held before the first
one.

**Proof sketch.** The first tick sets the time; from there on, it is `sum_ticks_from`. -/
theorem sum_ticks_add_wraps (timer : WorldTimer) {t : ℕ} {ts : List ℕ}
    (hsteady : Steady (t :: ts)) :
    ((timer.ticks (t :: ts)).tail.map UInt32.toNat).sum + wraps t (ts.getLastD t) =
      ts.getLastD t - t :=
  (sum_ticks_from (timer.tick t).2 rfl hsteady).2

/-- **Elapsed time, exactly.** For every old time and every elapsed time below 2^31, the difference
that `GetTimeDifference` returns is the elapsed time if and only if there is no wrap; and for every
run of ticks, the sum of what they return after the first is the elapsed time if and only if the
server time does not wrap around between the first and the last.

**Proof sketch.** Both are short by the wraps (`getTimeDifference_steady`,
`sum_ticks_add_wraps`). -/
theorem elapsed_iff (old : UInt32) (d : ℕ) (timer : WorldTimer) (t : ℕ) (ts : List ℕ) :
    (d < 2 ^ 31 →
      ((getTimeDifference old (UInt32.ofNat (old.toNat + d))).toNat = d ↔
        old.toNat + d < 2 ^ 32)) ∧
    (Steady (t :: ts) →
      (((timer.ticks (t :: ts)).tail.map UInt32.toNat).sum = ts.getLastD t - t ↔
        t / 2 ^ 32 = ts.getLastD t / 2 ^ 32)) := by
  constructor
  · intro hd
    have hdiff := getTimeDifference_steady (Nat.le_add_right old.toNat d) (by omega)
    have hlt : old.toNat < 2 ^ 32 := UInt32.toNat_lt old
    rw [UInt32.ofNat_toNat, wraps] at hdiff
    omega
  · intro hsteady
    have hsum := sum_ticks_add_wraps timer hsteady
    have hle := (sum_ticks_from (timer.tick t).2 rfl hsteady).1
    have hblock := Nat.div_le_div_right (c := 2 ^ 32) hle
    rw [wraps] at hsum
    omega

/-- Fifty milliseconds, and a run of three ticks from a timer that is not set. -/
theorem elapsed_fifty :
    (getTimeDifference 10 (UInt32.ofNat (10 + 50))).toNat = 50 ∧
      (((⟨7, 7⟩ : WorldTimer).ticks [10, 60, 110]).tail.map UInt32.toNat).sum = 100 :=
  have h := elapsed_iff 10 50 ⟨7, 7⟩ 10 [60, 110]
  ⟨(h.1 (by decide)).mpr (by decide), (h.2 (by unfold Steady; simp)).mpr (by decide)⟩

/-- One millisecond from the last value of the 32 bits on, and a run of two ticks over it. -/
theorem elapsed_fails :
    getTimeDifference 0xFFFFFFFF (UInt32.ofNat (0xFFFFFFFF + 1)) = 0 ∧
      Steady [0xFFFFFFFF, 0x100000000] ∧
      ∀ timer : WorldTimer, (timer.ticks [0xFFFFFFFF, 0x100000000]).tail = [0] := by
  refine ⟨by decide +kernel, by unfold Steady; simp, fun timer => ?_⟩
  have htwo : ∀ t t', (timer.ticks [t, t']).tail =
      [getTimeDifference (UInt32.ofNat t) (UInt32.ofNat t')] := fun _ _ => rfl
  rw [htwo]
  decide +kernel

end SteerStone
