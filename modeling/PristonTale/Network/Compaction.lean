import PristonTale.Network.SocketWrite
import Mathlib.Algebra.GroupWithZero.Nat

set_option relaxedAutoImplicit false
set_option autoImplicit false

/-!
# Moving what is left of the out-buffer

When the transport took only the first bytes of the out-buffer, `OnWriteComplete` moves the rest to
its start with `memcpy`, which requires that the bytes read and the bytes written have no index in
common. They have none exactly when at least half of the buffer was taken, and how much is in the
buffer is known from what was written and taken before.

## Main definitions

* `SteerStone.CopiesDisjoint` — a completed write copies between disjoint ranges.
* `SteerStone.waiting` — the bytes written and not yet taken, by the actions so far.
* `SteerStone.TakesHalf` — a completed write takes at least half of them.

## Main results

* `SteerStone.writePosition_of_run` — the bytes in the buffer are those waiting.
* `SteerStone.isOpen_of_run` — a socket is open until an action closes it.
* `SteerStone.compaction_disjoint_iff` — runs, exactly.
-/

namespace SteerStone

open Foundations

/-- The ranges of `n` indices from `i` and from `j` on have no index in common. -/
def DisjointRanges (i j n : ℕ) : Prop := ∀ k, ¬ ((i ≤ k ∧ k < i + n) ∧ j ≤ k ∧ k < j + n)

/-- Ranges from 0 and from `p` on. -/
lemma disjointRanges_zero_iff {p n : ℕ} : DisjointRanges p 0 n ↔ n ≤ p := by
  unfold DisjointRanges
  constructor
  · intro h
    have hp := h p
    omega
  · intro h k
    omega

/-- The `memcpy` of `OnWriteComplete`, if it is executed, copies between disjoint ranges. -/
def CopiesDisjoint (s : Socket) : WriteAction → Prop
  | .writeComplete length _ => s.isOpen = true → length < s.outBuffer.writePosition →
      DisjointRanges length 0 (s.outBuffer.writePosition - length)
  | _ => True

/-- The bytes that the transport takes. -/
def WriteAction.taken : WriteAction → ℕ
  | .writeComplete length _ => length
  | _ => 0

/-- The action closes the socket. -/
def WriteAction.Closes : WriteAction → Prop
  | .close => True
  | .writeFail => True
  | _ => False

/-- The bytes written and not yet taken. -/
def waiting (as : List WriteAction) : ℕ :=
  (as.map fun a => a.written.length).sum - (as.map WriteAction.taken).sum

/-- A write that is completed after the actions of a list takes at least half of the bytes waiting,
unless the socket was closed. -/
def TakesHalf (as : List WriteAction) : WriteAction → Prop
  | .writeComplete length _ => (∃ a ∈ as, a.Closes) ∨ waiting as ≤ 2 * length
  | _ => True

variable (grow : ℕ → ℕ → ℕ)

/-! ## Whether the socket is open, and what is in the buffer -/

/-- A step leaves a socket open unless it closes it. -/
lemma isOpen_step_iff {s t : Socket} {a : WriteAction}
    (h : (writeSystem grow).step s a = some t) :
    t.isOpen = true ↔ s.isOpen = true ∧ ¬ a.Closes := by
  rcases writeSystem_step_cases grow h with ⟨bytes, rfl, rfl⟩ | ⟨rfl, rfl⟩ | ⟨w, ws, rfl, hw, rfl⟩ |
    ⟨op, ops, n, stale, rfl, hw, hle, rfl⟩ | ⟨op, ops, rfl, hw, rfl⟩ | ⟨rfl, rfl⟩
  · simp [WriteAction.Closes]
  · simp [WriteAction.Closes, Socket.forceFlushOut]
  · simp [WriteAction.Closes]
  · simp [WriteAction.Closes]
  · simp [WriteAction.Closes, Socket.onError_eq]
  · simp [WriteAction.Closes]

/-- **A socket is open** until an action closes it. -/
theorem isOpen_of_run {s t : Socket} {as : List WriteAction}
    (h : (writeSystem grow).run s as = some t) :
    t.isOpen = true ↔ s.isOpen = true ∧ ∀ a ∈ as, ¬ a.Closes := by
  induction as generalizing s with
  | nil =>
    obtain rfl : s = t := by simpa using h
    simp
  | cons a as ih =>
    obtain ⟨s', hstep, hrun⟩ := (Transition.run_cons_eq_some _).mp h
    rw [ih hrun, isOpen_step_iff grow hstep, List.forall_mem_cons, and_assoc]

/-- What a step adds to the buffer, and what it takes from it. -/
lemma writePosition_step {s t : Socket} {a : WriteAction} (hc : s.isOpen = true → Coherent s)
    (h : (writeSystem grow).step s a = some t) (hopen : t.isOpen = true) :
    t.outBuffer.writePosition + a.taken = s.outBuffer.writePosition + a.written.length := by
  have hs := isOpen_of_step grow h hopen
  rcases writeSystem_step_cases grow h with ⟨bytes, rfl, rfl⟩ | ⟨rfl, rfl⟩ | ⟨w, ws, rfl, hw, rfl⟩ |
    ⟨op, ops, n, stale, rfl, hw, hle, rfl⟩ | ⟨op, ops, rfl, hw, rfl⟩ | ⟨rfl, rfl⟩
  · simp [WriteAction.taken, WriteAction.written]
  · simp [WriteAction.taken, WriteAction.written, Socket.forceFlushOut]
  · simp [WriteAction.taken, WriteAction.written]
  · obtain ⟨-, -, -, hpos⟩ := (hc hs).of_writes hw
    have hbuf : ({ s with
        writes := ops
        accepted := s.accepted ++ s.transmitted op n stale }.onWriteComplete n).outBuffer =
        Socket.compact s.outBuffer n := Socket.onWriteComplete_outBuffer
      { s with writes := ops, accepted := s.accepted ++ s.transmitted op n stale } hs n
    rw [hbuf, Socket.writePosition_compact]
    simp only [WriteAction.taken, WriteAction.written, List.length_nil]
    omega
  · simp [Socket.onError_eq] at hopen
  · simp at hopen

/-- **The bytes in the buffer** of an open socket are those that were there at first, and those
written since, less those taken. -/
theorem writePosition_of_run {s t : Socket} {as : List WriteAction}
    (hc : s.isOpen = true → Coherent s) (h : (writeSystem grow).run s as = some t)
    (hopen : t.isOpen = true) :
    t.outBuffer.writePosition + (as.map WriteAction.taken).sum =
      s.outBuffer.writePosition + (as.map fun a => a.written.length).sum := by
  induction as generalizing s with
  | nil =>
    obtain rfl : s = t := by simpa using h
    simp
  | cons a as ih =>
    obtain ⟨s', hstep, hrun⟩ := (Transition.run_cons_eq_some _).mp h
    have hrest := ih (coherent_step grow s a s' hc hstep) hrun
    have hfirst := writePosition_step grow hc hstep ((isOpen_of_run grow hrun).mp hopen).1
    simp only [List.map_cons, List.sum_cons]
    omega

/-- The bytes in the buffer of an open socket that was fresh at first are those waiting. -/
lemma waiting_eq {t : Socket} {as : List WriteAction}
    (h : (writeSystem grow).run Socket.fresh as = some t) (hopen : t.isOpen = true) :
    waiting as = t.outBuffer.writePosition := by
  have hpos := writePosition_of_run grow (fun _ => coherent_fresh) h hopen
  have hfresh : Socket.fresh.outBuffer.writePosition = 0 := rfl
  unfold waiting
  omega

/-! ## Runs -/

/-- **One completed write** copies between disjoint ranges exactly when it takes half of what is
waiting. -/
theorem copiesDisjoint_iff {t : Socket} {as : List WriteAction}
    (h : (writeSystem grow).run Socket.fresh as = some t) (a : WriteAction) :
    CopiesDisjoint t a ↔ TakesHalf as a := by
  cases a with
  | writeComplete length stale =>
    have hopen := isOpen_of_run grow h
    have hfresh : Socket.fresh.isOpen = true := rfl
    rw [CopiesDisjoint, TakesHalf]
    cases ht : t.isOpen with
    | false =>
      have hclosed : ∃ a ∈ as, a.Closes := by
        by_contra hnone
        push Not at hnone
        rw [hopen.mpr ⟨hfresh, hnone⟩] at ht
        cases ht
      simp [hclosed]
    | true =>
      have hnone : ¬ ∃ a ∈ as, a.Closes := by
        push Not
        exact (hopen.mp ht).2
      rw [waiting_eq grow h ht]
      constructor
      · intro hcopy
        refine .inr ?_
        by_cases hlt : length < t.outBuffer.writePosition
        · have hle := disjointRanges_zero_iff.mp (hcopy rfl hlt)
          omega
        · omega
      · rintro (hclosed | hhalf) _ hlt
        · exact absurd hclosed hnone
        · exact disjointRanges_zero_iff.mpr (by omega)
  | write | forceFlushOut | flushTimer | writeFail | close => exact Iff.rfl

/-- **Compaction copies disjoint ranges, exactly.** In every run from a fresh socket, each `memcpy`
that is executed copies between disjoint ranges if and only if each write that is completed while
the socket is open takes at least half of the bytes written and not yet taken.

**Proof sketch.** The bytes in the buffer are those waiting (`writePosition_of_run`), and `memcpy`
is executed for the ones that are left over. -/
theorem compaction_disjoint_iff (as : List WriteAction) (s : Socket)
    (h : (writeSystem grow).run Socket.fresh as = some s) :
    (writeSystem grow).Along CopiesDisjoint Socket.fresh as ↔
      ∀ pre a post, as = pre ++ a :: post → TakesHalf pre a := by
  rw [Transition.along_iff_prefix]
  constructor
  · intro hall pre a post heq
    rw [heq] at h
    obtain ⟨t, hrun, -⟩ := (writeSystem grow).exists_of_run_append h
    exact (copiesDisjoint_iff grow hrun a).mp (hall pre a post t heq hrun)
  · intro hall pre a post t heq hrun
    exact (copiesDisjoint_iff grow hrun a).mpr (hall pre a post heq)

/-- Two bytes of which the transport takes one, and then the other. -/
theorem compaction_disjoint_two_bytes :
    (writeSystem fun _ n => n).Along CopiesDisjoint Socket.fresh
      [.write [74, 75], .flushTimer, .writeComplete 1 fun _ => 0] := by
  refine (compaction_disjoint_iff (fun _ n => n) _ _ rfl).mpr ?_
  intro pre a post heq
  rcases pre with _ | ⟨b, _ | ⟨c, _ | ⟨d, pre⟩⟩⟩
  · cases heq
    trivial
  · cases heq
    trivial
  · cases heq
    exact .inr (by decide)
  · simp at heq

/-- Three bytes of which the transport takes one: the other two are copied from the second place on
to the first, and the second place is both read and written. -/
theorem compaction_disjoint_fails : ∃ s,
    (writeSystem fun _ n => n).run Socket.fresh [.write [74, 75, 76], .flushTimer] = some s ∧
      s.isOpen = true ∧ s.writes.length = 1 ∧ s.outBuffer.writePosition = 3 ∧
      ¬ CopiesDisjoint s (.writeComplete 1 fun _ => 0) := by
  refine ⟨_, rfl, rfl, rfl, rfl, ?_⟩
  intro hdisjoint
  exact hdisjoint rfl (by decide) 1 (by decide)

end SteerStone
