import Mathlib.Data.List.Nodup
import Mathlib.Tactic.Common
import PristonTale.Foundations.Transition

set_option relaxedAutoImplicit false
set_option autoImplicit false

/-!
# Lending

A stock of interchangeable resources, lent to borrowers one at a time. A resource is lent from
what is free; a new one is added to the stock only when nothing is free. Each resource is in one
place, free or with one borrower: `Lending` carries this, so no operation can lend a resource
twice.

The stock never shrinks and grows only on demand, so its size is decided by the history: it is the
initial size, or the largest number of loans there ever were at one time if that is more.

## Main definitions

* `Foundations.Lending` — the resources that are free, and the loans.
* `Foundations.Lending.lend`, `Foundations.Lending.lendNew`, `Foundations.Lending.giveBack` — the
  operations, and `Foundations.Lending.Step` — any of them.

## Main results

* `Foundations.Lending.eq_of_same_resource` — no two borrowers have the same resource.
* `Foundations.Lending.Step.size_eq` — the law of the size of the stock.
-/

namespace Foundations

/-- Resources of type `ρ`, lent to borrowers of type `β`. -/
structure Lending (β ρ : Type*) where
  /-- The resources that can be lent, first the one that is lent next. -/
  free : List ρ
  /-- The loans: who has what. -/
  loans : List (β × ρ)
  /-- Each resource is in one place. -/
  exclusive : (loans.map Prod.snd ++ free).Nodup
  /-- Each borrower has one resource. -/
  single : (loans.map Prod.fst).Nodup

namespace Lending

variable {β ρ : Type*}

/-- The number of resources. -/
def size (l : Lending β ρ) : ℕ := l.free.length + l.loans.length

/-- A stock that is not lent yet. -/
def stocked (free : List ρ) (h : free.Nodup) : Lending β ρ := ⟨free, [], h, List.nodup_nil⟩

/-- Lend the first free resource. -/
def lend (l : Lending β ρ) (b : β) (r : ρ) (rest : List ρ) (hfree : l.free = r :: rest)
    (hb : b ∉ l.loans.map Prod.fst) : Lending β ρ where
  free := rest
  loans := (b, r) :: l.loans
  exclusive := by
    have h := l.exclusive
    rw [hfree] at h
    exact (List.perm_middle.nodup_iff).mp h
  single := List.nodup_cons.mpr ⟨hb, l.single⟩

/-- Lend a new resource, when none is free. -/
def lendNew (l : Lending β ρ) (b : β) (r : ρ) (hr : r ∉ l.loans.map Prod.snd)
    (hfree : l.free = []) (hb : b ∉ l.loans.map Prod.fst) : Lending β ρ where
  free := []
  loans := (b, r) :: l.loans
  exclusive := by
    have h := l.exclusive
    rw [hfree, List.append_nil] at h
    simpa using ⟨by simpa using hr, h⟩
  single := List.nodup_cons.mpr ⟨hb, l.single⟩

/-- A borrower gives back what it has; it is lent again after everything that is free. -/
def giveBack [DecidableEq β] [DecidableEq ρ] (l : Lending β ρ) (b : β) (r : ρ)
    (h : (b, r) ∈ l.loans) : Lending β ρ where
  free := l.free ++ [r]
  loans := l.loans.erase (b, r)
  exclusive := by
    have hperm : l.loans.Perm ((b, r) :: l.loans.erase (b, r)) := List.perm_cons_erase h
    have hall : (l.loans.map Prod.snd ++ l.free).Perm
        ((l.loans.erase (b, r)).map Prod.snd ++ (l.free ++ [r])) := by
      have h₁ := (hperm.map Prod.snd).append_right l.free
      refine h₁.trans ?_
      rw [List.map_cons, List.cons_append, ← List.append_assoc]
      exact (List.perm_append_singleton r _).symm
    exact hall.nodup_iff.mp l.exclusive
  single := by
    have hsub : (l.loans.erase (b, r)).Sublist l.loans := List.erase_sublist
    exact (hsub.map Prod.fst).nodup l.single

variable {l l' : Lending β ρ}

/-- **No two borrowers have the same resource.** -/
theorem eq_of_same_resource {p q : β × ρ} (hp : p ∈ l.loans) (hq : q ∈ l.loans)
    (h : p.2 = q.2) : p = q := by
  have hnodup : (l.loans.map Prod.snd).Nodup := (List.nodup_append.mp l.exclusive).1
  exact List.inj_on_of_nodup_map hnodup hp hq h

/-- What is lent is not free. -/
lemma not_free_of_lent {p : β × ρ} (hp : p ∈ l.loans) : p.2 ∉ l.free := by
  intro hfree
  have hdisjoint := (List.nodup_append.mp l.exclusive).2.2
  exact hdisjoint p.2 (List.mem_map_of_mem hp) p.2 hfree rfl

/-- The free resources are distinct. -/
lemma nodup_free (l : Lending β ρ) : l.free.Nodup := (List.nodup_append.mp l.exclusive).2.1

/-- One operation. -/
inductive Step [DecidableEq β] [DecidableEq ρ] (l : Lending β ρ) : Lending β ρ → Prop where
  | lend (b : β) (r : ρ) (rest : List ρ) (hfree : l.free = r :: rest)
      (hb : b ∉ l.loans.map Prod.fst) : Step l (l.lend b r rest hfree hb)
  | lendNew (b : β) (r : ρ) (hr : r ∉ l.loans.map Prod.snd) (hfree : l.free = [])
      (hb : b ∉ l.loans.map Prod.fst) : Step l (l.lendNew b r hr hfree hb)
  | giveBack (b : β) (r : ρ) (h : (b, r) ∈ l.loans) : Step l (l.giveBack b r h)

/-- **The law of the size.** Let the size be `n`, or the largest number of loans so far, `m`, if
that is more. Then it still is after one operation, with what this does to the largest number of
loans.

**Proof sketch.** A resource is added only when none is free: then the number of loans is the
size, and goes past it. -/
theorem Step.size_eq [DecidableEq β] [DecidableEq ρ] {n m : ℕ} (hstep : l.Step l')
    (h : l.size = max n m) : l'.size = max n (max m l'.loans.length) := by
  unfold size at h ⊢
  cases hstep with
  | lend b r rest hfree hb =>
    rw [hfree] at h
    simp only [Lending.lend, List.length_cons] at h ⊢
    omega
  | lendNew b r hr hfree hb =>
    rw [hfree] at h
    simp only [Lending.lendNew, List.length_cons, List.length_nil] at h ⊢
    omega
  | giveBack b r hmem =>
    have hpos : 0 < l.loans.length := List.length_pos_of_mem hmem
    simp only [Lending.giveBack, List.length_append, List.length_cons, List.length_nil,
      List.length_erase_of_mem hmem]
    omega

end Lending

end Foundations
