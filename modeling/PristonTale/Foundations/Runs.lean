import Mathlib.Data.List.Sort
import Mathlib.Data.List.Basic
import Mathlib.Tactic.Common

set_option relaxedAutoImplicit false
set_option autoImplicit false

/-!
# Maximal runs

The maximal runs of a list between separators, for any notion of a separator. A maximal run is an
interval of positions without a separator that cannot be made longer at either end. The runs are
told by where they are; `Runs` builds them up from the end of the list, and its induction is what
the properties of the runs are proved by.

## Main definitions

* `Foundations.IsMaximalRun` — the positions from `i` up to `j` are a maximal run.
* `Foundations.slice` — the elements of an interval of positions.
* `Foundations.Runs` — a list has these runs, one after the other.

## Main results

* `Foundations.Runs.exists_intervals` — `Runs` gives all the maximal runs and nothing else, in
  order.
* `Foundations.Runs.unique` — a list has one list of runs.
* `Foundations.Runs.flatten_eq` — joined, they are the list without the separators.
* `Foundations.runs_intercalate` — of fields joined by a separator, the runs are those that are not
  empty.
-/

namespace Foundations

variable {α : Type*} {p : α → Bool}

/-- **A maximal run**: the positions from `i` up to `j` hold no separator, and there is one, or an
end of the list, on either side. -/
structure IsMaximalRun (p : α → Bool) (s : List α) (i j : ℕ) : Prop where
  /-- A run is not empty. -/
  lt : i < j
  /-- There is no separator in it. -/
  inside : ∀ k, i ≤ k → k < j → s[k]?.map p = some false
  /-- It cannot be made longer to the left. -/
  left : i = 0 ∨ s[i - 1]?.map p = some true
  /-- It cannot be made longer to the right. -/
  right : j = s.length ∨ s[j]?.map p = some true

/-- The elements at the positions of an interval. -/
def slice (s : List α) (r : ℕ × ℕ) : List α := (s.take r.2).drop r.1

/-- The runs of a list: a separator belongs to none, and a run ends before a separator or at the
end. -/
inductive Runs (p : α → Bool) : List α → List (List α) → Prop where
  | nil : Runs p [] []
  | gap {c : α} {s : List α} {runs : List (List α)} (hc : p c = true) (h : Runs p s runs) :
      Runs p (c :: s) runs
  | run {token s : List α} {runs : List (List α)} (hne : token ≠ [])
      (hfree : ∀ c ∈ token, p c = false) (hstop : ∀ c ∈ s.head?, p c = true) (h : Runs p s runs) :
      Runs p (token ++ s) (token :: runs)

/-! ## What the runs are made of -/

/-- No run is empty. -/
lemma Runs.ne_nil {s : List α} {runs : List (List α)} (h : Runs p s runs) :
    ∀ token ∈ runs, token ≠ [] := by
  induction h with
  | nil => exact fun token htoken => absurd htoken List.not_mem_nil
  | gap _ _ ih => exact ih
  | run hne _ _ _ ih =>
    intro token htoken
    rcases List.mem_cons.mp htoken with rfl | htoken
    · exact hne
    · exact ih token htoken

/-- No run has a separator. -/
lemma Runs.free {s : List α} {runs : List (List α)} (h : Runs p s runs) :
    ∀ token ∈ runs, ∀ c ∈ token, p c = false := by
  induction h with
  | nil => exact fun token htoken => absurd htoken List.not_mem_nil
  | gap _ _ ih => exact ih
  | run _ hfree _ _ ih =>
    intro token htoken
    rcases List.mem_cons.mp htoken with rfl | htoken
    · exact hfree
    · exact ih token htoken

/-- **Joined, the runs** are the list without the separators. -/
theorem Runs.flatten_eq {s : List α} {runs : List (List α)} (h : Runs p s runs) :
    runs.flatten = s.filter fun c => !p c := by
  induction h with
  | nil => rfl
  | gap hc _ ih => rw [ih, List.filter_cons_of_neg (by simp [hc])]
  | run _ hfree _ _ ih =>
    have hall : ∀ c ∈ _, (!p c) = true := fun c hc => by rw [hfree c hc]; rfl
    rw [List.flatten_cons, List.filter_append, List.filter_eq_self.mpr hall, ih]

/-- A list that begins with a list without a separator, which is a run unless it is empty. -/
lemma Runs.append {field s : List α} {runs : List (List α)} (hfree : ∀ c ∈ field, p c = false)
    (hstop : ∀ c ∈ s.head?, p c = true) (h : Runs p s runs) :
    Runs p (field ++ s) ([field].filter (fun f => !f.isEmpty) ++ runs) := by
  by_cases hne : field = []
  · subst hne
    exact h
  · have hkept : [field].filter (fun f => !f.isEmpty) = [field] := by simpa using hne
    rw [hkept]
    exact .run hne hfree hstop h

/-- **Fields joined by a separator**: the runs are the fields that are not empty.

**Proof sketch.** Induction on the fields. The last one ends the list; before a separator, a field
that is not empty is a run, and the separator belongs to none. -/
theorem runs_intercalate {sep : α} (hsep : p sep = true) {fields : List (List α)}
    (hfree : ∀ field ∈ fields, ∀ c ∈ field, p c = false) :
    Runs p ([sep].intercalate fields) (fields.filter fun f => !f.isEmpty) := by
  induction fields with
  | nil => exact .nil
  | cons field rest ih =>
    have hnext := ih fun f hf => hfree f (List.mem_cons_of_mem _ hf)
    have hfirst := hfree field List.mem_cons_self
    cases rest with
    | nil =>
      have hrun := Runs.append hfirst (fun c hc => absurd hc (by simp)) (Runs.nil (p := p))
      simpa only [List.intercalate_singleton, List.append_nil] using hrun
    | cons next rest =>
      have hstop : ∀ c ∈ (sep :: [sep].intercalate (next :: rest)).head?, p c = true := by
        intro c hc
        rw [← Option.some.inj hc]
        exact hsep
      have hrun := Runs.append hfirst hstop (Runs.gap hsep hnext)
      rw [← List.filter_append] at hrun
      simpa only [List.intercalate_cons_cons, List.singleton_append, List.append_assoc] using hrun

/-! ## Where the runs are -/

/-- An interval of positions behind `n` more elements. -/
def shift (n : ℕ) (r : ℕ × ℕ) : ℕ × ℕ := (n + r.1, n + r.2)

/-- The elements of an interval, behind others. -/
lemma slice_append (front s : List α) (r : ℕ × ℕ) :
    slice (front ++ s) (shift front.length r) = slice s r := by
  rw [slice, shift, List.take_length_add_append, List.drop_length_add_append, slice]

/-- A maximal run behind other elements, where none of them belongs to it.

**Proof sketch.** The elements of the run and the one after it are the same on both sides. So is the
one before it, unless the run begins where the elements in front end. -/
lemma isMaximalRun_append_iff {front s : List α} {i j : ℕ}
    (hbetween : (front ++ s)[front.length - 1]?.map p = some true ∨ s[0]?.map p ≠ some false) :
    IsMaximalRun p (front ++ s) (front.length + i) (front.length + j) ↔ IsMaximalRun p s i j := by
  have hat : ∀ k, (front ++ s)[front.length + k]? = s[k]? := fun k => by
    rw [List.getElem?_append_right (by omega), Nat.add_sub_cancel_left]
  have hprev : i ≠ 0 → (front ++ s)[front.length + i - 1]? = s[i - 1]? := fun hi => by
    rw [← hat (i - 1), Nat.add_sub_assoc (by omega)]
  constructor
  · rintro ⟨hlt, hinside, hleft, hright⟩
    refine ⟨by omega, fun k hi hj => ?_, ?_, ?_⟩
    · rw [← hat k]
      exact hinside _ (by omega) (by omega)
    · by_cases hi : i = 0
      · exact Or.inl hi
      · rw [hprev hi] at hleft
        exact Or.inr (hleft.resolve_left (by omega))
    · rw [List.length_append, Nat.add_left_cancel_iff, hat j] at hright
      exact hright
  · rintro ⟨hlt, hinside, hleft, hright⟩
    refine ⟨by omega, fun k hi hj => ?_, ?_, ?_⟩
    · obtain ⟨m, rfl⟩ := Nat.exists_eq_add_of_le (Nat.le_of_add_right_le hi)
      rw [hat m]
      exact hinside m (by omega) (by omega)
    · by_cases hi : i = 0
      · -- The run begins where the elements in front end, so a separator stands there.
        subst hi
        rcases hbetween with hsep | hno
        · exact Or.inr hsep
        · exact absurd (hinside 0 (by omega) (by omega)) hno
      · rw [hprev hi]
        exact Or.inr (hleft.resolve_left hi)
    · rw [List.length_append, Nat.add_left_cancel_iff, hat j]
      exact hright

/-- An interval that does not begin among the first `n` positions is one behind `n` elements. -/
lemma exists_shift {n : ℕ} {r : ℕ × ℕ} (hle : n ≤ r.1) (hlt : r.1 < r.2) : ∃ r', r = shift n r' :=
  ⟨(r.1 - n, r.2 - n), Prod.ext (by simp only [shift]; omega) (by simp only [shift]; omega)⟩

/-- What comes first where a run ends does not belong to it. -/
lemma getElem?_zero_of_head? {s : List α} (hstop : ∀ c ∈ s.head?, p c = true) :
    s[0]?.map p ≠ some false := by
  intro h
  obtain ⟨c, hc, hpc⟩ := Option.map_eq_some_iff.mp h
  rw [hstop c (List.head?_eq_getElem? ▸ hc)] at hpc
  exact absurd hpc (by decide)

/-- No maximal run begins where there is a separator, or nothing. -/
lemma IsMaximalRun.ne_zero {s : List α} {i j : ℕ} (h : IsMaximalRun p s i j)
    (hstop : s[0]?.map p ≠ some false) : i ≠ 0 := by
  rintro rfl
  exact hstop (h.inside 0 (Nat.le_refl 0) h.lt)

/-- The maximal runs of a list that begins with a separator. -/
lemma isMaximalRun_cons_iff {c : α} {s : List α} (hc : p c = true) (r : ℕ × ℕ) :
    IsMaximalRun p (c :: s) r.1 r.2 ↔ ∃ r', IsMaximalRun p s r'.1 r'.2 ∧ r = shift 1 r' := by
  have hiff : ∀ i j, IsMaximalRun p (c :: s) (1 + i) (1 + j) ↔ IsMaximalRun p s i j := by
    intro i j
    rw [← List.singleton_append]
    exact isMaximalRun_append_iff (Or.inl (by simp [hc]))
  constructor
  · intro h
    have hpos : r.1 ≠ 0 := h.ne_zero (by simp [hc])
    obtain ⟨r', rfl⟩ := exists_shift (Nat.pos_of_ne_zero hpos) h.lt
    exact ⟨r', (hiff _ _).mp h, rfl⟩
  · rintro ⟨r', h, rfl⟩
    exact (hiff _ _).mpr h

/-- The elements of a run in front are no separators. -/
lemma getElem?_append_of_free {token : List α} (hfree : ∀ c ∈ token, p c = false) (s : List α)
    {k : ℕ} (hk : k < token.length) : (token ++ s)[k]?.map p = some false := by
  rw [List.getElem?_append_left hk, List.getElem?_eq_getElem hk, Option.map_some,
    hfree _ (List.getElem_mem hk)]

/-- A run in front is a maximal one. -/
lemma isMaximalRun_front {token s : List α} (hne : token ≠ [])
    (hfree : ∀ c ∈ token, p c = false) (hstop : ∀ c ∈ s.head?, p c = true) :
    IsMaximalRun p (token ++ s) 0 token.length := by
  refine ⟨List.length_pos_iff.mpr hne, fun k _ hk => getElem?_append_of_free hfree s hk,
    Or.inl rfl, ?_⟩
  cases s with
  | nil => exact Or.inl (by rw [List.append_nil])
  | cons c s =>
    refine Or.inr ?_
    rw [List.getElem?_append_right (Nat.le_refl _), Nat.sub_self]
    exact congrArg some (hstop c rfl)

/-- A maximal run that begins in a run in front is that run. -/
lemma IsMaximalRun.eq_front {token s : List α} {i j : ℕ} (h : IsMaximalRun p (token ++ s) i j)
    (hfree : ∀ c ∈ token, p c = false) (hstop : s[0]?.map p ≠ some false)
    (hi : i < token.length) : i = 0 ∧ j = token.length := by
  constructor
  · -- It cannot begin later, as the element before it would be a separator.
    rcases h.left with h0 | hsep
    · exact h0
    · rw [getElem?_append_of_free hfree s (Nat.lt_of_le_of_lt (Nat.sub_le i 1) hi)] at hsep
      exact absurd hsep (by decide)
  · apply Nat.le_antisymm
    · -- It cannot end later, as the element behind the run in front would belong to it.
      refine Nat.le_of_not_lt fun hgt => hstop ?_
      have hin := h.inside token.length (Nat.le_of_lt hi) hgt
      rwa [List.getElem?_append_right (Nat.le_refl _), Nat.sub_self] at hin
    · refine Nat.le_of_not_lt fun hlt => ?_
      rcases h.right with hlast | hsep
      · rw [List.length_append] at hlast
        omega
      · rw [getElem?_append_of_free hfree s hlt] at hsep
        exact absurd hsep (by decide)

/-- The maximal runs of a list that begins with a run: it is the first one, and the others are those
of what comes behind it. -/
lemma isMaximalRun_run_iff {token s : List α} (hne : token ≠ [])
    (hfree : ∀ c ∈ token, p c = false) (hstop : ∀ c ∈ s.head?, p c = true) (r : ℕ × ℕ) :
    IsMaximalRun p (token ++ s) r.1 r.2 ↔
      r = (0, token.length) ∨ ∃ r', IsMaximalRun p s r'.1 r'.2 ∧ r = shift token.length r' := by
  have hafter := getElem?_zero_of_head? hstop
  have hiff : ∀ i j, IsMaximalRun p (token ++ s) (token.length + i) (token.length + j) ↔
      IsMaximalRun p s i j := fun i j => isMaximalRun_append_iff (Or.inr hafter)
  constructor
  · intro h
    by_cases hstart : r.1 < token.length
    · obtain ⟨hfirst, hsecond⟩ := h.eq_front hfree hafter hstart
      exact Or.inl (Prod.ext hfirst hsecond)
    · obtain ⟨r', rfl⟩ := exists_shift (Nat.le_of_not_lt hstart) h.lt
      exact Or.inr ⟨r', (hiff _ _).mp h, rfl⟩
  · rintro (rfl | ⟨r', h, rfl⟩)
    · exact isMaximalRun_front hne hfree hstop
    · exact (hiff _ _).mpr h

/-- **`Runs` gives all the maximal runs** and nothing else, in order.

**Proof sketch.** Induction on how the runs are built. A separator in front shifts the intervals by
one. A run in front is the first interval; the others are shifted behind it, and none of them begins
where it ends, as a separator or the end of the list comes there. -/
theorem Runs.exists_intervals {s : List α} {runs : List (List α)} (h : Runs p s runs) :
    ∃ intervals : List (ℕ × ℕ), intervals.Pairwise (fun r r' => r.2 < r'.1) ∧
      (∀ r, r ∈ intervals ↔ IsMaximalRun p s r.1 r.2) ∧ runs = intervals.map (slice s) := by
  induction h with
  | nil =>
    refine ⟨[], List.Pairwise.nil, fun r => ⟨fun h => absurd h List.not_mem_nil, fun h => ?_⟩, rfl⟩
    exact absurd (h.inside r.1 (Nat.le_refl _) h.lt) (by simp)
  | @gap c s runs hc _ ih =>
    obtain ⟨intervals, hsorted, hmem, rfl⟩ := ih
    refine ⟨intervals.map (shift 1), ?_, fun r => ?_, ?_⟩
    · exact hsorted.map _ fun r r' hlt => Nat.add_lt_add_left hlt 1
    · rw [isMaximalRun_cons_iff hc, List.mem_map]
      simp only [hmem, eq_comm]
    · rw [List.map_map]
      exact List.map_congr_left fun r _ => (slice_append [c] s r).symm
  | @run token s runs hne hfree hstop _ ih =>
    obtain ⟨intervals, hsorted, hmem, rfl⟩ := ih
    refine ⟨(0, token.length) :: intervals.map (shift token.length), ?_, fun r => ?_, ?_⟩
    · refine List.pairwise_cons.mpr ⟨fun r' hr' => ?_, ?_⟩
      · obtain ⟨r, hr, rfl⟩ := List.mem_map.mp hr'
        have hpos : r.1 ≠ 0 := ((hmem r).mp hr).ne_zero (getElem?_zero_of_head? hstop)
        simp only [shift]
        omega
      · exact hsorted.map _ fun r r' hlt => Nat.add_lt_add_left hlt _
    · rw [isMaximalRun_run_iff hne hfree hstop, List.mem_cons, List.mem_map]
      simp only [hmem, eq_comm]
    · have hfirst : slice (token ++ s) (0, token.length) = token := by
        rw [slice, List.take_left, List.drop_zero]
      rw [List.map_cons, List.map_map, hfirst, List.cons.injEq]
      exact ⟨rfl, List.map_congr_left fun r _ => (slice_append token s r).symm⟩

/-- **A list has one list of runs.**

**Proof sketch.** Both give all the maximal runs in order (`Runs.exists_intervals`), and a list in
order is told by its members. -/
theorem Runs.unique {s : List α} {runs runs' : List (List α)} (h : Runs p s runs)
    (h' : Runs p s runs') : runs = runs' := by
  obtain ⟨intervals, hsorted, hmem, rfl⟩ := h.exists_intervals
  obtain ⟨intervals', hsorted', hmem', rfl⟩ := h'.exists_intervals
  have hlt : ∀ rs : List (ℕ × ℕ), rs.Pairwise (fun r r' => r.2 < r'.1) →
      (∀ r, r ∈ rs ↔ IsMaximalRun p s r.1 r.2) → rs.Pairwise fun r r' => r.1 < r'.1 :=
    fun rs hrs hall => hrs.imp_of_mem fun hr _ h => Nat.lt_trans ((hall _).mp hr).lt h
  have hnodup : ∀ rs : List (ℕ × ℕ), rs.Pairwise (fun r r' => r.1 < r'.1) → rs.Nodup :=
    fun rs hrs => hrs.imp fun h heq => Nat.ne_of_lt h (congrArg Prod.fst heq)
  have hfirst := hlt intervals hsorted hmem
  have hfirst' := hlt intervals' hsorted' hmem'
  have hperm : intervals.Perm intervals' :=
    (List.perm_ext_iff_of_nodup (hnodup _ hfirst) (hnodup _ hfirst')).mpr fun r => by
      rw [hmem, hmem']
  have heq : intervals = intervals' :=
    hperm.eq_of_pairwise (fun r r' _ _ h h' => absurd h (Nat.lt_asymm h')) hfirst hfirst'
  rw [heq]

end Foundations
