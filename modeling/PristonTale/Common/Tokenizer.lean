import Mathlib.Data.List.Basic
import Mathlib.Tactic.Common
import PristonTale.Common.SharedDefines
import PristonTale.Foundations.Runs

set_option relaxedAutoImplicit false
set_option autoImplicit false

/-!
# Tokens

`StrSplit` gives the maximal runs of the text between the characters of the separator, whatever the
text and the characters are: separators at an end, next to each other or of several kinds make no
token, and a token goes as far as it can.

## Main definitions

* `SteerStone.isSeparator` — the characters at which `StrSplit` ends a token.

## Main results

* `SteerStone.strSplit_runs` — the tokens are the runs of the text.
* `SteerStone.strSplit_eq_of_runs` — a text with given runs is split into these.
* `SteerStone.strSplit_intercalate` — texts joined by a separator are split into those that are not
  empty.
* `SteerStone.strSplit_maximal` — where the tokens are, what they are made of, and that splitting
  them again gives them back.
-/

namespace SteerStone

open Foundations

/-- `p_Seperator.find(l_I) != std::string::npos`. -/
def isSeparator (separator : String) (c : Char) : Bool := decide (c ∈ separator.toList)

/-- The loop of `StrSplit` gives the runs of the token it has read with the rest of the text.

**Proof sketch.** Induction on the rest of the text. A separator ends the token, which is a run
unless it is empty; any other character becomes part of the token. -/
lemma strSplitFrom_runs {separator : String} (cs token : List Char)
    (hfree : ∀ c ∈ token, isSeparator separator c = false) :
    Runs (isSeparator separator) (token ++ cs) (strSplitFrom separator.toList cs token) := by
  induction cs generalizing token with
  | nil =>
    rw [strSplitFrom]
    split
    case isTrue hempty =>
      subst hempty
      exact .nil
    case isFalse hne => exact .run hne hfree (fun c hc => absurd hc (by simp)) .nil
  | cons c cs ih =>
    rw [strSplitFrom]
    by_cases hc : c ∈ separator.toList
    · have hsep : isSeparator separator c = true := decide_eq_true hc
      have hgap := Runs.gap hsep (ih [] fun c h => absurd h List.not_mem_nil)
      rw [if_pos hc]
      split
      case isTrue hempty =>
        subst hempty
        exact hgap
      case isFalse hne =>
        refine .run hne hfree (fun c' hc' => ?_) hgap
        rw [← Option.some.inj hc']
        exact hsep
    · have hfree' : ∀ c' ∈ token ++ [c], isSeparator separator c' = false := by
        intro c' hc'
        rcases List.mem_append.mp hc' with hc' | hc'
        · exact hfree c' hc'
        · rw [List.mem_singleton.mp hc']
          exact decide_eq_false hc
      rw [if_neg hc, List.append_cons]
      exact ih (token ++ [c]) hfree'

/-- The characters of the tokens. -/
lemma strSplit_toList (src separator : String) :
    (strSplit src separator).map String.toList =
      strSplitFrom separator.toList src.toList [] := by
  rw [strSplit, List.map_map]
  exact (List.map_congr_left fun token _ => String.toList_ofList).trans (List.map_id _)

/-- **The tokens are the runs of the text.** -/
theorem strSplit_runs (src separator : String) :
    Runs (isSeparator separator) src.toList ((strSplit src separator).map String.toList) := by
  rw [strSplit_toList]
  exact strSplitFrom_runs src.toList [] fun c hc => absurd hc List.not_mem_nil

/-- **A text with given runs** is split into these. -/
theorem strSplit_eq_of_runs {src separator : String} {tokens : List String}
    (h : Runs (isSeparator separator) src.toList (tokens.map String.toList)) :
    strSplit src separator = tokens :=
  List.map_injective_iff.mpr (fun _ _ => String.toList_injective)
    ((strSplit_runs src separator).unique h)

/-- **Texts joined by a separator** are split into those that are not empty. -/
theorem strSplit_intercalate {separator : String} {c : Char} (hc : c ∈ separator.toList)
    {fields : List String} (hfree : ∀ field ∈ fields, ∀ d ∈ field.toList, d ∉ separator.toList) :
    strSplit ((String.singleton c).intercalate fields) separator = fields.filter (· ≠ "") := by
  have hfree' : ∀ field ∈ fields.map String.toList, ∀ d ∈ field,
      isSeparator separator d = false := by
    intro field hfield d hd
    obtain ⟨f, hf, rfl⟩ := List.mem_map.mp hfield
    exact decide_eq_false (hfree f hf d hd)
  have hfilter : (fields.filter (· ≠ "")).map String.toList =
      (fields.map String.toList).filter fun f => !f.isEmpty := by
    rw [List.filter_map]
    refine congrArg _ (List.filter_congr fun f _ => ?_)
    by_cases hf : f = "" <;> simp [hf]
  have hsep : isSeparator separator c = true := decide_eq_true hc
  refine strSplit_eq_of_runs ?_
  rw [String.toList_intercalate, String.toList_singleton, hfilter]
  exact runs_intercalate hsep hfree'

/-- **The tokens of a text**: they are all the maximal runs without a separator and nothing else, in
order; none is empty or has a separator; joined, they are the text without the separators; and
joined by any of the separators, they are split again into the same tokens.

**Proof sketch.** All of it is true of the runs of any list; the tokens are those of the text
(`strSplit_runs`), and joined they are split into themselves (`strSplit_intercalate`). -/
theorem strSplit_maximal (src separator : String) :
    (∃ intervals : List (ℕ × ℕ), intervals.Pairwise (fun r r' => r.2 < r'.1) ∧
      (∀ r, r ∈ intervals ↔ IsMaximalRun (isSeparator separator) src.toList r.1 r.2) ∧
      (strSplit src separator).map String.toList = intervals.map (slice src.toList)) ∧
    (∀ token ∈ strSplit src separator, token ≠ "" ∧ ∀ c ∈ token.toList, c ∉ separator.toList) ∧
    (String.join (strSplit src separator)).toList = src.toList.filter (· ∉ separator.toList) ∧
    ∀ c ∈ separator.toList,
      strSplit ((String.singleton c).intercalate (strSplit src separator)) separator =
        strSplit src separator := by
  have hruns := strSplit_runs src separator
  have hne : ∀ token ∈ strSplit src separator, token ≠ "" := by
    rintro token htoken rfl
    exact hruns.ne_nil _ (List.mem_map_of_mem htoken) rfl
  have hfree : ∀ token ∈ strSplit src separator, ∀ c ∈ token.toList, c ∉ separator.toList :=
    fun token htoken c hc => of_decide_eq_false (hruns.free _ (List.mem_map_of_mem htoken) c hc)
  refine ⟨hruns.exists_intervals, fun token htoken => ⟨hne token htoken, hfree token htoken⟩, ?_,
    fun c hc => ?_⟩
  · rw [String.toList_join, List.flatMap_def, hruns.flatten_eq]
    exact List.filter_congr fun c _ => (decide_not (p := c ∈ separator.toList)).symm
  · have hkept : ∀ token ∈ strSplit src separator, decide (token ≠ "") = true :=
      fun token htoken => decide_eq_true (hne token htoken)
    rw [strSplit_intercalate hc hfree, List.filter_eq_self.mpr hkept]

end SteerStone
