import Mathlib.Algebra.Group.Nat.Defs
import Mathlib.Data.List.TakeWhile
import Mathlib.Tactic.Common
import PristonTale.Foundations.Search

set_option relaxedAutoImplicit false
set_option autoImplicit false

/-!
# Looking up a key in a text

`SplitString` (`Shared/Common/SharedDefines.cpp`) looks for a key in a text of lines `key=value`. It
takes the first occurrence of the key for that of the key followed by `=`, and does not compare it
with `npos`: for a key that does not occur, the position after it wraps around to the length of the
key minus one, a position in the text that has nothing to do with the key, or one past its end.

## Main definitions

* `SteerStone.splitString` — `SplitString`.
* `SteerStone.keyValue` — what it is for.
* `SteerStone.LookupHolds` — the texts and keys for which it does that.

## Main results

* `SteerStone.splitString_of_found`, `SteerStone.splitString_of_absent` — what the function does
  with a key that occurs, and with one that does not.
* `SteerStone.splitString_iff` — the value is found exactly when `LookupHolds`.

## Implementation notes

* The positions in a text are `std::size_t`s, and so is its length.
-/

namespace SteerStone

open Foundations

/-- `std::string::npos`. -/
def npos : ℕ := 2 ^ 64 - 1

/-- `operator[]` of a `std::string`: there is a zero character at the end; past it, nothing is
promised. -/
def charAt (s : List Char) (pos : ℕ) : Option Char :=
  if pos = s.length then some '\x00' else s[pos]?

/-- `SplitString`; no result when it reads past the end of the text. -/
def splitString (stringData tokenizer : List Char) : Option (List Char) := do
  let startPosition := (firstOccurrence tokenizer stringData).getD npos
  let c ← charAt stringData ((startPosition + tokenizer.length) % 2 ^ 64)
  if c = '=' then
    -- The loop goes on to the next `\r` or to the end of the text.
    let i := (startPosition + (tokenizer.length + 1)) % 2 ^ 64
    return (stringData.drop i).takeWhile (· ≠ '\r')
  else return []

/-- The value of a key: what comes after the first occurrence of the key followed by `=`, up to the
next `\r`; without one it is empty. -/
def keyValue (text key : List Char) : List Char :=
  match firstOccurrence (key ++ ['=']) text with
  | some i => (text.drop (i + key.length + 1)).takeWhile (· ≠ '\r')
  | none => []

/-- The line ends here, or the text does. -/
def AtLineEnd (rest : List Char) : Prop := ∀ c ∈ rest.head?, c = '\r'

/-- The first occurrence of the key is followed by `=`, or the value of the key is empty; or the key
does not occur, and the position one before its length is in the text and does not hold a `=` with
anything behind it. -/
def LookupHolds (text key : List Char) : Prop :=
  match firstOccurrence key text with
  | some s => text[s + key.length]? = some '=' ∨
      ∀ i, firstOccurrence (key ++ ['=']) text = some i → AtLineEnd (text.drop (i + key.length + 1))
  | none => key.length ≤ text.length + 1 ∧
      (text[key.length - 1]? = some '=' → AtLineEnd (text.drop key.length))

variable {text key : List Char}

/-- Nothing is taken up to a `\r` exactly where the line ends. -/
lemma takeWhile_eq_nil_iff_atLineEnd {rest : List Char} :
    rest.takeWhile (· ≠ '\r') = [] ↔ AtLineEnd rest := by
  cases rest with
  | nil => simp [AtLineEnd]
  | cons c rest => by_cases hc : c = '\r' <;> simp [AtLineEnd, hc]

/-- What `operator[]` gives is `=` only at a character of the text. -/
lemma charAt_of_le {pos : ℕ} (h : pos ≤ text.length) :
    ∃ c, charAt text pos = some c ∧ (c = '=' ↔ text[pos]? = some '=') := by
  rcases Nat.lt_or_eq_of_le h with hlt | rfl
  · refine ⟨text[pos], ?_, ?_⟩
    · rw [charAt, if_neg (Nat.ne_of_lt hlt), List.getElem?_eq_getElem hlt]
    · rw [List.getElem?_eq_getElem hlt, Option.some.injEq]
  · refine ⟨'\x00', if_pos rfl, ?_⟩
    rw [List.getElem?_eq_none (Nat.le_refl _)]
    decide

/-- **`SplitString` with a key that occurs** looks at the character behind the first occurrence. -/
theorem splitString_of_found {s : ℕ} (htext : text.length < 2 ^ 64)
    (hs : firstOccurrence key text = some s) :
    splitString text key = some (if text[s + key.length]? = some '=' then
      (text.drop (s + key.length + 1)).takeWhile (· ≠ '\r') else []) := by
  have hle := (firstOccurrence_eq_some_iff.mp hs).1.add_length_le
  obtain ⟨c, hc, hiff⟩ := charAt_of_le hle
  rw [splitString, hs, Option.getD_some, Nat.mod_eq_of_lt (by omega), hc]
  by_cases heq : c = '='
  · have hlt : s + key.length < text.length := (List.getElem?_eq_some_iff.mp (hiff.mp heq)).1
    rw [if_pos (hiff.mp heq)]
    show (if c = '=' then _ else _) = _
    rw [if_pos heq, ← Nat.add_assoc, Nat.mod_eq_of_lt (by omega)]
    rfl
  · rw [if_neg (fun h => heq (hiff.mpr h))]
    show (if c = '=' then _ else _) = _
    rw [if_neg heq]
    rfl

/-- **`SplitString` with a key that does not occur** looks at the position one before the length of
the key. -/
theorem splitString_of_absent (hkey : key ≠ []) (hlen : key.length < 2 ^ 64)
    (hnone : firstOccurrence key text = none) :
    splitString text key = if text.length + 1 < key.length then none else
      some (if text[key.length - 1]? = some '=' then
        (text.drop key.length).takeWhile (· ≠ '\r') else []) := by
  have hpos : 0 < key.length := List.length_pos_iff.mpr hkey
  have hwrap : (npos + key.length) % 2 ^ 64 = key.length - 1 := by
    rw [npos]
    omega
  have hwrap' : (npos + (key.length + 1)) % 2 ^ 64 = key.length := by
    rw [npos]
    omega
  rw [splitString, hnone, Option.getD_none, hwrap, hwrap']
  by_cases hpast : text.length + 1 < key.length
  · rw [if_pos hpast, charAt, if_neg (by omega), List.getElem?_eq_none (by omega)]
    rfl
  · obtain ⟨c, hc, hiff⟩ := charAt_of_le (show key.length - 1 ≤ text.length by omega)
    rw [if_neg hpast, hc]
    show (if c = '=' then _ else _) = _
    simp only [hiff]
    split <;> rfl

/-! ## The value of a key -/

/-- The value of a key whose first occurrence is followed by `=`. -/
lemma keyValue_of_followed {s : ℕ} (hs : firstOccurrence key text = some s)
    (heq : text[s + key.length]? = some '=') :
    keyValue text key = (text.drop (s + key.length + 1)).takeWhile (· ≠ '\r') := by
  obtain ⟨hoccurs, hfirst⟩ := firstOccurrence_eq_some_iff.mp hs
  have hfound : firstOccurrence (key ++ ['=']) text = some s :=
    firstOccurrence_eq_some_iff.mpr ⟨occursAt_concat_iff.mpr ⟨hoccurs, heq⟩,
      fun j hj h => hfirst j hj (occursAt_concat_iff.mp h).1⟩
  rw [keyValue, hfound]

/-- A key that does not occur has no value. -/
lemma keyValue_of_absent (hnone : firstOccurrence key text = none) : keyValue text key = [] := by
  have hno := firstOccurrence_eq_none_iff.mp hnone
  have hnone' : firstOccurrence (key ++ ['=']) text = none :=
    firstOccurrence_eq_none_iff.mpr fun i h => hno i (occursAt_concat_iff.mp h).1
  rw [keyValue, hnone']

/-- The value is empty when there is none, or when the line ends behind the `=`. -/
lemma keyValue_eq_nil_iff :
    keyValue text key = [] ↔ ∀ i, firstOccurrence (key ++ ['=']) text = some i →
      AtLineEnd (text.drop (i + key.length + 1)) := by
  rw [keyValue]
  cases firstOccurrence (key ++ ['=']) text with
  | none => simp
  | some i =>
    dsimp only
    rw [takeWhile_eq_nil_iff_atLineEnd]
    exact ⟨fun h j hj => Option.some.inj hj ▸ h, fun h => h i rfl⟩

/-- **Key lookup, exactly.** For every text and every key that is not empty: `SplitString` reads
within the text and returns the value of the key, if and only if the first occurrence of the key is
followed by `=`, or its value is empty, or it does not occur and the position one before its length
is in the text and holds no `=` with anything behind it.

**Proof sketch.** With a key that occurs, the one character looked at decides between what comes
behind it and nothing (`splitString_of_found`): the first is the value (`keyValue_of_followed`), the
second is right when the value is empty. With one that does not, the value is empty, and the
character looked at is that of the position to which `npos` wraps around
(`splitString_of_absent`). -/
theorem splitString_iff (hkey : key ≠ []) (htext : text.length < 2 ^ 64)
    (hlen : key.length < 2 ^ 64) :
    splitString text key = some (keyValue text key) ↔ LookupHolds text key := by
  rw [LookupHolds]
  cases hs : firstOccurrence key text with
  | some s =>
    dsimp only
    rw [splitString_of_found htext hs, Option.some.injEq, ← keyValue_eq_nil_iff]
    by_cases heq : text[s + key.length]? = some '='
    · rw [if_pos heq, keyValue_of_followed hs heq]
      exact iff_of_true rfl (Or.inl heq)
    · rw [if_neg heq, or_iff_right heq, eq_comm]
  | none =>
    dsimp only
    rw [splitString_of_absent hkey hlen hs, keyValue_of_absent hs]
    by_cases hpast : text.length + 1 < key.length
    · rw [if_pos hpast]
      exact iff_of_false nofun fun h => by omega
    · rw [if_neg hpast, Option.some.injEq, and_iff_right (by omega)]
      by_cases heq : text[key.length - 1]? = some '='
      · rw [if_pos heq, takeWhile_eq_nil_iff_atLineEnd]
        exact ⟨fun h _ => h, fun h => h heq⟩
      · rw [if_neg heq]
        exact iff_of_true rfl fun h => absurd h heq

/-- The value of a key on the second line. -/
theorem splitString_second_line :
    splitString "id=5\rname=x\r".toList "name".toList = some "x".toList :=
  (splitString_iff (by decide) (by decide) (by decide)).mpr (Or.inl (by decide))

/-- With a key that does not occur, the value of another one is returned, or the text is read past
its end; a key that first occurs as a part of another one has no value. -/
theorem splitString_fails :
    splitString "a=b".toList "xy".toList = some "b".toList ∧
      keyValue "a=b".toList "xy".toList = [] ∧
      splitString [] "xy".toList = none ∧
      splitString "user2=a\ruser=b".toList "user".toList = some [] ∧
      keyValue "user2=a\ruser=b".toList "user".toList = "b".toList := by
  decide +kernel

end SteerStone
