import Mathlib.Data.List.TakeWhile
import PristonTale.Common.Config

set_option relaxedAutoImplicit false
set_option autoImplicit false

/-!
# Integer settings

`GetIntDefault` gives the value of a setting to `std::stoi`, and so it does with the default, as
text. For a text that does not begin with a number, or with one that is no `int`, `std::stoi`
throws, and nothing catches it; what comes behind a number does not matter to it. `GetBoolDefault`
next to it never throws.

## Main definitions

* `SteerStone.Config.BeginsWith` — the number a text begins with.
* `SteerStone.Config.IsDecimal` — the decimal text of an `int32`.
* `SteerStone.Config.IntegerSettingHolds` — what `GetIntDefault` is for.

## Main results

* `SteerStone.Config.stoi_eq_some_iff` — `std::stoi` returns the number a text begins with.
* `SteerStone.Config.stoi_toString` — the decimal text of an `int32` is read back.
* `SteerStone.Config.integerSetting_iff` — the settings with which `GetIntDefault` does what it is
  for.
-/

namespace SteerStone.Config

/-- A sign and digits, and the number they are. -/
def numeral (negative : Bool) (digits : List Char) : ℤ :=
  if negative then -(Nat.ofDigitChars 10 digits 0 : ℤ) else Nat.ofDigitChars 10 digits 0

/-- **A text begins with a number**: white space, a sign if there is one, and all the digits that
follow. -/
def BeginsWith (text : List Char) (n : ℤ) : Prop :=
  ∃ spaces sign digits rest, text = spaces ++ sign ++ digits ++ rest ∧
    (∀ c ∈ spaces, isSpace c = true) ∧ (sign = [] ∨ sign = ['+'] ∨ sign = ['-']) ∧
    digits ≠ [] ∧ (∀ c ∈ digits, c.isDigit = true) ∧ (∀ c ∈ rest.head?, c.isDigit = false) ∧
    n = numeral (sign = ['-']) digits

/-- The values of an `int32`. -/
def IsInt32 (n : ℤ) : Prop := -2147483648 ≤ n ∧ n ≤ 2147483647

instance (n : ℤ) : Decidable (IsInt32 n) := inferInstanceAs (Decidable (_ ∧ _))

/-- A text is the decimal text of an `int32`. -/
def IsDecimal (text : String) : Prop := ∃ n : Int32, text = toString n.toInt

/-- **What `GetIntDefault` is for**: it returns, the number of a setting that is the decimal text of
an `int32`, and the default for every other setting and where there is none. -/
def IntegerSettingHolds (config : Config) (name : String) (default : Int32) : Prop :=
  ∃ v, config.getIntDefault name default.toInt = some v ∧
    match List.lookup (toLowerCopy name.toList) config with
    | none => v = default.toInt
    | some value => (∀ n : Int32, String.ofList value = toString n.toInt → v = n.toInt) ∧
        (¬ IsDecimal (String.ofList value) → v = default.toInt)

/-! ## `std::stoi` -/

/-- The number of the digits, as `stoi` adds it up. -/
lemma foldl_digits (digits : List Char) (n : ℕ) :
    digits.foldl (fun (n : ℤ) c => 10 * n + (c.toNat - 48 : ℕ)) n =
      (Nat.ofDigitChars 10 digits n : ℤ) := by
  induction digits generalizing n with
  | nil => rfl
  | cons c digits ih =>
    rw [List.foldl_cons, Nat.ofDigitChars_cons, ← ih]
    rfl

/-- The digits at the start of a text. -/
lemma takeWhile_digits {digits rest : List Char} (hdigits : ∀ c ∈ digits, c.isDigit = true)
    (hrest : ∀ c ∈ rest.head?, c.isDigit = false) :
    (digits ++ rest).takeWhile Char.isDigit = digits := by
  rw [List.takeWhile_append_of_pos hdigits]
  cases rest with
  | nil => rw [List.takeWhile_nil, List.append_nil]
  | cons c rest =>
    rw [List.takeWhile_cons, if_neg (by rw [hrest c rfl]; decide), List.append_nil]

/-- White space in front of what begins with something else. -/
lemma trimLeft_append {spaces s : List Char} (hspaces : ∀ c ∈ spaces, isSpace c = true)
    (hs : ∀ c ∈ s.head?, isSpace c = false) : trimLeft (spaces ++ s) = s := by
  rw [trimLeft, List.dropWhile_append_of_pos hspaces]
  cases s with
  | nil => rfl
  | cons c s => rw [List.dropWhile_cons, if_neg (by rw [hs c rfl]; decide)]

/-- A digit is neither white space nor a sign. -/
lemma ne_of_isDigit {c : Char} (h : c.isDigit = true) :
    isSpace c = false ∧ c ≠ '-' ∧ c ≠ '+' := by
  have hdigit : 48 ≤ c.toNat ∧ c.toNat ≤ 57 := Char.isDigit_iff_toNat.mp h
  refine ⟨decide_eq_false ?_, ?_, ?_⟩
  · rintro (rfl | hspace)
    · exact absurd hdigit (by decide)
    · omega
  · rintro rfl
    exact absurd hdigit (by decide)
  · rintro rfl
    exact absurd hdigit (by decide)

/-- What is behind the white space of a text without its sign. -/
def unsigned (text : List Char) : List Char :=
  if (trimLeft text).head? = some '-' ∨ (trimLeft text).head? = some '+' then
    (trimLeft text).drop 1
  else trimLeft text

/-- `stoi` by its parts: the digits behind the sign are the number, if there are any and it is an
`int32`. -/
lemma stoi_eq (text : List Char) :
    let digits := (unsigned text).takeWhile Char.isDigit
    let n := numeral ((trimLeft text).head? = some '-') digits
    stoi text = if digits ≠ [] ∧ IsInt32 n then some n else none := by
  intro digits n
  have hvalue : digits.foldl (fun (n : ℤ) c => 10 * n + (c.toNat - 48 : ℕ)) 0 =
      (Nat.ofDigitChars 10 digits 0 : ℤ) := foldl_digits digits 0
  have hn : (if (trimLeft text).head? = some '-' then
      -digits.foldl (fun (n : ℤ) c => 10 * n + (c.toNat - 48 : ℕ)) 0
      else digits.foldl (fun (n : ℤ) c => 10 * n + (c.toNat - 48 : ℕ)) 0) = n := by
    rw [hvalue]
    show _ = numeral _ digits
    simp only [numeral, decide_eq_true_eq]
  have hstoi : stoi text =
      if digits = [] ∨ n < -2147483648 ∨ 2147483647 < n then none else some n := by
    rw [← hn]
    rfl
  rw [hstoi]
  by_cases h : digits ≠ [] ∧ IsInt32 n
  · have hin := h.2
    unfold IsInt32 at hin
    rw [if_pos h, if_neg (by rintro (hnil | hlt | hlt); exacts [h.1 hnil, by omega, by omega])]
  · have hout : digits = [] ∨ n < -2147483648 ∨ 2147483647 < n := by
      by_contra hno
      obtain ⟨hnil, hlow, hhigh⟩ : ¬ digits = [] ∧ ¬ n < -2147483648 ∧ ¬ 2147483647 < n :=
        ⟨fun h => hno (Or.inl h), fun h => hno (Or.inr (Or.inl h)),
          fun h => hno (Or.inr (Or.inr h))⟩
      exact h ⟨hnil, Int.not_lt.mp hlow, Int.not_lt.mp hhigh⟩
    rw [if_neg h, if_pos hout]

/-- The parts of a text that is split into white space, a sign, digits and the rest. -/
lemma unsigned_split {spaces sign digits : List Char} (rest : List Char)
    (hspaces : ∀ c ∈ spaces, isSpace c = true) (hsign : sign = [] ∨ sign = ['+'] ∨ sign = ['-'])
    (hne : digits ≠ []) (hdigits : ∀ c ∈ digits, c.isDigit = true) :
    unsigned (spaces ++ sign ++ digits ++ rest) = digits ++ rest ∧
      ((trimLeft (spaces ++ sign ++ digits ++ rest)).head? = some '-' ↔ sign = ['-']) := by
  obtain ⟨d, ds, rfl⟩ := List.exists_cons_of_ne_nil hne
  obtain ⟨hspace, hminus, hplus⟩ := ne_of_isDigit (hdigits d List.mem_cons_self)
  have htrim : trimLeft (spaces ++ sign ++ d :: ds ++ rest) = sign ++ (d :: ds ++ rest) := by
    rw [List.append_assoc, List.append_assoc]
    refine trimLeft_append hspaces fun c hc => ?_
    rcases hsign with rfl | rfl | rfl
    · rw [← Option.some.inj hc]
      exact hspace
    · rw [← Option.some.inj hc]
      rfl
    · rw [← Option.some.inj hc]
      rfl
  rw [unsigned, htrim]
  rcases hsign with rfl | rfl | rfl
  · simp [hminus, hplus]
  · simp
  · simp

/-- The parts of any text. -/
lemma exists_split (text : List Char) :
    ∃ spaces sign, text = spaces ++ sign ++ unsigned text ∧ (∀ c ∈ spaces, isSpace c = true) ∧
      (sign = [] ∨ sign = ['+'] ∨ sign = ['-']) ∧
      ((trimLeft text).head? = some '-' ↔ sign = ['-']) := by
  have htext : text = text.takeWhile isSpace ++ trimLeft text :=
    List.takeWhile_append_dropWhile.symm
  have hspaces : ∀ c ∈ text.takeWhile isSpace, isSpace c = true := fun c hc =>
    List.mem_takeWhile_imp hc
  unfold unsigned
  cases htrim : trimLeft text with
  | nil => exact ⟨_, [], by simpa [htrim] using htext, hspaces, by simp, by simp⟩
  | cons c rest =>
    rw [htrim] at htext
    by_cases hminus : c = '-'
    · subst hminus
      exact ⟨_, ['-'], by simpa using htext, hspaces, by simp, by simp⟩
    · by_cases hplus : c = '+'
      · subst hplus
        exact ⟨_, ['+'], by simpa using htext, hspaces, by simp, by simp⟩
      · exact ⟨_, [], by simpa [hminus, hplus] using htext, hspaces, by simp, by simp [hminus]⟩

/-- **`std::stoi` returns the number a text begins with**, if it is an `int32`. -/
theorem stoi_eq_some_iff {text : List Char} {n : ℤ} :
    stoi text = some n ↔ BeginsWith text n ∧ IsInt32 n := by
  rw [stoi_eq]
  constructor
  · intro h
    obtain ⟨spaces, sign, htext, hspaces, hsign, hminus⟩ := exists_split text
    split at h
    case isTrue hsome =>
      have hn := Option.some.inj h
      refine ⟨⟨spaces, sign, (unsigned text).takeWhile Char.isDigit,
        (unsigned text).dropWhile Char.isDigit, ?_, hspaces, hsign, hsome.1,
        fun c hc => List.mem_takeWhile_imp hc, fun c hc => ?_, ?_⟩, hn ▸ hsome.2⟩
      · rw [List.append_assoc, List.takeWhile_append_dropWhile]
        exact htext
      · have hstop := List.head?_dropWhile_not Char.isDigit (unsigned text)
        rw [Option.mem_def.mp hc] at hstop
        exact hstop
      · rw [← hn, decide_eq_decide.mpr hminus]
    case isFalse => cases h
  · rintro ⟨⟨spaces, sign, digits, rest, rfl, hspaces, hsign, hne, hdigits, hrest, rfl⟩, hint⟩
    obtain ⟨hunsigned, hminus⟩ := unsigned_split rest hspaces hsign hne hdigits
    rw [hunsigned, takeWhile_digits hdigits hrest, decide_eq_decide.mpr hminus]
    exact if_pos ⟨hne, hint⟩

/-! ## Decimal texts -/

/-- The decimal text of a number begins with it. -/
lemma beginsWith_toString (n : ℤ) : BeginsWith (toString n).toList n := by
  have hdigits : ∀ m : ℕ, ∀ c ∈ Nat.toDigits 10 m, c.isDigit = true := fun m c hc =>
    Nat.isDigit_of_mem_toDigits (by decide) (by decide) hc
  rw [Int.toString_eq_repr, Int.repr_eq_if]
  by_cases hn : 0 ≤ n
  · refine ⟨[], [], Nat.toDigits 10 n.toNat, [], ?_, by simp, by simp, Nat.toDigits_ne_nil,
      hdigits _, by simp, ?_⟩
    · rw [if_pos hn, Nat.toList_repr, List.append_nil]
      rfl
    · show n = (Nat.ofDigitChars 10 _ 0 : ℤ)
      rw [Nat.ofDigitChars_ten_toDigits]
      omega
  · refine ⟨[], ['-'], Nat.toDigits 10 (-n).toNat, [], ?_, by simp, by simp, Nat.toDigits_ne_nil,
      hdigits _, by simp, ?_⟩
    · rw [if_neg hn, String.toList_append, Nat.toList_repr, List.append_nil]
      rfl
    · show n = -(Nat.ofDigitChars 10 _ 0 : ℤ)
      rw [Nat.ofDigitChars_ten_toDigits]
      omega

/-- The values of an `Int32`. -/
lemma isInt32_toInt (n : Int32) : IsInt32 n.toInt := by
  have hge := Int32.le_toInt n
  have hlt := Int32.toInt_lt n
  unfold IsInt32
  omega

/-- **The decimal text of an `int32`** is read back. -/
theorem stoi_toString (n : Int32) : stoi (toString n.toInt).toList = some n.toInt :=
  stoi_eq_some_iff.mpr ⟨beginsWith_toString n.toInt, isInt32_toInt n⟩

/-- **Integer settings, exactly.** For every configuration, every name and every default:
`GetIntDefault` returns, the number of a setting that is the decimal text of an `int32` and the
default otherwise, if and only if there is no setting, or it is such a text, or it begins with the
default, as a number, all the same.

**Proof sketch.** The default is read back from its text (`stoi_toString`), and so is a setting that
is the text of an `int32`. Any other setting has to give the default, and what is returned for it is
the number it begins with (`stoi_eq_some_iff`). -/
theorem integerSetting_iff (config : Config) (name : String) (default : Int32) :
    IntegerSettingHolds config name default ↔
      ∀ value, List.lookup (toLowerCopy name.toList) config = some value →
        IsDecimal (String.ofList value) ∨ BeginsWith value default.toInt := by
  unfold IntegerSettingHolds getIntDefault getStringDefault
  cases hlookup : List.lookup (toLowerCopy name.toList) config with
  | none =>
    exact iff_of_true ⟨default.toInt, stoi_toString default, rfl⟩ fun _ h => nomatch h
  | some value =>
    simp only [String.toList_ofList, Option.some.injEq, forall_eq']
    by_cases hdecimal : IsDecimal (String.ofList value)
    · obtain ⟨n, hn⟩ := hdecimal
      have hread : stoi value = some n.toInt := by
        rw [← stoi_toString, ← hn, String.toList_ofList]
      refine iff_of_true ⟨n.toInt, hread, fun n' hn' => ?_, fun hno => absurd ⟨n, hn⟩ hno⟩
        (Or.inl ⟨n, hn⟩)
      have hread' := stoi_toString n'
      rw [← hn', String.toList_ofList, hread] at hread'
      exact Option.some.inj hread'
    · rw [or_iff_right hdecimal]
      constructor
      · rintro ⟨v, hv, -, hdefault⟩
        rw [hdefault hdecimal] at hv
        exact (stoi_eq_some_iff.mp hv).1
      · intro hbegins
        exact ⟨default.toInt, stoi_eq_some_iff.mpr ⟨hbegins, isInt32_toInt default⟩,
          fun n hn => absurd ⟨n, hn⟩ hdecimal, fun _ => rfl⟩

/-- Settings that `Reload` accepts: with a text that is no number, and with a number that is no
`int32`, `std::stoi` throws; what comes behind a number is not looked at. -/
theorem integerSetting_fails :
    ∃ config, reload "a = x\nb = 3000000000\nc = 12abc" = some config ∧
      config.getIntDefault "a" 7 = none ∧ ¬ IntegerSettingHolds config "a" 7 ∧
      config.getIntDefault "b" 7 = none ∧ config.getIntDefault "c" 7 = some 12 := by
  refine ⟨[("c".toList, "12abc".toList), ("b".toList, "3000000000".toList),
    ("a".toList, "x".toList)], by decide +kernel, by decide +kernel, ?_, by decide +kernel,
    by decide +kernel⟩
  rintro ⟨v, hv, -⟩
  exact absurd hv (by
    rw [show getIntDefault _ "a" (7 : Int32).toInt = none by decide +kernel]
    exact nofun)

end SteerStone.Config
