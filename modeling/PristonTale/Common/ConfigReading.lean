import Mathlib.Data.List.TakeWhile
import PristonTale.Common.Config

set_option relaxedAutoImplicit false
set_option autoImplicit false

/-!
# What a configuration file says

A file is a list of lines. A line that assigns a value has its key before the first `=` and the
value behind it; the last line that assigns to a key decides. Lines that begin with `#` or `[` are
comments and heads of sections: they assign nothing, also where they have a `=`.

## Main definitions

* `SteerStone.Config.lines` — the lines of a file.
* `SteerStone.Config.Skipped`, `SteerStone.Config.Assigns`, `SteerStone.Config.WellFormed` — what a
  line can be.
* `SteerStone.Config.IsLastValue` — the value that the last line assigns to a key.

## Main results

* `SteerStone.Config.readLine_spec` — what a round of `Reload` makes of a line.
* `SteerStone.Config.reload_isSome_iff` — the files that are read.
* `SteerStone.Config.settings_eq` — the settings are the last values.
-/

namespace SteerStone.Config

/-- The lines of a file, as `std::getline` gives them: the last one is what comes behind the last
newline, even if that is nothing. -/
def lines (text : String) : List (List Char) := text.toList.splitOn '\n'

/-- A line without text, a comment or the head of a section. -/
def Skipped (line : List Char) : Prop :=
  trimLeft line = [] ∨ (trimLeft line).head? = some '#' ∨ (trimLeft line).head? = some '['

/-- A line that `Reload` accepts. -/
def WellFormed (line : List Char) : Prop := Skipped line ∨ '=' ∈ trimLeft line

/-- **A line assigns a value to a key**: the key is the text before the first `=`, trimmed and in
lower case, and the value is the text behind it, without white space and then without quotes at the
ends. -/
structure Assigns (line key value : List Char) : Prop where
  /-- It is not a comment. -/
  notSkipped : ¬ Skipped line
  /-- Where it is split. -/
  split : ∃ before after, line = before ++ '=' :: after ∧ '=' ∉ before ∧
    key = trimCopyIf isSpace (toLowerCopy before) ∧
    value = trimCopyIf (· = '"') (trimCopyIf isSpace after)

/-- The value that the last line assigns to a key that some line assigns to, or that none does. -/
def IsLastValue (ls : List (List Char)) (key : List Char) : Option (List Char) → Prop
  | some value => ∃ front line back, ls = front ++ line :: back ∧ Assigns line key value ∧
      ∀ later ∈ back, ∀ value', ¬ Assigns later key value'
  | none => ∀ line ∈ ls, ∀ value, ¬ Assigns line key value

/-! ## One line -/

/-- A space is no letter. -/
lemma toLower_of_isSpace {c : Char} (h : isSpace c = true) : c.toLower = c := by
  have hspace : c = ' ' ∨ (9 ≤ c.toNat ∧ c.toNat ≤ 13) := of_decide_eq_true h
  rcases hspace with rfl | ⟨-, hle⟩
  · rfl
  · have hsmall : ¬ (c.val ≥ 'A'.val ∧ c.val ≤ 'Z'.val) := fun hletter => by
      have hge : 65 ≤ c.toNat := UInt32.le_iff_toNat_le.mp hletter.1
      omega
    exact dif_neg hsmall

/-- White space in front of a text is trimmed with it, in lower case as well. -/
lemma trimCopyIf_toLowerCopy_append {spaces s : List Char} (h : ∀ c ∈ spaces, isSpace c = true) :
    trimCopyIf isSpace (toLowerCopy (spaces ++ s)) = trimCopyIf isSpace (toLowerCopy s) := by
  have hlower : ∀ c ∈ spaces.map Char.toLower, isSpace c = true := by
    intro c hc
    obtain ⟨d, hd, rfl⟩ := List.mem_map.mp hc
    rw [toLower_of_isSpace (h d hd)]
    exact h d hd
  rw [trimCopyIf, toLowerCopy, List.map_append, List.dropWhile_append_of_pos hlower, trimCopyIf,
    toLowerCopy]

/-- A line is what is trimmed from its start, and the rest. -/
lemma exists_spaces (line : List Char) :
    ∃ spaces, (∀ c ∈ spaces, isSpace c = true) ∧ line = spaces ++ trimLeft line :=
  ⟨line.takeWhile isSpace, fun _ hc => List.mem_takeWhile_imp hc,
    List.takeWhile_append_dropWhile.symm⟩

/-- The text before the first `=`, that character, and the text behind it. -/
lemma eq_split_of_mem {s : List Char} (h : '=' ∈ s) :
    s = s.takeWhile (· ≠ '=') ++ '=' :: (s.dropWhile (· ≠ '=')).drop 1 := by
  induction s with
  | nil => exact absurd h List.not_mem_nil
  | cons c s ih =>
    by_cases hc : c = '='
    · simp [hc]
    · have hmem : '=' ∈ s := (List.mem_cons.mp h).resolve_left fun heq => hc heq.symm
      have hne : decide (c ≠ '=') = true := decide_eq_true hc
      rw [List.takeWhile_cons, List.dropWhile_cons, if_pos hne, if_pos hne, List.cons_append,
        ← ih hmem]

/-- **What a round of `Reload` makes of a line.** -/
theorem readLine_spec (line : List Char) :
    match readLine line with
    | .skipped => Skipped line
    | .entry key value => Assigns line key value
    | .malformed => ¬ WellFormed line := by
  unfold readLine
  dsimp only
  by_cases hempty : trimLeft line = []
  · rw [if_pos hempty]
    exact Or.inl hempty
  · rw [if_neg hempty]
    by_cases hcomment : (trimLeft line).head? = some '#' ∨ (trimLeft line).head? = some '['
    · rw [if_pos hcomment]
      exact Or.inr hcomment
    · rw [if_neg hcomment]
      have hskipped : ¬ Skipped line := fun h => h.elim hempty hcomment
      by_cases heq : '=' ∈ trimLeft line
      · rw [if_pos heq]
        obtain ⟨spaces, hspaces, hline⟩ := exists_spaces line
        have hbefore : '=' ∉ (trimLeft line).takeWhile (· ≠ '=') := fun hmem =>
          absurd (List.mem_takeWhile_imp hmem) (by decide)
        have hnone : '=' ∉ spaces := fun hmem => absurd (hspaces _ hmem) (by decide)
        refine ⟨hskipped, spaces ++ (trimLeft line).takeWhile (· ≠ '='),
          ((trimLeft line).dropWhile (· ≠ '=')).drop 1, ?_, ?_, ?_, rfl⟩
        · rw [List.append_assoc, ← eq_split_of_mem heq]
          exact hline
        · exact fun hmem => (List.mem_append.mp hmem).elim hnone hbefore
        · exact (trimCopyIf_toLowerCopy_append hspaces).symm
      · rw [if_neg heq]
        exact fun h => h.elim hskipped heq

/-- Two texts split at their first `=` are the same when they are split alike. -/
lemma split_unique {before before' after after' : List Char} (h : '=' ∉ before) (h' : '=' ∉ before')
    (heq : before ++ '=' :: after = before' ++ '=' :: after') :
    before = before' ∧ after = after' := by
  induction before generalizing before' with
  | nil =>
    cases before' with
    | nil => exact ⟨rfl, (List.cons.inj heq).2⟩
    | cons c before' => exact absurd ((List.cons.inj heq).1 ▸ List.mem_cons_self) h'
  | cons c before ih =>
    cases before' with
    | nil => exact absurd ((List.cons.inj heq).1 ▸ List.mem_cons_self) h
    | cons c' before' =>
      obtain ⟨hc, hrest⟩ := List.cons.inj heq
      obtain ⟨hb, ha⟩ := ih (fun hm => h (List.mem_cons_of_mem _ hm))
        (fun hm => h' (List.mem_cons_of_mem _ hm)) hrest
      exact ⟨by rw [hc, hb], ha⟩

/-- `Reload` accepts a line that assigns a value. -/
lemma Assigns.wellFormed {line key value : List Char} (h : Assigns line key value) :
    WellFormed line := by
  obtain ⟨before, after, hline, -, -, -⟩ := h.split
  obtain ⟨spaces, hspaces, htrim⟩ := exists_spaces line
  have hmem : '=' ∈ spaces ++ trimLeft line := by
    rw [← htrim, hline]
    exact List.mem_append_right _ List.mem_cons_self
  rcases List.mem_append.mp hmem with hmem | hmem
  · exact absurd (hspaces _ hmem) (by decide)
  · exact Or.inr hmem

/-- A line in front that assigns nothing to a key does not matter. -/
lemma IsLastValue.cons_of_not {ls : List (List Char)} {key line : List Char}
    {r : Option (List Char)} (h : IsLastValue ls key r)
    (hline : ∀ value, ¬ Assigns line key value) : IsLastValue (line :: ls) key r := by
  cases r with
  | none =>
    intro l hl
    rcases List.mem_cons.mp hl with rfl | hl
    · exact hline
    · exact h l hl
  | some value =>
    obtain ⟨front, last, back, rfl, hassigns, hlater⟩ := h
    exact ⟨line :: front, last, back, rfl, hassigns, hlater⟩

/-- A line assigns one value to one key. -/
lemma Assigns.unique {line key value key' value' : List Char} (h : Assigns line key value)
    (h' : Assigns line key' value') : key = key' ∧ value = value' := by
  obtain ⟨before, after, hline, hno, rfl, rfl⟩ := h.split
  obtain ⟨before', after', hline', hno', rfl, rfl⟩ := h'.split
  obtain ⟨rfl, rfl⟩ := split_unique hno hno' (hline.symm.trans hline')
  exact ⟨rfl, rfl⟩

/-! ## All lines -/

/-- **The files that are read**, by their lines: those with which the loop does not end early.

**Proof sketch.** Induction on the lines, with what a round makes of the first (`readLine_spec`). -/
lemma isSome_readLines (ls : List (List Char)) (entries : Config) :
    (readLines ls entries).isSome ↔ ∀ line ∈ ls, WellFormed line := by
  induction ls generalizing entries with
  | nil => simp [readLines]
  | cons line ls ih =>
    have hspec := readLine_spec line
    rw [List.forall_mem_cons, readLines]
    cases hline : readLine line with
    | skipped =>
      rw [hline] at hspec
      have hwell : WellFormed line := Or.inl hspec
      rw [and_iff_right hwell]
      exact ih entries
    | entry key value =>
      rw [hline] at hspec
      have hwell : WellFormed line := Assigns.wellFormed hspec
      rw [and_iff_right hwell]
      exact ih _
    | malformed =>
      rw [hline] at hspec
      exact iff_of_false Bool.false_ne_true fun h => hspec h.1

/-- What is found under a key after the loop: what the last line assigned to it, or what was there
before the loop.

**Proof sketch.** Induction on the lines. A line that assigns to the key is the last one that does,
unless another comes behind it. -/
lemma lookup_readLines {ls : List (List Char)} {entries config : Config}
    (h : readLines ls entries = some config) (key : List Char) :
    ∃ r, IsLastValue ls key r ∧ List.lookup key config = r.or (List.lookup key entries) := by
  induction ls generalizing entries with
  | nil =>
    obtain rfl : entries = config := Option.some.inj h
    exact ⟨none, fun line hline => absurd hline List.not_mem_nil, rfl⟩
  | cons line ls ih =>
    have hspec := readLine_spec line
    rw [readLines] at h
    cases hline : readLine line with
    | skipped =>
      rw [hline] at hspec h
      obtain ⟨r, hr, hlookup⟩ := ih h
      exact ⟨r, hr.cons_of_not fun value hassigns => hassigns.notSkipped hspec, hlookup⟩
    | entry key' value =>
      rw [hline] at hspec h
      obtain ⟨r, hr, hlookup⟩ := ih h
      by_cases hkey : key = key'
      · subst hkey
        rw [List.lookup_cons_self] at hlookup
        cases r with
        | none => exact ⟨some value, ⟨[], line, ls, rfl, hspec, hr⟩, hlookup⟩
        | some last =>
          obtain ⟨front, l, back, rfl, hassigns, hlater⟩ := hr
          exact ⟨some last, ⟨line :: front, l, back, rfl, hassigns, hlater⟩, hlookup⟩
      · have hne : (key == key') = false := by simpa using hkey
        rw [List.lookup_cons, hne] at hlookup
        exact ⟨r, hr.cons_of_not fun v hassigns => hkey (hassigns.unique hspec).1, hlookup⟩
    | malformed =>
      rw [hline] at h
      cases h

/-! ## The settings -/

/-- **The files that are read**: every line is empty behind its leading white space, begins with `#`
or `[` there, or has a `=`. -/
theorem reload_isSome_iff (text : String) :
    (reload text).isSome ↔ ∀ line ∈ lines text, WellFormed line :=
  isSome_readLines (lines text) []

/-- **The settings are the last values**, or the default where no line assigns one. -/
theorem settings_eq {text : String} {config : Config} (h : reload text = some config)
    (name default : String) :
    ∃ r, IsLastValue (lines text) (toLowerCopy name.toList) r ∧
      config.getStringDefault name default = (r.map String.ofList).getD default ∧
      config.isSet name = r.isSome := by
  have hread : readLines (lines text) [] = some config := h
  obtain ⟨r, hr, hlookup⟩ := lookup_readLines hread (toLowerCopy name.toList)
  rw [List.lookup_nil, Option.or_none] at hlookup
  refine ⟨r, hr, ?_, ?_⟩
  · rw [getStringDefault, hlookup]
    cases r <;> rfl
  · rw [isSet, hlookup]

/-- **Configuration files.** For every text, `Reload` succeeds if and only if every line is well
formed; and for every name in whatever case and every default, `GetStringDefault` then gives the
value that the last line which is no comment assigns to the name in lower case, or the default if
there is none, and `IsSet` tells which.

**Proof sketch.** A round of the loop makes of a line what the line says (`readLine_spec`); the loop
keeps the last value for each key (`lookup_readLines`). -/
theorem reload_iff :
    (∀ text, (reload text).isSome ↔ ∀ line ∈ lines text, WellFormed line) ∧
    ∀ text config, reload text = some config → ∀ name default : String,
      ∃ r, IsLastValue (lines text) (toLowerCopy name.toList) r ∧
        config.getStringDefault name default = (r.map String.ofList).getD default ∧
        config.isSet name = r.isSome :=
  ⟨reload_isSome_iff, fun _ _ h name default => settings_eq h name default⟩

/-- A repeated key, a value with a `=` and with quotes, and a last line without a newline. -/
theorem reload_repeated : ∃ config, reload "[a]\r\nKey = 1\r\n key=\" x=y \"" = some config ∧
    ∃ r, IsLastValue (lines "[a]\r\nKey = 1\r\n key=\" x=y \"") "key".toList r ∧
      config.getStringDefault "KEY" "d" = (r.map String.ofList).getD "d" ∧
      config.isSet "KEY" = r.isSome :=
  ⟨[("key".toList, " x=y ".toList), ("key".toList, "1".toList)], by decide +kernel,
    reload_iff.2 _ _ (by decide +kernel) "KEY" "d"⟩

/-- The text before the `=` of a comment can be a name, and the comment assigns nothing to it. -/
theorem reload_comment_fails :
    ¬ ∀ text config, reload text = some config →
      ∀ (name default : String) (before after : List Char),
      lines text = [before ++ '=' :: after] → '=' ∉ before →
      trimCopyIf isSpace (toLowerCopy before) = toLowerCopy name.toList →
      config.getStringDefault name default =
        String.ofList (trimCopyIf (· = '"') (trimCopyIf isSpace after)) := by
  intro h
  have hvalue := h "#a=b" [] (by decide +kernel) "#a" "d" "#a".toList "b".toList (by decide +kernel)
    (by decide) (by decide)
  exact absurd hvalue (by decide +kernel)

end SteerStone.Config
