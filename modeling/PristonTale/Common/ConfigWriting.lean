import Mathlib.Data.List.DropRight
import PristonTale.Common.ConfigReading

set_option relaxedAutoImplicit false
set_option autoImplicit false

/-!
# The format of a configuration file

What a configuration file can say. `Reload` trims and lowers the text before a `=`, and trims the
text behind it and then takes the quotes from its ends. So not every name and not every value can
come out of a file; but those that can are read back when they are written with the value in quotes.
And two files, one after the other, are one file, in which the second overrides the first.

## Main definitions

* `SteerStone.Config.Trimmed` — a text that has nothing to be trimmed.
* `SteerStone.Config.Writable` — a name and a value that can be written.
* `SteerStone.Config.writeConfig` — a file with given entries.

## Main results

* `SteerStone.Config.readLine_writeLine` — an entry that can be written is read back.
* `SteerStone.Config.Assigns.writable` — what a line assigns can be written.
* `SteerStone.Config.readable_iff_writable` — the format.
-/

namespace SteerStone.Config

/-! ## Trimming -/

/-- A text with nothing to be trimmed at its ends. -/
def Trimmed (p : Char → Bool) (s : List Char) : Prop :=
  (∀ c ∈ s.head?, p c = false) ∧ ∀ c ∈ s.getLast?, p c = false

/-- What has nothing to be trimmed at its start. -/
lemma dropWhile_of_head {p : Char → Bool} {s : List Char} (h : ∀ c ∈ s.head?, p c = false) :
    s.dropWhile p = s := by
  cases s with
  | nil => rfl
  | cons c s => rw [List.dropWhile_cons, if_neg (by rw [h c rfl]; decide)]

/-- The first character of what has been trimmed at its start. -/
lemma head_dropWhile {p : Char → Bool} {s : List Char} :
    ∀ c ∈ (s.dropWhile p).head?, p c = false := by
  intro c hc
  have hstop := List.head?_dropWhile_not p s
  rw [Option.mem_def.mp hc] at hstop
  exact hstop

/-- Trimming leaves a text alone that has nothing to be trimmed. -/
lemma trimCopyIf_of_trimmed {p : Char → Bool} {s : List Char} (h : Trimmed p s) :
    trimCopyIf p s = s := by
  have hback : ∀ c ∈ s.reverse.head?, p c = false := by
    rw [List.head?_reverse]
    exact h.2
  rw [trimCopyIf, dropWhile_of_head h.1, dropWhile_of_head hback, List.reverse_reverse]

/-- A text that has been trimmed has nothing to be trimmed. -/
lemma trimmed_trimCopyIf (p : Char → Bool) (s : List Char) : Trimmed p (trimCopyIf p s) := by
  refine ⟨fun c hc => ?_, fun c hc => ?_⟩
  · obtain ⟨rest, hrest⟩ : trimCopyIf p s <+: s.dropWhile p :=
      List.rdropWhile_prefix p (s.dropWhile p)
    refine head_dropWhile (s := s) c ?_
    rw [← hrest, List.head?_append, Option.mem_def.mp hc]
    rfl
  · rw [trimCopyIf, List.getLast?_reverse] at hc
    exact head_dropWhile c hc

/-- A character of a trimmed text is one of the text. -/
lemma mem_of_mem_trimCopyIf {p : Char → Bool} {s : List Char} {c : Char}
    (h : c ∈ trimCopyIf p s) : c ∈ s := by
  have hback := (List.dropWhile_sublist p).subset (List.mem_reverse.mp h)
  exact (List.dropWhile_sublist p).subset (List.mem_reverse.mp hback)

/-! ## Lower case -/

/-- A character is as it is in lower case, or is an upper case letter. -/
lemma toLower_cases (c : Char) : c.toLower = c ∨
    (65 ≤ c.toNat ∧ c.toNat ≤ 90 ∧ c.toLower.toNat = c.toNat + 32) := by
  by_cases hletter : c.val ≥ 'A'.val ∧ c.val ≤ 'Z'.val
  · have hlow : 65 ≤ c.toNat := UInt32.le_iff_toNat_le.mp hletter.1
    have hhigh : c.toNat ≤ 90 := UInt32.le_iff_toNat_le.mp hletter.2
    refine Or.inr ⟨hlow, hhigh, ?_⟩
    have hlower : c.toLower.val = c.val + 32 := congrArg Char.val (dif_pos hletter)
    have hsum : (c.val + 32).toNat = (c.toNat + 32) % 2 ^ 32 := UInt32.toNat_add c.val 32
    rw [Char.toNat, hlower, hsum]
    omega
  · exact Or.inl (dif_neg hletter)

/-- The lower case of a text is in lower case. -/
lemma toLower_toLower (c : Char) : c.toLower.toLower = c.toLower := by
  rcases toLower_cases c with hsame | ⟨hlow, hhigh, hlower⟩
  · rw [hsame, hsame]
  · rcases toLower_cases c.toLower with hsame | ⟨-, hhigh', -⟩
    · exact hsame
    · omega

/-- A character that is no letter is the lower case of itself alone. -/
lemma eq_of_toLower_eq {c d : Char} (hd : d.toNat < 97) (h : c.toLower = d) : c = d := by
  rcases toLower_cases c with hsame | ⟨hlow, -, hlower⟩
  · rw [← hsame, h]
  · rw [h] at hlower
    omega

/-- A character is white space exactly when it is in lower case. -/
lemma isSpace_toLower (c : Char) : isSpace c.toLower = isSpace c := by
  rcases toLower_cases c with hsame | ⟨hlow, -, hlower⟩
  · rw [hsame]
  · have hno : ∀ d : Char, 65 ≤ d.toNat → isSpace d = false := by
      intro d hd
      refine decide_eq_false ?_
      rintro (rfl | ⟨-, hle⟩)
      · exact absurd hd (by decide)
      · omega
    rw [hno c hlow, hno c.toLower (by omega)]

/-- The white space at the start of a text is that of its lower case. -/
lemma trimLeft_toLowerCopy (s : List Char) :
    trimLeft (toLowerCopy s) = toLowerCopy (trimLeft s) := by
  induction s with
  | nil => rfl
  | cons c s ih =>
    unfold trimLeft toLowerCopy at ih ⊢
    rw [List.map_cons, List.dropWhile_cons, List.dropWhile_cons, isSpace_toLower]
    split_ifs
    · exact ih
    · rfl

/-! ## What can be written -/

/-- **A name and a value that can be written**: the name is in lower case, has no white space at its
ends, no `=`, and does not begin like a comment; the value has no quotes at its ends; and neither
has a newline. -/
structure Writable (key value : List Char) : Prop where
  /-- The name is in lower case. -/
  lower : toLowerCopy key = key
  /-- There is no white space at its ends. -/
  trimmed : Trimmed isSpace key
  /-- It has no `=`. -/
  noEquals : '=' ∉ key
  /-- It has no newline. -/
  keyLine : '\n' ∉ key
  /-- It does not begin like a comment or the head of a section. -/
  notComment : key.head? ≠ some '#' ∧ key.head? ≠ some '['
  /-- The value has no newline. -/
  valueLine : '\n' ∉ value
  /-- It has no quotes at its ends. -/
  unquoted : Trimmed (· = '"') value

/-- A line that assigns a value to a name. -/
def writeLine (entry : List Char × List Char) : List Char :=
  entry.1 ++ '=' :: '"' :: (entry.2 ++ ['"'])

/-- A file with given entries. -/
def writeConfig (config : Config) : String :=
  String.ofList (['\n'].intercalate (config.reverse.map writeLine ++ [[]]))

/-- A value is what is left of it in quotes. -/
lemma trimCopyIf_quoted {value : List Char} (h : Trimmed (· = '"') value) :
    trimCopyIf (· = '"') ('"' :: (value ++ ['"'])) = value := by
  cases value with
  | nil => rfl
  | cons c value =>
    have hfront : List.dropWhile (· = '"') ('"' :: (c :: value ++ ['"'])) =
        c :: value ++ ['"'] := by
      rw [List.dropWhile_cons, if_pos (by decide)]
      exact dropWhile_of_head h.1
    have hback : ∀ d ∈ (c :: value).reverse.head?, decide (d = '"') = false := by
      rw [List.head?_reverse]
      exact h.2
    rw [trimCopyIf, hfront, List.reverse_append, List.reverse_singleton, List.singleton_append,
      List.dropWhile_cons, if_pos (by decide), dropWhile_of_head hback, List.reverse_reverse]

/-- **An entry that can be written is read back.**

**Proof sketch.** The line begins like the name does, or with the `=`, so nothing is trimmed from
its start and it is no comment. The first `=` is the one behind the name. What is behind it begins
and ends with a quote, so only the quotes are trimmed. -/
theorem readLine_writeLine {key value : List Char} (h : Writable key value) :
    readLine (writeLine (key, value)) = .entry key value := by
  have htext : trimLeft (writeLine (key, value)) = writeLine (key, value) := by
    refine dropWhile_of_head fun c hc => ?_
    cases hkey : key with
    | nil =>
      rw [hkey] at hc
      rw [← Option.some.inj hc]
      rfl
    | cons d key' =>
      rw [hkey] at hc
      exact h.trimmed.1 c (by rw [hkey]; exact hc)
  have hne : writeLine (key, value) ≠ [] := by simp [writeLine]
  have hcomment : ¬ ((writeLine (key, value)).head? = some '#' ∨
      (writeLine (key, value)).head? = some '[') := by
    have hnot := h.notComment
    cases key with
    | nil => simp [writeLine]
    | cons d key' => simpa [writeLine] using hnot
  have hmem : '=' ∈ writeLine (key, value) := by simp [writeLine]
  have hall : ∀ c ∈ key, decide (c ≠ '=') = true := fun c hc =>
    decide_eq_true fun heq => h.noEquals (heq ▸ hc)
  have hbefore : (writeLine (key, value)).takeWhile (· ≠ '=') = key := by
    rw [writeLine, List.takeWhile_append_of_pos hall, List.takeWhile_cons, if_neg (by decide),
      List.append_nil]
  have hbehind : ((writeLine (key, value)).dropWhile (· ≠ '=')).drop 1 =
      '"' :: (value ++ ['"']) := by
    rw [writeLine, List.dropWhile_append_of_pos hall, List.dropWhile_cons, if_neg (by decide)]
    rfl
  have hquoted : Trimmed isSpace ('"' :: (value ++ ['"'])) := by
    refine ⟨fun c hc => ?_, fun c hc => ?_⟩
    · rw [← Option.some.inj hc]
      rfl
    · rw [← List.cons_append, List.getLast?_append, List.getLast?_singleton] at hc
      rw [← Option.some.inj hc]
      rfl
  unfold readLine
  dsimp only
  rw [htext, if_neg hne, if_neg hcomment, if_pos hmem, hbefore, hbehind, h.lower,
    trimCopyIf_of_trimmed h.trimmed, trimCopyIf_of_trimmed hquoted, trimCopyIf_quoted h.unquoted]

/-- **What a line assigns can be written.**

**Proof sketch.** The name and the value have been trimmed, and have no other characters than their
parts of the line, in lower case. If the name began like a comment, the line would. -/
theorem Assigns.writable {line key value : List Char} (h : Assigns line key value)
    (hline : '\n' ∉ line) : Writable key value := by
  obtain ⟨before, after, rfl, hequals, rfl, rfl⟩ := h.split
  have hin : ∀ {c : Char}, c.toNat < 97 → c ∈ trimCopyIf isSpace (toLowerCopy before) →
      c ∈ before := by
    intro c hc hmem
    obtain ⟨d, hd, hlower⟩ := List.mem_map.mp (mem_of_mem_trimCopyIf hmem)
    rwa [← eq_of_toLower_eq hc hlower]
  -- A character in front of the name would be in front of the line.
  have hhead : ∀ {c : Char}, c.toNat < 97 →
      (trimCopyIf isSpace (toLowerCopy before)).head? = some c →
      (trimLeft (before ++ '=' :: after)).head? = some c := by
    intro c hc hkey
    obtain ⟨rest, hrest⟩ : trimCopyIf isSpace (toLowerCopy before) <+:
        trimLeft (toLowerCopy before) := List.rdropWhile_prefix isSpace _
    have hlower : (toLowerCopy (trimLeft before)).head? = some c := by
      rw [← trimLeft_toLowerCopy, ← hrest, List.head?_append, hkey]
      rfl
    rw [toLowerCopy, List.head?_map] at hlower
    obtain ⟨d, hd, hlower⟩ := Option.map_eq_some_iff.mp hlower
    obtain rfl := eq_of_toLower_eq hc hlower
    obtain ⟨spaces, hspaces, hbefore⟩ := exists_spaces before
    have htrim : trimLeft (before ++ '=' :: after) = trimLeft before ++ '=' :: after := by
      rw [hbefore, List.append_assoc, trimLeft, List.dropWhile_append_of_pos hspaces, ← trimLeft,
        ← hbefore]
      refine dropWhile_of_head fun e he => ?_
      rw [List.head?_append, hd] at he
      rw [← Option.some.inj he]
      exact head_dropWhile d hd
    rw [htrim, List.head?_append, hd]
    rfl
  refine ⟨?_, trimmed_trimCopyIf _ _, fun hmem => hequals (hin (by decide) hmem),
    fun hmem => hline (List.mem_append_left _ (hin (by decide) hmem)), ⟨fun hhash => ?_,
    fun hbracket => ?_⟩, fun hmem => ?_, trimmed_trimCopyIf _ _⟩
  · have hall : ∀ c ∈ trimCopyIf isSpace (toLowerCopy before), c.toLower = c := by
      intro c hc
      obtain ⟨d, -, rfl⟩ := List.mem_map.mp (mem_of_mem_trimCopyIf hc)
      exact toLower_toLower d
    exact (List.map_congr_left hall).trans (List.map_id _)
  · exact h.notSkipped (Or.inr (Or.inl (hhead (by decide) hhash)))
  · exact h.notSkipped (Or.inr (Or.inr (hhead (by decide) hbracket)))
  · have hafter := mem_of_mem_trimCopyIf (mem_of_mem_trimCopyIf hmem)
    exact hline (List.mem_append_right _ (List.mem_cons_of_mem _ hafter))

/-! ## Files -/

/-- A line of a text has no newline. -/
lemma not_mem_of_mem_splitOn {s w : List Char} {c : Char} (h : w ∈ s.splitOn c) : c ∉ w := by
  induction s generalizing w with
  | nil =>
    rw [List.splitOn_nil, List.mem_singleton] at h
    rw [h]
    exact List.not_mem_nil
  | cons x s ih =>
    rw [List.splitOn_cons_eq_if_modifyHead] at h
    split_ifs at h with hx
    · rcases List.mem_cons.mp h with rfl | h
      · exact List.not_mem_nil
      · exact ih h
    · obtain ⟨first, rest, hsplit⟩ := List.exists_cons_of_ne_nil (List.splitOn_ne_nil c s)
      rw [hsplit] at h ih
      rcases List.mem_cons.mp h with rfl | h
      · refine fun hmem => (List.mem_cons.mp hmem).elim (fun heq => ?_) (ih List.mem_cons_self)
        exact hx (by rw [heq]; exact BEq.refl x)
      · exact ih (List.mem_cons_of_mem _ h)

/-- The loop goes on from the lines in front. -/
lemma readLines_append (ls ls' : List (List Char)) (entries : Config) :
    readLines (ls ++ ls') entries = (readLines ls entries).bind (readLines ls') := by
  induction ls generalizing entries with
  | nil => rfl
  | cons line ls ih =>
    rw [List.cons_append, readLines, readLines]
    cases readLine line with
    | skipped => exact ih entries
    | entry key value => exact ih _
    | malformed => rfl

/-- The entries of the loop come in front of those there were. -/
lemma readLines_eq (ls : List (List Char)) (entries : Config) :
    readLines ls entries = (readLines ls []).map (· ++ entries) := by
  induction ls generalizing entries with
  | nil => rfl
  | cons line ls ih =>
    rw [readLines, readLines]
    cases readLine line with
    | skipped => exact ih entries
    | entry key value =>
      dsimp only
      rw [ih ((key, value) :: entries), ih [(key, value)], Option.map_map]
      refine congrArg (fun f => Option.map f (readLines ls [])) (funext fun front => ?_)
      exact List.append_cons front (key, value) entries
    | malformed => rfl

/-- The lines that are written are read back, the last one first. -/
lemma readLines_writeLine (config entries : Config)
    (h : ∀ entry ∈ config, Writable entry.1 entry.2) :
    readLines (config.map writeLine) entries = some (config.reverse ++ entries) := by
  induction config generalizing entries with
  | nil => rfl
  | cons entry config ih =>
    obtain ⟨hentry, hrest⟩ := List.forall_mem_cons.mp h
    rw [List.map_cons, readLines, readLine_writeLine hentry]
    dsimp only
    rw [ih _ hrest, List.reverse_cons, List.append_assoc]
    rfl

/-- **A file that is written is read back.** -/
lemma reload_writeConfig {config : Config} (h : ∀ entry ∈ config, Writable entry.1 entry.2) :
    reload (writeConfig config) = some config := by
  have hback : ∀ entry ∈ config.reverse, Writable entry.1 entry.2 := fun entry hentry =>
    h entry (List.mem_reverse.mp hentry)
  have hlines : ∀ line ∈ config.reverse.map writeLine ++ [[]], '\n' ∉ line := by
    intro line hline hmem
    rcases List.mem_append.mp hline with hline | hline
    · obtain ⟨entry, hentry, rfl⟩ := List.mem_map.mp hline
      have hw := hback entry hentry
      simp [writeLine, hw.keyLine, hw.valueLine] at hmem
    · rw [List.mem_singleton.mp hline] at hmem
      exact List.not_mem_nil hmem
  have hsplit : (writeConfig config).toList.splitOn '\n' =
      config.reverse.map writeLine ++ [[]] := by
    rw [writeConfig, String.toList_ofList]
    exact List.splitOn_intercalate '\n' hlines (List.concat_ne_nil _ _)
  rw [reload, hsplit, readLines_append, readLines_writeLine _ _ hback, List.reverse_reverse,
    List.append_nil]
  rfl

/-- What is read can be written. -/
lemma writable_of_readLines {ls : List (List Char)} {entries config : Config}
    (h : readLines ls entries = some config) (hls : ∀ line ∈ ls, '\n' ∉ line)
    (hentries : ∀ entry ∈ entries, Writable entry.1 entry.2) :
    ∀ entry ∈ config, Writable entry.1 entry.2 := by
  induction ls generalizing entries with
  | nil =>
    obtain rfl := Option.some.inj h
    exact hentries
  | cons line ls ih =>
    obtain ⟨hline, hrest⟩ := List.forall_mem_cons.mp hls
    have hspec := readLine_spec line
    rw [readLines] at h
    cases hread : readLine line with
    | skipped =>
      rw [hread] at h
      exact ih h hrest hentries
    | entry key value =>
      rw [hread] at h hspec
      have hwritable : Writable key value := Assigns.writable hspec hline
      exact ih h hrest (List.forall_mem_cons.mpr ⟨hwritable, hentries⟩)
    | malformed =>
      rw [hread] at h
      cases h

/-- **The format of a configuration file.** For every list of entries, the last assignment first:
some text is read as these entries exactly when each of them has a name in lower case without white
space at its ends, without a `=` or a newline, and not beginning with `#` or `[`, and a value
without a newline and without quotes at its ends; and then the file with a line `name="value"` for
each is. And for any two texts, the one behind the other in a file is read exactly when both are;
then each setting is that of the second text, or that of the first where the second has none.

**Proof sketch.** An entry that can be written is read back (`readLine_writeLine`), and what a line
assigns can be written (`Assigns.writable`). The loop over the lines of both texts is that of the
second, started with the entries of the first (`readLines_append`, `readLines_eq`). -/
theorem readable_iff_writable :
    (∀ config : Config, (∃ text, reload text = some config) ↔
      ∀ entry ∈ config, Writable entry.1 entry.2) ∧
    (∀ config : Config, (∃ text, reload text = some config) ↔
      reload (writeConfig config) = some config) ∧
    (∀ first second : String, reload (first ++ "\n" ++ second) =
      (reload first).bind fun config => (reload second).map (· ++ config)) ∧
    ∀ (config config' : Config) (name default : String),
      getStringDefault (config' ++ config) name default =
        config'.getStringDefault name (config.getStringDefault name default) := by
  have hwritable : ∀ config : Config, (∃ text, reload text = some config) →
      ∀ entry ∈ config, Writable entry.1 entry.2 := by
    rintro config ⟨text, htext⟩
    exact writable_of_readLines htext (fun line hline => not_mem_of_mem_splitOn hline)
      fun entry hentry => absurd hentry List.not_mem_nil
  refine ⟨fun config => ⟨hwritable config, fun h => ⟨_, reload_writeConfig h⟩⟩,
    fun config => ⟨fun h => reload_writeConfig (hwritable config h), fun h => ⟨_, h⟩⟩,
    fun first second => ?_, ?_⟩
  · have hlines : (first ++ "\n" ++ second).toList.splitOn '\n' =
        first.toList.splitOn '\n' ++ second.toList.splitOn '\n' := by
      rw [String.toList_append, String.toList_append, List.append_assoc]
      exact List.splitOn_append_cons_self _ _
    rw [reload, hlines, readLines_append]
    exact congrArg (Option.bind (reload first)) (funext fun config => readLines_eq _ config)
  · intro config config' name default
    unfold getStringDefault
    rw [List.lookup_append]
    cases List.lookup (toLowerCopy name.toList) config' <;> rfl

/-- A value with white space at its ends. -/
example : reload (writeConfig [("key".toList, " x=y ".toList)]) =
    some [("key".toList, " x=y ".toList)] := by
  decide +kernel

end SteerStone.Config
