import PristonTale.Common.ConfigReading
import PristonTale.Foundations.Transition

set_option relaxedAutoImplicit false
set_option autoImplicit false

/-!
# The configuration and its file

`SetFile` names the configuration file and reads it, `Reload` reads it again. The entries are
replaced when all lines have been read, so a file that cannot be read leaves them as they were. The
name is replaced before that: after a `SetFile` that fails, `GetFilename` gives the name of a file
that the entries do not come from, and the next `Reload` reads that one.

## Main definitions

* `SteerStone.ConfigFile` — the state of a `Config`; `SteerStone.ConfigFile.setFile`,
  `SteerStone.ConfigFile.reload` — the functions.
* `SteerStone.ConfigFile.Unchanged` — nothing that can be asked for has changed.
* `SteerStone.configSystem` — any sequence of calls.

## Main results

* `SteerStone.ConfigFile.result_reload_iff` — a call succeeds exactly when the file can be read.
* `SteerStone.configFailure_iff` — the calls that change nothing when they fail, and the sequences
  of calls after which `Reload` reads the file that the entries come from.
-/

namespace SteerStone

open Foundations

/-- The files that can be opened, with their texts. -/
abbrev Files := String → Option String

/-- The state of a `Config`. -/
structure ConfigFile where
  /-- `m_FileName`. -/
  fileName : String
  /-- `m_Entries`. -/
  entries : Config

namespace ConfigFile

/-- `Reload`: its result, and the state then. -/
def reload (files : Files) (c : ConfigFile) : Bool × ConfigFile :=
  match (files c.fileName).bind Config.reload with
  | some entries => (true, { c with entries := entries })
  | none => (false, c)

/-- `SetFile`: the name is set, and then the file is read. -/
def setFile (files : Files) (file : String) (c : ConfigFile) : Bool × ConfigFile :=
  reload files { c with fileName := file }

/-- Neither `GetFilename`, `IsSet` nor `GetStringDefault` tell two states apart. -/
def Unchanged (c c' : ConfigFile) : Prop :=
  c'.fileName = c.fileName ∧ (∀ name, c'.entries.isSet name = c.entries.isSet name) ∧
    ∀ name default, c'.entries.getStringDefault name default =
      c.entries.getStringDefault name default

/-- A file that can be opened and has no malformed line. -/
def Readable (files : Files) (file : String) : Prop :=
  ∃ text, files file = some text ∧ ∀ line ∈ Config.lines text, Config.WellFormed line

/-- Nothing has changed when nothing was done. -/
lemma unchanged_refl (c : ConfigFile) : Unchanged c c := ⟨rfl, fun _ => rfl, fun _ _ => rfl⟩

/-- What `Reload` can do: read a file and take its entries, or leave the state as it is. -/
lemma reload_cases (files : Files) (c : ConfigFile) :
    (Readable files c.fileName ∧
        ∃ entries, reload files c = (true, { c with entries := entries })) ∨
      (¬ Readable files c.fileName ∧ reload files c = (false, c)) := by
  unfold reload
  cases htext : files c.fileName with
  | none => exact Or.inr ⟨fun ⟨_, h, _⟩ => (nomatch htext.symm.trans h), rfl⟩
  | some text =>
    have hiff : Readable files c.fileName ↔ (Config.reload text).isSome := by
      rw [Config.reload_isSome_iff]
      constructor
      · rintro ⟨text', h, hlines⟩
        rwa [← Option.some.inj (htext.symm.trans h)] at hlines
      · exact fun hlines => ⟨text, htext, hlines⟩
    rw [hiff, Option.bind_some]
    cases Config.reload text with
    | none => exact Or.inr ⟨Bool.false_ne_true, rfl⟩
    | some entries => exact Or.inl ⟨rfl, entries, rfl⟩

/-- **A call succeeds** exactly when the file can be read. -/
theorem result_reload_iff (files : Files) (c : ConfigFile) :
    (reload files c).1 = true ↔ Readable files c.fileName := by
  rcases reload_cases files c with ⟨hread, entries, heq⟩ | ⟨hread, heq⟩
  · rw [heq]
    exact iff_of_true rfl hread
  · rw [heq]
    exact iff_of_false Bool.false_ne_true hread

/-- `Reload` changes nothing when it fails. -/
lemma unchanged_reload {files : Files} {c : ConfigFile} (h : (reload files c).1 = false) :
    Unchanged c (reload files c).2 := by
  rcases reload_cases files c with ⟨-, entries, heq⟩ | ⟨-, heq⟩
  · rw [heq] at h
    exact absurd h Bool.noConfusion
  · rw [heq]
    exact unchanged_refl c

/-- `SetFile` changes nothing when it fails exactly when it does not fail, or when the name is the
one that was set. -/
lemma unchanged_setFile_iff (files : Files) (file : String) (c : ConfigFile) :
    ((setFile files file c).1 = false → Unchanged c (setFile files file c).2) ↔
      Readable files file ∨ file = c.fileName := by
  rcases reload_cases files { c with fileName := file } with ⟨hread, entries, heq⟩ | ⟨hread, heq⟩
  · rw [setFile, heq]
    exact iff_of_true (fun h => absurd h Bool.noConfusion) (Or.inl hread)
  · rw [setFile, heq]
    constructor
    · exact fun h => Or.inr (h rfl).1
    · rintro (h | rfl)
      · exact absurd h hread
      · exact fun _ => unchanged_refl c

end ConfigFile

/-! ## Any sequence of calls -/

open ConfigFile

/-- A call of `SetFile` or of `Reload`. -/
inductive ConfigCall where
  | setFile (file : String)
  | reload

/-- A configuration, and the name of the file that its entries come from, if one has been read. -/
structure LoadedConfig where
  /-- The configuration. -/
  config : ConfigFile
  /-- The file that was read last. -/
  source : Option String

/-- What a call makes of a configuration, with the files that can be opened then. -/
def LoadedConfig.call (st : LoadedConfig) (files : Files) (call : ConfigCall) : LoadedConfig :=
  let outcome := match call with
    | .setFile file => setFile files file st.config
    | .reload => reload files st.config
  ⟨outcome.2, if outcome.1 then some outcome.2.fileName else st.source⟩

/-- **Any sequence of calls**, each with the files that can be opened then. -/
def configSystem : Transition LoadedConfig (Files × ConfigCall) where
  step st action := some (st.call action.1 action.2)

/-- A `Reload` would read the file that the entries come from. -/
def Faithful (st : LoadedConfig) : Prop := ∀ file ∈ st.source, st.config.fileName = file

/-- A call after which that is so: a `SetFile` that fails must name the file that is named already,
unless nothing has been read yet. -/
def KeepsFaithful (st : LoadedConfig) (action : Files × ConfigCall) : Prop :=
  match action.2 with
  | .setFile file =>
    Readable action.1 file ∨ file = st.config.fileName ∨ st.source = none
  | .reload => True

/-- What one call does to `Faithful`. -/
lemma faithful_call_iff {st : LoadedConfig} (h : Faithful st) (files : Files) (call : ConfigCall) :
    Faithful (st.call files call) ↔ KeepsFaithful st (files, call) := by
  have hread : ∀ c : ConfigFile, Faithful ⟨c, some c.fileName⟩ := fun c file hfile =>
    Option.some.inj hfile
  cases call with
  | setFile file =>
    rcases reload_cases files { st.config with fileName := file } with
      ⟨hreadable, entries, heq⟩ | ⟨hreadable, heq⟩
    · rw [LoadedConfig.call, setFile, heq]
      exact iff_of_true (hread _) (Or.inl hreadable)
    · rw [LoadedConfig.call, setFile, heq]
      cases hsource : st.source with
      | none => exact iff_of_true (fun _ hfile => nomatch hfile) (Or.inr (Or.inr hsource))
      | some source =>
        have hname : st.config.fileName = source := h source hsource
        constructor
        · intro hfaithful
          exact Or.inr (Or.inl ((hfaithful source rfl).trans hname.symm))
        · rintro (hr | heq' | hnone) file' hfile'
          · exact absurd hr hreadable
          · rw [← Option.some.inj hfile', ← hname]
            exact heq'
          · exact nomatch hsource.symm.trans hnone
  | reload =>
    rcases reload_cases files st.config with ⟨-, entries, heq⟩ | ⟨-, heq⟩
    · rw [LoadedConfig.call, heq]
      exact iff_of_true (hread _) trivial
    · rw [LoadedConfig.call, heq]
      exact iff_of_true h trivial

/-- **Failures of the configuration, exactly.** For every state and all files: a `Reload` that fails
changes nothing; a `SetFile` changes nothing when it fails, if and only if it does not fail, as the
file can be opened and has no malformed line, or names the file that is named already. And in every
sequence of calls from a state in which a `Reload` would read the file that the entries come from,
that is so in every state passed if and only if each `SetFile` that fails names the file that is
named already, or comes before any file has been read.

**Proof sketch.** A call takes the entries of the file or leaves them as they are (`reload_cases`),
but `SetFile` has replaced the name before. For sequences it is the exact rule for what each call
does (`faithful_call_iff`). -/
theorem configFailure_iff (files : Files) (file : String) (c : ConfigFile) (st : LoadedConfig)
    (calls : List (Files × ConfigCall)) :
    ((reload files c).1 = false → Unchanged c (reload files c).2) ∧
    (((setFile files file c).1 = false → Unchanged c (setFile files file c).2) ↔
      Readable files file ∨ file = c.fileName) ∧
    (Faithful st →
      (configSystem.Always Faithful st calls ↔ configSystem.Along KeepsFaithful st calls)) := by
  refine ⟨unchanged_reload, unchanged_setFile_iff files file c, fun h => ?_⟩
  obtain ⟨t, hrun⟩ := configSystem.exists_run (fun st action => ⟨_, rfl⟩) st calls
  refine configSystem.always_iff_along (I := fun _ => True) (fun _ _ _ _ _ => trivial) ?_ hrun
    trivial h
  rintro st action st' - hst hstep
  rw [← Option.some.inj hstep]
  exact faithful_call_iff hst action.1 action.2

/-- The one file that can be opened. -/
def oneFile : Files := fun file => if file = "server.conf" then some "x = 1\n" else none

/-- No file can be opened. -/
def noFile : Files := fun _ => none

/-- A `SetFile` that fails before anything has been read, one that succeeds, then a `Reload` and a
`SetFile` of the same file that fail, and a `Reload` that succeeds. -/
def failures : List (Files × ConfigCall) :=
  [(oneFile, .setFile "other.conf"), (oneFile, .setFile "server.conf"), (noFile, .reload),
    (noFile, .setFile "server.conf"), (oneFile, .reload)]

/-- After each of these calls a `Reload` would read the file that the entries come from. -/
theorem configFailure_failures : (setFile oneFile "other.conf" ⟨"", []⟩).1 = false ∧
    configSystem.Always Faithful ⟨⟨"", []⟩, none⟩ failures := by
  refine ⟨by decide +kernel, ((configFailure_iff oneFile "" ⟨"", []⟩ ⟨⟨"", []⟩, none⟩ failures).2.2
    fun _ h => nomatch h).mpr ⟨.inr (.inr rfl), fun s₁ h₁ => ?_⟩⟩
  obtain rfl := Option.some.inj h₁
  refine ⟨.inr (.inr (by decide +kernel)), fun s₂ h₂ => ⟨trivial, fun s₃ h₃ => ?_⟩⟩
  obtain rfl := Option.some.inj h₂
  obtain rfl := Option.some.inj h₃
  exact ⟨.inr (.inl (by decide +kernel)), fun _ _ => ⟨trivial, fun _ _ => trivial⟩⟩

/-- A `SetFile` that names a file which cannot be opened, after one that could be read: the entries
are those of the first, the name is that of the second. -/
theorem configFailure_fails :
    let c : ConfigFile := ⟨"server.conf", [("x".toList, "1".toList)]⟩
    (reload oneFile c).1 = true ∧ (reload oneFile c).2.entries = c.entries ∧
      (setFile oneFile "other.conf" c).1 = false ∧
      (setFile oneFile "other.conf" c).2.fileName = "other.conf" ∧
      (setFile oneFile "other.conf" c).2.entries = c.entries ∧
      ¬ Unchanged c (setFile oneFile "other.conf" c).2 := by
  refine ⟨by decide +kernel, by decide +kernel, by decide +kernel, by decide +kernel,
    by decide +kernel, fun h => ?_⟩
  exact absurd h.1 (by decide +kernel)

end SteerStone
