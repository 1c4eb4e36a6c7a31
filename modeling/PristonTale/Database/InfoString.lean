import Mathlib.Data.List.GetD
import Mathlib.Data.List.TakeWhile
import Mathlib.Tactic.Common
import PristonTale.Common.Tokenizer
import PristonTale.Database.Database

set_option relaxedAutoImplicit false
set_option autoImplicit false

/-!
# Database info strings

`CreateDatabase` takes the host, the port, the username, the password and the database from the
tokens of its info string, by their position. `StrSplit` leaves empty tokens out, so an empty field
moves the fields behind it one position to the front: with an empty password the name of the
database becomes the password, and the database is registered without a name.

## Main definitions

* `SteerStone.infoString` — the info string of five fields.
* `SteerStone.StoresFields` — `CreateDatabase` stores five values and registers the database.

## Main results

* `SteerStone.strSplit_infoString` — the tokens are the fields that are not empty.
* `SteerStone.createDatabase_result_iff` — `CreateDatabase` returns true exactly when the driver
  never throws.
* `SteerStone.storesFields_iff` — the fields are stored exactly when no empty field comes before
  one that is not, and none has a zero character.
-/

namespace SteerStone

open Foundations

variable {driver : SqlDriver}

/-- The info string of five fields, as the configuration file describes it. -/
def infoString (host port user password database : String) : String :=
  ";".intercalate [host, port, user, password, database]

/-- `CreateDatabase`, given the info string of five fields, returns true and registers a holder with
these values in its members under the name of the database, whatever is registered before. -/
def StoresFields (driver : SqlDriver) (poolSize : ℕ) (host port user password database : String) :
    Prop :=
  ∀ cont : DatabaseMap,
    let creation := Database.createDatabase driver
      (cStr (infoString host port user password database)) poolSize cont
    creation.result = some true ∧ ∃ holder : DatabaseHolder,
      creation.databaseCont = Function.update cont database (some holder) ∧
      holder.host = host ∧ holder.port = port ∧ holder.username = user ∧
      holder.password = password ∧ holder.database = database

/-! ## What is created -/

/-- The loop of the constructor ends when the driver does not throw. -/
lemma fill_of_not_throws {n : ℕ} {m : MySQLConnection} (pool : List Connection)
    (h : ∀ i, m.created ≤ i → i < m.created + n → ¬ driver.Throws m i) :
    ∃ r, ConnectionPool.fill driver n m pool = .ok r := by
  induction n generalizing m pool with
  | zero => exact ⟨_, rfl⟩
  | succ n ih =>
    have hc := createDatabase_of_not_throws (h m.created (Nat.le_refl _) (by omega))
    set m₁ : MySQLConnection :=
      { m with connection := some ⟨m.created, true⟩, created := m.created + 1 } with hm₁
    have hafter : ∀ i, m₁.created ≤ i → i < m₁.created + n → ¬ driver.Throws m₁ i := by
      intro i hi hlt
      have hi' : m.created + 1 ≤ i := hi
      have hlt' : i < m.created + 1 + n := hlt
      exact h i (by omega) (by omega)
    obtain ⟨r, hr⟩ := ih (pool ++ [⟨m.created, true⟩]) hafter
    refine ⟨r, ?_⟩
    simp only [ConnectionPool.fill, hc]
    exact hr

/-- **`CreateDatabase` returns true** exactly when the driver throws for none of the connections. -/
theorem createDatabase_result_iff (driver : SqlDriver) (info : String) (n : ℕ)
    (cont : DatabaseMap) :
    (Database.createDatabase driver info n cont).result = some true ↔
      ∀ i < n, ¬ driver.Throws (infoConnection info) i := by
  constructor
  · intro htrue i hi hthrows
    -- The first connection for which the driver throws ends the constructor.
    have hex : ∃ k, driver.Throws (infoConnection info) k := ⟨i, hthrows⟩
    classical
    have hk : Nat.find hex < n := Nat.lt_of_le_of_lt (Nat.find_le hthrows) hi
    have hcreation := createDatabase_of_throws hk (fun j hj => Nat.find_min hex hj)
      (Nat.find_spec hex) cont
    rw [hcreation] at htrue
    dsimp only at htrue
    split_ifs at htrue
    simp at htrue
  · intro h
    have hcreated : (infoConnection info).created = 0 := rfl
    obtain ⟨r, hr⟩ := fill_of_not_throws (n := n) (m := infoConnection info) []
      fun i _ hi => h i (by omega)
    have hnew : ConnectionPool.new driver (infoConnection info) n = .ok ⟨r.1, r.2, [], n⟩ := by
      rw [ConnectionPool.new, hr]
      rfl
    simp only [Database.createDatabase, hnew]

/-! ## The tokens of an info string -/

/-- A text without a zero character is what a `char const*` gives of it. -/
lemma cStr_of_not_mem {s : String} (h : '\x00' ∉ s.toList) : cStr s = s := by
  have hall : ∀ c ∈ s.toList, decide (c ≠ '\x00') = true := fun c hc =>
    decide_eq_true fun heq => h (heq ▸ hc)
  rw [cStr, List.takeWhile_eq_self_iff.mpr hall, String.ofList_toList]

/-- The tokens of a text have no zero character when the text is made from a `char const*`. -/
lemma not_mem_token (s separator : String) :
    ∀ token ∈ strSplit (cStr s) separator, '\x00' ∉ token.toList := by
  intro token htoken hmem
  have hjoin : '\x00' ∈ ((strSplit (cStr s) separator).map String.toList).flatten :=
    List.mem_flatten_of_mem (List.mem_map_of_mem htoken) hmem
  rw [(strSplit_runs _ _).flatten_eq, cStr, String.toList_ofList] at hjoin
  have hkept := List.mem_takeWhile_imp (List.mem_filter.mp hjoin).1
  simp at hkept

/-- **The tokens of an info string** are the fields that are not empty. -/
theorem strSplit_infoString {fields : List String}
    (hsemi : ∀ field ∈ fields, ';' ∉ field.toList) :
    strSplit (";".intercalate fields) ";" = fields.filter (· ≠ "") := by
  have hsep : ∀ d, d ∈ ";".toList ↔ d = ';' := fun d => by simp
  refine strSplit_intercalate (c := ';') ((hsep _).mpr rfl) fun field hfield d hd hmem => ?_
  exact hsemi field hfield ((hsep d).mp hmem ▸ hd)

/-- An info string has a zero character only when a field has one. -/
lemma not_mem_infoString {fields : List String} (hsemi : ∀ field ∈ fields, ';' ∉ field.toList)
    (hzero : ∀ field ∈ fields, '\x00' ∉ field.toList) :
    '\x00' ∉ (";".intercalate fields).toList := by
  intro hmem
  have hkept : '\x00' ∈ (";".intercalate fields).toList.filter fun c => !isSeparator ";" c :=
    List.mem_filter.mpr ⟨hmem, by decide⟩
  rw [← (strSplit_runs _ ";").flatten_eq, strSplit_infoString hsemi] at hkept
  obtain ⟨field, hfield, hin⟩ := List.mem_flatten.mp hkept
  obtain ⟨f, hf, rfl⟩ := List.mem_map.mp hfield
  exact hzero f (List.mem_of_mem_filter hf) hin

/-- The elements that are not empty move to the front when an empty one is left out before them, so
they stay where they stood only when there are none. -/
lemma getD_filter_empty_cons_iff (rest : List String) :
    (∀ i, (rest.filter (· ≠ "")).getD i "" = ("" :: rest).getD i "") ↔ ∀ g ∈ rest, g = "" := by
  constructor
  · intro h
    have hnil : rest.filter (· ≠ "") = [] := by
      cases hrest : rest.filter (· ≠ "") with
      | nil => rfl
      | cons g gs =>
        -- The first of them would stand where the empty one stood.
        have hg : g ∈ rest.filter (· ≠ "") := hrest ▸ List.mem_cons_self
        have hfirst := h 0
        rw [hrest, List.getD_cons_zero, List.getD_cons_zero] at hfirst
        exact absurd hfirst (by simpa using (List.mem_filter.mp hg).2)
    simpa using hnil
  · intro hall i
    have hnil : rest.filter (· ≠ "") = [] := by simpa using hall
    rw [hnil]
    cases i with
    | zero => rfl
    | succ i =>
      rw [List.getD_nil, List.getD_cons_succ, List.getD_eq_getElem?_getD]
      cases hg : rest[i]? with
      | none => rfl
      | some g => exact (hall g (List.mem_of_getElem? hg)).symm

/-- The elements of a list that are not empty stand where they stood exactly when no empty one comes
before one that is not.

**Proof sketch.** Induction on the list. An element that is not empty stays the first; behind an
empty one there must be none that is not (`getD_filter_empty_cons_iff`). -/
lemma getD_filter_eq_iff (fields : List String) :
    (∀ i, (fields.filter (· ≠ "")).getD i "" = fields.getD i "") ↔
      fields.Pairwise fun f g => f = "" → g = "" := by
  induction fields with
  | nil => simp
  | cons f rest ih =>
    rw [List.pairwise_cons]
    by_cases hf : f = ""
    · subst hf
      have hkept : ("" :: rest).filter (· ≠ "") = rest.filter (· ≠ "") := by simp
      rw [hkept, getD_filter_empty_cons_iff]
      constructor
      · intro hall
        refine ⟨fun g hg _ => hall g hg, ?_⟩
        exact List.pairwise_of_forall_mem_list fun f _ g hg _ => hall g hg
      · exact fun h g hg => h.1 g hg rfl
    · have hkept : (f :: rest).filter (· ≠ "") = f :: rest.filter (· ≠ "") := by simp [hf]
      rw [hkept, ← ih]
      constructor
      · exact fun h => ⟨fun g _ hfe => absurd hfe hf, fun i => h (i + 1)⟩
      · rintro ⟨-, h⟩ i
        cases i with
        | zero => rfl
        | succ i => exact h i

/-! ## The fields -/

/-- The first five tokens of an info string are these values. -/
def TokensAre (info host port user password database : String) : Prop :=
  ∀ i < 5, (strSplit info ";").getD i "" = [host, port, user, password, database].getD i ""

/-- The connections are made with the tokens. -/
lemma TokensAre.infoConnection_eq {info host port user password database : String}
    (h : TokensAre info host port user password database) :
    infoConnection info = .new user password database host port := by
  have h0 := h 0 (by decide)
  have h1 := h 1 (by decide)
  have h2 := h 2 (by decide)
  have h3 := h 3 (by decide)
  have h4 := h 4 (by decide)
  simp only [infoConnection, h0, h1, h2, h3, h4, List.getD_cons_zero, List.getD_cons_succ]

/-- The values of a holder that is made from the tokens are the first five tokens. -/
lemma tokensAre_iff {info host port user password database : String} {holder : DatabaseHolder}
    (hhost : holder.host = (strSplit info ";").getD 0 "")
    (hport : holder.port = (strSplit info ";").getD 1 "")
    (huser : holder.username = (strSplit info ";").getD 2 "")
    (hpassword : holder.password = (strSplit info ";").getD 3 "")
    (hdatabase : holder.database = (strSplit info ";").getD 4 "") :
    TokensAre info host port user password database ↔
      holder.host = host ∧ holder.port = port ∧ holder.username = user ∧
        holder.password = password ∧ holder.database = database := by
  rw [hhost, hport, huser, hpassword, hdatabase]
  constructor
  · exact fun h => ⟨h 0 (by decide), h 1 (by decide), h 2 (by decide), h 3 (by decide),
      h 4 (by decide)⟩
  · rintro ⟨h0, h1, h2, h3, h4⟩ i hi
    match i, hi with
    | 0, _ => exact h0
    | 1, _ => exact h1
    | 2, _ => exact h2
    | 3, _ => exact h3
    | 4, _ => exact h4

/-- What is stored is what stands at the positions of the tokens.

**Proof sketch.** Where nothing is registered before, the holder registered is the one that has been
created (`holder_of_created`), and its members are the tokens (`tokensAre_iff`). -/
lemma storesFields_iff_tokensAre {n : ℕ} {host port user password database : String} :
    StoresFields driver n host port user password database ↔
      (∀ i < n, ¬ driver.Throws (.new user password database host port) i) ∧
      TokensAre (cStr (infoString host port user password database)) host port user password
        database := by
  unfold StoresFields
  dsimp only
  generalize cStr (infoString host port user password database) = info
  constructor
  · intro h
    obtain ⟨htrue, holder, hcont, hfields⟩ := h fun _ => none
    obtain ⟨created, hcreated, h0, h1, h2, h3, h4⟩ := holder_of_created htrue
    have hsame : created = holder := by
      have hat := congrFun (hcreated.symm.trans hcont) database
      rw [Function.update_self, Function.update_apply] at hat
      split_ifs at hat
      exact Option.some.inj hat
    subst hsame
    have htokens := (tokensAre_iff h0 h1 h2 h3 h4).mpr hfields
    have hthrows := (createDatabase_result_iff driver info n _).mp htrue
    rw [htokens.infoConnection_eq] at hthrows
    exact ⟨hthrows, htokens⟩
  · rintro ⟨hthrows, htokens⟩ cont
    rw [← htokens.infoConnection_eq] at hthrows
    have htrue := (createDatabase_result_iff driver info n cont).mpr hthrows
    obtain ⟨holder, hcont, h0, h1, h2, h3, h4⟩ := holder_of_created htrue
    have hfields := (tokensAre_iff h0 h1 h2 h3 h4).mp htokens
    rw [hfields.2.2.2.2] at hcont
    exact ⟨htrue, holder, hcont, hfields⟩

/-- The tokens of an info string are its fields exactly when no field has a zero character and no
empty one comes before one that is not.

**Proof sketch.** No token has a zero character (`not_mem_token`). Without one, the tokens are the
fields that are not empty (`strSplit_infoString`), and these stand where they stood exactly when no
empty field is left out before one of them (`getD_filter_eq_iff`). -/
lemma tokensAre_infoString_iff {host port user password database : String}
    (hsemi : ∀ field ∈ [host, port, user, password, database], ';' ∉ field.toList) :
    TokensAre (cStr (infoString host port user password database)) host port user password
        database ↔
      (∀ field ∈ [host, port, user, password, database], '\x00' ∉ field.toList) ∧
      [host, port, user, password, database].Pairwise fun f g => f = "" → g = "" := by
  unfold TokensAre infoString
  have hlength : [host, port, user, password, database].length = 5 := rfl
  generalize [host, port, user, password, database] = fields at hsemi hlength ⊢
  have htokens := strSplit_infoString hsemi
  have hbeyond : ∀ i, ¬ i < 5 → (fields.filter (· ≠ "")).getD i "" = fields.getD i "" := by
    intro i hi
    have hle := List.length_filter_le (· ≠ "") fields
    rw [List.getD_eq_default _ _ (by omega), List.getD_eq_default _ _ (by omega)]
  constructor
  · intro h
    have hzero : ∀ field ∈ fields, '\x00' ∉ field.toList := by
      intro field hfield
      obtain ⟨i, hi, rfl⟩ := List.getElem_of_mem hfield
      have heq := h i (by omega)
      rw [List.getD_eq_getElem _ _ hi] at heq
      rw [← heq, List.getD_eq_getElem?_getD]
      cases htoken : (strSplit (cStr (";".intercalate fields)) ";")[i]? with
      | none => simp
      | some token => exact not_mem_token _ _ token (List.mem_of_getElem? htoken)
    refine ⟨hzero, (getD_filter_eq_iff fields).mp fun i => ?_⟩
    by_cases hi : i < 5
    · rw [← htokens, ← h i hi, cStr_of_not_mem (not_mem_infoString hsemi hzero)]
    · exact hbeyond i hi
  · rintro ⟨hzero, hpairwise⟩ i -
    rw [cStr_of_not_mem (not_mem_infoString hsemi hzero), htokens]
    exact (getD_filter_eq_iff fields).mpr hpairwise i

/-- **The fields of an info string, exactly.** For every driver, every pool size and every five
fields without a semicolon: `CreateDatabase` returns true with these values stored and the database
registered under its name, if and only if the driver throws for none of the connections with these
values, no field has a zero character and no empty field comes before one that is not empty.

**Proof sketch.** The tokens are the fields that are not empty (`strSplit_infoString`), so each
stands at its position exactly when no empty one is left out before it (`getD_filter_eq_iff`). A
zero character ends the info string, and no token has one (`not_mem_token`). -/
theorem storesFields_iff (driver : SqlDriver) (n : ℕ) {host port user password database : String}
    (hsemi : ∀ field ∈ [host, port, user, password, database], ';' ∉ field.toList) :
    StoresFields driver n host port user password database ↔
      (∀ i < n, ¬ driver.Throws (.new user password database host port) i) ∧
      (∀ field ∈ [host, port, user, password, database], '\x00' ∉ field.toList) ∧
      [host, port, user, password, database].Pairwise fun f g => f = "" → g = "" := by
  rw [storesFields_iff_tokensAre, tokensAre_infoString_iff hsemi]

/-- The info string as it is shipped. -/
theorem storesFields_shipped :
    StoresFields .reliable 10 "127.0.0.1" "3306" "quad" "quad" "habbo" :=
  (storesFields_iff .reliable 10 (by decide)).mpr
    ⟨fun i _ => by simp [SqlDriver.Throws, SqlDriver.reliable], by decide, by decide⟩

/-- An account without a password: the name of the database is stored as the password, and the
database is registered without a name. -/
theorem storesFields_fails :
    (∀ field ∈ ["127.0.0.1", "3306", "root", "", "auth"], ';' ∉ field.toList) ∧
    (∃ holder : DatabaseHolder,
      (Database.createDatabase .reliable
        (cStr (infoString "127.0.0.1" "3306" "root" "" "auth")) 10 fun _ => none).databaseCont =
          Function.update (fun _ => none) "" (some holder) ∧
      holder.password = "auth" ∧ holder.database = "") ∧
    ¬ StoresFields .reliable 10 "127.0.0.1" "3306" "root" "" "auth" := by
  have htokens : strSplit (cStr (infoString "127.0.0.1" "3306" "root" "" "auth")) ";" =
      ["127.0.0.1", "3306", "root", "auth"] := by decide +kernel
  refine ⟨by decide, ?_, fun h => ?_⟩
  · have htrue := (createDatabase_result_iff .reliable
      (cStr (infoString "127.0.0.1" "3306" "root" "" "auth")) 10 fun _ => none).mpr
      fun i _ => by simp [SqlDriver.Throws, SqlDriver.reliable]
    obtain ⟨holder, hcont, -, -, -, hpassword, hdatabase⟩ := holder_of_created htrue
    rw [htokens] at hpassword hdatabase
    rw [show holder.database = "" from hdatabase] at hcont
    exact ⟨holder, hcont, hpassword, hdatabase⟩
  · have hat := (storesFields_iff_tokensAre.mp h).2 3 (by decide)
    rw [htokens] at hat
    exact absurd hat (by decide)

end SteerStone
