import PristonTale.Auth.LoginEvents

set_option relaxedAutoImplicit false
set_option autoImplicit false

/-!
# The fields of a login packet

Whether the texts that `HandleLoginUser` takes from `UserID` and `Password` stay inside these
fields. Each text ends at the first NUL from the start of its field on, wherever that is, so it
does exactly when the client put a NUL in the field.

## Main definitions

* `SteerStone.LoginPacket` — the memory of a packet of full size; `userIDField` and
  `passwordField` are the 32 bytes of the two fields.
* `SteerStone.hashedText` — the text whose hash is compared with the account table.
* `SteerStone.LoginPacket.NameDetermined`, `SteerStone.LoginPacket.HashDetermined`,
  `SteerStone.LoginPacket.Confined` — what is confined, between any two packets.

## Main results

* `SteerStone.LoginPacket.nameDetermined_iff`, `SteerStone.LoginPacket.hashDetermined_iff` — the
  fields decide the user name, and the text hashed, exactly when a NUL ends the last of them.
* `SteerStone.LoginPacket.confined_iff` — the exact condition for both texts to be confined.
-/

namespace SteerStone

open Foundations

/-- The memory of a login packet that was received in full: it holds all of `PacketLoginUser`. -/
structure LoginPacket where
  /-- The memory from the first byte of the packet upward. -/
  memory : List UInt8
  /-- The packet is not cut short. -/
  full : packetLoginUser.sizeof ≤ memory.length

/-- The text that `HandleLoginUser` hashes: user name and password in upper case, with a colon
between them. -/
def hashedText (packet : List UInt8) : Option (List UInt8) := do
  let user ← userID packet
  let pass ← password packet
  return toUpper (user ++ [58] ++ pass)

/-- What `HandleLoginUser` does once an account was selected starts by hashing that text. -/
lemma checkPassword_eq (env : Environment) (packet : List UInt8) (db : QueryDatabase) :
    checkPassword env packet db = (do
      let text ← orStop .fault (hashedText packet)
      let hash ← orStop .fault (calculateSHA1Hash env.sha1 text)
      let shaPass ← Result.getString env.driver db.fetch 3
      if hash ≠ shaPass then
        let login := accountLogin (env.stale .incorrectPassword) .incorrectPassword
        sendPacket packetAccountLoginCode.sizeof login (login.load 2 PacketStruct.length)
      else answerLogin env db db.fetch) := by
  cases hu : userID packet with
  | none => simp [checkPassword, hashedText, hu]
  | some user =>
    cases hp : password packet with
    | none => simp [checkPassword, hashedText, hu, hp]
    | some pass => simp [checkPassword, hashedText, hu, hp]

namespace LoginPacket

/-- `UserID`, all 32 bytes. -/
def userIDField (packet : LoginPacket) : List UInt8 :=
  (packet.memory.drop PacketLoginUser.userID).take 32

/-- `Password`, all 32 bytes. -/
def passwordField (packet : LoginPacket) : List UInt8 :=
  (packet.memory.drop PacketLoginUser.password).take 32

/-- The user name that is bound in the first statement is the same for all packets with the same
`UserID`. -/
def NameDetermined (packet : LoginPacket) : Prop :=
  ∀ other : LoginPacket, other.userIDField = packet.userIDField → ∀ env user,
    .executeQuery selectAccount [(1, .string user)] ∈ (handleLoginUser env other.memory).events 0 ↔
      .executeQuery selectAccount [(1, .string user)] ∈ (handleLoginUser env packet.memory).events 0

/-- The text hashed is the same for all packets with the same `UserID` and the same `Password`. -/
def HashDetermined (packet : LoginPacket) : Prop :=
  ∀ other : LoginPacket, other.userIDField = packet.userIDField →
    other.passwordField = packet.passwordField →
      hashedText other.memory = hashedText packet.memory

/-- What is taken from `UserID` and from `Password` is decided by the field, and fits in it. -/
structure Confined (packet : LoginPacket) : Prop where
  /-- The user name that is bound. -/
  name : packet.NameDetermined
  /-- The text that is hashed. -/
  hash : packet.HashDetermined
  /-- The text taken from `UserID` is no longer than the field. -/
  name_le : ∀ user, userID packet.memory = some user → user.length ≤ 32
  /-- The text taken from `Password` is the same for all packets with the same `Password`. -/
  password : ∀ other : LoginPacket, other.passwordField = packet.passwordField →
    password other.memory = password packet.memory
  /-- The text taken from `Password` is no longer than the field. -/
  password_le : ∀ pass, SteerStone.password packet.memory = some pass → pass.length ≤ 32

variable {packet : LoginPacket}

/-- The memory from `UserID` on is the field and what follows it. -/
lemma drop_userID (packet : LoginPacket) : packet.memory.drop PacketLoginUser.userID =
    packet.userIDField ++ packet.memory.drop PacketLoginUser.password := by
  have hrest : packet.memory.drop PacketLoginUser.password =
      (packet.memory.drop PacketLoginUser.userID).drop 32 := by rw [List.drop_drop]; rfl
  rw [userIDField, hrest, List.take_append_drop]

/-- The memory from `Password` on is the field and what follows it. -/
lemma drop_password (packet : LoginPacket) : packet.memory.drop PacketLoginUser.password =
    packet.passwordField ++ packet.memory.drop 84 := by
  have hrest : packet.memory.drop 84 =
      (packet.memory.drop PacketLoginUser.password).drop 32 := by rw [List.drop_drop]; rfl
  rw [passwordField, hrest, List.take_append_drop]

/-- A packet is long enough for its `UserID`. -/
lemma length_userIDField (packet : LoginPacket) : packet.userIDField.length = 32 := by
  have hfull := packet.full
  rw [layout_packetLoginUser.2] at hfull
  simp only [userIDField, PacketLoginUser.userID, List.length_take, List.length_drop]
  omega

/-- A packet is long enough for its `Password`. -/
lemma length_passwordField (packet : LoginPacket) : packet.passwordField.length = 32 := by
  have hfull := packet.full
  rw [layout_packetLoginUser.2] at hfull
  simp only [passwordField, PacketLoginUser.password, List.length_take, List.length_drop]
  omega

/-! ## Fields with a NUL -/

/-- The text of a `UserID` that holds a NUL is that of the field. -/
lemma userID_of_mem (h : 0 ∈ packet.userIDField) :
    userID packet.memory = cString packet.userIDField := by
  rw [userID, drop_userID, cString_append_of_mem h]

/-- The text of a `Password` that holds a NUL is that of the field. -/
lemma password_of_mem (h : 0 ∈ packet.passwordField) :
    SteerStone.password packet.memory = cString packet.passwordField := by
  rw [SteerStone.password, drop_password, cString_append_of_mem h]

/-- The text of a `UserID` without a NUL goes on with that of `Password`. -/
lemma userID_of_notMem (h : 0 ∉ packet.userIDField) : userID packet.memory =
    (SteerStone.password packet.memory).map (packet.userIDField ++ ·) := by
  rw [userID, drop_userID, cString_append_of_notMem h]
  rfl

/-- A text that ends in its field fits in it. -/
lemma length_le_of_cString {field text : List UInt8} (hlen : field.length = 32)
    (h : cString field = some text) : text.length ≤ 32 := by
  have hlt := length_lt_of_cString h
  omega

/-! ## Fields without a NUL -/

/-- The packet with the first `n` bytes as they are, then `b`, and NULs from there on. -/
def continueWith (packet : LoginPacket) (n : ℕ) (b : UInt8) : LoginPacket where
  memory := packet.memory.take n ++ b :: 0 :: List.replicate packetLoginUser.sizeof 0
  full := by
    simp only [List.length_append, List.length_cons, List.length_replicate]
    omega

/-- What follows the first `n` bytes then. -/
lemma drop_continueWith (packet : LoginPacket) {n : ℕ} (hn : n ≤ packetLoginUser.sizeof)
    (b : UInt8) : (packet.continueWith n b).memory.drop n =
      b :: 0 :: List.replicate packetLoginUser.sizeof 0 := by
  have hfull := packet.full
  exact List.drop_left' (by rw [List.length_take, Nat.min_eq_left (by omega)])

/-- A field in the first `n` bytes is as it was. -/
lemma field_continueWith (packet : LoginPacket) {n k : ℕ} (hn : n ≤ packetLoginUser.sizeof)
    (b : UInt8) (hk : k + 32 ≤ n) : ((packet.continueWith n b).memory.drop k).take 32 =
      (packet.memory.drop k).take 32 := by
  have hfull := packet.full
  have hlen : (packet.memory.take n).length = n := by
    rw [List.length_take, Nat.min_eq_left (by omega)]
  rw [continueWith, List.drop_append_of_le_length (by omega),
    List.take_append_of_le_length (by rw [List.length_drop]; omega), List.drop_take,
    List.take_take, Nat.min_eq_left (by omega)]

/-- A field without a NUL in front of `b` is the text if `b` is NUL. -/
lemma cString_of_zero {field : List UInt8} (h : 0 ∉ field) (rest : List UInt8) :
    cString (field ++ 0 :: 0 :: rest) = some field :=
  cString_append_zero h _

/-- A field without a NUL in front of `b` goes on with `b` if that is one. -/
lemma cString_of_one {field : List UInt8} (h : 0 ∉ field) (rest : List UInt8) :
    cString (field ++ 1 :: 0 :: rest) = some (field ++ [1]) := by
  have hmem : 0 ∉ field ++ [1] := by simpa using h
  rw [← List.singleton_append, ← List.append_assoc]
  exact cString_append_zero hmem _

/-- The user name that is bound is the text of `UserID`. -/
lemma bound_iff {env : Environment} {packet user : List UInt8} :
    .executeQuery selectAccount [(1, .string user)] ∈ (handleLoginUser env packet).events 0 ↔
      env.driver.Quiet 0 3 ∧ userID packet = some user := by
  rw [mem_events_handleLoginUser]
  constructor
  · intro h
    generalize he : Event.executeQuery selectAccount [(1, .string user)] = e at h
    cases h with
    | select hq hu =>
      obtain ⟨-, hp⟩ := Event.executeQuery.inj he
      obtain rfl : user = _ := by simpa using hp
      exact ⟨hq, hu⟩
    | update => exact absurd (Event.executeQuery.inj he).1 (by decide)
    | selectRealms => exact absurd (Event.executeQuery.inj he).1 (by decide)
    | incorrectName | incorrectPassword | checkSum | userInfo | serverList => cases he
  · rintro ⟨hq, hu⟩
    exact .select hq hu

/-- **`UserID` decides the user name exactly when** it holds a NUL.

**Proof sketch.** Without a NUL in the field the text goes on: with a NUL after the field it is the
field, and with another byte there it is longer. With one it ends inside the field
(`userID_of_mem`). -/
theorem nameDetermined_iff (packet : LoginPacket) :
    packet.NameDetermined ↔ 0 ∈ packet.userIDField := by
  constructor
  · intro h
    by_contra hnul
    -- the text with a NUL after the field, and with another byte there
    have hsame : ∀ b user, userID (packet.continueWith 52 b).memory = some user ↔
        userID packet.memory = some user := by
      intro b user
      have hbound := h (packet.continueWith 52 b)
        (field_continueWith packet (by decide) b (by decide)) .blank user
      rw [bound_iff, bound_iff] at hbound
      have hq : Environment.blank.driver.Quiet 0 3 := fun _ _ _ => rfl
      simpa only [hq, true_and] using hbound
    have hdrop : ∀ b, (packet.continueWith 52 b).memory.drop PacketLoginUser.userID =
        packet.userIDField ++ b :: 0 :: List.replicate packetLoginUser.sizeof 0 := by
      intro b
      rw [drop_userID, ← drop_continueWith packet (n := 52) (by decide) b]
      congr 1
      exact field_continueWith packet (by decide) b (by decide)
    have hzero : userID (packet.continueWith 52 0).memory =
        some packet.userIDField := by
      rw [userID, hdrop]
      exact cString_of_zero hnul _
    have hone : userID (packet.continueWith 52 1).memory =
        some (packet.userIDField ++ [1]) := by
      rw [userID, hdrop]
      exact cString_of_one hnul _
    have heq := ((hsame 0 _).mp hzero).symm.trans ((hsame 1 _).mp hone)
    simp at heq
  · intro hnul other hfield env user
    have hother : 0 ∈ other.userIDField := hfield ▸ hnul
    rw [bound_iff, bound_iff, userID_of_mem hother, userID_of_mem hnul, hfield]

/-- The text hashed for two packets with the same fields, of which the second has a longer
`Password` text and no shorter `UserID` text, differs. -/
lemma toUpper_ne_of_length {user user' pass pass' : List UInt8} (hu : user.length ≤ user'.length)
    (hp : pass.length < pass'.length) :
    toUpper (user ++ [58] ++ pass) ≠ toUpper (user' ++ [58] ++ pass') := by
  intro heq
  have hlen := congrArg List.length heq
  simp only [toUpper, List.length_map, List.length_append, List.length_singleton] at hlen
  omega

/-- What is hashed when a NUL, and when another byte follows a `Password` without a NUL.

**Proof sketch.** The `Password` text is the field in one case, and the field with that byte in the
other. The `UserID` text is the same in both if that field holds a NUL; if not, it goes on through
the `Password` text (`userID_of_notMem`). -/
lemma hashedText_continueWith (hnul : 0 ∉ packet.passwordField) : ∃ user user' : List UInt8,
    user.length ≤ user'.length ∧
      hashedText (packet.continueWith 84 0).memory =
        some (toUpper (user ++ [58] ++ packet.passwordField)) ∧
      hashedText (packet.continueWith 84 1).memory =
        some (toUpper (user' ++ [58] ++ (packet.passwordField ++ [1]))) := by
  have huser : ∀ b, (packet.continueWith 84 b).userIDField = packet.userIDField := fun b =>
    field_continueWith packet (by decide) b (by decide)
  have hfield : ∀ b, (packet.continueWith 84 b).passwordField = packet.passwordField := fun b =>
    field_continueWith packet (by decide) b (by decide)
  have hdrop : ∀ b, (packet.continueWith 84 b).memory.drop PacketLoginUser.password =
      packet.passwordField ++ b :: 0 :: List.replicate packetLoginUser.sizeof 0 := by
    intro b
    rw [drop_password, drop_continueWith packet (by decide), hfield]
  have hzero : SteerStone.password (packet.continueWith 84 0).memory =
      some packet.passwordField := by
    rw [SteerStone.password, hdrop]
    exact cString_of_zero hnul _
  have hone : SteerStone.password (packet.continueWith 84 1).memory =
      some (packet.passwordField ++ [1]) := by
    rw [SteerStone.password, hdrop]
    exact cString_of_one hnul _
  by_cases hmem : 0 ∈ packet.userIDField
  · have hname : ∀ b, userID (packet.continueWith 84 b).memory =
        some (packet.userIDField.takeWhile (· ≠ 0)) := by
      intro b
      rw [userID_of_mem (by rwa [huser]), huser, cString, if_pos hmem]
    exact ⟨_, _, Nat.le_refl _, by rw [hashedText, hname, hzero]; rfl,
      by rw [hashedText, hname, hone]; rfl⟩
  · have hname : ∀ b, userID (packet.continueWith 84 b).memory =
        (SteerStone.password (packet.continueWith 84 b).memory).map (packet.userIDField ++ ·) := by
      intro b
      rw [userID_of_notMem (by rwa [huser]), huser]
    refine ⟨packet.userIDField ++ packet.passwordField,
      packet.userIDField ++ (packet.passwordField ++ [1]), by simp, ?_, ?_⟩
    · rw [hashedText, hname, hzero]
      rfl
    · rw [hashedText, hname, hone]
      rfl

/-- **The two fields decide the text hashed exactly when** `Password` holds a NUL: a `UserID`
without one is continued by the `Password`, which is the same. -/
theorem hashDetermined_iff (packet : LoginPacket) :
    packet.HashDetermined ↔ 0 ∈ packet.passwordField := by
  constructor
  · intro h
    by_contra hnul
    obtain ⟨user, user', hle, hzero, hone⟩ := hashedText_continueWith hnul
    have hsame : ∀ b, hashedText (packet.continueWith 84 b).memory = hashedText packet.memory :=
      fun b => h _ (field_continueWith packet (by decide) b (by decide))
        (field_continueWith packet (by decide) b (by decide))
    have heq := hzero.symm.trans ((hsame 0).trans ((hsame 1).symm.trans hone))
    exact toUpper_ne_of_length hle (by simp) (Option.some.inj heq)
  · intro hnul other huser hpass
    have hother : 0 ∈ other.passwordField := hpass ▸ hnul
    have hpassword : SteerStone.password other.memory = SteerStone.password packet.memory := by
      rw [password_of_mem hother, password_of_mem hnul, hpass]
    have hname : userID other.memory = userID packet.memory := by
      by_cases hmem : 0 ∈ packet.userIDField
      · rw [userID_of_mem hmem, userID_of_mem (huser ▸ hmem), huser]
      · rw [userID_of_notMem hmem, userID_of_notMem (huser ▸ hmem), huser, hpassword]
    rw [hashedText, hashedText, hname, hpassword]

/-- **Login fields are confined exactly when** the client put a NUL in each of them.

**Proof sketch.** The NULs are what decides the user name and the text hashed
(`nameDetermined_iff`, `hashDetermined_iff`), and a text that ends in its field is no longer than
it. -/
theorem confined_iff (packet : LoginPacket) :
    packet.Confined ↔ 0 ∈ packet.userIDField ∧ 0 ∈ packet.passwordField := by
  constructor
  · intro h
    exact ⟨(nameDetermined_iff packet).mp h.name, (hashDetermined_iff packet).mp h.hash⟩
  · rintro ⟨huser, hpass⟩
    refine ⟨(nameDetermined_iff packet).mpr huser, (hashDetermined_iff packet).mpr hpass,
      ?_, ?_, ?_⟩
    · intro user h
      rw [userID_of_mem huser] at h
      exact length_le_of_cString packet.length_userIDField h
    · intro other hfield
      rw [password_of_mem hpass, password_of_mem (hfield ▸ hpass), hfield]
    · intro pass h
      rw [password_of_mem hpass] at h
      exact length_le_of_cString packet.length_passwordField h

/-- A packet of exactly full size: 32 letters `A` as `UserID`, and `b` as `Password`. -/
def letters (b : UInt8) : LoginPacket where
  memory := leBytes 2 408 ++ [0, 0] ++ leBytes 4 ClientPacketHeader.loginUser.value ++
    List.replicate 12 0 ++ List.replicate 32 65 ++ b :: List.replicate 355 0
  full := by
    rw [layout_packetLoginUser.2]
    simp only [List.length_append, List.length_cons, List.length_replicate, length_leBytes,
      List.length_nil, Nat.reduceAdd, Nat.le_refl]

/-- Its size. -/
lemma length_letters (b : UInt8) : (letters b).memory.length = 408 := by
  simp only [letters, List.length_append, List.length_cons, List.length_replicate, length_leBytes,
    List.length_nil]

/-- The user name bound for a `UserID` of 32 letters goes on with the `Password`. -/
theorem confined_fails : ∃ packet other : LoginPacket,
    packet.memory.length = 408 ∧ other.memory.length = 408 ∧
      other.userIDField = packet.userIDField ∧
      userID packet.memory = some (List.replicate 32 65) ∧
      userID other.memory = some (List.replicate 32 65 ++ [66]) ∧
      ¬ packet.NameDetermined := by
  refine ⟨letters 0, letters 66, length_letters 0, length_letters 66, by decide +kernel,
    by decide +kernel, by decide +kernel, ?_⟩
  rw [nameDetermined_iff]
  decide +kernel

end LoginPacket

end SteerStone
