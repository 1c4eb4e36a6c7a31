import PristonTale.Auth.LoginEvents

set_option relaxedAutoImplicit false
set_option autoImplicit false

/-!
# The list of servers

What is in the `PacketServerList` that a login is answered with. The number of realms decides the
number of rounds of the loop, the field `GameServers` and the field `Length`; the array that the
loop fills has four elements, and the texts are copied without regard to the size of the members
they are copied to, or of the list. What is above the list in the frame is up to the compiler; the
list is right if it is in every frame.

## Main definitions

* `SteerStone.counters` — the indices the loop uses.
* `SteerStone.ServerListCorrect` — the bytes sent are the list of the realms.
* `SteerStone.SendsServerListCorrect` — in every frame, such bytes are sent.

## Main results

* `SteerStone.serversMemory_eq_foldl` — the loop writes one entry for each index.
* `SteerStone.cString_read_strcpy` — a text that was copied is there if its NUL fits.
* `SteerStone.serverListCorrect_iff` — the exact condition for the list to be right.
-/

namespace SteerStone

open Foundations

/-! ## The indices of the loop -/

/-- The values of `l_Counter` in the rounds of the loop, as many as there are rows. -/
def counters : List Row → ℕ → List ℕ
  | [], _ => []
  | _ :: rows, counter => counter :: counters rows ((counter + 1) % 2 ^ 16)

/-- **The loop writes the entries `ServersStruct[counter]`** for these values, each from its row. -/
theorem serversMemory_eq_foldl (row : Row) (rest : List Row) (counter : ℕ) (mem : Memory) :
    serversMemory row rest counter mem =
      ((row :: rest).zip (counters (row :: rest) counter)).foldl
        (fun mem x => serverMemory x.1 x.2 mem) mem := by
  induction rest generalizing row counter mem with
  | nil => rfl
  | cons next rest ih =>
    rw [serversMemory, ih]
    rfl

/-- The indices count up, modulo `2 ^ 16`. -/
lemma counters_eq {counter : ℕ} (h : counter < 2 ^ 16) (rows : List Row) : counters rows counter =
    (List.range rows.length).map fun i => (counter + i) % 2 ^ 16 := by
  induction rows generalizing counter with
  | nil => rfl
  | cons row rows ih =>
    rw [counters, ih (Nat.mod_lt _ (by decide)), List.length_cons, List.range_succ_eq_map,
      List.map_cons, List.map_map]
    refine List.cons_eq_cons.mpr ⟨by omega, List.map_congr_left fun i _ => ?_⟩
    simp only [Function.comp_apply]
    omega

/-- All indices are inside the array exactly when there are at most four rows. -/
lemma counters_lt_iff (rows : List Row) : (∀ c ∈ counters rows 0, c < 4) ↔ rows.length ≤ 4 := by
  rw [counters_eq (by decide)]
  simp only [List.mem_map, List.mem_range, forall_exists_index, and_imp,
    forall_apply_eq_imp_iff₂]
  constructor
  · intro h
    by_contra hlt
    have hfour := h 4 (by omega)
    omega
  · intro h i hi
    omega

/-! ## Texts that were copied -/

/-- **A text that was copied** is found where it was copied to if it ends within the `w` bytes
there; otherwise these bytes hold no NUL. -/
theorem cString_read_strcpy (mem : Memory) (offset w : ℕ) {text : List UInt8} (h : 0 ∉ text) :
    cString ((strcpy mem offset text).read offset w) =
      if text.length < w then some text else none := by
  have hread : (strcpy mem offset text).read offset (text.length + 1) = text ++ [0] := by
    have hwrite := mem.read_write offset (text ++ [0])
    rwa [List.length_append, List.length_singleton] at hwrite
  by_cases hlt : text.length < w
  · obtain ⟨k, rfl⟩ : ∃ k, w = text.length + 1 + k := ⟨w - (text.length + 1), by omega⟩
    rw [Memory.read_add, hread, List.append_assoc, if_pos hlt]
    exact cString_append_zero h _
  · have htake := (strcpy mem offset text).take_drop_read offset (k := 0) (m := w)
      (n := text.length + 1) (by omega)
    rw [List.drop_zero, hread, List.take_append_of_le_length (by omega)] at htake
    have hnul : 0 ∉ text.take w := fun hmem => h (List.mem_of_mem_take hmem)
    rw [Nat.add_zero] at htake
    rw [← htake, cString, if_neg hnul, if_neg hlt]

/-- Reading below the destination of `strcpy`. -/
lemma read_strcpy_of_le (mem : Memory) {offset offset' n : ℕ} {text : List UInt8}
    (h : offset' + n ≤ offset) : (strcpy mem offset text).read offset' n = mem.read offset' n :=
  mem.read_write_of_disjoint (.inl h)

/-- Reading below a number that was stored. -/
lemma read_store_of_le (mem : Memory) {offset offset' n w v : ℕ} (h : offset' + n ≤ offset) :
    (mem.store w offset v).read offset' n = mem.read offset' n :=
  mem.read_store_of_disjoint (.inl h)

/-- The name in an entry, once it is written. -/
lemma cString_name_serverMemory (row : Row) (counter : ℕ) (mem : Memory) :
    cString ((serverMemory row counter mem).read (PacketServerList.name counter) 32) =
      if (row.text 5).length < 32 then some (row.text 5) else none := by
  rw [← cString_read_strcpy mem (PacketServerList.name counter) 32 (row.zero_notMem_text 5)]
  simp only [serverMemory, PacketServerList.name, PacketServerList.ip, PacketServerList.port]
  simp (disch := omega) only [read_store_of_le, read_strcpy_of_le]

/-- The addresses in an entry, once they are written. -/
lemma cString_ip_serverMemory (row : Row) (counter : ℕ) (mem : Memory) {j : ℕ} (hj : j < 3) :
    cString ((serverMemory row counter mem).read (PacketServerList.ip counter j) 20) =
      if (row.text 2).length < 20 then some (row.text 2) else none := by
  have htext := row.zero_notMem_text 2
  obtain rfl | rfl | rfl : j = 0 ∨ j = 1 ∨ j = 2 := by omega
  all_goals
    simp only [serverMemory, PacketServerList.ip, PacketServerList.port]
    simp (disch := omega) only [read_store_of_le, read_strcpy_of_le]
    exact cString_read_strcpy _ _ 20 htext

/-- The loop writes from the entry of its first index upward only, if the index does not wrap. -/
lemma serversMemory_of_lt_name {i counter : ℕ} {rest : List Row} {row : Row} {mem : Memory}
    (hi : i < PacketServerList.name counter) (hwrap : counter + rest.length < 2 ^ 16) :
    serversMemory row rest counter mem i = mem i := by
  induction rest generalizing row counter mem with
  | nil => exact serverMemory_of_lt hi row mem
  | cons next rest ih =>
    rw [List.length_cons] at hwrap
    have hnext : (counter + 1) % 2 ^ 16 = counter + 1 := Nat.mod_eq_of_lt (by omega)
    have hup : i < PacketServerList.name (counter + 1) := by
      simp only [PacketServerList.name, PacketServerList.serverSize] at hi ⊢
      omega
    rw [serversMemory, hnext, ih hup (by omega), serverMemory_of_lt hi]

/-- **The entry of a row** is the one that its own round wrote: the rounds before it write other
entries, or memory that this round writes again, and the rounds after it write further up. -/
theorem read_serversMemory {realm row : Row} {rest : List Row} {i : ℕ} (counter : ℕ) (mem : Memory)
    (hi : (row :: rest)[i]? = some realm) (hwrap : counter + rest.length < 2 ^ 16) :
    ∃ mem', ∀ offset n, offset + n ≤ PacketServerList.name (counter + i + 1) →
      PacketServerList.name (counter + i) ≤ offset →
      (serversMemory row rest counter mem).read offset n =
        (serverMemory realm (counter + i) mem').read offset n := by
  induction rest generalizing row counter mem i with
  | nil =>
    obtain ⟨rfl, rfl⟩ : i = 0 ∧ row = realm := by
      cases i with
      | zero => simpa using hi
      | succ i => simp at hi
    exact ⟨mem, fun _ _ _ _ => rfl⟩
  | cons next rest ih =>
    rw [List.length_cons] at hwrap
    have hnext : (counter + 1) % 2 ^ 16 = counter + 1 := Nat.mod_eq_of_lt (by omega)
    cases i with
    | zero =>
      obtain rfl : row = realm := by simpa using hi
      refine ⟨mem, ?_⟩
      intro offset n hle _
      rw [Nat.add_zero] at hle
      rw [serversMemory, hnext]
      refine List.map_congr_left fun k hk => ?_
      have hk' := List.mem_range.mp hk
      exact serversMemory_of_lt_name (by omega) (by omega)
    | succ i =>
      have hi' : (next :: rest)[i]? = some realm := by simpa using hi
      obtain ⟨mem', h⟩ := ih (counter + 1) (serverMemory row counter mem) hi' (by omega)
      refine ⟨mem', ?_⟩
      intro offset n hle hge
      rw [serversMemory, hnext, show counter + (i + 1) = counter + 1 + i by omega]
      exact h offset n (by rwa [show counter + 1 + i + 1 = counter + (i + 1) + 1 by omega])
        (by rwa [show counter + 1 + i = counter + (i + 1) by omega])

/-! ## The list as it is sent -/

/-- `Length` in the bytes sent. -/
def sentLength (bytes : List UInt8) : ℕ := leNat (bytes.take 2)

/-- `GameServers` in the bytes sent. -/
def sentGameServers (bytes : List UInt8) : ℕ :=
  leNat ((bytes.drop PacketServerList.gameServers).take 4)

/-- The text in a member of `w` bytes of the bytes sent. -/
def sentText (bytes : List UInt8) (offset w : ℕ) : Option (List UInt8) :=
  cString ((bytes.drop offset).take w)

/-- The bytes sent are the list of the realms. -/
structure ServerListCorrect (realms : List Row) (bytes : List UInt8) : Prop where
  /-- Only elements of `ServersStruct` are written. -/
  inside : ∀ c ∈ counters realms 0, c < 4
  /-- `GameServers` is the number of entries written. -/
  gameServers : sentGameServers bytes = (counters realms 0).length
  /-- `Length` is the size of the members in use. -/
  length : sentLength bytes = packetStruct.sizeof + packetServerListHeader.sizeof +
    sentGameServers bytes * packetServerListServer.sizeof
  /-- `Length` is the number of bytes sent. -/
  sent : sentLength bytes = bytes.length
  /-- An entry carries the name of its realm. -/
  name : ∀ (i : ℕ) (realm : Row), realms[i]? = some realm →
    sentText bytes (PacketServerList.name i) 32 = some (realm.text 5)
  /-- An entry carries the address of its realm, three times. -/
  address : ∀ (i : ℕ) (realm : Row), realms[i]? = some realm → ∀ j < 3,
    sentText bytes (PacketServerList.ip i j) 20 = some (realm.text 2)

variable {env : Environment} {packet bytes : List UInt8} {realm : Row} {realms : List Row}

/-- **A login sends the right list of servers**: whatever the frame has to spare above the list, the
list is sent, and its bytes are the list of the realms. -/
def SendsServerListCorrect (env : Environment) (packet : List UInt8) : Prop :=
  ∀ spare, ∃ length bytes, .send packetServerList.sizeof length bytes ∈ (handleLoginUser
      (env.withSpare (Function.update env.spare .serverList spare)) packet).events 0 ∧
    ServerListCorrect (realmRows env) bytes

/-- The list of servers that a login sends is that of the realms, and did no harm to the frame. -/
lemma eq_serverList_of_sent {length : ℕ}
    (h : .send packetServerList.sizeof length bytes ∈ (handleLoginUser env packet).events 0) :
    ∃ realm realms, realmRows env = realm :: realms ∧ ListFits env realm realms ∧ bytes =
      (serverList env realm realms).read 0 ((44 + 108 * (realms.length + 1)) % 2 ^ 16) := by
  rw [mem_events_handleLoginUser, layout_packetServerList.2] at h
  generalize he : Event.send 476 length bytes = e at h
  cases h with
  | @serverList _ realm _ realms _ hr _ _ hlist =>
    exact ⟨realm, realms, hr, hlist, (Event.send.inj he).2.2⟩
  | incorrectName | incorrectPassword | checkSum | userInfo =>
    exact absurd (Event.send.inj he).1 (by decide)
  | select | update | selectRealms => cases he

/-- `GameServers` is the number of realms. -/
lemma gameServers_serverList (env : Environment) (realm : Row) (realms : List Row) :
    (serverList env realm realms).load 4 PacketServerList.gameServers =
      (realms.length + 1) % 2 ^ 32 := by
  simp (disch := decide) only [serverList, finishServerList, Memory.load_store_of_disjoint,
    load_serversMemory]
  rw [serverListHeader, Memory.load_store]
  rfl

section Four

variable (hfour : realms.length + 1 ≤ 4)

include hfour

/-- Up to four realms, the length does not wrap. -/
lemma length_of_le_four : (44 + 108 * (realms.length + 1)) % 2 ^ 16 =
    44 + 108 * (realms.length + 1) := Nat.mod_eq_of_lt (by omega)

/-- A member of an entry, as it is sent, is that of the round that wrote it. -/
lemma sentText_serverList {row : Row} {i offset w : ℕ} (hi : (realm :: realms)[i]? = some row)
    (hge : PacketServerList.name i ≤ offset)
    (hle : offset + w ≤ PacketServerList.name (i + 1)) : ∃ mem',
      sentText ((serverList env realm realms).read 0 (44 + 108 * (realms.length + 1))) offset w =
        cString ((serverMemory row i mem').read offset w) := by
  obtain ⟨mem', hread⟩ := read_serversMemory 0
    (serverListHeader (env.stale .serverList) (realm.text 4) env.unixTimeStamp env.random
      (realms.length + 1)) hi (by omega)
  rw [Nat.zero_add] at hread
  have hlt : i < realms.length + 1 := by
    simpa using (List.getElem?_eq_some_iff.mp hi).1
  simp only [PacketServerList.name, PacketServerList.serverSize] at hge hle
  refine ⟨mem', ?_⟩
  rw [sentText, Memory.take_drop_read _ _ (by omega), Nat.zero_add, serverList, finishServerList]
  rw [Memory.read_store_of_disjoint _ (.inr (by simp only [PacketStruct.encrypted]; omega)),
    Memory.read_store_of_disjoint _ (.inr (by simp only [PacketStruct.encKeyIndex]; omega)),
    Memory.read_store_of_disjoint _ (.inr (by simp only [PacketStruct.length]; omega)),
    hread offset w (by simpa only [PacketServerList.name, PacketServerList.serverSize])
      (by simpa only [PacketServerList.name, PacketServerList.serverSize])]

/-- The name in an entry, as it is sent. -/
lemma sentText_name {row : Row} {i : ℕ} (hi : (realm :: realms)[i]? = some row) :
    sentText ((serverList env realm realms).read 0 (44 + 108 * (realms.length + 1)))
        (PacketServerList.name i) 32 =
      if (row.text 5).length < 32 then some (row.text 5) else none := by
  have hend : PacketServerList.name i + 32 ≤ PacketServerList.name (i + 1) := by
    simp only [PacketServerList.name, PacketServerList.serverSize]
    omega
  obtain ⟨mem', h⟩ := sentText_serverList hfour hi (Nat.le_refl _) hend
  rw [h, cString_name_serverMemory]

/-- An address in an entry, as it is sent. -/
lemma sentText_ip {row : Row} {i j : ℕ} (hi : (realm :: realms)[i]? = some row) (hj : j < 3) :
    sentText ((serverList env realm realms).read 0 (44 + 108 * (realms.length + 1)))
        (PacketServerList.ip i j) 20 =
      if (row.text 2).length < 20 then some (row.text 2) else none := by
  have hstart : PacketServerList.name i ≤ PacketServerList.ip i j := by
    simp only [PacketServerList.name, PacketServerList.ip]
    omega
  have hend : PacketServerList.ip i j + 20 ≤ PacketServerList.name (i + 1) := by
    simp only [PacketServerList.name, PacketServerList.ip, PacketServerList.serverSize]
    omega
  obtain ⟨mem', h⟩ := sentText_serverList hfour hi hstart hend
  rw [h, cString_ip_serverMemory _ _ _ hj]

/-- `GameServers`, as it is sent. -/
lemma sentGameServers_serverList : sentGameServers
    ((serverList env realm realms).read 0 (44 + 108 * (realms.length + 1))) =
      realms.length + 1 := by
  have hload := gameServers_serverList env realm realms
  rw [Nat.mod_eq_of_lt (by omega)] at hload
  rw [sentGameServers, Memory.take_drop_read _ _
    (by simp only [PacketServerList.gameServers]; omega), Nat.zero_add]
  exact hload

/-- `Length`, as it is sent. -/
lemma sentLength_serverList : sentLength
    ((serverList env realm realms).read 0 (44 + 108 * (realms.length + 1))) =
      44 + 108 * (realms.length + 1) := by
  have hload := length_serverList env realm realms
  rw [length_of_le_four hfour] at hload
  have hread := (serverList env realm realms).take_drop_read 0 (k := 0) (m := 2)
    (n := 44 + 108 * (realms.length + 1)) (by omega)
  rw [List.drop_zero] at hread
  rw [sentLength, hread]
  exact hload

end Four

/-- A text that is sent only if it fits is sent. -/
lemma ite_eq_some_iff {text : List UInt8} {w : ℕ} :
    (if text.length < w then some text else none) = some text ↔ text.length < w := by
  split_ifs with h <;> simp [h]

/-- **The list that is sent is right exactly when** there are at most four realms, and their names
and addresses, with the NUL, fit in the members of an entry.

**Proof sketch.** A fifth realm is written past the array. For up to four, the fields of the header
are those of the number of realms, and every text is sent if it fits. -/
theorem sent_serverListCorrect_iff {length : ℕ}
    (h : .send packetServerList.sizeof length bytes ∈ (handleLoginUser env packet).events 0) :
    ServerListCorrect (realmRows env) bytes ↔ (realmRows env).length ≤ 4 ∧
      ∀ realm ∈ realmRows env, (realm.text 5).length < 32 ∧ (realm.text 2).length < 20 := by
  obtain ⟨realm, realms, hr, -, rfl⟩ := eq_serverList_of_sent h
  rw [hr]
  constructor
  · intro hcorrect
    have hfour := (counters_lt_iff (realm :: realms)).mp hcorrect.inside
    have hfour' : realms.length + 1 ≤ 4 := by simpa using hfour
    refine ⟨hfour, ?_⟩
    intro row hrow
    obtain ⟨i, hi⟩ := List.mem_iff_getElem?.mp hrow
    have hname := hcorrect.name i row hi
    have haddress := hcorrect.address i row hi 0 (by decide)
    rw [length_of_le_four hfour'] at hname haddress
    rw [sentText_name hfour' hi, ite_eq_some_iff] at hname
    rw [sentText_ip hfour' hi (by decide), ite_eq_some_iff] at haddress
    exact ⟨hname, haddress⟩
  · rintro ⟨hfour, hfit⟩
    have hfour' : realms.length + 1 ≤ 4 := by simpa using hfour
    have hcount : (counters (realm :: realms) 0).length = realms.length + 1 := by
      rw [counters_eq (by decide), List.length_map, List.length_range, List.length_cons]
    rw [length_of_le_four hfour']
    refine ⟨(counters_lt_iff _).mpr hfour, ?_, ?_, ?_, ?_, ?_⟩
    · rw [sentGameServers_serverList hfour', hcount]
    · rw [sentLength_serverList hfour', sentGameServers_serverList hfour',
        layout_packetStruct.2, layout_packetServerListHeader.2, layout_packetServerListServer.2]
      simp only [PacketServerList.serverSize]
      omega
    · rw [sentLength_serverList hfour', Memory.length_read]
    · intro i row hi
      rw [sentText_name hfour' hi, ite_eq_some_iff]
      exact (hfit row (List.mem_of_getElem? hi)).1
    · intro i row hi j hj
      rw [sentText_ip hfour' hi hj, ite_eq_some_iff]
      exact (hfit row (List.mem_of_getElem? hi)).2

/-! ## The list in every frame -/

/-- What the execution of the third statement shows: the login was accepted, the calls of the driver
before it returned, and the user name did no harm to the frame. -/
lemma accepted_of_selectRealms
    (h : .executeQuery selectRealms [] ∈ (handleLoginUser env packet).events 0) :
    ∃ row rest, Accepted env packet row rest ∧ QuietBesidesUpdate env 14 ∧ UserFits env row := by
  rw [mem_events_handleLoginUser] at h
  generalize he : Event.executeQuery selectRealms [] = e at h
  cases h with
  | selectRealms ha hq hfits => exact ⟨_, _, ha, hq, hfits⟩
  | select | update => exact absurd (Event.executeQuery.inj he).1 (by decide)
  | incorrectName | incorrectPassword | checkSum | userInfo | serverList => cases he

/-- Four realms whose texts fit in the members of an entry stay inside the list. -/
lemma serversFit_of_members {row : Row} {rest : List Row} (hfour : rest.length + 1 ≤ 4)
    (hfit : ∀ realm ∈ row :: rest, (realm.text 5).length < 32 ∧ (realm.text 2).length < 20) :
    ServersFit packetServerList.sizeof row rest 0 := by
  refine serversFit_sizeof_iff.mpr ⟨by omega, fun i realm hi => ?_⟩
  obtain ⟨hname, haddress⟩ := hfit realm (List.mem_of_getElem? hi)
  have hlt : i < rest.length + 1 := by simpa using (List.getElem?_eq_some_iff.mp hi).1
  rw [layout_packetServerList.2]
  simp only [PacketServerList.name, PacketServerList.ip, PacketServerList.serverSize]
  omega

/-- **The list of servers, exactly.** When `SendUserSuccess` has its result set of realms, it sends
the right list in every frame if and only if there are at most four realms, their names and
addresses, with the NUL, fit in the members of an entry, and the server name, which is that of the
first realm, in the bytes from its member to the end of the list.

**Proof sketch.** A list that is sent is right if and only if the realms are as they should be
(`sent_serverListCorrect_iff`). Where the frame has nothing to spare above the list, it is sent if
and only if nothing is written past its end; and what stays inside does no harm in any frame. -/
theorem serverListCorrect_iff
    (h : .executeQuery selectRealms [] ∈ (handleLoginUser env packet).events 0)
    (hne : realmRows env ≠ [])
    (hq : env.driver.Quiet 14 (18 + 5 * (realmRows env).length)) :
    SendsServerListCorrect env packet ↔ (realmRows env).length ≤ 4 ∧
      (∀ realm ∈ realmRows env, (realm.text 5).length < 32 ∧ (realm.text 2).length < 20) ∧
      ∀ realm ∈ (realmRows env).head?, (realm.text 4).length < 468 := by
  obtain ⟨row, rest, ha, hquiet, hfits⟩ := accepted_of_selectRealms h
  obtain ⟨realm, realms, hr⟩ := List.exists_cons_of_ne_nil hne
  have hall : QuietBesidesUpdate env (18 + 5 * (realms.length + 1)) := by
    refine ⟨hquiet.1, (Driver.quiet_split (by omega) (by omega)).mpr ⟨hquiet.2, ?_⟩⟩
    rwa [hr] at hq
  have hserver : PacketServerList.serverName + ((realm.text 4).length + 1) ≤
      packetServerList.sizeof ↔ (realm.text 4).length < 468 := by
    rw [layout_packetServerList.2]
    simp only [PacketServerList.serverName]
    omega
  constructor
  · intro hsends
    obtain ⟨length, bytes, hmem, hcorrect⟩ := hsends 0
    refine ⟨((sent_serverListCorrect_iff hmem).mp hcorrect).1,
      ((sent_serverListCorrect_iff hmem).mp hcorrect).2, ?_⟩
    obtain ⟨realm', realms', hr', hlist, -⟩ := eq_serverList_of_sent hmem
    obtain ⟨rfl, rfl⟩ := List.cons.inj (hr.symm.trans hr')
    simp only [hr, List.head?_cons, Option.mem_some_iff, forall_eq']
    rw [← hserver]
    simpa [ListFits, Environment.room, Environment.withSpare] using hlist.1
  · rintro ⟨hfour, hfit, hname⟩ spare
    have hname' : (realm.text 4).length < 468 := hname realm (by rw [hr]; rfl)
    set env' := env.withSpare (Function.update env.spare .serverList spare) with henv'
    have hfits' : UserFits env' row := hfits
    have hlist : ListFits env' realm realms := by
      refine ⟨Nat.le_trans (hserver.mpr hname') (Nat.le_add_right _ _), ?_⟩
      rw [hr] at hfour hfit
      exact (serversFit_of_members (by simpa using hfour) hfit).mono (Nat.le_add_right _ _)
    have hmem : .send 476 ((44 + 108 * (realms.length + 1)) % 2 ^ 16)
        ((serverList env' realm realms).read 0 ((44 + 108 * (realms.length + 1)) % 2 ^ 16)) ∈
        (handleLoginUser env' packet).events 0 :=
      mem_events_handleLoginUser.mpr
        (.serverList ⟨ha.quiet, ha.matching⟩ hr hall hfits' hlist)
    exact ⟨_, _, hmem, (sent_serverListCorrect_iff hmem).mpr ⟨hfour, hfit⟩⟩

/-- A realm with a name, a server name and an address. -/
def namedRealm : Row where
  string i := if i = 5 then [66, 97, 98, 101, 108] else if i = 4 then [69, 85]
    else if i = 2 then [49, 46, 49, 46, 49, 46, 49] else []
  uint _ := 0

/-- The server with one account executes the third statement for its login. -/
lemma selectRealms_oneAccount (realms : List Row) :
    .executeQuery selectRealms [] ∈
      (handleLoginUser (oneAccount (List.replicate 40 48) realms) emptyLogin).events 0 :=
  mem_events_handleLoginUser.mpr (.selectRealms
    (accepted_oneAccount (List.replicate 40 48) realms (by decide))
    ⟨fun _ _ _ => rfl, fun _ _ _ => rfl⟩ (userFits_oneAccount _ _))

/-- The list of one realm is right. -/
theorem serverListCorrect_one :
    SendsServerListCorrect (oneAccount (List.replicate 40 48) [namedRealm]) emptyLogin :=
  (serverListCorrect_iff (selectRealms_oneAccount [namedRealm]) (List.cons_ne_nil _ _)
    fun _ _ _ => rfl).mpr ⟨by decide, by decide, by decide⟩

/-- The fifth of five realms is written past the array. -/
theorem serverListCorrect_fails : ∃ (env : Environment) (packet : List UInt8),
    .executeQuery selectRealms [] ∈ (handleLoginUser env packet).events 0 ∧
      (realmRows env).length = 5 ∧ 4 ∈ counters (realmRows env) 0 ∧
      ¬ SendsServerListCorrect env packet := by
  refine ⟨_, _, selectRealms_oneAccount (List.replicate 5 namedRealm), rfl, ?_, ?_⟩
  · exact List.mem_iff_getElem?.mpr ⟨4, rfl⟩
  · intro hsends
    obtain ⟨_, _, -, hcorrect⟩ := hsends 0
    exact absurd (hcorrect.inside 4 (List.mem_iff_getElem?.mpr ⟨4, rfl⟩)) (by decide)

end SteerStone
