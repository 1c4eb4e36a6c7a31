import PristonTale.Auth.AuthenticationHandler

set_option relaxedAutoImplicit false
set_option autoImplicit false

/-!
# The packets the server builds

What is in the packets of `PristonTale.Auth.AuthenticationHandler` once they are built: their
length and header, the user name, and the bytes that no store reached.

## Main definitions

* `SteerStone.serversMemory` — the memory after the loop of `SendUserSuccess`.
* `SteerStone.ServersFit` — the loop does no harm to the frame.
* `SteerStone.packetHeader` — the header of the bytes sent.

## Main results

* `SteerStone.length_accountLogin` and its companions — the length each packet announces.
* `SteerStone.packetHeader_accountLogin` and its companions — the header of each packet.
* `SteerStone.cString_packetUser` — the user name in a `PacketUserInfo`.
-/

namespace SteerStone

open Foundations

/-- The header of a packet as it is sent. -/
def packetHeader (bytes : List UInt8) : ℕ := leNat ((bytes.drop PacketStruct.packetHeader).take 4)

/-- The header of the first `n` bytes of a packet is in its memory. -/
lemma packetHeader_read (mem : Memory) {n : ℕ} (hn : 8 ≤ n) :
    packetHeader (mem.read 0 n) = mem.load 4 PacketStruct.packetHeader := by
  rw [packetHeader, Memory.take_drop_read mem 0 (by simp only [PacketStruct.packetHeader]; omega)]
  rfl

/-- The header is in the first eight bytes. -/
lemma packetHeader_append {bytes : List UInt8} (h : 8 ≤ bytes.length) (rest : List UInt8) :
    packetHeader (bytes ++ rest) = packetHeader bytes := by
  have hlen : 4 ≤ (bytes.drop PacketStruct.packetHeader).length := by
    simp only [List.length_drop, PacketStruct.packetHeader]
    omega
  have hle : PacketStruct.packetHeader ≤ bytes.length := Nat.le_trans (by decide) h
  rw [packetHeader, packetHeader, List.drop_append_of_le_length hle,
    List.take_append_of_le_length hlen]

section Strcpy

variable (mem : Memory) {offset offset' w i : ℕ} {text : List UInt8}

/-- `strcpy` changes nothing below its destination. -/
lemma load_strcpy_of_le (h : offset' + w ≤ offset) :
    (strcpy mem offset text).load w offset' = mem.load w offset' :=
  mem.load_write_of_disjoint (.inl h)

/-- The bytes below the destination of `strcpy`. -/
lemma strcpy_apply_of_lt (h : i < offset) : strcpy mem offset text i = mem i :=
  mem.write_of_lt _ h

end Strcpy

/-! ## The answers to a login -/

/-- A `PacketAccountLoginCode` announces its size. -/
lemma length_accountLogin (stale : Memory) (error : LoginError) :
    (accountLogin stale error).load 2 PacketStruct.length = 276 := by
  simp (disch := decide) only [accountLogin, Memory.load_store_of_disjoint, Memory.load_store]
  decide

/-- The header of a `PacketAccountLoginCode`. -/
lemma packetHeader_accountLogin (stale : Memory) (error : LoginError) :
    packetHeader ((accountLogin stale error).read 0 276) =
      ServerPacketHeader.accountLoginCode.value := by
  rw [packetHeader_read _ (by decide)]
  simp (disch := decide) only [accountLogin, Memory.load_store_of_disjoint, Memory.load_store]
  decide

/-- Nothing is stored in `Message`. -/
lemma message_accountLogin (stale : Memory) (error : LoginError) :
    accountLogin stale error PacketAccountLoginCode.message =
      stale PacketAccountLoginCode.message := by
  simp (disch := decide) only [accountLogin, PacketStruct.construct,
    Memory.store_apply_of_disjoint]

/-- A `PacketChecksumFunctionList` announces its size. -/
lemma length_packetCheck (stale : Memory) :
    (packetCheck stale).load 2 PacketStruct.length = 4812 := by
  simp (disch := decide) only [packetCheck, Memory.load_store_of_disjoint, Memory.load_store]
  decide

/-- The header of a `PacketChecksumFunctionList`. -/
lemma packetHeader_packetCheck (stale : Memory) :
    packetHeader ((packetCheck stale).read 0 4812) = ServerPacketHeader.checkSum.value := by
  rw [packetHeader_read _ (by decide)]
  simp (disch := decide) only [packetCheck, Memory.load_store_of_disjoint, Memory.load_store]
  decide

/-- Nothing is stored in `CheckSum`. -/
lemma checkSum_packetCheck (stale : Memory) :
    packetCheck stale PacketChecksumFunctionList.checkSum =
      stale PacketChecksumFunctionList.checkSum := by
  simp (disch := decide) only [packetCheck, PacketStruct.construct,
    Memory.store_apply_of_disjoint]

/-- A `PacketUserInfo` announces its size. -/
lemma length_packetUser (stale : Memory) (userName : List UInt8) :
    (packetUser stale userName).load 2 PacketStruct.length = 1484 := by
  simp (disch := decide) only [packetUser, Memory.load_store_of_disjoint, load_strcpy_of_le,
    Memory.load_store]
  decide

/-- The header of a `PacketUserInfo`. -/
lemma packetHeader_packetUser (stale : Memory) (userName : List UInt8) :
    packetHeader ((packetUser stale userName).read 0 1484) =
      ServerPacketHeader.userInfo.value := by
  rw [packetHeader_read _ (by decide)]
  simp (disch := decide) only [packetUser, Memory.load_store_of_disjoint, load_strcpy_of_le,
    Memory.load_store]
  decide

/-- A user name that fits in `UserID` is the text there. -/
lemma cString_packetUser (stale : Memory) {userName : List UInt8} (hfit : userName.length < 32)
    (hnul : 0 ∉ userName) :
    cString (((packetUser stale userName).read 0 1484).drop PacketUserInfo.userID) =
      some userName := by
  have hsplit : 1476 = (userName ++ [0]).length + (1476 - (userName ++ [0]).length) := by
    simp only [List.length_append, List.length_singleton]
    omega
  have hread : (packetUser stale userName).read PacketUserInfo.userID (userName ++ [0]).length =
      userName ++ [0] := by
    have hlen : (userName ++ [0]).length ≤ 32 := by
      simp only [List.length_append, List.length_singleton]
      omega
    simp only [packetUser]
    rw [Memory.read_store_of_disjoint _ (.inr (by decide)),
      Memory.read_store_of_disjoint _ (.inr (by decide)),
      Memory.read_store_of_disjoint _ (.inl (by
        simp only [PacketUserInfo.userID, PacketUserInfo.charCount]
        omega))]
    exact Memory.read_write _ _ _
  rw [Memory.drop_read, Nat.zero_add, show 1484 - PacketUserInfo.userID = 1476 from rfl, hsplit,
    Memory.read_add, hread, List.append_assoc]
  exact cString_append_zero hnul _

/-! ## The server list -/

/-- The memory after one round of the loop of `SendUserSuccess`. -/
def serverMemory (row : Row) (counter : ℕ) (mem : Memory) : Memory :=
  let mem := strcpy mem (PacketServerList.name counter) (row.text 5)
  let mem := strcpy mem (PacketServerList.ip counter 0) (row.text 2)
  let mem := strcpy mem (PacketServerList.ip counter 1) (row.text 2)
  let mem := strcpy mem (PacketServerList.ip counter 2) (row.text 2)
  mem.store 4 (PacketServerList.port counter 0) defaultWorldPort
    |>.store 4 (PacketServerList.port counter 1) defaultWorldPort
    |>.store 4 (PacketServerList.port counter 2) defaultWorldPort
    |>.store 4 (PacketServerList.port counter 3) defaultWorldPort

/-- The memory after the loop of `SendUserSuccess`, from a row on. -/
def serversMemory : Row → List Row → ℕ → Memory → Memory
  | row, [], counter, mem => serverMemory row counter mem
  | row, next :: rest, counter, mem =>
    serversMemory next rest ((counter + 1) % 2 ^ 16) (serverMemory row counter mem)

/-- One round of the loop writes nothing past the room of the list. -/
def ServerFits (room : ℕ) (row : Row) (counter : ℕ) : Prop :=
  PacketServerList.name counter + ((row.text 5).length + 1) ≤ room ∧
    PacketServerList.ip counter 2 + ((row.text 2).length + 1) ≤ room ∧
    PacketServerList.port counter 3 + 4 ≤ room

/-- The loop, from a row on, writes nothing past the room of the list. -/
def ServersFit (room : ℕ) : Row → List Row → ℕ → Prop
  | row, [], counter => ServerFits room row counter
  | row, next :: rest, counter =>
    ServerFits room row counter ∧ ServersFit room next rest ((counter + 1) % 2 ^ 16)

instance (room : ℕ) (row : Row) (counter : ℕ) : Decidable (ServerFits room row counter) :=
  inferInstanceAs (Decidable (_ ∧ _))

instance decidableServersFit (room : ℕ) :
    ∀ (row : Row) (rest : List Row) (counter : ℕ), Decidable (ServersFit room row rest counter)
  | row, [], counter => inferInstanceAs (Decidable (ServerFits room row counter))
  | row, next :: rest, counter =>
    @instDecidableAnd (ServerFits room row counter) _ inferInstance
      (decidableServersFit room next rest ((counter + 1) % 2 ^ 16))

/-- The name of a user does no harm to the frame of `SendUserSuccess`. -/
def UserFits (env : Environment) (row : Row) : Prop :=
  PacketUserInfo.userID + ((row.text 2).length + 1) ≤
    env.room .packetUser packetUserInfo.sizeof

/-- The list of the realms does no harm to the frame of `SendUserSuccess`. -/
def ListFits (env : Environment) (realm : Row) (realms : List Row) : Prop :=
  PacketServerList.serverName + ((realm.text 4).length + 1) ≤
      env.room .serverList packetServerList.sizeof ∧
    ServersFit (env.room .serverList packetServerList.sizeof) realm realms 0

instance (env : Environment) (row : Row) : Decidable (UserFits env row) :=
  inferInstanceAs (Decidable (_ ≤ _))

instance (env : Environment) (realm : Row) (realms : List Row) :
    Decidable (ListFits env realm realms) := inferInstanceAs (Decidable (_ ∧ _))

/-- What an accepted login writes stays inside the objects it is written to: the user name inside
the `PacketUserInfo`, and the server name and the realms inside the `PacketServerList`. -/
structure StaysInside (row : Row) (realms : List Row) : Prop where
  /-- The user name. -/
  user : PacketUserInfo.userID + ((row.text 2).length + 1) ≤ packetUserInfo.sizeof
  /-- The server name, that of the first realm. -/
  server : ∀ realm ∈ realms.head?,
    PacketServerList.serverName + ((realm.text 4).length + 1) ≤ packetServerList.sizeof
  /-- The array of servers has four elements. -/
  four : realms.length ≤ 4
  /-- The names of the realms. -/
  name : ∀ (i : ℕ) (realm : Row), realms[i]? = some realm →
    PacketServerList.name i + ((realm.text 5).length + 1) ≤ packetServerList.sizeof
  /-- The addresses of the realms, which are copied three times. -/
  address : ∀ (i : ℕ) (realm : Row), realms[i]? = some realm →
    PacketServerList.ip i 2 + ((realm.text 2).length + 1) ≤ packetServerList.sizeof

/-- The server list sent for the realms of a non-empty table. -/
def serverList (env : Environment) (realm : Row) (realms : List Row) : Memory :=
  finishServerList (serversMemory realm realms 0
    (serverListHeader (env.stale .serverList) (realm.text 4) env.unixTimeStamp env.random
      (realms.length + 1)))

/-- A longer room is as good for the loop. -/
lemma ServersFit.mono {room room' : ℕ} (hle : room ≤ room') {rest : List Row} {row : Row}
    {counter : ℕ} (h : ServersFit room row rest counter) : ServersFit room' row rest counter := by
  have hround : ∀ {row counter}, ServerFits room row counter → ServerFits room' row counter :=
    fun h => ⟨h.1.trans hle, h.2.1.trans hle, h.2.2.trans hle⟩
  induction rest generalizing row counter with
  | nil => exact hround h
  | cons next rest ih => exact ⟨hround h.1, ih h.2⟩

/-- The ports of an element are inside the list if it is one of the four. -/
lemma port_le_sizeof_iff {counter : ℕ} :
    PacketServerList.port counter 3 + 4 ≤ packetServerList.sizeof ↔ counter + 1 ≤ 4 := by
  simp only [layout_packetServerList.2, PacketServerList.port, PacketServerList.serverSize]
  omega

/-- **The loop stays inside the list** exactly when there are elements for all the realms, and the
last store of each text is inside: nothing is above the list then.

**Proof sketch.** Induction on the realms. The ports of element `counter` are inside if it is one of
the four, so the index does not wrap around. -/
theorem serversFit_sizeof_iff {rest : List Row} {row : Row} {counter : ℕ} :
    ServersFit packetServerList.sizeof row rest counter ↔ counter + (rest.length + 1) ≤ 4 ∧
      ∀ i realm, (row :: rest)[i]? = some realm →
        PacketServerList.name (counter + i) + ((realm.text 5).length + 1) ≤
            packetServerList.sizeof ∧
          PacketServerList.ip (counter + i) 2 + ((realm.text 2).length + 1) ≤
            packetServerList.sizeof := by
  induction rest generalizing row counter with
  | nil =>
    simp only [ServersFit, ServerFits, port_le_sizeof_iff, List.length_nil, Nat.zero_add]
    constructor
    · rintro ⟨hname, haddress, hle⟩
      refine ⟨hle, fun i realm hi => ?_⟩
      cases i with
      | zero =>
        obtain rfl := Option.some.inj hi
        exact ⟨hname, haddress⟩
      | succ i => simp at hi
    · rintro ⟨hle, hfit⟩
      exact ⟨(hfit 0 row rfl).1, (hfit 0 row rfl).2, hle⟩
  | cons next rest ih =>
    have hnext : counter + 1 ≤ 4 → (counter + 1) % 2 ^ 16 = counter + 1 :=
      fun h => Nat.mod_eq_of_lt (by omega)
    simp only [ServersFit, ServerFits, port_le_sizeof_iff, List.length_cons]
    constructor
    · rintro ⟨⟨hname, haddress, hle⟩, hrest⟩
      rw [hnext hle, ih] at hrest
      refine ⟨by omega, fun i realm hi => ?_⟩
      cases i with
      | zero =>
        obtain rfl := Option.some.inj hi
        exact ⟨hname, haddress⟩
      | succ i =>
        have hfit := hrest.2 i realm hi
        rwa [Nat.add_assoc, Nat.add_comm 1 i] at hfit
    · rintro ⟨hle, hfit⟩
      have hle' : counter + 1 ≤ 4 := by omega
      refine ⟨⟨(hfit 0 row rfl).1, (hfit 0 row rfl).2, hle'⟩, ?_⟩
      rw [hnext hle', ih]
      refine ⟨by omega, fun i realm hi => ?_⟩
      rw [Nat.add_assoc, Nat.add_comm 1 i]
      exact hfit (i + 1) realm hi

/-- **What an accepted login writes stays inside the objects** exactly when it does no harm to the
frame whatever that has to spare. -/
theorem staysInside_iff (env : Environment) {row realm : Row} {realms : List Row} :
    StaysInside row (realm :: realms) ↔ ∀ spare, UserFits (env.withSpare spare) row ∧
      ListFits (env.withSpare spare) realm realms := by
  constructor
  · rintro ⟨huser, hserver, hfour, hname, haddress⟩ spare
    refine ⟨Nat.le_trans huser (Nat.le_add_right _ _),
      Nat.le_trans (hserver realm rfl) (Nat.le_add_right _ _), ?_⟩
    refine ServersFit.mono (Nat.le_add_right _ _) (serversFit_sizeof_iff.mpr ⟨?_, ?_⟩)
    · rwa [Nat.zero_add]
    · intro i realm' hi
      rw [Nat.zero_add]
      exact ⟨hname i realm' hi, haddress i realm' hi⟩
  · intro h
    obtain ⟨huser, hserver, hlist⟩ := h fun _ => 0
    obtain ⟨hfour, hfit⟩ := serversFit_sizeof_iff.mp hlist
    simp only [Nat.zero_add] at hfour hfit
    refine ⟨huser, ?_, hfour, fun i realm' hi => (hfit i realm' hi).1,
      fun i realm' hi => (hfit i realm' hi).2⟩
    intro realm' hrealm
    obtain rfl := Option.some.inj hrealm
    exact hserver

/-- A store returns if it stays within the room. -/
@[simp] lemma returns_withinFrame {room stop n m : ℕ} {u : Unit} :
    (withinFrame room stop).Returns n u m ↔ stop ≤ room ∧ m = n := by
  unfold withinFrame
  split_ifs with h <;> simp [h]

/-- A store has no events. -/
@[simp] lemma events_withinFrame {room stop n : ℕ} : (withinFrame room stop).events n = [] := by
  unfold withinFrame
  split_ifs <;> rfl

/-- A program that goes on after a store. -/
lemma run_withinFrame_bind {α : Type} {room stop n : ℕ} (h : stop ≤ room) (f : Unit → Action α) :
    (withinFrame room stop >>= f).run n = (f ()).run n :=
  Program.run_bind_of_silent f events_withinFrame (returns_withinFrame.mpr ⟨h, rfl⟩)

/-- One round of the loop makes four calls of the driver, and returns if none of them throws and its
stores stay within the room. -/
lemma returns_writeServer {D : Driver} {row : Row} {rest : List Row} {room k counter n m : ℕ}
    {mem mem' : Memory} :
    (writeServer D room (some ⟨some row, rest, k⟩) counter mem).Returns n mem' m ↔
      D.Quiet n (n + 4) ∧ ServerFits room row counter ∧ mem' = serverMemory row counter mem ∧
        m = n + 4 := by
  -- the last of the three addresses goes furthest
  have hlast : ServerFits room row counter ↔
      PacketServerList.name counter + ((row.text 5).length + 1) ≤ room ∧
      PacketServerList.ip counter 0 + ((row.text 2).length + 1) ≤ room ∧
      PacketServerList.ip counter 1 + ((row.text 2).length + 1) ≤ room ∧
      PacketServerList.ip counter 2 + ((row.text 2).length + 1) ≤ room ∧
      PacketServerList.port counter 3 + 4 ≤ room := by
    simp only [ServerFits, PacketServerList.ip]
    omega
  rw [hlast]
  simp (disch := omega) [writeServer, serverMemory, Driver.quiet_succ, and_assoc]
  tauto

/-- A round of the loop has no events. -/
@[simp] lemma events_writeServer {D : Driver} {r : Result} {room counter n : ℕ} {mem : Memory} :
    (writeServer D room r counter mem).events n = [] := by
  simp [List.eq_nil_iff_forall_not_mem, writeServer]

/-- **The loop of `SendUserSuccess`** makes five calls of the driver for each row, and returns if
none of them throws and the stores stay within the room of the list. -/
theorem returns_writeServers {D : Driver} {room k m : ℕ} {mem' : Memory} {rest : List Row}
    {row : Row} {counter n : ℕ} {mem : Memory} :
    (writeServers D room k row rest counter mem).Returns n mem' m ↔
      D.Quiet n (n + 5 * (rest.length + 1)) ∧ ServersFit room row rest counter ∧
        mem' = serversMemory row rest counter mem ∧ m = n + 5 * (rest.length + 1) := by
  induction rest generalizing row counter n mem with
  | nil =>
    simp (disch := omega) [writeServers, returns_writeServer, serversMemory, ServersFit,
      Driver.quiet_succ, and_assoc]
    tauto
  | cons next rest ih =>
    have hcount : n + 5 * (rest.length + 1 + 1) = n + 5 + 5 * (rest.length + 1) := by ring
    rw [List.length_cons, hcount, Driver.quiet_split (m := n + 5) (by omega) (by omega)]
    simp (disch := omega) [writeServers, returns_writeServer, serversMemory, ServersFit,
      Driver.quiet_succ, ih, and_assoc]
    tauto

/-- The loop has no events. -/
@[simp] lemma events_writeServers {D : Driver} {room k : ℕ} {rest : List Row} {row : Row}
    {counter n : ℕ} {mem : Memory} :
    (writeServers D room k row rest counter mem).events n = [] := by
  induction rest generalizing row counter n mem with
  | nil => simp [List.eq_nil_iff_forall_not_mem, writeServers]
  | cons next rest ih => simp [List.eq_nil_iff_forall_not_mem, writeServers, ih]

/-- A round writes from its own entry upward only. -/
lemma serverMemory_of_lt {i counter : ℕ} (hname : i < PacketServerList.name counter) (row : Row)
    (mem : Memory) : serverMemory row counter mem i = mem i := by
  have hip : ∀ j, i < PacketServerList.ip counter j := fun j => by
    simp only [PacketServerList.name, PacketServerList.ip] at hname ⊢
    omega
  have hport : ∀ j, i < PacketServerList.port counter j := fun j => by
    simp only [PacketServerList.name, PacketServerList.port] at hname ⊢
    omega
  simp only [serverMemory]
  rw [Memory.store_apply_of_disjoint _ (.inl (hport 3)),
    Memory.store_apply_of_disjoint _ (.inl (hport 2)),
    Memory.store_apply_of_disjoint _ (.inl (hport 1)),
    Memory.store_apply_of_disjoint _ (.inl (hport 0)), strcpy_apply_of_lt _ (hip 2),
    strcpy_apply_of_lt _ (hip 1), strcpy_apply_of_lt _ (hip 0), strcpy_apply_of_lt _ hname]

/-- The loop writes above the header of the list only. -/
lemma serversMemory_of_lt {i : ℕ} (hi : i < 44) (row : Row) (rest : List Row) (counter : ℕ)
    (mem : Memory) : serversMemory row rest counter mem i = mem i := by
  have hname : ∀ counter, i < PacketServerList.name counter := fun counter => by
    simp only [PacketServerList.name]
    omega
  induction rest generalizing row counter mem with
  | nil => exact serverMemory_of_lt (hname counter) row mem
  | cons next rest ih => rw [serversMemory, ih, serverMemory_of_lt (hname counter)]

/-- The loop changes no number in the header of the list. -/
lemma load_serversMemory {w offset : ℕ} (h : offset + w ≤ 44) (row : Row) (rest : List Row)
    (counter : ℕ) (mem : Memory) :
    (serversMemory row rest counter mem).load w offset = mem.load w offset := by
  refine Memory.load_congr fun i hi => serversMemory_of_lt (by omega) row rest counter mem

/-- **The length of the server list** is added up in a `uint16`. -/
theorem length_serverList (env : Environment) (realm : Row) (realms : List Row) :
    (serverList env realm realms).load 2 PacketStruct.length =
      (44 + 108 * (realms.length + 1)) % 2 ^ 16 := by
  have hlen : (serverListHeader (env.stale .serverList) (realm.text 4) env.unixTimeStamp
      env.random (realms.length + 1)).load 2 PacketStruct.length = 44 := by
    simp (disch := decide) only [serverListHeader, Memory.load_store_of_disjoint,
      load_strcpy_of_le, Memory.load_store]
    decide
  have hcount : (serverListHeader (env.stale .serverList) (realm.text 4) env.unixTimeStamp
      env.random (realms.length + 1)).load 4 PacketServerList.gameServers =
      (realms.length + 1) % 2 ^ 32 := by
    rw [serverListHeader, Memory.load_store]
    rfl
  simp (disch := decide) only [serverList, finishServerList, Memory.load_store_of_disjoint,
    Memory.load_store, load_serversMemory, hlen, hcount, layout_packetServerListServer.2,
    PacketServerList.serverSize]
  omega

/-- The header of a list of servers, if as much of it is sent. -/
lemma packetHeader_serverList_of_le (env : Environment) {realm : Row} {realms : List Row}
    (h : 8 ≤ (44 + 108 * (realms.length + 1)) % 2 ^ 16) :
    packetHeader ((serverList env realm realms).read 0
      ((44 + 108 * (realms.length + 1)) % 2 ^ 16)) = ServerPacketHeader.serverList.value := by
  rw [packetHeader_read _ h]
  simp (disch := decide) only [serverList, finishServerList, Memory.load_store_of_disjoint,
    load_serversMemory, serverListHeader, load_strcpy_of_le, Memory.load_store]
  decide

/-- A list of servers has no header when its length has wrapped around to less than one: the length
is a multiple of four. -/
lemma packetHeader_serverList_of_lt (env : Environment) {realm : Row} {realms : List Row}
    (h : (44 + 108 * (realms.length + 1)) % 2 ^ 16 < 8) :
    packetHeader ((serverList env realm realms).read 0
      ((44 + 108 * (realms.length + 1)) % 2 ^ 16)) = 0 := by
  have hle : (44 + 108 * (realms.length + 1)) % 2 ^ 16 ≤ PacketStruct.packetHeader := by
    simp only [PacketStruct.packetHeader]
    omega
  rw [packetHeader, List.drop_eq_nil_of_le (by rwa [Memory.length_read])]
  rfl

/-- A list of servers has its header or none. -/
lemma packetHeader_serverList (env : Environment) (realm : Row) (realms : List Row) :
    packetHeader ((serverList env realm realms).read 0
        ((44 + 108 * (realms.length + 1)) % 2 ^ 16)) = ServerPacketHeader.serverList.value ∨
      packetHeader ((serverList env realm realms).read 0
        ((44 + 108 * (realms.length + 1)) % 2 ^ 16)) = 0 := by
  rcases Nat.lt_or_ge ((44 + 108 * (realms.length + 1)) % 2 ^ 16) 8 with h | h
  · exact .inr (packetHeader_serverList_of_lt env h)
  · exact .inl (packetHeader_serverList_of_le env h)

end SteerStone
