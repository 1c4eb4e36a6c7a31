import PristonTale.Auth.AuthSocket
import PristonTale.Auth.LoginEvents

set_option relaxedAutoImplicit false
set_option autoImplicit false

/-!
# What memory that was never written decides

Two-run properties. The first is about the packets sent: whether the bytes that leave the server
depend on what the stack held before the packets were built there. Every packet of
`SendVersionCheck` and of a login has bytes that nothing was stored in, so they do, unless nothing
is sent at all. The second is about the packets received: whether what is done with a packet
depends on what the memory it is copied to held before. It does for packets that end before the
texts the handler reads.

## Main definitions

* `SteerStone.Independent` — the bytes sent do not depend on the stack.
* `SteerStone.Determined` — what is done with a packet does not depend on the memory it is copied
  to.

## Main results

* `SteerStone.stale_leak_iff` — the exact condition for the packets sent.
* `SteerStone.executePacket_congr` — what is decided from a packet is all that is done with it.
* `SteerStone.determined_iff` — the exact condition for the packets received.
-/

namespace SteerStone

open Foundations

/-! ## Packets sent -/

/-- The byte strings a handler passes to `Write`. -/
def sent (p : Action Unit) : List (List UInt8) := (p.events 0).filterMap Event.sent

/-- What a handler sends does not depend on what the stack held before. -/
def Independent (p : Environment → Action Unit) (env : Environment) : Prop :=
  ∀ stale stale', sent (p (env.withStale stale)) = sent (p (env.withStale stale'))

/-- A login is answered: the first statement is, and either it selects nothing or the password of
the packet and of the account are read. -/
def Answered (env : Environment) (packet : List UInt8) : Prop :=
  env.driver.Quiet 0 5 ∧ ∃ user, userID packet = some user ∧
    (accountRows env user = [] ∨
      (env.driver.throws 5 = false ∧ ∃ pass, password packet = some pass))

variable {env : Environment} {packet : List UInt8}

/-- What is sent is what `SendPacket` is called for. -/
lemma mem_sent {p : Action Unit} {bytes : List UInt8} :
    bytes ∈ sent p ↔ ∃ size length, .send size length bytes ∈ p.events 0 := by
  simp only [sent, List.mem_filterMap]
  constructor
  · rintro ⟨e, he, hsent⟩
    cases e with
    | send size length bytes' =>
      obtain rfl : bytes' = bytes := by simpa [Event.sent] using hsent
      exact ⟨size, length, he⟩
    | executeQuery sql parameters => simp [Event.sent] at hsent
    | closeSocket => simp [Event.sent] at hsent
  · rintro ⟨size, length, he⟩
    exact ⟨_, he, rfl⟩

/-- Whatever a login sends, it is answered. -/
lemma answered_of_send {size length : ℕ} {bytes : List UInt8}
    (h : LoginEvent env packet (.send size length bytes)) : Answered env packet := by
  -- both texts are read and no call of the driver throws until then
  have of_texts : ∀ {user pass}, env.driver.Quiet 0 6 → userID packet = some user →
      password packet = some pass → Answered env packet := by
    intro user pass hq hu hp
    obtain ⟨hq₅, h₅⟩ := (Driver.quiet_succ (by omega)).mp hq
    exact ⟨hq₅, user, hu, .inr ⟨h₅, pass, hp⟩⟩
  have of_accepted : ∀ {row rest}, Accepted env packet row rest → Answered env packet := by
    rintro row rest ⟨hq, user, pass, hu, hp, -, -⟩
    exact of_texts hq hu hp
  cases h with
  | incorrectName hq hu hr => exact ⟨hq, _, hu, .inl hr⟩
  | incorrectPassword hq hu hp => exact of_texts hq hu hp
  | checkSum ha => exact of_accepted ha
  | userInfo ha => exact of_accepted ha
  | serverList ha => exact of_accepted ha

/-- The first packet of a login that is answered: a refusal or the start of the answer. -/
lemma first_of_answered (h : Answered env packet) : ∃ size length bytes,
    LoginEvent env packet (.send size length bytes) ∧
      (packetHeader bytes = ServerPacketHeader.accountLoginCode.value ∨
        packetHeader bytes = ServerPacketHeader.checkSum.value) := by
  obtain ⟨hq, user, hu, hr | ⟨h₅, pass, hp⟩⟩ := h
  · exact ⟨_, _, _, .incorrectName hq hu hr, .inl (packetHeader_accountLogin _ _)⟩
  · have hq' : env.driver.Quiet 0 6 := (Driver.quiet_succ (by omega)).mpr ⟨hq, h₅⟩
    cases hr : accountRows env user with
    | nil => exact ⟨_, _, _, .incorrectName hq hu hr, .inl (packetHeader_accountLogin _ _)⟩
    | cons row rest =>
      by_cases hhash : passwordHash env user pass = some (row.text 3)
      · exact ⟨_, _, _, .checkSum ⟨hq', user, pass, hu, hp, hr, hhash⟩,
          .inr (packetHeader_packetCheck _)⟩
      · exact ⟨_, _, _, .incorrectPassword hq' hu hp hr hhash,
          .inl (packetHeader_accountLogin _ _)⟩

/-- **The leak.** Where the stack held `v` everywhere, the first byte of `Message` or of `CheckSum`
is sent as `v`. -/
theorem leak (v : UInt8) {size length : ℕ} {bytes : List UInt8}
    (h : LoginEvent (env.withStale fun _ _ => v) packet (.send size length bytes)) :
    (packetHeader bytes = ServerPacketHeader.accountLoginCode.value →
        bytes[PacketAccountLoginCode.message]? = some v) ∧
      (packetHeader bytes = ServerPacketHeader.checkSum.value →
        bytes[PacketChecksumFunctionList.checkSum]? = some v) := by
  cases h with
  | incorrectName | incorrectPassword =>
    rw [packetHeader_accountLogin]
    refine ⟨fun _ => ?_, fun hh => absurd hh (by decide)⟩
    rw [Memory.getElem?_read _ (by decide), Nat.zero_add, message_accountLogin]
    rfl
  | checkSum =>
    rw [packetHeader_packetCheck]
    refine ⟨fun hh => absurd hh (by decide), fun _ => ?_⟩
    rw [Memory.getElem?_read _ (by decide), Nat.zero_add, checkSum_packetCheck]
    rfl
  | userInfo =>
    rw [packetHeader_packetUser]
    exact ⟨fun hh => absurd hh (by decide), fun hh => absurd hh (by decide)⟩
  | @serverList _ realm _ realms =>
    rcases packetHeader_serverList (env.withStale fun _ _ => v) realm realms with hlist | hlist <;>
      rw [hlist] <;> exact ⟨fun hh => absurd hh (by decide), fun hh => absurd hh (by decide)⟩

/-- Nothing is stored in the padding of a `PacketVersion`. -/
lemma padding_versionPacket (stale : Memory) (clientVersion : ℕ) :
    versionPacket stale clientVersion 9 = stale 9 := by
  simp (disch := decide) only [versionPacket, PacketStruct.construct,
    Memory.store_apply_of_disjoint]

/-- What is known of the same bytes where the stack held 0 and where it held 1 differs. -/
lemma some_zero_ne_some_one {o : Option UInt8} (h : o = some 0) (h' : o = some 1) : False :=
  absurd (Option.some.inj (h.symm.trans h')) (by decide)

/-- `SendVersionCheck` sends what the stack held before. -/
lemma not_independent_sendVersionCheck : ¬ Independent sendVersionCheck env := by
  intro hind
  have hsame := hind (fun _ _ => 0) fun _ _ => 1
  simp only [sent, events_sendVersionCheck, List.filterMap_cons, Event.sent, List.filterMap_nil,
    List.cons.injEq, and_true] at hsame
  have hbyte : ∀ v : UInt8, ((versionPacket (fun _ => v) env.clientVersion).read 0 20)[9]? =
      some v := fun v => by
    rw [Memory.getElem?_read _ (by decide), Nat.zero_add, padding_versionPacket]
  exact some_zero_ne_some_one (hbyte 0) ((congrArg (·[9]?) hsame).trans (hbyte 1))

/-- A login that is answered sends what the stack held before. -/
lemma not_independent_handleLoginUser (h : Answered env packet) :
    ¬ Independent (fun env => handleLoginUser env packet) env := by
  intro hind
  have h₀ : Answered (env.withStale fun _ _ => 0) packet := h
  obtain ⟨size, length, bytes, he, hheader⟩ := first_of_answered h₀
  have hmem : bytes ∈ sent (handleLoginUser (env.withStale fun _ _ => 0) packet) :=
    mem_sent.mpr ⟨size, length, mem_events_handleLoginUser.mpr he⟩
  have hsame := hind (fun _ _ => 0) fun _ _ => 1
  simp only at hsame
  rw [hsame] at hmem
  obtain ⟨size', length', he'⟩ := mem_sent.mp hmem
  have hone := leak 1 (mem_events_handleLoginUser.mp he')
  rcases hheader with hh | hh
  · exact some_zero_ne_some_one ((leak 0 he).1 hh) (hone.1 hh)
  · exact some_zero_ne_some_one ((leak 0 he).2 hh) (hone.2 hh)

/-- A login that is not answered sends nothing. -/
lemma sent_of_not_answered (h : ¬ Answered env packet) (stale : LocalObject → Memory) :
    sent (handleLoginUser (env.withStale stale) packet) = [] := by
  apply List.eq_nil_iff_forall_not_mem.mpr
  intro bytes hbytes
  obtain ⟨size, length, he⟩ := mem_sent.mp hbytes
  have ha : Answered (env.withStale stale) packet :=
    answered_of_send (mem_events_handleLoginUser.mp he)
  exact h ha

/-- **Memory that was never written leaves the server, exactly.** What `SendVersionCheck` sends
always depends on what the stack held before. What a login sends depends on it if and only if the
login is answered at all.

**Proof sketch.** The first packet of an answer has bytes that nothing assigns (`leak`), so two
stacks that differ there are told apart. A login that is not answered sends nothing. -/
theorem stale_leak_iff (env : Environment) (packet : List UInt8) :
    ¬ Independent sendVersionCheck env ∧
      (Independent (fun env => handleLoginUser env packet) env ↔ ¬ Answered env packet) := by
  refine ⟨not_independent_sendVersionCheck, ?_⟩
  constructor
  · intro hind h
    exact not_independent_handleLoginUser h hind
  · intro h stale stale'
    show sent (handleLoginUser _ packet) = sent (handleLoginUser _ packet)
    rw [sent_of_not_answered h stale, sent_of_not_answered h stale']

/-- The login of a user that does not exist sends `Message` as the stack held it. -/
theorem stale_leak_fails : ∃ (env : Environment) (packet : List UInt8),
    ¬ Independent (fun env => handleLoginUser env packet) env := by
  refine ⟨.blank, emptyLogin, not_independent_handleLoginUser ?_⟩
  exact ⟨fun _ _ _ => rfl, [], userID_emptyLogin, .inl rfl⟩

/-! ## Packets received -/

/-- What is decided from a packet: its handler, and the texts that `HandleLoginUser` passes to the
database query and to the password check. -/
structure Decision where
  /-- The handler. -/
  handler : Handler
  /-- `UserID`, of a login. -/
  userID : Option (List UInt8)
  /-- `Password`, of a login. -/
  password : Option (List UInt8)

/-- What is decided from the memory of a packet. -/
def decision (packet : List UInt8) : Decision :=
  match (Opcodes.initializePackets.getClientPacket (packetHeader packet)).handler with
  | .handleLoginUser => ⟨.handleLoginUser, userID packet, password packet⟩
  | handler => ⟨handler, none, none⟩

/-- What is decided from a packet does not depend on what `PacketReceiving.Packet` held before;
`above` is the memory above it. -/
def Determined (above bytes : List UInt8) : Prop :=
  ∀ prior prior' : List UInt8, prior.length = packetCapacity → prior'.length = packetCapacity →
    decision (received (prior ++ above) bytes) = decision (received (prior' ++ above) bytes)

variable {above bytes : List UInt8}

/-- A login does nothing else with the packet than it reads its texts. -/
lemma handleLoginUser_congr (env : Environment) {packet packet' : List UInt8}
    (hu : userID packet = userID packet') (hp : password packet = password packet') :
    handleLoginUser env packet = handleLoginUser env packet' := by
  rw [handleLoginUser, handleLoginUser, hu, hp]

/-- The handler that is decided is the one that the header selects. -/
lemma decision_handler (packet : List UInt8) : (decision packet).handler =
    (Opcodes.initializePackets.getClientPacket (packetHeader packet)).handler := by
  rw [decision]
  cases (Opcodes.initializePackets.getClientPacket (packetHeader packet)).handler <;> rfl

/-- What is decided when the handler is that of a login. -/
lemma decision_eq_of_handler {packet : List UInt8}
    (h : (decision packet).handler = .handleLoginUser) :
    decision packet = ⟨.handleLoginUser, userID packet, password packet⟩ := by
  rw [decision_handler] at h
  rw [decision, h]

/-- **The decision decides**: two packets with the same decision are treated alike, unless they are
pings, whose `Length` is read as well. -/
theorem executePacket_congr (env : Environment) {packet packet' : List UInt8}
    (h : decision packet = decision packet') (hping : (decision packet).handler ≠ .handlePing) :
    executePacket env (decision packet).handler packet =
      executePacket env (decision packet').handler packet' := by
  rw [← h]
  cases hhandler : (decision packet).handler with
  | handleLoginUser =>
    have htexts := h
    rw [decision_eq_of_handler hhandler, decision_eq_of_handler (h ▸ hhandler)] at htexts
    exact handleLoginUser_congr env (congrArg Decision.userID htexts)
      (congrArg Decision.password htexts)
  | handlePing => exact absurd hhandler hping
  | handleServerMessage => rfl
  | handleNULL => rfl

/-- What is decided from the memory of a login packet. -/
lemma decision_login {packet : List UInt8}
    (h : packetHeader packet = ClientPacketHeader.loginUser.value) :
    decision packet = ⟨.handleLoginUser, userID packet, password packet⟩ :=
  decision_eq_of_handler (by rw [decision_handler, h]; rfl)

/-- What is decided from the memory of any other packet is its handler. -/
lemma decision_other {packet : List UInt8}
    (h : packetHeader packet ≠ ClientPacketHeader.loginUser.value) :
    decision packet = ⟨(decision packet).handler, none, none⟩ := by
  rw [decision_handler, decision, Opcodes.handler_getClientPacket]
  split_ifs <;> rfl

/-- The memory received from a given offset on: what is left of the bytes, and of the memory
before. -/
lemma drop_received (stack bytes : List UInt8) (n : ℕ) :
    (received stack bytes).drop n = bytes.drop n ++ stack.drop (max bytes.length n) := by
  rw [received, List.drop_append, List.drop_drop]
  congr 2
  omega

/-- Where `PacketReceiving.Packet` held `v` everywhere, `v` follows the bytes. -/
lemma drop_received_replicate {n : ℕ} (hn : n < packetCapacity)
    (hlen : bytes.length < packetCapacity) (v : UInt8) (above : List UInt8) : ∃ rest,
    (received (List.replicate packetCapacity v ++ above) bytes).drop n =
      bytes.drop n ++ v :: rest := by
  obtain ⟨k, hk⟩ : ∃ k, packetCapacity = max bytes.length n + (k + 1) :=
    ⟨packetCapacity - max bytes.length n - 1, by omega⟩
  refine ⟨List.replicate k v ++ above, ?_⟩
  rw [drop_received, hk, List.replicate_add, List.append_assoc,
    List.drop_left' List.length_replicate]
  rfl

/-- A login packet whose `Password` does not end is not determined. -/
lemma not_determined_of_login (h₈ : 8 ≤ bytes.length)
    (hheader : packetHeader bytes = ClientPacketHeader.loginUser.value)
    (hnul : 0 ∉ bytes.drop PacketLoginUser.password) (hlen : bytes.length < packetCapacity) :
    ¬ Determined above bytes := by
  intro hdet
  have hsame := hdet (List.replicate packetCapacity 0) (List.replicate packetCapacity 1)
    List.length_replicate List.length_replicate
  have hlogin : ∀ stack, packetHeader (received stack bytes) =
      ClientPacketHeader.loginUser.value := fun stack => by
    rw [received, packetHeader_append h₈, hheader]
  rw [decision_login (hlogin _), decision_login (hlogin _)] at hsame
  have hpass := congrArg Decision.password hsame
  simp only [password] at hpass
  obtain ⟨rest, hzero⟩ := drop_received_replicate (n := PacketLoginUser.password) (by decide)
    hlen 0 above
  obtain ⟨rest', hone⟩ := drop_received_replicate (n := PacketLoginUser.password) (by decide)
    hlen 1 above
  rw [hzero, hone, cString_append_zero hnul] at hpass
  exact cString_append_ne hnul (by decide) rest' hpass.symm

/-- A packet with a header is determined if it is no login, if its `Password` ends, or if it fills
`PacketReceiving.Packet`. -/
lemma determined_of_header (h₈ : 8 ≤ bytes.length)
    (h : packetHeader bytes = ClientPacketHeader.loginUser.value →
      0 ∈ bytes.drop PacketLoginUser.password ∨ bytes.length = packetCapacity) :
    Determined above bytes := by
  intro prior prior' hprior hprior'
  have hheader : ∀ stack, packetHeader (received stack bytes) = packetHeader bytes :=
    fun stack => packetHeader_append h₈ _
  by_cases hlogin : packetHeader bytes = ClientPacketHeader.loginUser.value
  · rw [decision_login (by rw [hheader, hlogin]), decision_login (by rw [hheader, hlogin])]
    rcases h hlogin with hnul | hfull
    · have hnul' : 0 ∈ bytes.drop PacketLoginUser.userID := by
        have hsub : bytes.drop PacketLoginUser.password =
            (bytes.drop PacketLoginUser.userID).drop 32 := by rw [List.drop_drop]; rfl
        exact List.mem_of_mem_drop (hsub ▸ hnul)
      simp only [userID, password, drop_received, cString_append_of_mem hnul,
        cString_append_of_mem hnul']
    · have hsame : received (prior ++ above) bytes = received (prior' ++ above) bytes := by
        rw [received, received, List.drop_append_of_le_length (by omega),
          List.drop_append_of_le_length (by omega), List.drop_eq_nil_of_le (by omega),
          List.drop_eq_nil_of_le (by omega)]
      rw [hsame]
  · have hother : ∀ stack, decision (received stack bytes) =
        ⟨(Opcodes.initializePackets.getClientPacket (packetHeader bytes)).handler, none, none⟩ := by
      intro stack
      rw [decision_other (by rwa [hheader]), decision_handler, hheader]
    rw [hother, hother]

/-- The header of fewer than eight bytes is completed from the memory before. -/
lemma packetHeader_received {stack : List UInt8} (h₈ : bytes.length < 8)
    (hstack : 8 ≤ stack.length) : ∃ q, (bytes.drop PacketStruct.packetHeader ++ q).length = 4 ∧
    packetHeader (received stack bytes) = leNat (bytes.drop PacketStruct.packetHeader ++ q) := by
  refine ⟨(stack.drop (max bytes.length 4)).take (4 - (bytes.length - 4)), ?_, ?_⟩
  · simp only [PacketStruct.packetHeader, List.length_append, List.length_drop, List.length_take]
    omega
  · rw [packetHeader, drop_received, List.take_append, List.take_of_length_le]
    · simp [PacketStruct.packetHeader]
    · simp only [PacketStruct.packetHeader, List.length_drop]
      omega

/-- Any completion of the header can have been there before. -/
lemma exists_prior (h₈ : bytes.length < 8) {q : List UInt8}
    (hq : (bytes.drop PacketStruct.packetHeader ++ q).length = 4) (above : List UInt8) :
    ∃ prior : List UInt8, prior.length = packetCapacity ∧
      packetHeader (received (prior ++ above) bytes) =
        leNat (bytes.drop PacketStruct.packetHeader ++ q) := by
  have hlen : max bytes.length PacketStruct.packetHeader + q.length = 8 := by
    simp only [PacketStruct.packetHeader, List.length_append, List.length_drop] at hq ⊢
    omega
  refine ⟨List.replicate (max bytes.length PacketStruct.packetHeader) 0 ++ q ++
    List.replicate (packetCapacity - 8) 0, ?_, ?_⟩
  · simp only [List.length_append, List.length_replicate, hlen]
    rfl
  · rw [packetHeader, drop_received, List.append_assoc, List.append_assoc,
      List.drop_left' List.length_replicate, ← List.append_assoc,
      List.take_append_of_le_length (Nat.le_of_eq hq.symm),
      List.take_of_length_le (Nat.le_of_eq hq)]

/-- The memory before can complete a packet without a whole header to one that no handler is for:
with bytes 255, as neither the header of a login nor that of a ping ends with one. -/
lemma exists_prior_handleNULL (h₈ : bytes.length < 8) (above : List UInt8) :
    ∃ prior : List UInt8, prior.length = packetCapacity ∧
      (decision (received (prior ++ above) bytes)).handler = .handleNULL := by
  obtain ⟨m, hm⟩ : ∃ m, (bytes.drop PacketStruct.packetHeader).length + m + 1 = 4 :=
    ⟨3 - (bytes.length - 4), by simp only [List.length_drop, PacketStruct.packetHeader]; omega⟩
  have hlen : (bytes.drop PacketStruct.packetHeader ++ (List.replicate m 255 ++ [255])).length =
      4 := by
    simpa only [List.length_append, List.length_replicate, List.length_singleton, ← Nat.add_assoc]
  obtain ⟨prior, hprior, hheader⟩ := exists_prior h₈ hlen above
  have hlast : ∀ n, (leBytes 4 n).getLast? ≠ some 255 →
      bytes.drop PacketStruct.packetHeader ++ (List.replicate m 255 ++ [255]) ≠ leBytes 4 n := by
    rintro n hn heq
    exact hn (by rw [← heq, ← List.append_assoc, List.getLast?_concat])
  refine ⟨prior, hprior, ?_⟩
  rw [decision_handler, Opcodes.handler_eq_handleNULL_iff, hheader, ne_eq, ne_eq,
    leNat_eq_iff hlen (by decide), leNat_eq_iff hlen (by decide)]
  exact ⟨hlast _ (by decide), hlast _ (by decide)⟩

/-- There is no handler for a packet without a whole header that the memory before can complete
neither to the header of a login nor to that of a ping. -/
lemma decision_of_no_completion (h₈ : bytes.length < 8)
    (hlogin : ¬ bytes.drop PacketStruct.packetHeader <+:
      leBytes 4 ClientPacketHeader.loginUser.value)
    (hping : ¬ bytes.drop PacketStruct.packetHeader <+: leBytes 4 ClientPacketHeader.ping.value)
    {prior : List UInt8} (hprior : prior.length = packetCapacity) :
    decision (received (prior ++ above) bytes) = ⟨.handleNULL, none, none⟩ := by
  have hlong : 8 ≤ (prior ++ above).length := by
    rw [List.length_append, hprior]
    exact Nat.le_add_right_of_le (by decide)
  obtain ⟨q, hq, hheader⟩ := packetHeader_received h₈ hlong
  have hne : packetHeader (received (prior ++ above) bytes) ≠
        ClientPacketHeader.loginUser.value ∧
      packetHeader (received (prior ++ above) bytes) ≠ ClientPacketHeader.ping.value := by
    rw [hheader, ne_eq, ne_eq, leNat_eq_iff hq (by decide), leNat_eq_iff hq (by decide)]
    constructor
    · intro heq
      exact hlogin ⟨q, heq⟩
    · intro heq
      exact hping ⟨q, heq⟩
  rw [decision_other hne.1, decision_handler, (Opcodes.handler_eq_handleNULL_iff _).mpr hne]

/-- A packet without a whole header is determined exactly when the memory before can complete it
neither to the header of a login nor to that of a ping.

**Proof sketch.** It can always be completed to a packet that no handler is for
(`exists_prior_handleNULL`), so the memory before decides as soon as it can complete one of the two;
and otherwise there never is a handler (`decision_of_no_completion`). -/
lemma determined_iff_of_lt (h₈ : bytes.length < 8) : Determined above bytes ↔
    ¬ bytes.drop PacketStruct.packetHeader <+: leBytes 4 ClientPacketHeader.loginUser.value ∧
      ¬ bytes.drop PacketStruct.packetHeader <+: leBytes 4 ClientPacketHeader.ping.value := by
  constructor
  · intro hdet
    obtain ⟨prior, hprior, hnull⟩ := exists_prior_handleNULL h₈ above
    have hcomplete : ∀ n < 256 ^ 4,
        (Opcodes.initializePackets.getClientPacket n).handler ≠ .handleNULL →
        ¬ bytes.drop PacketStruct.packetHeader <+: leBytes 4 n := by
      rintro n hn hhandler ⟨q, hq⟩
      obtain ⟨prior', hprior', hheader'⟩ :=
        exists_prior h₈ (q := q) (by rw [hq, length_leBytes]) above
      rw [hq, leNat_leBytes_of_lt hn] at hheader'
      rw [← hheader', ← decision_handler, ← hdet prior prior' hprior hprior'] at hhandler
      exact hhandler hnull
    exact ⟨hcomplete _ (by decide) (by decide), hcomplete _ (by decide) (by decide)⟩
  · rintro ⟨hlogin, hping⟩ prior prior' hprior hprior'
    rw [decision_of_no_completion h₈ hlogin hping hprior,
      decision_of_no_completion h₈ hlogin hping hprior']

/-- **Dispatch depends on what the client sent, exactly when**: without a whole header, if what
there is of it starts neither that of a login nor that of a ping; with one, if it is not that of a
login, or a NUL ends the `Password`, or nothing of `PacketReceiving.Packet` is left as it was.

**Proof sketch.** Without a whole header, what the memory held can complete that of a handler
(`determined_iff_of_lt`). With that of a login and no NUL, what it held goes into the `Password`
(`not_determined_of_login`). -/
theorem determined_iff (above bytes : List UInt8) (h : bytes.length ≤ packetCapacity) :
    Determined above bytes ↔
      (bytes.length < 8 ∧
        ¬ bytes.drop PacketStruct.packetHeader <+:
          leBytes 4 ClientPacketHeader.loginUser.value ∧
        ¬ bytes.drop PacketStruct.packetHeader <+: leBytes 4 ClientPacketHeader.ping.value) ∨
      (8 ≤ bytes.length ∧ (packetHeader bytes = ClientPacketHeader.loginUser.value →
        0 ∈ bytes.drop PacketLoginUser.password ∨ bytes.length = packetCapacity)) := by
  rcases Nat.lt_or_ge bytes.length 8 with h₈ | h₈
  · rw [determined_iff_of_lt h₈]
    constructor
    · intro hne
      exact .inl ⟨h₈, hne⟩
    · rintro (⟨-, hne⟩ | ⟨hle, -⟩)
      · exact hne
      · omega
  · constructor
    · intro hdet
      refine .inr ⟨h₈, ?_⟩
      intro hlogin
      by_cases hnul : 0 ∈ bytes.drop PacketLoginUser.password
      · exact .inl hnul
      refine .inr ?_
      by_contra hne
      exact not_determined_of_login h₈ hlogin hnul (Nat.lt_of_le_of_ne h hne) hdet
    · rintro (⟨hlt, -⟩ | ⟨-, hlogin⟩)
      · omega
      · exact determined_of_header h₈ hlogin

/-- A login whose texts end in it is determined, whatever is in memory above it. -/
theorem determined_iff_login : Determined [67, 68] (leBytes 2 54 ++ [0, 0] ++
    leBytes 4 ClientPacketHeader.loginUser.value ++ List.replicate 12 0 ++
    65 :: List.replicate 31 0 ++ [66, 0]) :=
  (determined_iff [67, 68] _ (by decide)).mpr (.inr ⟨by decide, fun _ => .inl (by decide)⟩)

/-- The header of a login alone is answered from what an earlier packet left. -/
theorem determined_fails : ∃ above bytes : List UInt8,
    bytes.length ≤ packetCapacity ∧ ¬ Determined above bytes :=
  ⟨[], [8, 0, 0, 0, 1, 0, 0x48, 0x48], by decide,
    not_determined_of_login (by decide) (by decide) (by decide) (by decide)⟩

end SteerStone
