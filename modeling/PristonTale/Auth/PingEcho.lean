import PristonTale.Auth.SendBound

set_option relaxedAutoImplicit false
set_option autoImplicit false

/-!
# The answer to a ping

Whether a ping is answered with the packet that was received. `HandlePing` casts the address of its
parameter, a pointer, so it compares, changes and sends the pointer and the memory above it: the
length it tests is the low half of the address of the packet.

## Main definitions

* `SteerStone.Echoed` — at the address it has, a packet is answered as a ping should be.
* `SteerStone.AddressIndependent` — what is done with a packet does not depend on its address.
* `SteerStone.PingCorrect` — both.

## Main results

* `SteerStone.echoed_iff` — at which addresses a packet is answered as it should be.
* `SteerStone.pingCorrect_iff` — what is done always depends on the address.
-/

namespace SteerStone

open Foundations

/-- The `Length` that a packet has. -/
def ownLength (packet : List UInt8) : ℕ := leNat (packet.take 2)

/-- No more than `PongTimer` has passed. -/
def InPongWindow (env : Environment) : Prop := env.serverTime - env.pingDiff ≤ env.pongTimer

/-- A packet is answered as a ping should be: one with the length of a ping is sent back with the
tick count in `Tick`, on any other nothing is done. -/
structure Echoed (env : Environment) (packet : List UInt8) : Prop where
  /-- A ping is sent back. -/
  echo : ownLength packet = packetPing.sizeof → InPongWindow env → ∃ size,
    (handlePing env packet).events 0 =
      [.send size packetPing.sizeof (packet.take PacketPing.tick ++ leBytes 4 env.tickCount)]
  /-- Any other packet is ignored. -/
  silent : ownLength packet ≠ packetPing.sizeof → (handlePing env packet).events 0 = []

/-- An address that a packet can be stored at: none in the first 64 KiB, and it fits a pointer. -/
def Storable (env : Environment) (a : ℕ) : Prop := 65536 ≤ a ∧ a < 256 ^ env.pointerSize.bytes

/-- What is done with a packet is the same at every address. -/
def AddressIndependent (env : Environment) (packet : List UInt8) : Prop :=
  ∀ a a', Storable env a → Storable env a' →
    (handlePing { env with packetAddress := a } packet).events 0 =
      (handlePing { env with packetAddress := a' } packet).events 0

/-- A packet is answered as a ping should be, and in both cases whatever its address is. -/
structure PingCorrect (env : Environment) (packet : List UInt8) : Prop extends
    Echoed env packet where
  /-- The address does not matter. -/
  independent : (ownLength packet = packetPing.sizeof → InPongWindow env) →
    AddressIndependent env packet

variable {env : Environment} {packet : List UInt8}

/-! ## What is done -/

/-- The length that is tested is the low half of the address. -/
lemma load_length_pointer (env : Environment) :
    ((env.stale .packetPointer).store env.pointerSize.bytes 0 env.packetAddress).load 2
      PacketStruct.length = env.packetAddress % 65536 := by
  have hsize : 2 ≤ env.pointerSize.bytes := by cases env.pointerSize <;> decide
  exact Memory.load_store_of_le _ hsize 0 _

/-- Nothing is done at an address whose low half is not the length of a ping. -/
lemma events_handlePing_of_ne (h : env.packetAddress % 65536 ≠ 16) :
    (handlePing env packet).events 0 = [] := by
  simp only [handlePing, load_length_pointer, layout_packetPing.2, if_pos h]
  rfl

/-- The pointer and what is above it are sent at any other, as many bytes as the packet says. -/
lemma events_handlePing_of_eq (h : env.packetAddress % 65536 = 16) (hwindow : InPongWindow env) :
    (handlePing env packet).events 0 = [.send env.pointerSize.bytes (ownLength packet)
      ((pongMemory env).read 0 (ownLength packet))] := by
  have htime : ¬ env.pongTimer < env.serverTime - env.pingDiff := UInt32.not_lt.mpr hwindow
  simp only [handlePing, load_length_pointer, layout_packetPing.2, if_neg (not_not.mpr h),
    if_neg htime]
  rfl

/-- At any other address, something is done. -/
lemma events_handlePing_ne_nil (h : env.packetAddress % 65536 = 16) :
    (handlePing env packet).events 0 ≠ [] := by
  intro hnil
  have hnone : ∀ e, e ∉ (handlePing env packet).events 0 := by simp [hnil]
  by_cases hwindow : env.serverTime - env.pingDiff ≤ env.pongTimer
  · exact hnone _ (mem_events_handlePing.mpr ⟨h, .inr ⟨hwindow, rfl⟩⟩)
  · exact hnone _ (mem_events_handlePing.mpr ⟨h, .inl ⟨UInt32.not_le.mp hwindow, rfl⟩⟩)

/-- The sixteen bytes from the pointer on: the pointer, what the stack held above it, and the tick
count. -/
lemma read_pongMemory (env : Environment) : (pongMemory env).read 0 16 =
    leBytes env.pointerSize.bytes env.packetAddress ++
      (env.stale .packetPointer).read env.pointerSize.bytes (12 - env.pointerSize.bytes) ++
      leBytes 4 env.tickCount := by
  have hsplit : 12 = env.pointerSize.bytes + (12 - env.pointerSize.bytes) := by
    cases env.pointerSize <;> rfl
  have hpointer : ((env.stale .packetPointer).store env.pointerSize.bytes 0
      env.packetAddress).read 0 env.pointerSize.bytes =
        leBytes env.pointerSize.bytes env.packetAddress := by
    have hwrite := (env.stale .packetPointer).read_write 0
      (leBytes env.pointerSize.bytes env.packetAddress)
    rwa [length_leBytes] at hwrite
  have htick : (pongMemory env).read 12 4 = leBytes 4 env.tickCount := by
    have hwrite := ((env.stale .packetPointer).store env.pointerSize.bytes 0
      env.packetAddress).read_write 12 (leBytes 4 env.tickCount)
    rwa [length_leBytes] at hwrite
  have hbelow : (pongMemory env).read 0 12 = ((env.stale .packetPointer).store
      env.pointerSize.bytes 0 env.packetAddress).read 0 12 :=
    Memory.read_store_of_disjoint _ (.inl (by decide))
  rw [show 16 = 12 + 4 from rfl, Memory.read_add, Nat.zero_add, htick, hbelow, hsplit,
    Memory.read_add, hpointer, Nat.zero_add, ← hsplit,
    Memory.read_store_of_disjoint _ (.inr (by omega))]

/-! ## When it is right -/

/-- The bytes of a ping that must be sent back as they are start with its address. -/
def PointerMatches (env : Environment) (packet : List UInt8) : Prop :=
  packet.take PacketPing.tick = leBytes env.pointerSize.bytes env.packetAddress ++
    (env.stale .packetPointer).read env.pointerSize.bytes (12 - env.pointerSize.bytes)

/-- A packet that starts with its address has the low half of it as its length. -/
lemma ownLength_of_matches (h : PointerMatches env packet) :
    ownLength packet = env.packetAddress % 65536 := by
  have hsize : 2 ≤ env.pointerSize.bytes := by cases env.pointerSize <;> decide
  have htake : packet.take 2 = (packet.take PacketPing.tick).take 2 := by
    rw [List.take_take]
    rfl
  rw [ownLength, htake, h, List.take_append_of_le_length (by rwa [length_leBytes]),
    take_leBytes _ hsize, leNat_leBytes]
  rfl

/-- **A packet is answered as it should be exactly when** a ping in time starts, up to `Tick`, with
the bytes of its own address and of what the stack held above the pointer, and the low half of the
address of any other packet is not the length of a ping.

**Proof sketch.** At an address with another low half nothing is done, which is right for all but
pings. At an address with this one the pointer is sent, which is right if it is the packet. -/
theorem echoed_iff (env : Environment) (packet : List UInt8) : Echoed env packet ↔
    (ownLength packet = packetPing.sizeof → InPongWindow env → PointerMatches env packet) ∧
      (ownLength packet ≠ packetPing.sizeof → env.packetAddress % 65536 ≠ 16) := by
  rw [layout_packetPing.2]
  constructor
  · intro h
    refine ⟨?_, ?_⟩
    · intro hlen hwindow
      obtain ⟨size, hevents⟩ := h.echo (hlen.trans layout_packetPing.2.symm) hwindow
      by_cases haddress : env.packetAddress % 65536 = 16
      · rw [events_handlePing_of_eq haddress hwindow, hlen, read_pongMemory] at hevents
        have hbytes := (Event.send.inj (List.singleton_inj.mp hevents)).2.2
        exact (List.append_cancel_right hbytes).symm
      · rw [events_handlePing_of_ne haddress] at hevents
        cases hevents
    · intro hlen haddress
      exact events_handlePing_ne_nil haddress (h.silent (by rwa [layout_packetPing.2]))
  · rintro ⟨hping, hother⟩
    refine ⟨?_, ?_⟩
    · intro hlen hwindow
      rw [layout_packetPing.2] at hlen
      have hmatches := hping hlen hwindow
      have haddress : env.packetAddress % 65536 = 16 := by
        rw [← ownLength_of_matches hmatches, hlen]
      refine ⟨env.pointerSize.bytes, ?_⟩
      rw [events_handlePing_of_eq haddress hwindow, hlen, read_pongMemory, ← hmatches,
        layout_packetPing.2]
    · intro hlen
      rw [layout_packetPing.2] at hlen
      exact events_handlePing_of_ne (hother hlen)

/-- What is done depends on the address: something is at `0x10010`, nothing at `0x10000`. -/
lemma not_addressIndependent (env : Environment) (packet : List UInt8) :
    ¬ AddressIndependent env packet := by
  intro h
  have hsize : 65552 < 256 ^ env.pointerSize.bytes := by cases env.pointerSize <;> decide
  have hsilent : (handlePing { env with packetAddress := 0x10000 } packet).events 0 = [] :=
    events_handlePing_of_ne (show 0x10000 % 65536 ≠ 16 by decide)
  have hloud : (handlePing { env with packetAddress := 0x10010 } packet).events 0 ≠ [] :=
    events_handlePing_ne_nil (show 0x10010 % 65536 = 16 from rfl)
  exact hloud ((h _ _ ⟨by omega, hsize⟩ ⟨Nat.le_refl _, by omega⟩).trans hsilent)

/-- **A ping is never answered whatever its address is**: of a packet with the length of a ping in
time, and of any packet with another length, what is done depends on the address. At a given
address, it is right exactly as `echoed_iff` says.

**Proof sketch.** Something is done at one address and nothing at another
(`not_addressIndependent`), so only a ping that comes late is handled right at each. -/
theorem pingCorrect_iff (env : Environment) (packet : List UInt8) :
    (PingCorrect env packet ↔ ownLength packet = packetPing.sizeof ∧ ¬ InPongWindow env) ∧
      (Echoed env packet ↔
        (ownLength packet = packetPing.sizeof → InPongWindow env → PointerMatches env packet) ∧
          (ownLength packet ≠ packetPing.sizeof → env.packetAddress % 65536 ≠ 16)) := by
  refine ⟨?_, echoed_iff env packet⟩
  constructor
  · intro h
    by_contra hscope
    rw [not_and_not_right] at hscope
    exact not_addressIndependent env packet (h.independent hscope)
  · rintro ⟨hlen, hlate⟩
    refine ⟨⟨?_, ?_⟩, ?_⟩
    · intro _ hwindow
      exact absurd hwindow hlate
    · intro hne
      exact absurd hlen hne
    · intro hscope
      exact absurd (hscope hlen) hlate

/-- A ping of sixteen bytes. -/
def ping : List UInt8 :=
  leBytes 2 16 ++ [0, 0] ++ leBytes 4 ClientPacketHeader.ping.value ++ List.replicate 8 0

/-- A ping in time that is stored at `0x7ffd1000` is not answered. -/
theorem pingCorrect_fails : ∃ (env : Environment) (packet : List UInt8),
    ownLength packet = packetPing.sizeof ∧ InPongWindow env ∧
      (handlePing env packet).events 0 = [] ∧ ¬ Echoed env packet ∧ ¬ PingCorrect env packet := by
  have hnone : (handlePing { Environment.blank with packetAddress := 0x7ffd1000 } ping).events 0 =
      [] := events_handlePing_of_ne (by decide)
  have hnot : ¬ Echoed { Environment.blank with packetAddress := 0x7ffd1000 } ping := by
    intro h
    obtain ⟨size, hevents⟩ := h.echo (by decide) (by unfold InPongWindow; decide)
    rw [hnone] at hevents
    cases hevents
  exact ⟨_, ping, by decide, by unfold InPongWindow; decide, hnone, hnot, fun h => hnot h.toEchoed⟩

end SteerStone
