import PristonTale.Auth.AuthSocket
import PristonTale.Auth.LoginEvents

set_option relaxedAutoImplicit false
set_option autoImplicit false

/-!
# The lengths passed to `SendPacket`

`SendPacket` copies as many bytes as its second argument says, from an object to
`PacketSending.Packet`. Two of its callers pass a length that the code does not fix: the list of
servers, whose length grows with the table of realms and is added up in a `uint16`, and the answer
to a ping, which sends as many bytes of the pointer to the packet as the packet says.

## Main definitions

* `SteerStone.InBounds` — the length of a call of `SendPacket` fits both objects.

## Main results

* `SteerStone.mem_events_handlePing` — what a ping does.
* `SteerStone.send_bound_iff` — the exact conditions under which every call is in bounds.
-/

namespace SteerStone

open Foundations

/-- A call of `SendPacket` copies no more bytes than the object it is given has, and no more than
`PacketSending.Packet` has room for. -/
def InBounds : Event → Prop
  | .send size length _ => length ≤ packetCapacity ∧ length ≤ size
  | _ => True

variable (env : Environment) (packet : List UInt8)

/-- A ping is answered: the low half of the address of the packet is `sizeof(PacketPing)`, and no
more than `PongTimer` has passed. -/
def EchoesPing : Prop :=
  env.packetAddress % 65536 = 16 ∧ env.serverTime - env.pingDiff ≤ env.pongTimer

/-- The answer to a login reaches the list of servers: the login is accepted, there is a realm, no
call of the driver throws before, and nothing that is written before does harm to the frame. -/
def SendsServerList : Prop :=
  ∃ row rest realm realms, Accepted env packet row rest ∧ UserFits env row ∧
    realmRows env = realm :: realms ∧ ListFits env realm realms ∧
    QuietBesidesUpdate env (18 + 5 * (realms.length + 1))

/-- The memory that a ping is answered with: the pointer, and the tick count above it. -/
def pongMemory : Memory :=
  ((env.stale .packetPointer).store env.pointerSize.bytes 0 env.packetAddress).store 4
    PacketPing.tick env.tickCount

variable {env packet}

/-- **What a ping does.** The test of the length reads the address of the packet. -/
theorem mem_events_handlePing {e : Event} {n : ℕ} :
    e ∈ (handlePing env packet).events n ↔
      env.packetAddress % 65536 = 16 ∧
        ((env.pongTimer < env.serverTime - env.pingDiff ∧ e = .closeSocket) ∨
          (env.serverTime - env.pingDiff ≤ env.pongTimer ∧
            e = .send env.pointerSize.bytes (leNat (packet.take 2))
              ((pongMemory env).read 0 (leNat (packet.take 2))))) := by
  have hsize : 2 ≤ env.pointerSize.bytes := by cases env.pointerSize <;> decide
  have hload : ((env.stale .packetPointer).store env.pointerSize.bytes 0 env.packetAddress).load 2
      PacketStruct.length = env.packetAddress % 65536 := Memory.load_store_of_le _ hsize 0 _
  simp only [handlePing, hload, layout_packetPing.2, Program.mem_events_ite]
  split_ifs with haddress htime
  · simp [haddress]
  · have hle : ¬ env.serverTime - env.pingDiff ≤ env.pongTimer := UInt32.not_le.mpr htime
    simp [not_ne_iff.mp haddress, htime, hle]
  · have hle : env.serverTime - env.pingDiff ≤ env.pongTimer := UInt32.not_lt.mp htime
    simp [not_ne_iff.mp haddress, htime, hle, pongMemory]

variable (env packet)

/-- **The send bound, exactly.** `SendVersionCheck` is always in bounds. `HandleLoginUser`, with
`SendUserSuccess`, is in bounds if and only if the list of servers, when it is sent, announces no
more bytes than it has: that is 44 and 108 for each realm, modulo 2 ^ 16. `HandlePing` is in bounds
if and only if the length in the packet, when it is answered, is no more than the size of a
pointer.

**Proof sketch.** The lengths are read off the lists of events; all but those two are the sizes of
their objects. -/
theorem send_bound_iff :
    (∀ e ∈ (sendVersionCheck env).events 0, InBounds e) ∧
      ((∀ e ∈ (handleLoginUser env packet).events 0, InBounds e) ↔
        (SendsServerList env packet → (44 + 108 * (realmRows env).length) % 2 ^ 16 ≤ 476)) ∧
      ((∀ e ∈ (handlePing env packet).events 0, InBounds e) ↔
        (EchoesPing env → leNat (packet.take 2) ≤ env.pointerSize.bytes)) := by
  refine ⟨?_, ?_, ?_⟩
  · simp [events_sendVersionCheck, InBounds, packetCapacity]
  · constructor
    · rintro hall ⟨row, rest, realm, realms, ha, hfits, hr, hlist, hq⟩
      rw [hr, List.length_cons]
      exact (hall _ (mem_events_handleLoginUser.mpr (.serverList ha hr hq hfits hlist))).2
    · intro hlist e he
      cases mem_events_handleLoginUser.mp he with
      | select | update | selectRealms => trivial
      | incorrectName | incorrectPassword | checkSum | userInfo =>
        simp [InBounds, packetCapacity]
      | serverList ha hr hq hfits hroom =>
        have hle := hlist ⟨_, _, _, _, ha, hfits, hr, hroom, hq⟩
        rw [hr, List.length_cons] at hle
        exact ⟨Nat.le_trans hle (by decide), hle⟩
  · have hsize : env.pointerSize.bytes ≤ packetCapacity := by cases env.pointerSize <;> decide
    constructor
    · rintro hall ⟨haddress, htime⟩
      exact (hall _ (mem_events_handlePing.mpr ⟨haddress, .inr ⟨htime, rfl⟩⟩)).2
    · intro hping e he
      obtain ⟨haddress, ⟨-, rfl⟩ | ⟨htime, rfl⟩⟩ := mem_events_handlePing.mp he
      · trivial
      · have hle := hping ⟨haddress, htime⟩
        exact ⟨Nat.le_trans hle hsize, hle⟩

/-- A server with one account and five realms, in whose frame there is something above the list of
servers that is not used again. -/
def fiveRealms : Environment :=
  (oneAccount (List.replicate 40 48) (List.replicate 5 ⟨fun _ => [], fun _ => 0⟩)).withSpare
    fun _ => 108

/-- Five realms announce 584 bytes of a list of servers that has 476. -/
theorem send_bound_fails : ∃ (env : Environment) (packet : List UInt8),
    ∃ e ∈ (handleLoginUser env packet).events 0, ¬ InBounds e := by
  have ha := accepted_oneAccount (List.replicate 40 48)
    (List.replicate 5 ⟨fun _ => [], fun _ => 0⟩) (by decide)
  have hlist : ListFits fiveRealms ⟨fun _ => [], fun _ => 0⟩
      (List.replicate 4 ⟨fun _ => [], fun _ => 0⟩) := by decide
  refine ⟨fiveRealms, emptyLogin, _, mem_events_handleLoginUser.mpr
    (.serverList ⟨ha.quiet, ha.matching⟩ rfl ⟨fun _ _ _ => rfl, fun _ _ _ => rfl⟩ (by decide)
      hlist), fun h => ?_⟩
  exact absurd h.2 (by decide)

end SteerStone
