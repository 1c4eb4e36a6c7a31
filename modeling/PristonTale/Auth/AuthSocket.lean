import PristonTale.Auth.Packets
import PristonTale.Network.SocketRead

set_option relaxedAutoImplicit false
set_option autoImplicit false

/-!
# The client sockets of the authentication server

`AuthSocket` (`AuthServer/Auth/AuthSocket.cpp`), the class the server derives from `Socket`: it
takes everything there is to read for one packet and runs the handler its header selects.

## Main definitions

* `SteerStone.sendVersionCheck` — the packet sent to a new client.
* `SteerStone.received` — the memory of a packet that is received.
* `SteerStone.executePacket` — the handler a header selects.
* `SteerStone.authSocket` — the derived class; its state is the list of packets it has dispatched.

## Main results

* `SteerStone.authSocket_conforms` — it takes bytes as `OnRead` asks.

## Implementation notes

* `DecryptPacket` returns a pointer to a local object. Its memory is taken to keep its contents
  until the handler returns.
* A handler that stops on the way ends the thread that runs it. The derived class goes on all the
  same, so its runs include all those of the server.
-/

namespace SteerStone

open Foundations

/-- The `PacketVersion` of `SendVersionCheck`. -/
def versionPacket (stale : Memory) (clientVersion : ℕ) : Memory :=
  PacketStruct.construct stale
    |>.store 2 PacketStruct.length packetVersion.sizeof
    |>.store 4 PacketStruct.packetHeader ServerPacketHeader.version.value
    |>.store 1 PacketVersion.serverFull 0
    |>.store 4 PacketVersion.unk2 0
    |>.store 1 PacketStruct.encKeyIndex 0
    |>.store 1 PacketStruct.encrypted 0
    |>.store 4 PacketVersion.version clientVersion

/-- `SendVersionCheck`. -/
def sendVersionCheck (env : Environment) : Action Unit :=
  let version := versionPacket (env.stale .packetVersion) env.clientVersion
  sendPacket packetVersion.sizeof version (version.load 2 PacketStruct.length)

/-- The memory from `PacketReceiving.Packet` upward once `bytes` have been copied there; `stack` is
what it held before. -/
def received (stack bytes : List UInt8) : List UInt8 := bytes ++ stack.drop bytes.length

/-- `DecryptPacket`: the bytes it copies, all there are to read. It returns null when `Read`
refuses. -/
def decryptPacket (s : Socket) : Option (List UInt8) :=
  if (s.read s.readLengthRemaining).1 then
    some (s.inBuffer.read s.readLengthRemaining).1
  else none

/-- `ExecutePacket`. -/
def executePacket (env : Environment) (handler : Handler) (packet : List UInt8) : Action Unit :=
  match handler with
  | .handleLoginUser => handleLoginUser env packet
  | .handlePing => handlePing env packet
  | .handleServerMessage => pure ()
  | .handleNULL => pure ()

/-- The member function of `Socket` that an event calls. -/
def Event.call : Event → Option Call
  | .send _ _ bytes => some (.write bytes)
  | .executeQuery _ _ => none
  | .closeSocket => some .closeSocket

/-- A packet as it is dispatched: the header that selects its handler, and the bytes that
`DecryptPacket` copied. -/
structure Dispatch where
  /-- `PacketHeader`. -/
  header : ℕ
  /-- The bytes. -/
  bytes : List UInt8
  deriving DecidableEq, Repr

/-- The bytes of a list dispatched as one packet. -/
def toDispatch (stack bytes : List UInt8) : Dispatch :=
  ⟨packetHeader (received stack bytes), bytes⟩

/-- The class `AuthSocket`. The environment and the contents of the stack are those of the packet
with the number given; the version packet is sent in an environment of its own. -/
def authSocket (env : ℕ → Environment) (stack : ℕ → List UInt8) (opening : Environment) :
    Derived (List Dispatch) where
  processIncomingData log s :=
    let take := Call.read s.readLengthRemaining
    match decryptPacket s with
    | none => ⟨[take], false, .other, log⟩
    | some bytes =>
      let packet := received (stack log.length) bytes
      let handler := (Opcodes.initializePackets.getClientPacket (packetHeader packet)).handler
      let events := (executePacket (env log.length) handler packet).events 0
      ⟨take :: events.filterMap Event.call, true, .other,
        log ++ [toDispatch (stack log.length) bytes]⟩
  sendVersionCheck := ((sendVersionCheck opening).events 0).filterMap Event.sent

/-- The version packet announces its size. -/
lemma length_versionPacket (stale : Memory) (clientVersion : ℕ) :
    (versionPacket stale clientVersion).load 2 PacketStruct.length = 20 := by
  simp (disch := decide) only [versionPacket, Memory.load_store_of_disjoint, Memory.load_store]
  decide

/-- What `SendVersionCheck` sends. -/
lemma events_sendVersionCheck (env : Environment) (n : ℕ) : (sendVersionCheck env).events n =
    [.send 20 20 ((versionPacket (env.stale .packetVersion) env.clientVersion).read 0 20)] := by
  rw [sendVersionCheck, length_versionPacket, layout_packetVersion.2]
  rfl

/-! ## The protocol of `ProcessIncomingData` -/

/-- `DecryptPacket` never fails: it asks for what there is. -/
lemma decryptPacket_eq (s : Socket) :
    decryptPacket s = some (s.inBuffer.read s.readLengthRemaining).1 := by
  simp [decryptPacket, Socket.read]

/-- What a handler does takes nothing from the socket. -/
lemma leftAfter_handler (n : ℕ) (events : List Event) :
    leftAfter n (events.filterMap Event.call) = n ∧
      SkipsWithin n (events.filterMap Event.call) := by
  induction events with
  | nil => exact ⟨rfl, trivial⟩
  | cons e events ih =>
    cases e with
    | send size length bytes => exact ih
    | executeQuery sql parameters => exact ih
    | closeSocket => exact ih

/-- **`AuthSocket` conforms**: it takes everything and returns true. -/
theorem authSocket_conforms (env : ℕ → Environment) (stack : ℕ → List UInt8)
    (opening : Environment) : (authSocket env stack opening).Conforms where
  within log s := by
    simp only [authSocket, decryptPacket_eq, SkipsWithin, lt_irrefl, if_false]
    exact (leftAfter_handler _ _).2
  all_taken log s _ := by
    simp only [authSocket, decryptPacket_eq, leftAfter, lt_irrefl, if_false, Nat.sub_self]
    exact (leftAfter_handler _ _).1
  ebadmsg log s h := by
    simp [authSocket, decryptPacket_eq] at h

end SteerStone
