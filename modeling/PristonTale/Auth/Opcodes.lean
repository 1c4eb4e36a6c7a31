import PristonTale.Common.OpcodeTables

set_option relaxedAutoImplicit false
set_option autoImplicit false

/-!
# Opcodes

The packet headers and the tables that map them to handlers (`AuthServer/Opcode/Opcodes.cpp`).

## Main definitions

* `SteerStone.Opcodes` — the two tables; `SteerStone.Opcodes.initializePackets` fills them.
* `SteerStone.Opcodes.getClientPacket`, `SteerStone.Opcodes.getServerPacket` — the handler of a
  header.

## Main results

* `SteerStone.Opcodes.handler_getClientPacket` — which handler a header selects.
-/

namespace SteerStone

open Foundations

/-- `ClientPacketHeader`. -/
inductive ClientPacketHeader where
  | version
  | loginUser
  | ping
  deriving DecidableEq, Repr

/-- The value of a `ClientPacketHeader`. -/
def ClientPacketHeader.value : ClientPacketHeader → ℕ
  | .version => 0x4847008A
  | .loginUser => 0x48480001
  | .ping => 0x435A0007

/-- `ServerPacketHeader`. -/
inductive ServerPacketHeader where
  | version
  | accountLoginCode
  | checkSum
  | windowList
  | pong
  | userInfo
  | serverList
  deriving DecidableEq, Repr

/-- The value of a `ServerPacketHeader`. -/
def ServerPacketHeader.value : ServerPacketHeader → ℕ
  | .version => 0x4847008A
  | .accountLoginCode => 0x48470023
  | .checkSum => 0x6A6A0006
  | .windowList => 0x6A6A000E
  | .pong => 0x435A0007
  | .userInfo => 0x48470086
  | .serverList => 0x484700C0

/-- The member functions of `AuthSocket` that the tables point to. -/
inductive Handler where
  | handleLoginUser
  | handlePing
  | handleServerMessage
  | handleNULL
  deriving DecidableEq, Repr

/-- `OpcodeHandler`. -/
structure OpcodeHandler where
  /-- `name`. -/
  name : String
  /-- `handler`. -/
  handler : Handler
  deriving DecidableEq, Repr

/-- `OpcodeMap`. -/
abbrev OpcodeMap := StdMap ℕ OpcodeHandler

/-- `Opcodes`. -/
structure Opcodes where
  /-- `mClientOpcode`. -/
  clientOpcode : OpcodeMap
  /-- `mServerOpcode`. -/
  serverOpcode : OpcodeMap

namespace Opcodes

/-- `emptyHandler`. -/
def emptyHandler : OpcodeHandler := ⟨"<none>", .handleNULL⟩

/-- `StoreClientPacket`. -/
def storeClientPacket (o : Opcodes) (opcode : ℕ) (name : String) (handler : Handler) : Opcodes :=
  { o with clientOpcode := o.clientOpcode.store opcode ⟨name, handler⟩ }

/-- `StoreServerPacket`. -/
def storeServerPacket (o : Opcodes) (opcode : ℕ) (name : String) (handler : Handler) : Opcodes :=
  { o with serverOpcode := o.serverOpcode.store opcode ⟨name, handler⟩ }

/-- `InitializePackets`, on empty tables. The last name is the one the source gives. -/
def initializePackets : Opcodes :=
  (⟨[], []⟩ : Opcodes)
    |>.storeClientPacket ClientPacketHeader.loginUser.value "CMSG_LOGIN_USER" .handleLoginUser
    |>.storeClientPacket ClientPacketHeader.ping.value "CMSG_PING" .handlePing
    |>.storeServerPacket ServerPacketHeader.accountLoginCode.value "SMSG_ACCOUNT_LOGIN_CODE"
      .handleServerMessage
    |>.storeServerPacket ServerPacketHeader.checkSum.value "SMSG_CHECK_SUM" .handleServerMessage
    |>.storeServerPacket ServerPacketHeader.windowList.value "SMSG_WINDOW_LIST"
      .handleServerMessage
    |>.storeServerPacket ServerPacketHeader.version.value "SMSG_VERSION" .handleServerMessage
    |>.storeServerPacket ServerPacketHeader.pong.value "SMSG_PONG" .handleServerMessage
    |>.storeServerPacket ServerPacketHeader.userInfo.value "SMSG_USER_INFO" .handleServerMessage
    |>.storeServerPacket ServerPacketHeader.serverList.value "SMSG_USER_INFO"
      .handleServerMessage

/-- `GetClientPacket`. -/
def getClientPacket (o : Opcodes) (id : ℕ) : OpcodeHandler :=
  (o.clientOpcode.find id).getD emptyHandler

/-- `GetServerPacket`. The position is looked for in the table of the client and compared with the
end of the table of the server, from which it differs, found or not: without an entry there is no
result, as the end of the table of the client is dereferenced. -/
def getServerPacket (o : Opcodes) (id : ℕ) : Option OpcodeHandler := o.clientOpcode.find id

/-- The tables of the authentication server. -/
def tables : OpcodeTables Opcodes OpcodeHandler where
  client := clientOpcode
  server := serverOpcode
  store o
    | .client opcode entry => o.storeClientPacket opcode entry.name entry.handler
    | .server opcode entry => o.storeServerPacket opcode entry.name entry.handler
  client_client _ _ _ := rfl
  client_server _ _ _ := rfl
  server_client _ _ _ := rfl
  server_server _ _ _ := rfl

/-- The handler a header selects: a login or a ping has its own, every other header none. -/
lemma handler_getClientPacket (id : ℕ) :
    (initializePackets.getClientPacket id).handler =
      if id = ClientPacketHeader.ping.value then .handlePing
      else if id = ClientPacketHeader.loginUser.value then .handleLoginUser
      else .handleNULL := by
  simp only [getClientPacket, initializePackets, storeClientPacket, storeServerPacket,
    StdMap.find_store]
  split_ifs <;> rfl

/-- `HandleNULL` is the handler of all headers but those two. -/
lemma handler_eq_handleNULL_iff (id : ℕ) :
    (initializePackets.getClientPacket id).handler = .handleNULL ↔
      id ≠ ClientPacketHeader.loginUser.value ∧ id ≠ ClientPacketHeader.ping.value := by
  rw [handler_getClientPacket]
  split_ifs with hping hlogin
  · simp [hping]
  · simp [hlogin]
  · simp [hping, hlogin]

end Opcodes

end SteerStone
