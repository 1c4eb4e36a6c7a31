import PristonTale.Auth.Opcodes

set_option relaxedAutoImplicit false
set_option autoImplicit false

/-!
# Opcodes of the world server

The packet headers and the tables of the world server (`WorldServer/Server/Opcode/Opcodes.cpp`).
They are those of the authentication server with other handlers and two more lookups, of the name of
a packet. In both servers `GetServerPacket` looks into the table of the client: it never returns the
entry that was stored for a server packet, unless the client has the same one under that id.

## Main definitions

* `SteerStone.World.Opcodes` — the two tables; `SteerStone.World.Opcodes.initializePackets` fills
  them.
* `SteerStone.World.Opcodes.getClientPacket`, `SteerStone.World.Opcodes.getServerPacket`,
  `SteerStone.World.Opcodes.getClientPacketName`, `SteerStone.World.Opcodes.getServerPacketName` —
  the lookups.

## Main results

* `SteerStone.World.Opcodes.names_replay` — both lookups of a name use the table of the client.
* `SteerStone.World.opcodes_iff` — the ids under which the lookups of both servers agree with what
  was stored.
-/

namespace SteerStone.World

open Foundations

/-- `ClientPacketHeader`. -/
inductive ClientPacketHeader where
  | ping
  | createCharacter
  deriving DecidableEq, Repr

/-- The value of a `ClientPacketHeader`. -/
def ClientPacketHeader.value : ClientPacketHeader → ℕ
  | .ping => 0x435A0007
  | .createCharacter => 0x48470088

/-- `ServerPacketHeader`. -/
inductive ServerPacketHeader where
  | version
  | pong
  deriving DecidableEq, Repr

/-- The value of a `ServerPacketHeader`. -/
def ServerPacketHeader.value : ServerPacketHeader → ℕ
  | .version => 0x4847008A
  | .pong => 0x435A0007

/-- The member functions of `WorldSocket` that the tables point to. -/
inductive Handler where
  | handlePing
  | handleServerMessage
  | handleNULL
  deriving DecidableEq, Repr

/-- `OpcodeHandler`. -/
structure OpcodeHandler where
  /-- `name`. -/
  name : String
  /-- `handler`. -/
  handler : Handler
  deriving DecidableEq, Repr

/-- `Opcodes`. -/
structure Opcodes where
  /-- `mClientOpcode`. -/
  clientOpcode : StdMap ℕ OpcodeHandler
  /-- `mServerOpcode`. -/
  serverOpcode : StdMap ℕ OpcodeHandler

namespace Opcodes

/-- `emptyHandler`. -/
def emptyHandler : OpcodeHandler := ⟨"<none>", .handleNULL⟩

/-- `StoreClientPacket`. -/
def storeClientPacket (o : Opcodes) (opcode : ℕ) (name : String) (handler : Handler) : Opcodes :=
  { o with clientOpcode := o.clientOpcode.store opcode ⟨name, handler⟩ }

/-- `StoreServerPacket`. -/
def storeServerPacket (o : Opcodes) (opcode : ℕ) (name : String) (handler : Handler) : Opcodes :=
  { o with serverOpcode := o.serverOpcode.store opcode ⟨name, handler⟩ }

/-- `InitializePackets`, on empty tables. The first name is the one the source gives. -/
def initializePackets : Opcodes :=
  (⟨[], []⟩ : Opcodes)
    |>.storeClientPacket ClientPacketHeader.ping.value "CMSG_LOGIN_USER" .handlePing
    |>.storeServerPacket ServerPacketHeader.pong.value "SMSG_PONG" .handleServerMessage

/-- `GetClientPacket`. -/
def getClientPacket (o : Opcodes) (id : ℕ) : OpcodeHandler :=
  (o.clientOpcode.find id).getD emptyHandler

/-- `GetClientPacketName`. -/
def getClientPacketName (o : Opcodes) (id : ℕ) : String :=
  ((o.clientOpcode.find id).map OpcodeHandler.name).getD "NULL"

/-- `GetServerPacket`, with the table of the client, as in the authentication server. -/
def getServerPacket (o : Opcodes) (id : ℕ) : Option OpcodeHandler := o.clientOpcode.find id

/-- `GetServerPacketName`, with the table of the client again. -/
def getServerPacketName (o : Opcodes) (id : ℕ) : Option String :=
  (o.clientOpcode.find id).map OpcodeHandler.name

/-- The tables of the world server. -/
def tables : OpcodeTables Opcodes OpcodeHandler where
  client := clientOpcode
  server := serverOpcode
  store o
    | .client opcode entry => o.storeClientPacket opcode entry.name entry.handler
    | .server opcode entry => o.storeServerPacket opcode entry.name entry.handler
  client_client _ _ _ := rfl
  client_server _ _ _ := rfl
  server_client _ _ _ := rfl
  server_server _ _ _ := rfl

/-- **The names** after a sequence of store calls are both those of what is stored for the
client. -/
theorem names_replay (calls : List (StoreCall OpcodeHandler)) (id : ℕ) :
    (tables.replay ⟨[], []⟩ calls).getClientPacketName id =
        ((lastAssigned id (clientStores calls)).map OpcodeHandler.name).getD "NULL" ∧
      (tables.replay ⟨[], []⟩ calls).getServerPacketName id =
        (lastAssigned id (clientStores calls)).map OpcodeHandler.name := by
  have hfind := tables.find_client_replay (t := ⟨[], []⟩) rfl calls id
  exact ⟨congrArg (fun entry => (entry.map OpcodeHandler.name).getD "NULL") hfind,
    congrArg (Option.map OpcodeHandler.name) hfind⟩

end Opcodes

/-- **Opcode lookups, exactly.** In both servers, after every sequence of store calls and for every
id: `GetClientPacket` returns the entry last stored for the client, or the empty one; that and
`GetServerPacket` agree with what was stored if and only if the entry last stored for the client
under the id is the one last stored for the server, or the empty one if there is none; and a call
that stores for one side leaves the lookups of the other side as they were, except that
`StoreClientPacket` changes the server packet under its id unless the entry is already there.

**Proof sketch.** Both classes are tables that a call stores into, and both kinds of packets are
found in the table of the client (`OpcodeTables.lookupsAgree_iff`,
`OpcodeTables.find_client_store_client_iff`). -/
theorem opcodes_iff (id : ℕ) :
    (∀ calls : List (StoreCall SteerStone.OpcodeHandler),
      let o := SteerStone.Opcodes.tables.replay ⟨[], []⟩ calls
      let empty := SteerStone.Opcodes.emptyHandler
      o.getClientPacket id = (lastAssigned id (clientStores calls)).getD empty ∧
      (LookupsAgree empty o.getClientPacket o.getServerPacket calls id ↔
        lastAssigned id (clientStores calls) =
          some ((lastAssigned id (serverStores calls)).getD empty))) ∧
    (∀ calls : List (StoreCall OpcodeHandler),
      let o := Opcodes.tables.replay ⟨[], []⟩ calls
      let empty := Opcodes.emptyHandler
      o.getClientPacket id = (lastAssigned id (clientStores calls)).getD empty ∧
      (LookupsAgree empty o.getClientPacket o.getServerPacket calls id ↔
        lastAssigned id (clientStores calls) =
          some ((lastAssigned id (serverStores calls)).getD empty))) ∧
    (∀ (o : SteerStone.Opcodes) (opcode : ℕ) (name : String) (handler : SteerStone.Handler),
      (o.storeServerPacket opcode name handler).getClientPacket id = o.getClientPacket id ∧
      ((o.storeClientPacket opcode name handler).getServerPacket id = o.getServerPacket id ↔
        id ≠ opcode ∨ o.clientOpcode.find id = some ⟨name, handler⟩)) ∧
    ∀ (o : Opcodes) (opcode : ℕ) (name : String) (handler : Handler),
      (o.storeServerPacket opcode name handler).getClientPacket id = o.getClientPacket id ∧
      ((o.storeClientPacket opcode name handler).getServerPacket id = o.getServerPacket id ↔
        id ≠ opcode ∨ o.clientOpcode.find id = some ⟨name, handler⟩) := by
  refine ⟨fun calls => ⟨?_, ?_⟩, fun calls => ⟨?_, ?_⟩,
    fun o opcode name handler => ⟨rfl, ?_⟩, fun o opcode name handler => ⟨rfl, ?_⟩⟩
  · exact congrArg (Option.getD · _) (SteerStone.Opcodes.tables.find_client_replay rfl calls id)
  · exact SteerStone.Opcodes.tables.lookupsAgree_iff rfl _ calls id
  · exact congrArg (Option.getD · _) (Opcodes.tables.find_client_replay rfl calls id)
  · exact Opcodes.tables.lookupsAgree_iff rfl _ calls id
  · exact SteerStone.Opcodes.tables.find_client_store_client_iff o opcode id ⟨name, handler⟩
  · exact Opcodes.tables.find_client_store_client_iff o opcode id ⟨name, handler⟩

/-- An id of a server packet that the client does not send has no result in either server, and under
the id of ping and pong the entry of the client is returned. -/
theorem opcodes_fails :
    SteerStone.Opcodes.initializePackets.getServerPacket
        SteerStone.ServerPacketHeader.version.value = none ∧
      SteerStone.Opcodes.initializePackets.getServerPacket
        SteerStone.ServerPacketHeader.pong.value = some ⟨"CMSG_PING", .handlePing⟩ ∧
      Opcodes.initializePackets.getServerPacket ServerPacketHeader.version.value = none ∧
      Opcodes.initializePackets.serverOpcode.find ServerPacketHeader.pong.value =
        some ⟨"SMSG_PONG", .handleServerMessage⟩ ∧
      Opcodes.initializePackets.getServerPacket ServerPacketHeader.pong.value =
        some ⟨"CMSG_LOGIN_USER", .handlePing⟩ := by
  decide

end SteerStone.World
