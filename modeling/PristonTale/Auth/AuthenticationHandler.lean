import PristonTale.Auth.Opcodes
import PristonTale.Auth.Structures
import PristonTale.Common.SHA1
import PristonTale.Database.QueryDatabase

set_option relaxedAutoImplicit false
set_option autoImplicit false

/-!
# The packet handlers

`HandleLoginUser`, `SendUserSuccess` and `HandlePing`
(`AuthServer/Opcode/Handlers/AuthenticationHandler.cpp`) as programs, with the packets they build
as object memory. What they ask of the rest of the server and of the machine is an `Environment`.

## Main definitions

* `SteerStone.Environment` — what the handlers depend on besides the packet.
* `SteerStone.sendPacket` — `SendPacket`.
* `SteerStone.handleLoginUser`, `SteerStone.sendUserSuccess`, `SteerStone.handlePing` — the
  handlers.

## Implementation notes

* A packet that is received is the memory from its first byte upward, as far as it is mapped.
* Each packet that is built has memory of its own, whose initial contents are arbitrary. Where a
  text or a row decides how far a store goes, it may go past the packet. What the compiler has put
  above a packet is a parameter: as many bytes as the frame has to spare there can be overwritten
  and the handler goes on; a store that goes further destroys the frame, and the handler faults.
* The texts passed to `strcpy` never hold a NUL: they come from `Result::GetString`.
-/

namespace SteerStone

open Foundations

/-- The size of a pointer in the two processor modes the server is built for. -/
inductive PointerSize where
  | x86
  | x64
  deriving DecidableEq, Repr

/-- The size in bytes. -/
def PointerSize.bytes : PointerSize → ℕ
  | .x86 => 4
  | .x64 => 8

/-- The local objects whose memory the handlers send. -/
inductive LocalObject where
  /-- `packetVersion` of `SendVersionCheck`. -/
  | packetVersion
  /-- `l_AccountLogin` of `HandleLoginUser`, when there is no such user. -/
  | incorrectName
  /-- `l_AccountLogin` of `HandleLoginUser`, when the password differs. -/
  | incorrectPassword
  /-- `l_PacketCheck` of `HandleLoginUser`. -/
  | packetCheck
  /-- `l_PacketUser` of `SendUserSuccess`. -/
  | packetUser
  /-- `l_ServerList` of `SendUserSuccess`. -/
  | serverList
  /-- The parameter `p_Packet` of `HandlePing`. -/
  | packetPointer
  deriving DecidableEq, Repr

/-- What the handlers depend on besides the packet. -/
structure Environment where
  /-- The SQL driver. -/
  driver : Driver
  /-- The values that `m_ExecuteResult` and `m_IsExecuteResult` of a `QueryDatabase` start with. -/
  staleFlags : Bool × Bool
  /-- `SHA1`. -/
  sha1 : List UInt8 → Digest
  /-- `Maths::GetUnixTimeStamp`. -/
  unixTimeStamp : ℕ
  /-- `Maths::GetRandomUint32`. -/
  random : ℕ
  /-- `sTimer->GetServerTime`. -/
  serverTime : UInt32
  /-- `GetTickCount`. -/
  tickCount : ℕ
  /-- The setting `PongTimer`, as it is compared: converted to `uint32`. -/
  pongTimer : UInt32
  /-- The setting `ClientVersion`, as it is stored: converted to `uint32`. A value that cannot be
  read stops `SendVersionCheck` before it sends anything (`PristonTale.Auth.AcceptLoop`). -/
  clientVersion : ℕ
  /-- `p_PingDiff`. -/
  pingDiff : UInt32
  /-- The size of a pointer. -/
  pointerSize : PointerSize
  /-- The address of the packet received. -/
  packetAddress : ℕ
  /-- What the memory of a local object holds before the object is constructed. -/
  stale : LocalObject → Memory
  /-- How many bytes above a local object the frame has to spare: nothing is there, or objects that
  are not used again. -/
  spare : LocalObject → ℕ

/-- An environment in which no call of the driver throws, the tables are empty, the clock stands
still, the memory is zero and the frame has nothing to spare. -/
def Environment.blank : Environment where
  driver := ⟨fun _ => false, fun _ _ => []⟩
  staleFlags := (false, false)
  sha1 _ := ⟨List.replicate 20 0, rfl⟩
  unixTimeStamp := 0
  random := 1
  serverTime := 0
  tickCount := 0
  pongTimer := 30000
  clientVersion := 1048
  pingDiff := 0
  pointerSize := .x64
  packetAddress := 0
  stale _ _ := 0
  spare _ := 0

/-- The environment with the stack holding something else before. -/
def Environment.withStale (env : Environment) (stale : LocalObject → Memory) : Environment :=
  { env with stale := stale }

/-- The environment with the frame having something else to spare. -/
def Environment.withSpare (env : Environment) (spare : LocalObject → ℕ) : Environment :=
  { env with spare := spare }

/-- How many bytes from the start of a local object of `size` bytes on can be overwritten. -/
def Environment.room (env : Environment) (object : LocalObject) (size : ℕ) : ℕ :=
  size + env.spare object

/-- The driver does not depend on the stack. -/
@[simp] lemma Environment.driver_withStale (env : Environment) (stale : LocalObject → Memory) :
    (env.withStale stale).driver = env.driver := rfl

/-- Neither does the room for an object. -/
@[simp] lemma Environment.room_withStale (env : Environment) (stale : LocalObject → Memory) :
    (env.withStale stale).room = env.room := rfl

/-- `strcpy`. -/
def strcpy (mem : Memory) (offset : ℕ) (text : List UInt8) : Memory :=
  mem.write offset (text ++ [0])

/-- A store into a local object that ends before the offset `stop`: if it leaves the room there is,
it destroys the frame. -/
def withinFrame (room stop : ℕ) : Action Unit := if stop ≤ room then pure () else .stop .fault

/-- `SendPacket`, called for an object of `size` bytes: the first `length` bytes of memory from the
object on are copied to a `PacketSending` and from there to `Write`. -/
def sendPacket (size : ℕ) (mem : Memory) (length : ℕ) : Action Unit :=
  .emit (.send size length (mem.read 0 length))

/-! ## Login -/

/-- The `LoginError`s that are sent. -/
inductive LoginError where
  | incorrectName
  | incorrectPassword
  deriving DecidableEq, Repr

/-- The value of a `LoginError`, as 32 bits. -/
def LoginError.value : LoginError → ℕ
  | .incorrectName => 2 ^ 32 - 1
  | .incorrectPassword => 2 ^ 32 - 2

/-- The first statement of `HandleLoginUser`. -/
def selectAccount : String := "SELECT id, user_name, sha_pass FROM account WHERE user_name = ?"

/-- The second statement of `HandleLoginUser`. -/
def updateAccount : String := "UPDATE account SET online = 1, last_online = NOW() WHERE id = ?"

/-- The statement of `SendUserSuccess`. -/
def selectRealms : String :=
  "SELECT id, ip_address, port, server_name, realm_name FROM server_realms"

/-- The `PacketAccountLoginCode` that refuses a login. -/
def accountLogin (stale : Memory) (error : LoginError) : Memory :=
  PacketStruct.construct stale
    |>.store 2 PacketStruct.length packetAccountLoginCode.sizeof
    |>.store 4 PacketStruct.packetHeader ServerPacketHeader.accountLoginCode.value
    |>.store 4 PacketAccountLoginCode.reserved 0
    |>.store 4 PacketAccountLoginCode.code error.value
    |>.store 4 PacketAccountLoginCode.failCode 1
    |>.store 1 PacketStruct.encKeyIndex 0
    |>.store 1 PacketStruct.encrypted 1

/-- The `PacketChecksumFunctionList` that starts the answer to a login; `CHECK_SUM_PACKET` is
`0x6A`. -/
def packetCheck (stale : Memory) : Memory :=
  PacketStruct.construct stale
    |>.store 2 PacketStruct.length packetChecksumFunctionList.sizeof
    |>.store 4 PacketStruct.packetHeader ServerPacketHeader.checkSum.value
    |>.store 1 PacketChecksumFunctionList.key 0x6A
    |>.store 1 PacketStruct.encKeyIndex 0
    |>.store 1 PacketStruct.encrypted 1

/-- The `PacketUserInfo` of a user. -/
def packetUser (stale : Memory) (userName : List UInt8) : Memory :=
  let mem := PacketStruct.construct stale
    |>.store 2 PacketStruct.length packetUserInfo.sizeof
    |>.store 4 PacketStruct.packetHeader ServerPacketHeader.userInfo.value
  strcpy mem PacketUserInfo.userID userName
    |>.store 4 PacketUserInfo.charCount 0
    |>.store 1 PacketStruct.encKeyIndex 0
    |>.store 1 PacketStruct.encrypted 1

/-- The `PacketServerList` before its servers are written. -/
def serverListHeader (stale : Memory) (serverName : List UInt8)
    (unixTimeStamp random rowCount : ℕ) : Memory :=
  let mem := PacketStruct.construct stale
    |>.store 2 PacketStruct.length (packetStruct.sizeof + packetServerListHeader.sizeof)
    |>.store 4 PacketStruct.packetHeader ServerPacketHeader.serverList.value
  strcpy mem PacketServerList.serverName serverName
    |>.store 4 PacketServerList.time unixTimeStamp
    |>.store 4 PacketServerList.ticket random
    |>.store 4 PacketServerList.unknown 0
    |>.store 4 PacketServerList.clanServerIndex 0
    |>.store 4 PacketServerList.gameServers rowCount

/-- `DEFAULT_WORLD_PORT`. -/
def defaultWorldPort : ℕ := 10010

/-- One round of the loop of `SendUserSuccess`: write `ServersStruct[counter]` from the row under
the cursor, in a list with the given room. -/
def writeServer (D : Driver) (room : ℕ) (r : Result) (counter : ℕ) (mem : Memory) :
    Action Memory := do
  let name ← Result.getString D r 5
  withinFrame room (PacketServerList.name counter + (name.length + 1))
  let mem := strcpy mem (PacketServerList.name counter) name
  let address ← Result.getString D r 2
  withinFrame room (PacketServerList.ip counter 0 + (address.length + 1))
  let mem := strcpy mem (PacketServerList.ip counter 0) address
  let address ← Result.getString D r 2
  withinFrame room (PacketServerList.ip counter 1 + (address.length + 1))
  let mem := strcpy mem (PacketServerList.ip counter 1) address
  let address ← Result.getString D r 2
  withinFrame room (PacketServerList.ip counter 2 + (address.length + 1))
  let mem := strcpy mem (PacketServerList.ip counter 2) address
  withinFrame room (PacketServerList.port counter 3 + 4)
  return mem.store 4 (PacketServerList.port counter 0) defaultWorldPort
    |>.store 4 (PacketServerList.port counter 1) defaultWorldPort
    |>.store 4 (PacketServerList.port counter 2) defaultWorldPort
    |>.store 4 (PacketServerList.port counter 3) defaultWorldPort

/-- The loop of `SendUserSuccess`, from a row on. The rows after it decide what `GetNextResult`
returns, and `l_Counter` is a `uint16`. -/
def writeServers (D : Driver) (room rowCount : ℕ) : Row → List Row → ℕ → Memory → Action Memory
  | row, [], counter, mem => do
    let mem ← writeServer D room (some ⟨some row, [], rowCount⟩) counter mem
    let _ ← Result.getNextResult D (some ⟨some row, [], rowCount⟩)
    return mem
  | row, next :: rest, counter, mem => do
    let mem ← writeServer D room (some ⟨some row, next :: rest, rowCount⟩) counter mem
    let _ ← Result.getNextResult D (some ⟨some row, next :: rest, rowCount⟩)
    writeServers D room rowCount next rest ((counter + 1) % 2 ^ 16) mem

/-- The `PacketServerList` once its servers are written: its length is added up. -/
def finishServerList (mem : Memory) : Memory :=
  mem.store 2 PacketStruct.length (mem.load 2 PacketStruct.length +
      packetServerListServer.sizeof * mem.load 4 PacketServerList.gameServers)
    |>.store 1 PacketStruct.encKeyIndex 0
    |>.store 1 PacketStruct.encrypted 1

/-- `SendUserSuccess`. -/
def sendUserSuccess (env : Environment) (result : Result) : Action Unit := do
  let D := env.driver
  let userName ← Result.getString D result 2
  withinFrame (env.room .packetUser packetUserInfo.sizeof)
    (PacketUserInfo.userID + (userName.length + 1))
  let user := packetUser (env.stale .packetUser) userName
  sendPacket packetUserInfo.sizeof user (user.load 2 PacketStruct.length)
  let db ← QueryDatabase.new D env.staleFlags.1 env.staleFlags.2
  let db ← db.prepareQuery D selectRealms
  let db ← db.executeQuery D
  let (found, db) ← db.getResult D
  if found then
    let result := db.fetch
    let room := env.room .serverList packetServerList.sizeof
    let serverName ← Result.getString D result 4
    withinFrame room (PacketServerList.serverName + (serverName.length + 1))
    let rowCount ← Result.getRowCount D result
    let rs ← orStop .fault result
    let row ← orStop .fault rs.current
    let servers ← writeServers D room rs.rowsCount row rs.rest 0
      (serverListHeader (env.stale .serverList) serverName env.unixTimeStamp env.random rowCount)
    let list := finishServerList servers
    sendPacket packetServerList.sizeof list (list.load 2 PacketStruct.length)
  else
    pure ()

/-- `UserID` of a packet received, as text. -/
def userID (packet : List UInt8) : Option (List UInt8) :=
  cString (packet.drop PacketLoginUser.userID)

/-- `Password` of a packet received, as text. -/
def password (packet : List UInt8) : Option (List UInt8) :=
  cString (packet.drop PacketLoginUser.password)

/-- `HandleLoginUser`. The colon is character 58. -/
def handleLoginUser (env : Environment) (packet : List UInt8) : Action Unit := do
  let D := env.driver
  let db ← QueryDatabase.new D env.staleFlags.1 env.staleFlags.2
  let db ← db.prepareQuery D selectAccount
  let user ← orStop .fault (userID packet)
  let db ← db.setParameter D 1 (.string user)
  let db ← db.executeQuery D
  let (found, db) ← db.getResult D
  if found then
    let result := db.fetch
    let user ← orStop .fault (userID packet)
    let pass ← orStop .fault (password packet)
    let hash ← orStop .fault (calculateSHA1Hash env.sha1 (toUpper (user ++ [58] ++ pass)))
    let shaPass ← Result.getString D result 3
    if hash ≠ shaPass then
      let login := accountLogin (env.stale .incorrectPassword) .incorrectPassword
      sendPacket packetAccountLoginCode.sizeof login (login.load 2 PacketStruct.length)
    else
      let check := packetCheck (env.stale .packetCheck)
      sendPacket packetChecksumFunctionList.sizeof check (check.load 2 PacketStruct.length)
      let db ← db.clearParameters D
      let db ← db.prepareQuery D updateAccount
      let id ← Result.getUint32 D result 1
      let db ← db.setParameter D 1 (.uint id)
      let _ ← db.executeQuery D
      sendUserSuccess env result
  else
    let login := accountLogin (env.stale .incorrectName) .incorrectName
    sendPacket packetAccountLoginCode.sizeof login (login.load 2 PacketStruct.length)

/-! ## Ping -/

/-- `HandlePing`. The casts of `&p_Packet` make it read and write the pointer `p_Packet` and the
memory above it in place of the packet. -/
def handlePing (env : Environment) (packet : List UInt8) : Action Unit :=
  let pointer := (env.stale .packetPointer).store env.pointerSize.bytes 0 env.packetAddress
  if pointer.load 2 PacketStruct.length ≠ packetPing.sizeof then pure ()
  else if env.pongTimer < env.serverTime - env.pingDiff then .emit .closeSocket
  else
    let pointer := pointer.store 4 PacketPing.tick env.tickCount
    sendPacket env.pointerSize.bytes pointer (leNat (packet.take 2))

end SteerStone
