import PristonTale.Foundations.Memory

set_option relaxedAutoImplicit false
set_option autoImplicit false

/-!
# Packet structures

The packets of `AuthServer/Auth/AuthStructures.h` that the server reads or builds: where their
members are, and how large they are. The layout of a derived structure is the layout of
`PacketStruct` followed by the members it adds; `PacketStruct` has no padding at its end.

## Main definitions

* `SteerStone.PacketStruct.construct` — the constructor of `PacketStruct`.
* One layout for each structure, and the offsets of the members that are used.

## Main results

* `SteerStone.layout_packetStruct` and its companions — the offsets are those of the layouts.
-/

namespace SteerStone

open Foundations

/-! ## Member types -/

/-- `uint8`, `bool` and `char` members. -/
def byte : Member := ⟨1, 1, 1⟩

/-- `uint16` members. -/
def uint16 : Member := ⟨2, 2, 1⟩

/-- `uint32` members, and enumerations and `int`s of 32 bits. -/
def uint32 : Member := ⟨4, 4, 1⟩

/-- Arrays. -/
def array (m : Member) (count : ℕ) : Member := { m with count := m.count * count }

/-- Structures as members. -/
def structureMember (l : Layout) : Member := ⟨l.sizeof, l.align, 1⟩

/-! ## The packets -/

/-- The size of `PacketReceiving.Packet` and of `PacketSending.Packet`. -/
def packetCapacity : ℕ := 8192

/-- `PacketStruct`: `Length`, `EncKeyIndex`, `Encrypted`, `PacketHeader`. -/
def packetStruct : Layout := [uint16, byte, byte, uint32]

namespace PacketStruct

/-- `Length`. -/
def length : ℕ := 0
/-- `EncKeyIndex`. -/
def encKeyIndex : ℕ := 2
/-- `Encrypted`. -/
def encrypted : ℕ := 3
/-- `PacketHeader`. -/
def packetHeader : ℕ := 4

/-- The constructor: all four members are zero. -/
def construct (mem : Memory) : Memory :=
  (((mem.store 2 length 0).store 1 encKeyIndex 0).store 1 encrypted 0).store 4 packetHeader 0

end PacketStruct

/-- `PacketLoginUser`: `Unk`, `UserID`, `Password`, `MacAddr`, `PCName`, `SerialHD`, `VideoName`,
`WidthScreen`, `HeightScreen`, `SystemOS`. -/
def packetLoginUser : Layout := packetStruct ++
  [array uint32 3, array byte 32, array byte 32, array byte 20, array byte 32, uint32,
    array byte 256, uint32, uint32, uint32]

/-- `PacketLoginUser::UserID`. -/
def PacketLoginUser.userID : ℕ := 20
/-- `PacketLoginUser::Password`. -/
def PacketLoginUser.password : ℕ := 52

/-- `PacketAccountLoginCode`: `Reserved`, `Code`, `FailCode`, `Message`. -/
def packetAccountLoginCode : Layout := packetStruct ++ [uint32, uint32, uint32, array byte 256]

namespace PacketAccountLoginCode

/-- `Reserved`. -/
def reserved : ℕ := 8
/-- `Code`. -/
def code : ℕ := 12
/-- `FailCode`. -/
def failCode : ℕ := 16
/-- `Message`. -/
def message : ℕ := 20

end PacketAccountLoginCode

/-- `ChecksumFunction`: `Size`, `Address`, `CheckSum`. -/
def checksumFunction : Layout := [uint32, uint32, uint32]

/-- `PacketChecksumFunctionList`: `Key`, `CheckSum`. -/
def packetChecksumFunctionList : Layout := packetStruct ++
  [byte, array (structureMember checksumFunction) 400]

/-- `PacketChecksumFunctionList::Key`. -/
def PacketChecksumFunctionList.key : ℕ := 8
/-- `PacketChecksumFunctionList::CheckSum`. -/
def PacketChecksumFunctionList.checkSum : ℕ := 12

/-- `PacketPing`: `Time`, `Tick`. -/
def packetPing : Layout := packetStruct ++ [uint32, uint32]

/-- `PacketPing::Tick`. -/
def PacketPing.tick : ℕ := 12

/-- `TransCharInfo`: `Name`, `ModelName`, `ModelName2`, `JobCode`, `Level`, `Brood`, `ArmorCode`,
`StartResult`, `PosX`, `PosZ`, `Temp`. -/
def transCharInfo : Layout :=
  [array byte 32, array byte 64, array byte 64, uint32, uint32, uint32, uint32, uint32, uint32,
    uint32, array uint32 13]

/-- `PacketVersion`: `ServerFull`, `Version`, `Unk2`. -/
def packetVersion : Layout := packetStruct ++ [byte, uint32, uint32]

namespace PacketVersion

/-- `ServerFull`. -/
def serverFull : ℕ := 8
/-- `Version`. -/
def version : ℕ := 12
/-- `Unk2`. -/
def unk2 : ℕ := 16

end PacketVersion

/-- `PacketUserInfo`: `UserID`, `CharCount`, `CharacterData`. -/
def packetUserInfo : Layout := packetStruct ++
  [array byte 32, uint32, array (structureMember transCharInfo) 6]

/-- `PacketUserInfo::UserID`. -/
def PacketUserInfo.userID : ℕ := 8
/-- `PacketUserInfo::CharCount`. -/
def PacketUserInfo.charCount : ℕ := 40

/-- `PacketServerList::Header`: `ServerName`, `Time`, `Ticket`, `Unknown`, `ClanServerIndex`,
`GameServers`. -/
def packetServerListHeader : Layout := [array byte 16, uint32, uint32, uint32, uint32, uint32]

/-- `PacketServerList::Server`: `Name`, `IP`, `Port`. -/
def packetServerListServer : Layout := [array byte 32, array byte 60, array uint32 4]

/-- `PacketServerList`: `HeaderStruct`, `ServersStruct`. -/
def packetServerList : Layout := packetStruct ++
  [structureMember packetServerListHeader, array (structureMember packetServerListServer) 4]

namespace PacketServerList

/-- `HeaderStruct.ServerName`. -/
def serverName : ℕ := 8
/-- `HeaderStruct.Time`. -/
def time : ℕ := 24
/-- `HeaderStruct.Ticket`. -/
def ticket : ℕ := 28
/-- `HeaderStruct.Unknown`. -/
def unknown : ℕ := 32
/-- `HeaderStruct.ClanServerIndex`. -/
def clanServerIndex : ℕ := 36
/-- `HeaderStruct.GameServers`. -/
def gameServers : ℕ := 40
/-- `sizeof(PacketServerList::Server)`. -/
def serverSize : ℕ := 108
/-- `ServersStruct[i].Name`; past the last element for `i` from 4 on. -/
def name (i : ℕ) : ℕ := 44 + serverSize * i
/-- `ServersStruct[i].IP[j]`. -/
def ip (i j : ℕ) : ℕ := 44 + serverSize * i + 32 + 20 * j
/-- `ServersStruct[i].Port[j]`. -/
def port (i j : ℕ) : ℕ := 44 + serverSize * i + 92 + 4 * j

end PacketServerList

/-! ## The offsets are those of the layouts -/

/-- The offsets of `PacketStruct`. -/
lemma layout_packetStruct :
    packetStruct.offsets = [PacketStruct.length, PacketStruct.encKeyIndex, PacketStruct.encrypted,
      PacketStruct.packetHeader] ∧ packetStruct.sizeof = 8 := by decide

/-- The offsets of what `PacketLoginUser` adds. -/
lemma layout_packetLoginUser :
    packetLoginUser.offsets.drop 4 = [8, PacketLoginUser.userID, PacketLoginUser.password, 84, 104,
      136, 140, 396, 400, 404] ∧ packetLoginUser.sizeof = 408 := by decide

/-- The offsets of what `PacketAccountLoginCode` adds. -/
lemma layout_packetAccountLoginCode :
    packetAccountLoginCode.offsets.drop 4 = [PacketAccountLoginCode.reserved,
      PacketAccountLoginCode.code, PacketAccountLoginCode.failCode,
      PacketAccountLoginCode.message] ∧ packetAccountLoginCode.sizeof = 276 := by decide

/-- The offsets of what `PacketChecksumFunctionList` adds: three bytes of padding after `Key`. -/
lemma layout_packetChecksumFunctionList :
    packetChecksumFunctionList.offsets.drop 4 = [PacketChecksumFunctionList.key,
      PacketChecksumFunctionList.checkSum] ∧ packetChecksumFunctionList.sizeof = 4812 := by decide

/-- The offsets of what `PacketPing` adds. -/
lemma layout_packetPing :
    packetPing.offsets.drop 4 = [8, PacketPing.tick] ∧ packetPing.sizeof = 16 := by decide

/-- The offsets of what `PacketVersion` adds: three bytes of padding after `ServerFull`. -/
lemma layout_packetVersion :
    packetVersion.offsets.drop 4 = [PacketVersion.serverFull, PacketVersion.version,
      PacketVersion.unk2] ∧ packetVersion.sizeof = 20 := by decide

/-- The offsets of what `PacketUserInfo` adds. -/
lemma layout_packetUserInfo :
    packetUserInfo.offsets.drop 4 = [PacketUserInfo.userID, PacketUserInfo.charCount, 44] ∧
      packetUserInfo.sizeof = 1484 := by decide

/-- The offsets of what `PacketServerList` adds. -/
lemma layout_packetServerList :
    packetServerList.offsets.drop 4 = [PacketServerList.serverName, PacketServerList.name 0] ∧
      packetServerList.sizeof = 476 := by decide

/-- The offsets inside `HeaderStruct`, which is at offset 8. -/
lemma layout_packetServerListHeader :
    packetServerListHeader.offsets.map (8 + ·) = [PacketServerList.serverName,
      PacketServerList.time, PacketServerList.ticket, PacketServerList.unknown,
      PacketServerList.clanServerIndex, PacketServerList.gameServers] ∧
      packetServerListHeader.sizeof = 36 := by decide

/-- The offsets inside an element of `ServersStruct`, the first of which is at offset 44. -/
lemma layout_packetServerListServer :
    packetServerListServer.offsets.map (44 + ·) = [PacketServerList.name 0,
      PacketServerList.ip 0 0, PacketServerList.port 0 0] ∧
      packetServerListServer.sizeof = PacketServerList.serverSize := by decide

end SteerStone
