import PristonTale.Network.SocketRead
import PristonTale.Network.SocketWrite
import PristonTale.Foundations.Memory
import PristonTale.Foundations.Program
import PristonTale.Auth.Structures
import PristonTale.Auth.Opcodes
import PristonTale.Common.SHA1
import PristonTale.Database.QueryDatabase
import PristonTale.Auth.AuthenticationHandler
import PristonTale.Auth.Packets
import PristonTale.Auth.LoginEvents
import PristonTale.Auth.AuthSocket
import PristonTale.Auth.Framing
import PristonTale.Auth.SendBound
import PristonTale.Auth.LoginSafety
import PristonTale.Auth.Noninterference
import PristonTale.Auth.AcceptLoop
import PristonTale.Auth.KeepAlive
import PristonTale.Database.ConnectionPool
import PristonTale.Network.ReadProgress
import PristonTale.Network.SocketClose
import PristonTale.Network.Listener
import PristonTale.Database.Database
import PristonTale.Foundations.Reader
import PristonTale.Network.StringBuffer
import PristonTale.Network.ClientPacket
import PristonTale.Network.FieldCodec
import PristonTale.Auth.LoginTrace
import PristonTale.Auth.LoginOutcome
import PristonTale.Auth.LoginFields
import PristonTale.Auth.ServerList
import PristonTale.Auth.PingEcho
import PristonTale.Database.QueryProtocol
import PristonTale.Database.Borrow
import PristonTale.Network.Compaction
import PristonTale.Common.WiredNumbers
import PristonTale.Common.WiredBuffer
import PristonTale.Network.WiredReads
import PristonTale.Network.ReadCursor
import PristonTale.Foundations.Runs
import PristonTale.Foundations.Search
import PristonTale.Foundations.StdMap
import PristonTale.Common.Tokenizer
import PristonTale.Common.KeyLookup
import PristonTale.Common.DecodeSafety
import PristonTale.Common.Timer
import PristonTale.Common.OpcodeTables
import PristonTale.Common.ConfigReading
import PristonTale.Common.ConfigFile
import PristonTale.Common.IntegerSettings
import PristonTale.Database.InfoString
import PristonTale.World.Opcodes
import PristonTale.Network.WorkerBalance
import PristonTale.Platform.FunctionCallBack
import PristonTale.Platform.ThreadPool
import PristonTale.Platform.Shutdown
import PristonTale.Platform.PoolConstruction
import PristonTale.Network.Draining
import PristonTale.Network.SendingSide
import PristonTale.Network.Connections
import PristonTale.Auth.Replies
import PristonTale.Auth.Secrecy
import PristonTale.Auth.OnlineAccounts
import PristonTale.Auth.LoginConnections
import PristonTale.Platform.Wakeups
import PristonTale.Common.ConfigWriting
import PristonTale.Auth.Startup
import PristonTale.Auth.Requests
import PristonTale.Network.Locking
import PristonTale.Network.HandlerMemory
import PristonTale.Network.Destruction
import PristonTale.Network.ReceivingSide
import PristonTale.Database.Borrowers
import PristonTale.Network.BufferSizes
