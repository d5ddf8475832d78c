import PkeFire.Run.Machine
import PkeFire.Run.Trace
import PkeFire.Run.Report
import PkeFire.Run.Loop
import PkeFire.Run.Table
import PkeFire.Run.RingBuffer
import PkeFire.Run.Lossy
import PkeFire.Run.Memory
import PkeFire.Run.Registry
import PkeFire.Run.Medium
import PkeFire.Run.Waiting
import PkeFire.Run.Latch
import PkeFire.Run.Register
import PkeFire.Run.Periodic
import PkeFire.Run.Ledger
import PkeFire.Run.Feeds
import PkeFire.Extio.State
import PkeFire.Extio.Scan
import PkeFire.Extio.Supervision
import PkeFire.Extio.Debounce
import PkeFire.Extio.DebounceHistory
import PkeFire.Extio.Chain
import PkeFire.Extio.SharedPins
import PkeFire.Extio.Channels
import PkeFire.Extio.Keys
import PkeFire.Misc.Controller
import PkeFire.Misc.Statements
import PkeFire.Misc.FactoryTest
import PkeFire.Misc.FactoryOrder
import PkeFire.Misc.Iteration
import PkeFire.Misc.Effects
import PkeFire.Misc.Door
import PkeFire.Misc.Lock
import PkeFire.Misc.Remote
import PkeFire.Misc.FireReport
import PkeFire.Misc.FireMachine
import PkeFire.Misc.Settling
import PkeFire.Misc.FireLine
import PkeFire.Misc.MainUnit
import PkeFire.Misc.Durable
import PkeFire.Misc.Interleaving
import PkeFire.Misc.FailSafe
import PkeFire.Misc.Requests
import PkeFire.Misc.Server
import PkeFire.Misc.Emergency
import PkeFire.Misc.Alarm
import PkeFire.Misc.Message
import PkeFire.Misc.Confirmation
import PkeFire.Misc.SetKey
import PkeFire.Config.Layout
import PkeFire.Config.Setters
import PkeFire.Config.Store
import PkeFire.Config.Checksum
import PkeFire.Config.Persistence
import PkeFire.Config.Concurrent
import PkeFire.Config.Fields
import PkeFire.Config.Strings
import PkeFire.Config.Overrun
import PkeFire.Config.Decimal
import PkeFire.Ota.CompileTime
import PkeFire.Ota.Strings
import PkeFire.Ota.Task
import PkeFire.Ota.Life
import PkeFire.Ota.Init
import PkeFire.Lora.Protocol
import PkeFire.Lora.Receiver
import PkeFire.Lora.Stream
import PkeFire.Lora.Bounds
import PkeFire.Lora.Assembly
import PkeFire.Lora.Delivery
import PkeFire.Lora.Genuine
import PkeFire.Lora.Uart
import PkeFire.Lora.Wakeup
import PkeFire.Lora.DeviceTable
import PkeFire.Lora.Recogniser
import PkeFire.Lora.Reply
import PkeFire.Lora.Isolation
import PkeFire.Lora.Measurements
import PkeFire.Lora.Network
import PkeFire.Lora.Latest
import PkeFire.NbIot.Handler
import PkeFire.Config.Settings
import PkeFire.NbIot.Types
import PkeFire.NbIot.Numbers
import PkeFire.NbIot.Uplink
import PkeFire.NbIot.Site
import PkeFire.NbIot.Central
