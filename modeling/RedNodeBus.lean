import RedNodeBus.Lib.Machine
import RedNodeBus.Lib.WorkQueue
import RedNodeBus.Lib.BoundedQueue
import RedNodeBus.Lib.SlotPool
import RedNodeBus.Utils.OtWork
import RedNodeBus.Utils.Node
import RedNodeBus.Utils.BusSync
import RedNodeBus.Utils.Commands
import RedNodeBus.Utils.BootRequest
import RedNodeBus.Utils.EventQueue
import RedNodeBus.Utils.Awaiting
import RedNodeBus.Utils.ConnectionFlag
import RedNodeBus.Utils.UserPayload
import RedNodeBus.Utils.Configured
import RedNodeBus.Utils.Watchdog
import RedNodeBus.Utils.Sntp
import RedNodeBus.Utils.UnixTime
import RedNodeBus.Utils.ClockTrigger
import RedNodeBus.Utils.Triggers
import RedNodeBus.Utils.ClockAccuracy
import RedNodeBus.Lib.Settling
import RedNodeBus.Utils.Settling
import RedNodeBus.Utils.Paced
import RedNodeBus.Utils.InStep
import RedNodeBus.Utils.InitRnb
import RedNodeBus.Lib.Delayable
import RedNodeBus.EchoClient.Udp
import RedNodeBus.EchoClient.PollSet
import RedNodeBus.EchoClient.Cycle
import RedNodeBus.EchoClient.StopFinal
import RedNodeBus.EchoClient.RnbPayload
import RedNodeBus.EchoClient.Mailbox
import RedNodeBus.EchoClient.RnbTimers
import RedNodeBus.EchoClient.Stall
import RedNodeBus.Lib.EchoStar
import RedNodeBus.Lib.Echoes
import RedNodeBus.EchoClient.Credit
import RedNodeBus.EchoClient.RnbCredit
import RedNodeBus.EchoClient.EchoServer
import RedNodeBus.EchoClient.EchoServerRnb
import RedNodeBus.Lib.Nested
import RedNodeBus.Ranging.Spi
import RedNodeBus.Ranging.SpiExclusive
import RedNodeBus.Ranging.Wakeup
import RedNodeBus.Ranging.IrqMask
import RedNodeBus.Ranging.CallSequence
import RedNodeBus.Ranging.SpiClock
import RedNodeBus.Lib.WrappedDiv
import RedNodeBus.Battery.Sample
import RedNodeBus.Lib.PiecewiseLinear
import RedNodeBus.Battery.Level
import RedNodeBus.Accelerometer.Role
import RedNodeBus.Lib.Bytes
import RedNodeBus.Lib.Hex
import RedNodeBus.Lib.Epochs
import RedNodeBus.Telemetry.Sender
import RedNodeBus.Telemetry.SocketTest
import RedNodeBus.Telemetry.Accelerometer
import RedNodeBus.Telemetry.Battery
import RedNodeBus.Battery.Node
import RedNodeBus.Battery.Datagrams
import RedNodeBus.Battery.Fleet
import RedNodeBus.Telemetry.Script
import RedNodeBus.Telemetry.LossAccounting
import RedNodeBus.Telemetry.ArrivalOrder
import RedNodeBus.Telemetry.Numbering
import RedNodeBus.Telemetry.RoundTrip
import RedNodeBus.Telemetry.RnbClients
import RedNodeBus.Telemetry.RnbAccounting
import RedNodeBus.Telemetry.Rows
import RedNodeBus.Telemetry.Displays
import RedNodeBus.Telemetry.BothClients
