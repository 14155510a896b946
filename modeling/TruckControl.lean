import TruckControl.Library.Transition
import TruckControl.Library.Byte
import TruckControl.Library.SortedList
import TruckControl.Model.Commands
import TruckControl.Model.OutputRecords
import TruckControl.Model.MsgQueue
import TruckControl.Model.IoState
import TruckControl.Model.BasicControls
import TruckControl.Model.Timer
import TruckControl.Model.Controller
import TruckControl.Verification.Relay.Abstract
import TruckControl.Verification.Relay.Functions
import TruckControl.Verification.Relay.Refinement
import TruckControl.Model.Odata
import TruckControl.Verification.EmergencyStop
import TruckControl.Verification.Countdown
import TruckControl.Verification.OffEdge
import TruckControl.Verification.ShadowInputs
import TruckControl.Verification.Poll
import TruckControl.Verification.SwitchCommands
import TruckControl.Verification.Shutdown
import TruckControl.Verification.OutputSync
import TruckControl.Library.BufferLog
import TruckControl.Verification.ControlQueue
import TruckControl.Library.Interleaving
import TruckControl.Model.Tcp
import TruckControl.Verification.TcpFrames
import TruckControl.Model.Stm32
import TruckControl.Model.Truck
import TruckControl.Library.Register
import TruckControl.Verification.EngineAgreement
import TruckControl.Verification.FanForwarding
import TruckControl.Library.MarkedFrames
import TruckControl.Library.Monitor
import TruckControl.Library.MonitorProgress
import TruckControl.Model.SerialLine
import TruckControl.Verification.SerialFrames
import TruckControl.Library.Resync
import TruckControl.Model.Client
import TruckControl.Verification.MessageFrames
import TruckControl.Model.ParamFile
import TruckControl.Verification.ParamFile
import TruckControl.Model.Config
import TruckControl.Verification.UpdateConfig
import TruckControl.Verification.ConfigReplication
import TruckControl.Verification.EnginePower
import TruckControl.Verification.FakeRequests
import TruckControl.Verification.Drain
import TruckControl.Verification.ToggleKeys
import TruckControl.Library.ShortReads
import TruckControl.Model.Upload
import TruckControl.Verification.Upload
import TruckControl.Library.Reports
import TruckControl.Model.Callback
import TruckControl.Verification.FanControl
import TruckControl.Model.ParallelPort
import TruckControl.Verification.Expiry
import TruckControl.Verification.PortHandshake
import TruckControl.Verification.PortBytes
import TruckControl.Verification.PortDeadlock
import TruckControl.Verification.RdwrExclusion
import TruckControl.Verification.RdwrProgress
import TruckControl.Verification.RealTimeFrames
import TruckControl.Model.SerialReceive
import TruckControl.Verification.SerialReceive
import TruckControl.Model.RevLimits
import TruckControl.Verification.RevLimits
import TruckControl.Model.TcpMonitor
import TruckControl.Verification.Greeting
import TruckControl.Verification.LightsCountdown
import TruckControl.Verification.LightsOff
import TruckControl.Model.QueueMemory
import TruckControl.Verification.QueueBounds
import TruckControl.Verification.KeypadCommands
import TruckControl.Library.Word
import TruckControl.Model.WorkRoutine
import TruckControl.Model.Xmega
import TruckControl.Verification.DisplayLink
import TruckControl.Library.FlatCounts
import TruckControl.Verification.PhysicalInputs
import TruckControl.Verification.UnwiredInputs
import TruckControl.Model.FpgaCommands
import TruckControl.Verification.FpgaCommands
import TruckControl.Library.Hysteresis
import TruckControl.Library.Waiting
import TruckControl.Model.Rdwr
import TruckControl.Model.RevLimiter
import TruckControl.Verification.RevLimiter
import TruckControl.Model.DisplaySender
import TruckControl.Verification.DisplayBytes
import TruckControl.Library.SampleLog
import TruckControl.Verification.DisplayWords
import TruckControl.Verification.PortWords
import TruckControl.Model.AnalogInputs
import TruckControl.Verification.Conversions
import TruckControl.Verification.AnalogRounds
import TruckControl.Verification.AnalogResults
import TruckControl.Verification.AnalogProgress
import TruckControl.Model.HostTask
import TruckControl.Verification.HostBuffers
import TruckControl.Verification.HostText
import TruckControl.Library.Decimal
import TruckControl.Library.Scan
import TruckControl.Model.SetTime
import TruckControl.Verification.SetTime
import TruckControl.Library.Toggle
import TruckControl.Model.Tones
import TruckControl.Verification.TempAlarm
import TruckControl.Model.ParamTables
import TruckControl.Verification.TableBounds
import TruckControl.Model.SendConfig
import TruckControl.Verification.SendConfig
import TruckControl.Library.Gaps
import TruckControl.Verification.PortStores
import TruckControl.Verification.KeyTones
import TruckControl.Library.LongDivision
import TruckControl.Model.SpeedSensor
import TruckControl.Verification.Divider
import TruckControl.Verification.SpeedSensor
import TruckControl.Verification.SpeedReading
import TruckControl.Library.Ranking
import TruckControl.Model.EngineStatus
import TruckControl.Verification.EngineStatus
import TruckControl.Model.HostStart
import TruckControl.Verification.OutputBits
import TruckControl.Model.Clocks
import TruckControl.Verification.Clocks
import TruckControl.Verification.Side
import TruckControl.Library.LinkedList
import TruckControl.Model.OllistMemory
import TruckControl.Verification.OllistMap
import TruckControl.Verification.OllistRemoval
import TruckControl.Verification.InitIps
import TruckControl.Library.Chunks
import TruckControl.Model.OdataFile
import TruckControl.Model.WayPoints
import TruckControl.Verification.OdataFile
import TruckControl.Verification.WayPoints
import TruckControl.Model.InitDb
import TruckControl.Verification.InitDb
import TruckControl.Verification.StartBarrier
import TruckControl.Library.Simulation
import TruckControl.Library.AtomicTable
import TruckControl.Library.OrderedList
import TruckControl.Model.ListThreads
import TruckControl.Verification.ListAtomic
import TruckControl.Verification.FoundRecords
import TruckControl.Library.Debounce
import TruckControl.Model.DbFsm
import TruckControl.Verification.DbFsm
import TruckControl.Model.UartRx
import TruckControl.Verification.UartRx
import TruckControl.Verification.CommandLine
import TruckControl.Library.Parameters
import TruckControl.Model.FpgaSettings
import TruckControl.Verification.FpgaSettings
import TruckControl.Verification.SettingsDelivery
import TruckControl.Verification.AdcGate
import TruckControl.Model.UartLed
import TruckControl.Verification.UartLed
import TruckControl.Verification.ListProgress
