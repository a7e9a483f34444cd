import WaterGateway.Common.Word
import WaterGateway.Common.Replay
import WaterGateway.Common.Run
import WaterGateway.Common.Fifo
import WaterGateway.Common.AutoTable
import WaterGateway.Common.Link
import WaterGateway.Common.Condvar
import WaterGateway.Common.Hysteresis
import WaterGateway.Common.Lfsr
import WaterGateway.Common.Crc
import WaterGateway.Common.Transducer
import WaterGateway.Common.Utf8
import WaterGateway.Common.Json.Parser
import WaterGateway.Common.Lines
import WaterGateway.Common.LastWrite
import WaterGateway.Common.WriteAll
import WaterGateway.Common.Exceptions
import WaterGateway.Common.Ownership
import WaterGateway.Common.Rounding
import WaterGateway.Sample.Model
import WaterGateway.Sample.Float
import WaterGateway.Sample.Registers
import WaterGateway.Config.Model
import WaterGateway.Config.Lines
import WaterGateway.Config.Keys
import WaterGateway.Config.LastWins
import WaterGateway.Config.Comments
import WaterGateway.Config.Admitted
import WaterGateway.Serial.Model
import WaterGateway.Serial.WriteAll
import WaterGateway.Modbus.Model
import WaterGateway.Modbus.Frame
import WaterGateway.Modbus.Read
import WaterGateway.Modbus.Grammar
import WaterGateway.Modbus.Bounds
import WaterGateway.Modbus.HexDump
import WaterGateway.Modbus.Detect
import WaterGateway.Modbus.Reference
import WaterGateway.Modbus.Poll
import WaterGateway.Queue.Model
import WaterGateway.Queue.Refinement
import WaterGateway.Queue.Channel
import WaterGateway.Queue.Conservation
import WaterGateway.Queue.Monitor
import WaterGateway.Queue.EmptyHanded
import WaterGateway.Queue.Deadline
import WaterGateway.Processor.Model
import WaterGateway.Processor.Debounce
import WaterGateway.Processor.Bands
import WaterGateway.Alarm.Follow
import WaterGateway.Alarm.Driver
import WaterGateway.Store.Model
import WaterGateway.Store.Trim
import WaterGateway.Store.Priority
import WaterGateway.Pipeline.Model
import WaterGateway.Pipeline.Moves
import WaterGateway.Pipeline.Order
import WaterGateway.Pipeline.Handled
import WaterGateway.Pipeline.Shutdown
import WaterGateway.Pipeline.Joins
import WaterGateway.Pipeline.Cache
import WaterGateway.Pipeline.Accounts
import WaterGateway.Pipeline.Growth
import WaterGateway.Uploader.Json
import WaterGateway.Uploader.Model
import WaterGateway.Uploader.SendLine
import WaterGateway.Uploader.Moves
import WaterGateway.Uploader.Order
import WaterGateway.Uploader.Framing
import WaterGateway.Uploader.Stream
import WaterGateway.Uploader.Delivery
import WaterGateway.Uploader.InHand
import WaterGateway.Uploader.Retry
import WaterGateway.Uploader.Once
import WaterGateway.Uploader.Counter
import WaterGateway.Uploader.Length
import WaterGateway.Uploader.Overflow
import WaterGateway.Uploader.Drain
import WaterGateway.Uploader.Termination
import WaterGateway.Uploader.Stop
import WaterGateway.Uploader.Fidelity
import WaterGateway.Uploader.Decodable
import WaterGateway.Receiver.Model
import WaterGateway.Receiver.Lines
import WaterGateway.Receiver.Resync
import WaterGateway.Receiver.Gateway
import WaterGateway.Receiver.Values
import WaterGateway.Gateway.Model
import WaterGateway.Gateway.Moves
import WaterGateway.Gateway.Order
import WaterGateway.Gateway.Server
import WaterGateway.Gateway.Shutdown
import WaterGateway.Gateway.Closing
import WaterGateway.Gateway.Startup
import WaterGateway.Gateway.Handles
import WaterGateway.Gateway.Registers
import WaterGateway.Gateway.Collect
import WaterGateway.Gateway.Led
import WaterGateway.Gateway.Growth
