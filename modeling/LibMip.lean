import LibMip.Adapter.Hciconfig
import LibMip.Adapter.Mac2Device
import LibMip.Adapter.Normalise
import LibMip.Angle
import LibMip.Att.Codec
import LibMip.Att.Lists
import LibMip.Att.Opcodes
import LibMip.Att.Uuid
import LibMip.Calls
import LibMip.Channel.Attrib
import LibMip.Channel.Commands
import LibMip.Channel.Fifo
import LibMip.Channel.Ledger
import LibMip.Channel.Outstanding
import LibMip.Channel.Pairing
import LibMip.Channel.References
import LibMip.Channel.Requests
import LibMip.Channel.Steps
import LibMip.Channel.WakeUp
import LibMip.Commands
import LibMip.Connection.Connect
import LibMip.Connection.OrderCount
import LibMip.Connection.World
import LibMip.Drive.Bounded
import LibMip.Drive.ContinuousDrive
import LibMip.Drive.Saturation
import LibMip.Drive.Stop
import LibMip.Foundation.CNum
import LibMip.Foundation.CString
import LibMip.Foundation.Delivery
import LibMip.Foundation.Duplex
import LibMip.Foundation.Exchange
import LibMip.Foundation.HexScan
import LibMip.Foundation.HexStream
import LibMip.Foundation.Loops
import LibMip.Foundation.Octets
import LibMip.Foundation.Outputs
import LibMip.Foundation.Paging
import LibMip.Foundation.Registers
import LibMip.Foundation.Runs
import LibMip.Foundation.Segments
import LibMip.Foundation.Simulation
import LibMip.Foundation.Words
import LibMip.Gatt.DiscoverChar
import LibMip.Gatt.DiscoverPrimary
import LibMip.Gatt.FindIncluded
import LibMip.Gatt.Listing
import LibMip.Gatt.Procedures
import LibMip.Gatt.ReadLong
import LibMip.Gatt.Request
import LibMip.Gatt.Session
import LibMip.Gatt.WriteLong
import LibMip.Link.Delivery
import LibMip.Link.Refinement
import LibMip.Link.System
import LibMip.Metric
import LibMip.Notification.Decode
import LibMip.Notification.Malformed
import LibMip.Notification.RoundTrip
import LibMip.Notification.Safety
import LibMip.Orders
import LibMip.Robot.ChestLed
import LibMip.Robot.CommandTable
import LibMip.Robot.HeadLed
import LibMip.Robot.ReadBack
import LibMip.Sensors.LastWriter
import LibMip.Sensors.Marker
import LibMip.Sensors.Odometer
import LibMip.Speed
import LibMip.Speed.Linear
import LibMip.Speed.Range
import LibMip.Speed.Sign
import LibMip.State
import LibMip.Store
import LibMip.Text.FindAndReplace
import LibMip.Text.StringSplit
import LibMip.Text.Termination
