import Lsc100.Basis.Machine
import Lsc100.Basis.GroupScan
import Lsc100.Timestamp
import Lsc100.EmmcBytes
import Lsc100.Adc.Sound
import Lsc100.Adc.Recovery
import Lsc100.Adc.Interval
import Lsc100.Adc.BlockNum
import Lsc100.Adc.Failure
import Lsc100.Sample.Steady
import Lsc100.Sample.Calibration
import Lsc100.Sample.Clock
import Lsc100.Sample.Fifo
import Lsc100.Sample.Buffer
import Lsc100.Config.Crash
import Lsc100.Config.Persist
import Lsc100.Alarm.Slots
import Lsc100.Alarm.Durable
import Lsc100.Alarm.Agree
import Lsc100.Alarm.Refused
import Lsc100.Alarm.Output
import Lsc100.Alarm.Exact
import Lsc100.Alarm.Debounce
import Lsc100.Net.Framing
import Lsc100.Net.Delivery
import Lsc100.Net.Owner
import Lsc100.Net.Reassembly
import Lsc100.Weekday
import Lsc100.Net.Socket
import Lsc100.Net.MsgQueue
import Lsc100.EmmcCommands
import Lsc100.Device.Ends
import Lsc100.Device.Clear
import Lsc100.Basis.Locking
import Lsc100.Locks
import Lsc100.Sample.Gain
import Lsc100.Basis.Paged
import Lsc100.FlashPages
import Lsc100.Adc.Lockstep
import Lsc100.Adc.Tables
import Lsc100.EepromBus
import Lsc100.EmmcStatus
import Lsc100.EmmcTransfer
import Lsc100.Sample.CacheTasks
import Lsc100.Sample.ClockTasks
import Lsc100.Net.QueueTasks
import Lsc100.FlashDriver
import Lsc100.EmmcDriver
import Lsc100.Net.EthernetSends
import Lsc100.Adc.PowerCut
import Lsc100.RtcRuns
import Lsc100.Device.Samples
