import EnresLogger.Lib.Memory
import EnresLogger.Lib.Ring
import EnresLogger.Lib.Bytes
import EnresLogger.Lib.Loop
import EnresLogger.Lib.Json
import EnresLogger.Lib.Lockstep
import EnresLogger.Lib.Counter
import EnresLogger.Lib.Trim
import EnresLogger.SPIFlash
import EnresLogger.SPIFlashMeter
import EnresLogger.Append
import EnresLogger.Retention
import EnresLogger.SDConfig
import EnresLogger.Meter
import EnresLogger.Record
import EnresLogger.Payload
import EnresLogger.SensorPayload
import EnresLogger.Logger
import EnresLogger.Device
import EnresLogger.Crash
import EnresLogger.Restart
import EnresLogger.Live
import EnresLogger.Overrun
import EnresLogger.Delivery
import EnresLogger.Frame
import EnresLogger.Resync
import EnresLogger.ConfigFlash
import EnresLogger.Whole
import EnresLogger.Progress
import EnresLogger.Refresh
import EnresLogger.Burst
import EnresLogger.Areas
import EnresLogger.Windows
import EnresLogger.Kinds
import EnresLogger.SensorJson
import EnresLogger.ConfigPages
import EnresLogger.Reading
import EnresLogger.Rejected
import EnresLogger.AnalogSensor
import EnresLogger.RTClib
import EnresLogger.Escape
import EnresLogger.Identify
import EnresLogger.Polling
import EnresLogger.Cadence
import EnresLogger.Nvram
import EnresLogger.Life
import EnresLogger.Lib.Words
import EnresLogger.MeterJson
import EnresLogger.Lib.Flips
import EnresLogger.Distance
