import TouchMouse.Call.ClockFailure
import TouchMouse.Call.Containment
import TouchMouse.Call.Deadline
import TouchMouse.Call.Delivery
import TouchMouse.Call.Guard
import TouchMouse.Call.Nonblocking
import TouchMouse.Call.Outcome
import TouchMouse.Call.Progress
import TouchMouse.Call.ReceivedBytes
import TouchMouse.Call.Reentry
import TouchMouse.Call.Safety
import TouchMouse.Call.Schedule
import TouchMouse.Call.Waits
import TouchMouse.Decoder.Grammar
import TouchMouse.Decoder.Lossless
import TouchMouse.Enumeration.Clients
import TouchMouse.Enumeration.Ownership
import TouchMouse.Feature.ModeBits
import TouchMouse.Timer.Exact
import TouchMouse.Concurrency.Ledger
import TouchMouse.Model.HidRead
import TouchMouse.HidApi.Barrier
import TouchMouse.HidApi.EndToEnd
import TouchMouse.HidApi.FeatureReports
import TouchMouse.HidApi.HardwareId
import TouchMouse.HidApi.HidManager
import TouchMouse.HidApi.ModeChanges
import TouchMouse.HidApi.OpenDevices
import TouchMouse.HidApi.Overlapped
import TouchMouse.HidApi.ReportDescriptor
import TouchMouse.HidApi.ReportList
import TouchMouse.HidApi.Shutdown
import TouchMouse.HidApi.Topology
import TouchMouse.HidApi.Wakeup
import TouchMouse.Model.InputReports
import TouchMouse.Model.OpenPath
