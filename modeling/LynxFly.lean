import LynxFly.Control.Bounds
import LynxFly.Control.CFFRELS
import LynxFly.Control.Identification
import LynxFly.Control.InitPolynomials
import LynxFly.Control.Observ
import LynxFly.Control.PIDNormal
import LynxFly.Control.PolePlacement
import LynxFly.Control.Scaling
import LynxFly.Control.Steady
import LynxFly.Drivers.I2CDma
import LynxFly.Drivers.MS5611
import LynxFly.Drivers.PwmRotor4
import LynxFly.Math.MatrixInversion
import LynxFly.Wifi.CommandStatus
import LynxFly.Wifi.Connect
import LynxFly.Wifi.ExecuteCommand
import LynxFly.Wifi.FilteredScan
import LynxFly.Wifi.GspiIo
import LynxFly.Wifi.RxFrame
import LynxFly.Wifi.RxNotice
import LynxFly.Wifi.RxQueue
import LynxFly.Wifi.ScanItems
import LynxFly.Wifi.ScanResult
import LynxFly.Wifi.Transmit
import LynxFly.Base.Blocks
import LynxFly.Base.ByteMemory
import LynxFly.Kernel.Heap
import LynxFly.Kernel.HeapBlocks
import LynxFly.Kernel.HeapRuns
import LynxFly.Base.Links
import LynxFly.Base.Waiters
import LynxFly.Kernel.Ipc
import LynxFly.Kernel.ThreadLists
import LynxFly.Kernel.ThreadRuns
import LynxFly.Kernel.ThreadSteps
import LynxFly.Kernel.ThreadIpc
import LynxFly.Kernel.ThreadSafety
