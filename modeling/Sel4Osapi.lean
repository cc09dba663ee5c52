import Sel4Osapi.Theorems.Boot
import Sel4Osapi.Theorems.ClockEffects
import Sel4Osapi.Theorems.ClockPeriodic
import Sel4Osapi.Theorems.ClockSlots
import Sel4Osapi.Theorems.ClockThreads
import Sel4Osapi.Theorems.Delete
import Sel4Osapi.Theorems.EthIrq
import Sel4Osapi.Theorems.Grant
import Sel4Osapi.Theorems.IpcBuffers
import Sel4Osapi.Theorems.Lists
import Sel4Osapi.Theorems.Log
import Sel4Osapi.Theorems.LogThreads
import Sel4Osapi.Theorems.Pool
import Sel4Osapi.Theorems.ProcessLife
import Sel4Osapi.Theorems.Serial
import Sel4Osapi.Theorems.SerialProgress
import Sel4Osapi.Theorems.SerialRead
import Sel4Osapi.Theorems.SerialTraffic
import Sel4Osapi.Theorems.SleepWakes
import Sel4Osapi.Theorems.SystemIds
import Sel4Osapi.Theorems.ThreadLife
import Sel4Osapi.Theorems.ThreadName
import Sel4Osapi.Theorems.UdpClients
import Sel4Osapi.Theorems.UdpRecv
import Sel4Osapi.Theorems.UdpRxCopy
import Sel4Osapi.Theorems.UdpSent
import Sel4Osapi.Theorems.UdpTx
import Sel4Osapi.Theorems.UdpWaits
