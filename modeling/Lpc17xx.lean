import Lpc17xx.Link.Splice
import Lpc17xx.Cbuf.Lifetime
import Lpc17xx.Cbuf.LostUpdate
import Lpc17xx.Heap.WellFormed
import Lpc17xx.Packets.Consumption
import Lpc17xx.Protocol.Isolation
import Lpc17xx.Emac.Cable
import Lpc17xx.Process.Idle
import Lpc17xx.Process.Switch
import Lpc17xx.Irq.Discipline
import Lpc17xx.Wait.Progress
import Lpc17xx.Requests.Frames
import Lpc17xx.Arp.Exchange
import Lpc17xx.Net.FailedConnect
import Lpc17xx.Net.Progress
import Lpc17xx.Udp.Loopback
import Lpc17xx.Tcp.AckNumber
import Lpc17xx.Tcp.AckStorm
import Lpc17xx.Tcp.ActiveClose
import Lpc17xx.Tcp.Demultiplex
import Lpc17xx.Tcp.EndOfStream
import Lpc17xx.Tcp.FlowControl
import Lpc17xx.Tcp.HostRuns
import Lpc17xx.Tcp.PairProgress
import Lpc17xx.Tcp.ReceiveAccounting
import Lpc17xx.Tcp.Resets
import Lpc17xx.Tcp.RxTick
import Lpc17xx.Tcp.SendAccounting
import Lpc17xx.Tcp.StreamDelivery
import Lpc17xx.Tcp.TeardownRuns
import Lpc17xx.Tcp.Framing
import Lpc17xx.System.Sharing
import Lpc17xx.System.Processes
import Lpc17xx.System.Initcalls
