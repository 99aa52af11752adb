import Micronet.Weakest
import Micronet.Halting
import Micronet.Timespec
import Micronet.Text
import Micronet.Splitting
import Micronet.Numerals
import Micronet.Addr
import Micronet.Config
import Micronet.NetOps
import Micronet.Apply
import Micronet.Daemon
import Micronet.LiveNet
import Micronet.Machine
import Micronet.Isolation
import Micronet.Dhclients
import Micronet.Routes
import Micronet.Resolution
import Micronet.Carriers
import Micronet.Stable
import Micronet.Agreement
import Micronet.Teardown
import Micronet.ApplyAddress
import Micronet.DaemonRun
import Micronet.LiveDaemon
import Micronet.FailClosed
import Micronet.GatewayAddress
import Micronet.DnsmasqMode
import Micronet.HealthHistory
import Micronet.LinkWatch
import Micronet.Reselect
import Micronet.Ipc
import Micronet.Protocol
import Micronet.Liveness
import Micronet.SecondInstance
import Micronet.DhcpConf
import Micronet.DhcpRun
import Micronet.DnsName
import Micronet.Sticky
import Micronet.DottedQuad
import Micronet.AddressPlan
import Micronet.Settings
import Micronet.ConfDirectives
import Micronet.HostRecords
import Micronet.ConfigJson
import Micronet.Listing
import Micronet.AddAddr
import Micronet.Probe
import Micronet.ProbeVerdict
import Micronet.Process
import Micronet.DaemonContract
import Micronet.Overflow
import Micronet.Elf
import Micronet.ElfLayout
import Micronet.ElfImage
import Micronet.Radix
import Micronet.Sysfs
import Micronet.Simulation
import Micronet.Processes
import Micronet.LiveMethods
import Micronet.Kernel
import Micronet.KernelRefines
import Micronet.Trial
import Micronet.LiveRuns
import Micronet.LiveGateway
import Micronet.Passes
import Micronet.Channels
import Micronet.Reloads
import Micronet.Answers
import Micronet.Settling
import Micronet.Readiness
import Micronet.Waiting
import Micronet.Cli
