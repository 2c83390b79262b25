import MobileBgb.Link.Segmentation
import MobileBgb.Socket.Leak
import MobileBgb.Socket.Receive
import MobileBgb.Clock.Circular
import MobileBgb.Effect.Monitor
import MobileBgb.Main.WallClock
import MobileBgb.Main.Lifecycle
import MobileBgb.Main.Pipeline
import MobileBgb.Main.Actions
import MobileBgb.Main.ClockInit
import MobileBgb.Main.Timers
import MobileBgb.Link.Greeting
import MobileBgb.Main.TestMaster
import MobileBgb.Main.DnsPort
import MobileBgb.Socket.Connect
import MobileBgb.Socket.ImplConnect
import MobileBgb.Main.ConfigFile
import MobileBgb.Main.Address
import MobileBgb.Main.HexParse
import MobileBgb.Effect.Interleave
import MobileBgb.Effect.Triple
import MobileBgb.Socket.Ownership
import MobileBgb.Session.Master
import MobileBgb.Session.Agreement
import MobileBgb.Session.Opening
import MobileBgb.Session.Progress
import MobileBgb.Session.Clock
import MobileBgb.Main.Ownership
import MobileBgb.Effect.Translate
import MobileBgb.Main.Program
import MobileBgb.Main.Release
import MobileBgb.Main.Restarts
import MobileBgb.Effect.Parallel
import MobileBgb.Socket.Duplex
import MobileBgb.Socket.EndToEnd
import MobileBgb.Main.Startup
