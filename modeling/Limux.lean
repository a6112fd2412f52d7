import Limux.SplitPanes
import Limux.SessionRound
import Limux.SessionRun
import Limux.SocketRun
import Limux.CliRun
import Limux.RelayRun
import Limux.RemoteCliRun
import Limux.BrokerLeases
import Limux.ControllerTunnel
import Limux.RpcClean
import Limux.RpcWire
import Limux.RpcTunnel
import Limux.DaemonRun
import Limux.DaemonAnswers
import Limux.TunnelEnds
import Limux.TunnelLeaks
import Limux.DaemonSessionRun
import Limux.DaemonServe
import Limux.RelayHandshake
import Limux.SocketReads
import Limux.DbusRun
import Limux.ProxyRun
import Limux.UiAtomic
import Limux.SplitMove
import Limux.SplitNav
import Limux.TabClose
import Limux.WindowOrder
import Limux.BootstrapRun
import Limux.TmuxStoreRun
import Limux.TmuxTargetTrip
import Limux.DaemonFresh
import Limux.RelayReply
import Limux.TabReorder
import Limux.TransportKey
import Limux.RemoteOptions
import Limux.RemoteStartup
import Limux.Handshake
import Limux.Lib.Block
import Limux.HandshakeExact
import Limux.ProxyBridge
import Limux.ProxyTarget
import Limux.FocusDirectory
import Limux.TmuxWait
import Limux.TmuxResolve
import Limux.TmuxFormat
import Limux.SshDetect
import Limux.PortDetect
import Limux.FileDrop
import Limux.BootstrapDownload
import Limux.SessionCrash
import Limux.NotifyText
import Limux.StatusRows
import Limux.DaemonTimeout
import Limux.SplitCycle
import Limux.PortTree
import Limux.ShellPaths
import Limux.TabDrag
import Limux.UiStacks
import Limux.UiDividers
import Limux.DesktopBus
import Limux.AgentNested
import Limux.UpdateCheck
import Limux.GhosttyConfig
import Limux.Tick
