import PrivacyGuard.Effect.Prog
import PrivacyGuard.Effect.Runs
import PrivacyGuard.Effect.History
import PrivacyGuard.Effect.Threads
import PrivacyGuard.Effect.Serial
import PrivacyGuard.Effect.Mutex
import PrivacyGuard.Effect.Protocol
import PrivacyGuard.Text.Lines
import PrivacyGuard.Text.Split
import PrivacyGuard.Text.Words
import PrivacyGuard.Text.Follow
import PrivacyGuard.Window.Limiter
import PrivacyGuard.Window.Detector
import PrivacyGuard.Netfilter.Table
import PrivacyGuard.Netfilter.Effects
import PrivacyGuard.Netfilter.Verdict
import PrivacyGuard.Netfilter.Walk
import PrivacyGuard.Netfilter.Firewall
import PrivacyGuard.Netfilter.Extension
import PrivacyGuard.Netfilter.Replacement
import PrivacyGuard.Netfilter.Additions
import PrivacyGuard.Model.Packets
import PrivacyGuard.Model.Conntrack
import PrivacyGuard.Model.State
import PrivacyGuard.Model.System
import PrivacyGuard.Model.FirewallBackup
import PrivacyGuard.Model.Ipv6
import PrivacyGuard.Model.Modes
import PrivacyGuard.Model.Core
import PrivacyGuard.Model.ProxyOnly
import PrivacyGuard.Model.Gateway
import PrivacyGuard.Model.AntiRecon
import PrivacyGuard.Model.Orchestrate
import PrivacyGuard.Model.Actions
import PrivacyGuard.Model.Success
import PrivacyGuard.Model.Switching
import PrivacyGuard.Model.Undoing
import PrivacyGuard.Model.Applying
import PrivacyGuard.Model.Leftovers
import PrivacyGuard.Model.Course
import PrivacyGuard.Model.Recent
import PrivacyGuard.Model.TorOutput
import PrivacyGuard.Model.Traces
import PrivacyGuard.Model.Topology
import PrivacyGuard.Model.Dict
import PrivacyGuard.Model.StateFile
import PrivacyGuard.Model.Torrc
import PrivacyGuard.Model.Verify
import PrivacyGuard.Model.DnsCheck
import PrivacyGuard.Model.VerifyIsolation
import PrivacyGuard.Model.ScanWatch
import PrivacyGuard.Model.LogWatch
import PrivacyGuard.Properties.Exclusion
import PrivacyGuard.Properties.Atomicity
import PrivacyGuard.Properties.BackupIntegrity
import PrivacyGuard.Properties.Isolation
import PrivacyGuard.Properties.CrashSafety
import PrivacyGuard.Properties.Reapply
import PrivacyGuard.Properties.RoundTrip
import PrivacyGuard.Properties.Leak
import PrivacyGuard.Properties.Redirection
import PrivacyGuard.Properties.Openings
import PrivacyGuard.Properties.Ipv6Coverage
import PrivacyGuard.Properties.WidgetRuns
import PrivacyGuard.Properties.Workstation
import PrivacyGuard.Properties.StartStop
import PrivacyGuard.Properties.Concurrency
import PrivacyGuard.Properties.PortscanFlag
import PrivacyGuard.Properties.OffOrder
import PrivacyGuard.Properties.SavedState
import PrivacyGuard.Properties.TornWrite
import PrivacyGuard.Properties.PortConflict
import PrivacyGuard.Properties.RedsocksLoop
import PrivacyGuard.Properties.Verification
import PrivacyGuard.Properties.PortscanOpening
import PrivacyGuard.Properties.RateLimit
import PrivacyGuard.Properties.PortscanRemoval
import PrivacyGuard.Properties.Declined
import PrivacyGuard.Properties.OpenDefault
import PrivacyGuard.Properties.TorrcWriter
import PrivacyGuard.Properties.TorOptions
import PrivacyGuard.Properties.GatewayRewrite
import PrivacyGuard.Properties.Bridges
import PrivacyGuard.Properties.DnsLeak
import PrivacyGuard.Properties.IsolationReport
import PrivacyGuard.Properties.ScanAlerts
import PrivacyGuard.Properties.LogSignatures
import PrivacyGuard.Properties.MonitorLifecycle
import PrivacyGuard.Properties.MonitorAlerts
import PrivacyGuard.Properties.MonitorMenu
import PrivacyGuard.Properties.TorAnswer
import PrivacyGuard.Properties.ProfileStore
import PrivacyGuard.Properties.ProxyConf
import PrivacyGuard.Properties.ProxyRecord
import PrivacyGuard.Properties.SysctlRuns
import PrivacyGuard.Properties.VpnState
import PrivacyGuard.Properties.ConsoleRuns
import PrivacyGuard.Model.Arriving
import PrivacyGuard.Properties.RulesInForce
import PrivacyGuard.Properties.GatewayService
import PrivacyGuard.Graph.Separation
import PrivacyGuard.Effect.Embed
import PrivacyGuard.Effect.Input
import PrivacyGuard.Effect.Reader
import PrivacyGuard.Model.Menu
import PrivacyGuard.Model.Sessions
import PrivacyGuard.Properties.MenuScript
import PrivacyGuard.Model.Wiring
import PrivacyGuard.Properties.NetworkGraph
import PrivacyGuard.Netfilter.Sources
import PrivacyGuard.Model.ScanBlocking
import PrivacyGuard.Properties.ScanBlocks
import PrivacyGuard.Window.Counter
import PrivacyGuard.Properties.LogBursts
import PrivacyGuard.Properties.LogStore
import PrivacyGuard.Properties.MacRuns
import PrivacyGuard.Properties.PanelRuns
import PrivacyGuard.Properties.Ipv6Flag
import PrivacyGuard.Properties.WorkstationSetup
import PrivacyGuard.Model.Networking
import PrivacyGuard.Properties.Journeys
import PrivacyGuard.Text.Blocks
import PrivacyGuard.Properties.TorrcRuns
import PrivacyGuard.Properties.TypedSessions
