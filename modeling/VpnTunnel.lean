import VpnTunnel.Apitls.Basic
import VpnTunnel.Apitls.Secrecy
import VpnTunnel.Apitls.Theorems
import VpnTunnel.Application.Proxy.AccessLog
import VpnTunnel.Application.Proxy.Basic
import VpnTunnel.Application.Proxy.Copy.Basic
import VpnTunnel.Application.Proxy.Copy.Theorems
import VpnTunnel.Application.Proxy.Theorems.AccessLog
import VpnTunnel.Application.Proxy.Theorems.Basic
import VpnTunnel.Application.Proxy.Theorems.HopByHop
import VpnTunnel.Application.Proxy.Theorems.Rotation
import VpnTunnel.Application.Proxy.Theorems.Sessions
import VpnTunnel.Application.Proxy.Tunnels.Basic
import VpnTunnel.Application.Proxy.Tunnels.Theorems
import VpnTunnel.Asyncjob.Gc
import VpnTunnel.Asyncjob.Lifecycle
import VpnTunnel.Asyncjob.Pool
import VpnTunnel.Asyncjob.Record
import VpnTunnel.Asyncjob.Store
import VpnTunnel.Asyncjob.Theorems.Batch
import VpnTunnel.Asyncjob.Theorems.Custody
import VpnTunnel.Asyncjob.Theorems.Dispatch
import VpnTunnel.Asyncjob.Theorems.Lifecycle
import VpnTunnel.Asyncjob.Theorems.Origin
import VpnTunnel.Asyncjob.Theorems.Pass
import VpnTunnel.Asyncjob.Theorems.Pool
import VpnTunnel.Asyncjob.Theorems.Reclaim
import VpnTunnel.Asyncjob.Theorems.Record
import VpnTunnel.Asyncjob.Theorems.Replay
import VpnTunnel.Asyncjob.Theorems.RoundTrip
import VpnTunnel.Asyncjob.Theorems.Shutdown
import VpnTunnel.Asyncjob.Theorems.Slots
import VpnTunnel.Asyncjob.Theorems.Store
import VpnTunnel.Asyncjob.Theorems.Window
import VpnTunnel.Generatevpnconfig.Basic
import VpnTunnel.Generatevpnconfig.Disk.Basic
import VpnTunnel.Generatevpnconfig.Disk.Refinement
import VpnTunnel.Generatevpnconfig.Disk.Theorems
import VpnTunnel.Generatevpnconfig.Ingest
import VpnTunnel.Generatevpnconfig.Lens
import VpnTunnel.Generatevpnconfig.Manual.Basic
import VpnTunnel.Generatevpnconfig.Manual.Theorems
import VpnTunnel.Generatevpnconfig.Prefix
import VpnTunnel.Generatevpnconfig.Prompt
import VpnTunnel.Generatevpnconfig.Scanner
import VpnTunnel.Generatevpnconfig.Theorems
import VpnTunnel.Handlers.Forwarder.Basic
import VpnTunnel.Handlers.Forwarder.Dial
import VpnTunnel.Handlers.Forwarder.Theorems.Dial
import VpnTunnel.Handlers.Forwarder.Theorems.Transports
import VpnTunnel.Handlers.Proxy.Basic
import VpnTunnel.Handlers.Proxy.Serve
import VpnTunnel.Handlers.Proxy.Theorems.Framing
import VpnTunnel.Handlers.Proxy.Theorems.Headers
import VpnTunnel.Handlers.Proxy.Theorems.ProxyError
import VpnTunnel.Handlers.Proxy.Theorems.Secrets
import VpnTunnel.Handlers.Proxy.Theorems.Stored
import VpnTunnel.Handlers.Proxy.Zone
import VpnTunnel.Handlers.Tunnels.Basic
import VpnTunnel.Handlers.Tunnels.Theorems
import VpnTunnel.Hmackey.Basic
import VpnTunnel.Hmackey.Theorems
import VpnTunnel.Httpserver.Basic
import VpnTunnel.Httpserver.Theorems
import VpnTunnel.Httpserver.Tunnels
import VpnTunnel.Infrastructure.Config.Basic
import VpnTunnel.Infrastructure.Config.Durations
import VpnTunnel.Infrastructure.Config.Theorems
import VpnTunnel.Infrastructure.Notify.Basic
import VpnTunnel.Infrastructure.Notify.Theorems
import VpnTunnel.Infrastructure.Observability.Delimiters
import VpnTunnel.Infrastructure.Observability.Scrubhandler
import VpnTunnel.Infrastructure.Observability.Theorems
import VpnTunnel.Infrastructure.Wgconf.Basic
import VpnTunnel.Infrastructure.Wgconf.Invariance
import VpnTunnel.Infrastructure.Wgconf.Theorems
import VpnTunnel.Infrastructure.Wireguard.Endpoint
import VpnTunnel.Lib.Backlog
import VpnTunnel.Lib.Batch
import VpnTunnel.Lib.Bytes
import VpnTunnel.Lib.Encoding
import VpnTunnel.Lib.Filepath
import VpnTunnel.Lib.Groups
import VpnTunnel.Lib.Http.Alike
import VpnTunnel.Lib.Http.Escape
import VpnTunnel.Lib.Http.Header
import VpnTunnel.Lib.Http.Parse
import VpnTunnel.Lib.Http.Print
import VpnTunnel.Lib.Http.Request
import VpnTunnel.Lib.Http.Reread
import VpnTunnel.Lib.Http.Target
import VpnTunnel.Lib.Http.Url
import VpnTunnel.Lib.Json
import VpnTunnel.Lib.Ledger
import VpnTunnel.Lib.Netip.Accepted
import VpnTunnel.Lib.Netip.AddrPort
import VpnTunnel.Lib.Netip.Basic
import VpnTunnel.Lib.Netip.HostPort
import VpnTunnel.Lib.Netip.Prefix
import VpnTunnel.Lib.Netip.RoundTrip
import VpnTunnel.Lib.Os.Atomic
import VpnTunnel.Lib.Os.Basic
import VpnTunnel.Lib.Os.Exclusive
import VpnTunnel.Lib.Os.Sequential
import VpnTunnel.Lib.Os.Tidy
import VpnTunnel.Lib.Prog
import VpnTunnel.Lib.Queues
import VpnTunnel.Lib.Regexp.Basic
import VpnTunnel.Lib.Regexp.Clear
import VpnTunnel.Lib.Regexp.Replace
import VpnTunnel.Lib.System
import VpnTunnel.Lib.Text
import VpnTunnel.Lib.Threads
import VpnTunnel.Lib.Trim
import VpnTunnel.Lib.Wgtypes
import VpnTunnel.Main.Basic
import VpnTunnel.Main.Theorems
import VpnTunnel.Tunnelpool.Eligible.Basic
import VpnTunnel.Tunnelpool.Eligible.Theorems
import VpnTunnel.Tunnelpool.New
import VpnTunnel.Tunnelpool.Scheduler.Basic
import VpnTunnel.Tunnelpool.Scheduler.Devices
import VpnTunnel.Tunnelpool.Scheduler.Jobs
import VpnTunnel.Tunnelpool.Scheduler.State
import VpnTunnel.Tunnelpool.Scheduler.Theorems.Accounting
import VpnTunnel.Tunnelpool.Scheduler.Theorems.Basic
import VpnTunnel.Tunnelpool.Scheduler.Theorems.Devices
import VpnTunnel.Tunnelpool.Scheduler.Theorems.Grace
import VpnTunnel.Tunnelpool.Scheduler.Theorems.Grants
import VpnTunnel.Tunnelpool.Scheduler.Theorems.Jobs
import VpnTunnel.Tunnelpool.Scheduler.Theorems.Order
import VpnTunnel.Tunnelpool.Scheduler.Theorems.Queue
import VpnTunnel.Tunnelpool.Scheduler.Theorems.Received
import VpnTunnel.Tunnelpool.Scheduler.Theorems.Shape
import VpnTunnel.Tunnelpool.Scheduler.Theorems.Stop
import VpnTunnel.Tunnelpool.Scheduler.Theorems.Waiting
import VpnTunnel.Tunnelpool.Supervisor.Basic
import VpnTunnel.Tunnelpool.Supervisor.Devices
import VpnTunnel.Tunnelpool.Supervisor.State
import VpnTunnel.Tunnelpool.Supervisor.Theorems.Backoff
import VpnTunnel.Tunnelpool.Supervisor.Theorems.Basic
import VpnTunnel.Tunnelpool.Supervisor.Theorems.Devices
import VpnTunnel.Tunnelpool.Supervisor.Theorems.Rearm
import VpnTunnel.Tunnelpool.Supervisor.Theorems.Settle
import VpnTunnel.Tunnelpool.Verify
