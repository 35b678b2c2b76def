import KernelSeal.Core.Resumption
import KernelSeal.Core.Transition
import KernelSeal.Core.Regex
import KernelSeal.Core.Layout
import KernelSeal.Core.Replica
import KernelSeal.Core.Parsing
import KernelSeal.Core.Segments
import KernelSeal.Go.Text
import KernelSeal.Go.Utf8
import KernelSeal.Go.Json
import KernelSeal.Go.Scanning
import KernelSeal.Secrets.Registry
import KernelSeal.Kube.Cache
import KernelSeal.Kube.Watch
import KernelSeal.Kube.Convergence
import KernelSeal.Kube.Ordering
import KernelSeal.Server.Delivery
import KernelSeal.Server.Release
import KernelSeal.Server.Serving
import KernelSeal.Server.Connection
import KernelSeal.Server.Exchange
import KernelSeal.Cgroup.ParsePod
import KernelSeal.Cgroup.Attribution
import KernelSeal.Bpf.FileProtect
import KernelSeal.Bpf.Events
import KernelSeal.Bpf.ExecMonitor
import KernelSeal.Bpf.ExitEvents
import KernelSeal.Policy.Loader
import KernelSeal.Policy.ConfigFiles
import KernelSeal.Cgroup.Paths
import KernelSeal.Cgroup.HostPaths
import KernelSeal.Kube.Containers
import KernelSeal.Bpf.AuditMode
import KernelSeal.Bpf.Targets
import KernelSeal.Policy.Servable
import KernelSeal.Policy.Resolution
import KernelSeal.Server.Authorization
import KernelSeal.Server.Matching
import KernelSeal.Agent.System
import KernelSeal.Agent.PidReuse
import KernelSeal.Agent.Holders
import KernelSeal.Agent.Reconciliation
import KernelSeal.Agent.Namespaces
import KernelSeal.Shim.Request
import KernelSeal.Server.Denials
import KernelSeal.Server.Lifecycle
import KernelSeal.Agent.Startup
import KernelSeal.Agent.Service
import KernelSeal.Agent.Shutdown
import KernelSeal.Server.Permutation
import KernelSeal.Server.Reporting
import KernelSeal.Bpf.BinaryFilter
import KernelSeal.Shim.Environment
import KernelSeal.Shim.Retry
import KernelSeal.Shim.Handshake
import KernelSeal.Server.StartTime
import KernelSeal.Kube.Backoff
import KernelSeal.Kube.Refinement
