import Retina.Conntrack.Process
import Retina.Conntrack.Cases
import Retina.Library.FiniteMap
import Retina.Conntrack.Lifetime
import Retina.Conntrack.Accounting
import Retina.Conntrack.Metadata
import Retina.Conntrack.Orientation
import Retina.Conntrack.Teardown
import Retina.Conntrack.Totals
import Retina.Conntrack.Reporting
import Retina.Conntrack.GarbageCollection
import Retina.Metrics.Flow
import Retina.Metrics.Forward
import Retina.Metrics.TcpFlags
import Retina.Library.Ownership
import Retina.Cache.Operations
import Retina.Cache.Effects
import Retina.Cache.Index
import Retina.Cache.Progress
import Retina.Cache.Owners
import Retina.Cache.Reconcile
import Retina.Cache.Convergence
import Retina.Library.Retry
import Retina.Library.Ring
import Retina.Filter.Requests
import Retina.Filter.KernelMap
import Retina.Filter.Manager
import Retina.Filter.Mirror
import Retina.Filter.Working
import Retina.Cache.Namespaces
import Retina.Metrics.Module
import Retina.Metrics.Namespaces
import Retina.Cache.Pods
import Retina.Metrics.PodEvents
import Retina.Metrics.Tracking
import Retina.Metrics.Reconfigure
import Retina.Metrics.Reasons
import Retina.Metrics.Batches
import Retina.Metrics.Sweep
import Retina.Metrics.EventLoop
import Retina.Watchers.ApiServer
import Retina.Watchers.Requests
import Retina.Watchers.Endpoint
import Retina.Library.Rounding
import Retina.Metrics.Latency
import Retina.Metrics.ApiServerIPs
import Retina.Labels.Context
import Retina.Labels.AdvancedMetrics
import Retina.Labels.Arity
import Retina.Library.Bytes
import Retina.PacketParser.TcpOptions
import Retina.PacketParser.Parse
import Retina.Dns.Filter
import Retina.Dns.HeaderChain
import Retina.Dns.QueryType
import Retina.DropReason.Events
import Retina.DropReason.Gauges
import Retina.Library.FilterGrammar
import Retina.Library.FilterSplice
import Retina.Capture.Pcap
import Retina.Capture.HostLanguage
import Retina.Capture.Filters
import Retina.Capture.FilterMeaning
import Retina.Capture.FilterEntries
import Retina.Capture.JobEnv
import Retina.Capture.PodFilter
import Retina.Capture.UserFilter
import Retina.Capture.Netsh
import Retina.Library.PosixPath
import Retina.Capture.HostPath
import Retina.Capture.Cluster
import Retina.Capture.Targets
import Retina.Capture.Selection
import Retina.Capture.StopCondition
import Retina.Controller.Status
import Retina.Controller.Reconcile
import Retina.Controller.Effects
import Retina.Controller.Jobs
import Retina.Controller.Conditions
import Retina.Controller.Completion
import Retina.Library.References
import Retina.Endpoints.Store
import Retina.Endpoints.Reconcile
import Retina.Endpoints.Upsert
import Retina.Endpoints.IdentityReferences
import Retina.Endpoints.Namespaces
import Retina.Library.ReverseIndex
import Retina.Hubble.Services
import Retina.Library.AddressPrefix
import Retina.Trace.Addresses
import Retina.Trace.FilterScript
import Retina.Trace.Selection
import Retina.Library.KeyedQueue
import Retina.Operator.PodQueue
import Retina.Operator.Conversion
import Retina.Operator.RetinaEndpoint
import Retina.Operator.PodPredicate
import Retina.MetricsConfig.Controllers
import Retina.MetricsConfig.Agreement
import Retina.Nodes.IPCache
import Retina.PacketParser.Attach
import Retina.Library.LockTable
import Retina.PacketParser.EndpointEvents
import Retina.DropReason.Probes
import Retina.LinuxUtil.Netstat
import Retina.Library.UsageTable
import Retina.LinuxUtil.Sockets
import Retina.Metrics.Expiry
import Retina.Watchers.Interfaces
import Retina.Conntrack.NodeTotals
import Retina.Cache.Atomicity
import Retina.Filter.RequestSet
import Retina.Capture.Translate
import Retina.Cli.Create
import Retina.DropReason.Flavours
import Retina.Cli.Credentials
import Retina.Library.Registrar
import Retina.Labels.Registry
import Retina.Labels.Unchanged
import Retina.Metrics.Restart
import Retina.Metrics.SingleRun
import Retina.Library.Heap
import Retina.Objects.Records
import Retina.Objects.DeepCopy
import Retina.Objects.Published
import Retina.Enricher.Enrich
import Retina.Library.Channel
import Retina.Plugins.EventPipeline
import Retina.Enricher.Run
import Retina.Plugins.Node
import Retina.Plugins.Shutdown
import Retina.PacketParser.Report
import Retina.Capture.FileNames
import Retina.Capture.Delivery
