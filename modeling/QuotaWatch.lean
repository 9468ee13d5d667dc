import QuotaWatch.Agent.Api
import QuotaWatch.Config.Load
import QuotaWatch.Decimal.Reader
import QuotaWatch.Document.Alert
import QuotaWatch.Document.Node
import QuotaWatch.Document.Settings
import QuotaWatch.Source.Cgroup
import QuotaWatch.Source.OwnedFiles
import QuotaWatch.Watched
import QuotaWatch.Proofs.Alert.History
import QuotaWatch.Proofs.Monitor.Run
import QuotaWatch.Proofs.Monitor.Alerts
import QuotaWatch.Proofs.Monitor.Figures
import QuotaWatch.Proofs.Monitor.Isolation
import QuotaWatch.Proofs.Alert.Monotone
import QuotaWatch.Proofs.Window.Retention
import QuotaWatch.Proofs.Window.Average
import QuotaWatch.Proofs.Monitor.Rules
import QuotaWatch.Proofs.Alert.Turns
import QuotaWatch.Proofs.Monitor.Measured
import QuotaWatch.Proofs.Monitor.Origin
import QuotaWatch.Proofs.Monitor.Tasks
import QuotaWatch.Proofs.Monitor.RoundTrip
import QuotaWatch.Proofs.Monitor.Averages
import QuotaWatch.Proofs.Agent.Delivery
import QuotaWatch.Proofs.Agent.Timetable
import QuotaWatch.Proofs.Config.Fields
import QuotaWatch.Proofs.Agent.Shutdown
import QuotaWatch.Proofs.Config.Verbatim
import QuotaWatch.Proofs.Config.Paths
import QuotaWatch.Proofs.Config.Names
import QuotaWatch.Proofs.Config.Layering
import QuotaWatch.Proofs.Agent.Requests
import QuotaWatch.Proofs.Agent.Snapshots
import QuotaWatch.Proofs.Monitor.Construction
import QuotaWatch.Proofs.Document.Settings
import QuotaWatch.Proofs.Agent.Limits
import QuotaWatch.Proofs.Monitor.Applied
import QuotaWatch.Proofs.Source.CpuShare
import QuotaWatch.Proofs.Source.CpuTime
import QuotaWatch.Proofs.Source.Paths
import QuotaWatch.Proofs.Source.OwnedBytes
import QuotaWatch.Proofs.Source.Growth
import QuotaWatch.Proofs.Source.Directories
import QuotaWatch.Proofs.Monitor.Attribution
import QuotaWatch.Proofs.Monitor.Agreement
