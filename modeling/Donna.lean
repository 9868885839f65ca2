import Donna.Orchestrator.Success
import Donna.Worker.PolicyGate
import Donna.Worker.DeliveryOrder
import Donna.Worker.Queue
import Donna.Worker.Poison
import Donna.ControlPlane.Oracle
import Donna.ControlPlane.Contract
import Donna.ControlPlane.Revocation
import Donna.ControlPlane.Approval
import Donna.ControlPlane.ObjectiveStore
import Donna.Base.JobQueue
import Donna.ControlPlane.ObjectiveRows
import Donna.Orchestrator.Fallback
import Donna.Orchestrator.Outage
import Donna.Orchestrator.Returns
import Donna.Policy.Monotone
import Donna.Routing.ModelChoice
import Donna.Orchestrator.Tried
import Donna.Orchestrator.Locality
import Donna.Orchestrator.Catalog
import Donna.Policy.ScopeChange
import Donna.Orchestrator.Spend
import Donna.Orchestrator.SharedUsage
import Donna.Worker.Subscribers
import Donna.ControlPlane.ActiveConstitution
import Donna.ControlPlane.OneMembership
import Donna.Routing.ClassChain
import Donna.Orchestrator.Exhaustion
import Donna.Orchestrator.ReportedClass
import Donna.Adapters.ModelSpend
import Donna.Worker.Grammar
import Donna.Adapters.ContactUrl
import Donna.Adapters.HttpHeaders
import Donna.Adapters.Construction
import Donna.Context.Dropped
import Donna.Core.Retries
import Donna.ControlPlane.TaskRows
import Donna.Worker.Redelivery
import Donna.Worker.Subscriptions
import Donna.ControlPlane.Idempotence
import Donna.ControlPlane.RowOrder
import Donna.ControlPlane.Process
import Donna.ControlPlane.BusinessGraph
import Donna.ControlPlane.WorkOrigins
import Donna.Worker.Deployment
import Donna.Worker.Replay
import Donna.Worker.Recorded
import Donna.Worker.Settling
import Donna.Worker.Provenance
import Donna.Worker.Production
import Donna.Worker.Delivered
import Donna.Worker.CrmRequests
import Donna.Routing.Evaluations
