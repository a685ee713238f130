import NexusTier.Ingest.Links
import NexusTier.Ingest.Order
import NexusTier.Ingest.Ownership
import NexusTier.Ingest.Duplicate
import NexusTier.Ingest.Latency
import NexusTier.Delivery.Storage
import NexusTier.Delivery.PartialFailure
import NexusTier.ReadModel.Agreement
import NexusTier.ReadModel.Pages
import NexusTier.Contract.RoundTrip
import NexusTier.Api.Topology
import NexusTier.Gateway.Newest
import NexusTier.Gateway.Waiting
import NexusTier.Gateway.Accounting
import NexusTier.Auth.Guessing
import NexusTier.ReadModel.ErrorLog
import NexusTier.Auth.Isolation
import NexusTier.Gateway.Deadline
import NexusTier.ReadModel.RowByRow
import NexusTier.ReadModel.Interleaved
import NexusTier.Webui.UseTopology
import NexusTier.Contract.Required
import NexusTier.Database.Migrate
import NexusTier.Contract.Body
import NexusTier.Gateway.Join
import NexusTier.Webui.Graph
import NexusTier.Webui.Filters
import NexusTier.Retention.Expiry
import NexusTier.Ops.Preflight
import NexusTier.Poller.Delay
import NexusTier.Poller.Worker
import NexusTier.Delivery.Admitted
import NexusTier.Delivery.Display
import NexusTier.Retention.History
import NexusTier.Controller.Startup
import NexusTier.Contract.Conforming
import NexusTier.Delivery.Published
import NexusTier.Ops.Rollback
import NexusTier.Ops.Rotation
import NexusTier.Auth.Retry
import NexusTier.Delivery.Drawn
import NexusTier.Delivery.Screen
