import JsonApi.Application
import JsonApi.Json.Parser
import JsonApi.Query.Arrangement
import JsonApi.Query.Precedence
import JsonApi.Table.Row
import JsonApi.Proofs.Building.Faults
import JsonApi.Proofs.Building.Invocation
import JsonApi.Proofs.Building.Lockstep
import JsonApi.Proofs.Building.Nesting
import JsonApi.Proofs.Building.Steps
import JsonApi.Proofs.Entries
import JsonApi.Proofs.Store.Lifecycle
import JsonApi.Proofs.Traversal.Depiction
import JsonApi.Proofs.Traversal.Tracking
import JsonApi.Proofs.Traversal.Calls
import JsonApi.Proofs.Traversal.Following
import JsonApi.Proofs.Traversal.Interruption
import JsonApi.Proofs.Traversal.Making
import JsonApi.Proofs.Traversal.Spelling
import JsonApi.Proofs.Document.Body
import JsonApi.Proofs.Document.Coverage
import JsonApi.Proofs.Document.Exclusion
import JsonApi.Proofs.Document.Inclusion
import JsonApi.Proofs.Document.Linkage
import JsonApi.Proofs.Document.Persistence
import JsonApi.Proofs.Document.Reference
import JsonApi.Proofs.Document.Requests
import JsonApi.Proofs.ErrorObject.Stability
import JsonApi.Proofs.Table.Identity
import JsonApi.Proofs.Query.RoundTrip
import JsonApi.Proofs.Query.Selection
import JsonApi.Proofs.Query.Merge
import JsonApi.Proofs.Response.Reticence
import JsonApi.Proofs.Response.Status
import JsonApi.Proofs.Query.Precedence
import JsonApi.Proofs.Query.Reference
import JsonApi.Proofs.Sorting.Arrangement
import JsonApi.Proofs.Sorting.Run
import JsonApi.Proofs.Sorting.Merge
import JsonApi.Proofs.Sorting.Refusal
import JsonApi.Proofs.Sorting.Stability
import JsonApi.Json.Ordered
import JsonApi.Proofs.Value.Comparison
import JsonApi.Proofs.Value.Ordering
import JsonApi.Proofs.Value.Plain
import JsonApi.Proofs.Value.InOrder
import JsonApi.Proofs.Table.Setting
import JsonApi.Proofs.Text.Integer
import JsonApi.Proofs.Table.Exposure
import JsonApi.Proofs.Uri.Base
import JsonApi.Proofs.Uri.Links
import JsonApi.Proofs.Query.Arrangement
