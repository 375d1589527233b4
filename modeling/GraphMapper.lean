import GraphMapper.Aggregate.Evaluate
import GraphMapper.Client.Relations
import GraphMapper.Engine.Script
import GraphMapper.Proofs.Aggregate.Order
import GraphMapper.Proofs.Association.Reference
import GraphMapper.Proofs.Connection.Renewal
import GraphMapper.Proofs.Connection.Staleness
import GraphMapper.Proofs.Error.Refusal
import GraphMapper.Proofs.Filter.Faults
import GraphMapper.Proofs.Filter.Merging
import GraphMapper.Proofs.Graph.Loading
import GraphMapper.Proofs.Graph.Narrowing
import GraphMapper.Proofs.Page.Aggregated
import GraphMapper.Proofs.Page.Walk
import GraphMapper.Proofs.Page.Window
import GraphMapper.Proofs.Parameter.Marks
import GraphMapper.Proofs.Pattern.Case
import GraphMapper.Proofs.Pivot.Difference
import GraphMapper.Proofs.Pivot.Hybrid
import GraphMapper.Proofs.Pivot.Pairs
import GraphMapper.Proofs.Pool.Sessions
import GraphMapper.Proofs.Reading.Filter
import GraphMapper.Proofs.Reading.Name
import GraphMapper.Proofs.Record.Committing
import GraphMapper.Proofs.Record.Fetches
import GraphMapper.Proofs.Record.Finding
import GraphMapper.Proofs.Record.Partition
import GraphMapper.Proofs.Record.Path
import GraphMapper.Proofs.Record.Persisting
import GraphMapper.Proofs.Record.Touched
import GraphMapper.Proofs.Scope.Closed
import GraphMapper.Proofs.Settings.Backoff
import GraphMapper.Proofs.Settings.Catalog
import GraphMapper.Proofs.Shape.Statement
import GraphMapper.Proofs.Unit.Callback
import GraphMapper.Proofs.Unit.Managed
import GraphMapper.Proofs.Unit.Manual
import GraphMapper.Proofs.Unit.Stepwise
import GraphMapper.Proofs.Value.Wire
import GraphMapper.Record.Document
import GraphMapper.Relation.Document
import GraphMapper.Selection.Document
import GraphMapper.Settings.Document
import GraphMapper.Value.JsonReader
import GraphMapper.Value.Wire
