import Timetabling.Api.Error
import Timetabling.Catalog.Basic
import Timetabling.Catalog.Fixture
import Timetabling.Catalog.Json
import Timetabling.Catalog.Records
import Timetabling.Clustering.Basic
import Timetabling.Clustering.Louvain
import Timetabling.Config.Dotenv
import Timetabling.Config.Logging
import Timetabling.Config.Network
import Timetabling.Config.Settings
import Timetabling.Database.QTables
import Timetabling.Database.Records
import Timetabling.Database.Script
import Timetabling.Domain
import Timetabling.Fitness
import Timetabling.Grid
import Timetabling.Incremental
import Timetabling.Jobs.Queue
import Timetabling.Jobs.Trial
import Timetabling.Json.Basic
import Timetabling.Json.Decode
import Timetabling.Json.Parse
import Timetabling.Json.Render
import Timetabling.Json.Syntax
import Timetabling.Main
import Timetabling.Monitor
import Timetabling.Number.Literal
import Timetabling.Number.Nearest
import Timetabling.Number.Shortest
import Timetabling.Number.Text
import Timetabling.Number.Truncate
import Timetabling.Pipeline.Generation
import Timetabling.Pipeline.Json
import Timetabling.Pipeline.Progress
import Timetabling.Pipeline.Sharing
import Timetabling.Proofs.Catalog.Index
import Timetabling.Proofs.Catalog.Rebuild
import Timetabling.Proofs.Refinement.Feasible
import Timetabling.Proofs.Repair.Versions
import Timetabling.Proofs.Search.Greedy
import Timetabling.Proofs.Search.Merge
import Timetabling.Proofs.Timetable.Coherence
import Timetabling.Proofs.Timetable.Count
import Timetabling.Proofs.Timetable.Edited
import Timetabling.Proofs.Timetable.Exclusive
import Timetabling.Proofs.Timetable.Rebind
import Timetabling.Proofs.Timetable.Session
import Timetabling.Proofs.Validation.Reports
import Timetabling.Random.Pcg
import Timetabling.Refinement
import Timetabling.Repair.Agent
import Timetabling.Repair.Clients
import Timetabling.Repair.Moves
import Timetabling.Repair.Observation
import Timetabling.Repair.QTable
import Timetabling.Run.Stage
import Timetabling.Search.Exact
import Timetabling.Search.Greedy
import Timetabling.Search.Merge
import Timetabling.Service.Api
import Timetabling.Service.Generation
import Timetabling.Service.Http
import Timetabling.Service.Metrics
import Timetabling.Service.Request
import Timetabling.Service.Session
import Timetabling.Startup
import Timetabling.Strategy.Basic
import Timetabling.Strategy.Table
import Timetabling.Text.Base64
import Timetabling.Text.Bytes
import Timetabling.Text.Clock
import Timetabling.Text.Duration
import Timetabling.Text.Instant
import Timetabling.Text.Quoted
import Timetabling.Text.Unicode
import Timetabling.Timetable.Basic
import Timetabling.Timetable.Conflict
import Timetabling.Timetable.Edit
import Timetabling.Timetable.Json
import Timetabling.Validation
import Timetabling.Yaml.Cursor
import Timetabling.Yaml.Decode
import Timetabling.Yaml.Event
import Timetabling.Yaml.Node
import Timetabling.Yaml.Resolve
import Timetabling.Yaml.Token
import Timetabling.Yaml.Token.Property
import Timetabling.Yaml.Token.Scalar
import Timetabling.Yaml.Token.Scan
import Timetabling.Proofs.Pipeline.Completion
import Timetabling.Proofs.Pipeline.Invalid
import Timetabling.Proofs.Pipeline.Faults
import Timetabling.Proofs.Pipeline.Pressure
import Timetabling.Proofs.Search.Cluster
import Timetabling.Proofs.Repair.Parts
import Timetabling.Proofs.Repair.Run
import Timetabling.Proofs.Timetable.Restore
import Timetabling.Proofs.Repair.Atomic
import Timetabling.Proofs.Pipeline.Outcome
import Timetabling.Proofs.Pipeline.Commit
import Timetabling.Proofs.Pipeline.Interleaving
import Timetabling.Proofs.Number.Rounding
import Timetabling.Proofs.Pipeline.Pace
import Timetabling.Proofs.Pipeline.Protocol
import Timetabling.Proofs.Refinement.Sessions
import Timetabling.Proofs.Timetable.Incremental
import Timetabling.Proofs.Number.Order
import Timetabling.Proofs.Refinement.Best
import Timetabling.Service.Workers
import Timetabling.Proofs.Service.Sections
import Timetabling.Proofs.Service.Lifecycle
import Timetabling.Proofs.Clustering.Split
import Timetabling.Proofs.Clustering.Partition
import Timetabling.Proofs.Repair.Values
import Timetabling.Proofs.Grid.Layout
import Timetabling.Proofs.Monitor.Events
import Timetabling.Proofs.Catalog.Sorted
import Timetabling.Proofs.Catalog.Valid
import Timetabling.Proofs.Catalog.Queries
import Timetabling.Proofs.Catalog.Same
import Timetabling.Proofs.Catalog.Describes
import Timetabling.Proofs.Search.Ranking
import Timetabling.Proofs.Number.Scale
import Timetabling.Proofs.Strategy.Select
