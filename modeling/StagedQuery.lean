import StagedQuery.Main
import StagedQuery.Dispatch.Trace
import StagedQuery.Plan.Build
import StagedQuery.Proofs.Noting
import StagedQuery.Proofs.Sorting
import StagedQuery.Proofs.Assignment.Reading
import StagedQuery.Proofs.Assignment.Growing
import StagedQuery.Proofs.Assignment.Placement
import StagedQuery.Proofs.Assignment.Ascending
import StagedQuery.Proofs.Assignment.Segments
import StagedQuery.Proofs.Assignment.Recording
import StagedQuery.Proofs.Assignment.Spreading
import StagedQuery.Proofs.Assignment.FreeIds
import StagedQuery.Proofs.Cluster.Placing
import StagedQuery.Proofs.Dispatch.Reachability
import StagedQuery.Proofs.Dispatch.WellFormed
import StagedQuery.Proofs.Dispatch.Joining
import StagedQuery.Proofs.Dispatch.Planned
import StagedQuery.Proofs.Dispatch.Planner
import StagedQuery.Proofs.Dispatch.Built
import StagedQuery.Proofs.Dispatch.Distinct
import StagedQuery.Proofs.Dispatch.Views
import StagedQuery.Proofs.Dispatch.Collectors
import StagedQuery.Proofs.Dispatch.Canonical
import StagedQuery.Proofs.Dispatch.Components
import StagedQuery.Proofs.Dispatch.Descriptions
import StagedQuery.Proofs.Dispatch.Exploring
import StagedQuery.Proofs.Explain.Faultless
import StagedQuery.Proofs.Explain.Cycles
import StagedQuery.Proofs.Explain.Stations
import StagedQuery.Proofs.Explain.Drawing
import StagedQuery.Proofs.Explain.Branches
import StagedQuery.Proofs.Explain.NodeByNode
import StagedQuery.Proofs.Explain.Wording
import StagedQuery.Proofs.Explain.Complete
import StagedQuery.Proofs.Explain.PartOfWhole
import StagedQuery.Proofs.Explain.Runners
import StagedQuery.Proofs.Explain.OtherWorkers
import StagedQuery.Proofs.Explain.Targets
import StagedQuery.Proofs.Mailbox.Wiring
import StagedQuery.Proofs.Mailbox.BothEnds
import StagedQuery.Proofs.Stage.Cutting
import StagedQuery.Proofs.Stage.Fragments
import StagedQuery.Proofs.Stage.Layout
import StagedQuery.Proofs.Stage.Refusing
import StagedQuery.Proofs.Stage.Rejoining
import StagedQuery.Proofs.Stage.PreOrder
import StagedQuery.Proofs.Json.Literal
import StagedQuery.Proofs.Json.Rendering
import StagedQuery.Proofs.Json.StandsFor
import StagedQuery.Proofs.Format.Cluster
import StagedQuery.Proofs.Format.Plan
import StagedQuery.Proofs.Format.Dispatch
import StagedQuery.Proofs.Format.Nesting
import StagedQuery.Proofs.Format.Reloading
import StagedQuery.Proofs.Text.Lines
import StagedQuery.Proofs.Plan.Indented
import StagedQuery.Proofs.Plan.Tables
import StagedQuery.Proofs.Settings.Environment
