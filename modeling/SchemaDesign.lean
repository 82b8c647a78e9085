import SchemaDesign.Text.Blank
import SchemaDesign.Binary64
import SchemaDesign.Json.Number
import SchemaDesign.Text.Unicode
import SchemaDesign.Text.Quote
import SchemaDesign.Naming
import SchemaDesign.Json.Value
import SchemaDesign.Json.Parse
import SchemaDesign.Model.Kinds
import SchemaDesign.Model.Basic
import SchemaDesign.Vendor
import SchemaDesign.Config
import SchemaDesign.DesignError
import SchemaDesign.Json.Decode
import SchemaDesign.Model.Codec
import SchemaDesign.Graph
import SchemaDesign.ColumnType
import SchemaDesign.Validation
import SchemaDesign.Model.Supply
import SchemaDesign.DesignError.Json
import SchemaDesign.Edit.Event
import SchemaDesign.Edit.Session
import SchemaDesign.Edit.Keys
import SchemaDesign.Edit.Names
import SchemaDesign.Edit.Cascade
import SchemaDesign.Draft
import SchemaDesign.Edit.Columns
import SchemaDesign.Edit.Indexes
import SchemaDesign.Edit.Constraints
import SchemaDesign.Edit.Relationships
import SchemaDesign.Edit.Schemas
import SchemaDesign.Edit.Tables
import SchemaDesign.Operation
import SchemaDesign.Editor
import SchemaDesign.Operation.Codec
import SchemaDesign.Log
import SchemaDesign.Builder
import SchemaDesign.Draft.Fresh
import SchemaDesign.Cli.Args
import SchemaDesign.Cli.LogFilter
import SchemaDesign.Cli.PathName
import SchemaDesign.Cli.Workspace
import SchemaDesign.Json.Read
import SchemaDesign.Toml.Value
import SchemaDesign.Toml.Parse
import SchemaDesign.Config.Toml
import SchemaDesign.Cli.Run
import SchemaDesign.Cli.Clock
import SchemaDesign.Main
import SchemaDesign.Proofs.Step
import SchemaDesign.Proofs.Graph.Search
import SchemaDesign.Proofs.Graph.Order
import SchemaDesign.Proofs.Graph.DependencyGraph
import SchemaDesign.Proofs.Graph.Layered
import SchemaDesign.Proofs.Graph.CycleCheck
import SchemaDesign.Proofs.Graph.OrderReport
import SchemaDesign.Proofs.Validation
import SchemaDesign.Proofs.Edit.Keys
import SchemaDesign.Proofs.Edit.Composite
import SchemaDesign.Proofs.Edit.Links
import SchemaDesign.Proofs.Edit.Operations
import SchemaDesign.Proofs.Edit.Acyclic
import SchemaDesign.Proofs.Edit.Release
import SchemaDesign.Proofs.Edit.Propagation
import SchemaDesign.Proofs.Edit.Worklists
import SchemaDesign.Proofs.Edit.Ids
import SchemaDesign.Proofs.Edit.Retype
import SchemaDesign.Proofs.Edit.TypeRules
import SchemaDesign.Proofs.Edit.Trim
import SchemaDesign.Proofs.Edit.RemovalCascade
import SchemaDesign.Proofs.Edit.RemovalFrame
import SchemaDesign.Proofs.Edit.Sequences
import SchemaDesign.Proofs.Edit.SequenceSteps
import SchemaDesign.Proofs.Edit.Resequencing
import SchemaDesign.Proofs.Edit.NameScopes
import SchemaDesign.Proofs.NameChecks
import SchemaDesign.Proofs.Edit.NameSteps
import SchemaDesign.Proofs.Edit.UniqueNames
import SchemaDesign.Proofs.Edit.LostColumns
import SchemaDesign.Proofs.Edit.KeyShapes
import SchemaDesign.Proofs.Edit.KeySteps
import SchemaDesign.Proofs.Edit.KeyMappings
import SchemaDesign.Proofs.Edit.SoundKeys
import SchemaDesign.Proofs.Edit.Refusals
import SchemaDesign.Proofs.Edit.KeyGuards
import SchemaDesign.Proofs.Edit.TypeChange
import SchemaDesign.Proofs.Edit.Growth
import SchemaDesign.Proofs.Edit.SchemaGrowth
import SchemaDesign.Proofs.Edit.AcceptedTables
import SchemaDesign.Proofs.Edit.Pruning
import SchemaDesign.Proofs.FreshNames
import SchemaDesign.Proofs.Edit.Nullability
import SchemaDesign.Proofs.GeneratedNames
import SchemaDesign.Proofs.Edit.ColumnCreation
import SchemaDesign.Proofs.Edit.ColumnRoundTrip
import SchemaDesign.Proofs.Edit.HolderColumns
import SchemaDesign.Proofs.Edit.PropagationLaw
import SchemaDesign.Proofs.Edit.PropagationRounds
import SchemaDesign.Proofs.Edit.HolderCompletion
import SchemaDesign.Proofs.Edit.IdentifyingCreation
import SchemaDesign.Proofs.Edit.PropagationCycle
