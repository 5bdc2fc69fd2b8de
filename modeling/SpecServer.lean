import SpecServer.Context
import SpecServer.Cursor
import SpecServer.Decimal.Binary64
import SpecServer.Decimal.Natural
import SpecServer.Decimal.Shortest
import SpecServer.Diagnostic
import SpecServer.Diagnostic.Route
import SpecServer.Disk
import SpecServer.Documents
import SpecServer.Engine.Basic
import SpecServer.Engine.Definition
import SpecServer.Engine.Discovery
import SpecServer.Engine.Input
import SpecServer.Engine.Message
import SpecServer.Engine.Reference
import SpecServer.Engine.Session
import SpecServer.Engine.Source
import SpecServer.Engine.Version
import SpecServer.Engine.View
import SpecServer.Entries
import SpecServer.Json.Basic
import SpecServer.Json.Merge
import SpecServer.Json.Path
import SpecServer.Json.Query
import SpecServer.Json.Reader
import SpecServer.Json.Shape
import SpecServer.Json.Writer
import SpecServer.Literate
import SpecServer.Locate
import SpecServer.Main
import SpecServer.Protocol.Connection
import SpecServer.Protocol.Encode
import SpecServer.Protocol.Message
import SpecServer.Protocol.Params
import SpecServer.Protocol.Server
import SpecServer.Registry
import SpecServer.Rules
import SpecServer.Settings
import SpecServer.Text.Blank
import SpecServer.Text.Case
import SpecServer.Text.Position
import SpecServer.Text.Quoted
import SpecServer.Text.Split
import SpecServer.Text.Table
import SpecServer.Text.Utf8
import SpecServer.Uri.Basic
import SpecServer.Uri.Domain
import SpecServer.Uri.Error
import SpecServer.Uri.FilePath
import SpecServer.Uri.Host
import SpecServer.Uri.Naming
import SpecServer.Uri.Normal
import SpecServer.Uri.Parser
import SpecServer.Uri.Path
import SpecServer.Uri.Percent
import SpecServer.Workspace.Basic
import SpecServer.Workspace.Editing
import SpecServer.Workspace.Log
import SpecServer.Workspace.Ownership
import SpecServer.Workspace.Questions
import SpecServer.Workspace.Reads
import SpecServer.Workspace.Setup
import SpecServer.Workspace.Validation
import SpecServer.Yaml.Document
import SpecServer.Yaml.Event
import SpecServer.Yaml.Fault
import SpecServer.Yaml.Mark
import SpecServer.Yaml.Printer
import SpecServer.Yaml.Scalar
import SpecServer.Yaml.Scanner
import SpecServer.Yaml.Style
import SpecServer.Yaml.Token
import SpecServer.Proofs.Registry.Lookup
import SpecServer.Proofs.Registry.Outline
import SpecServer.Proofs.Engine.Source
import SpecServer.Proofs.Registry.Coherence
import SpecServer.Proofs.Registry.Placement
import SpecServer.Proofs.Store.Status
import SpecServer.Proofs.Workspace.Alike
import SpecServer.Proofs.Workspace.Coherence
import SpecServer.Proofs.Workspace.Drained
import SpecServer.Proofs.Workspace.Exclusive
import SpecServer.Proofs.Workspace.Failure
import SpecServer.Proofs.Workspace.Custody
import SpecServer.Proofs.Workspace.Driving
import SpecServer.Proofs.Workspace.Freshness
import SpecServer.Proofs.Workspace.Refreshing
import SpecServer.Proofs.Workspace.Screen
import SpecServer.Proofs.Workspace.Repeating
import SpecServer.Proofs.Protocol.OpenDocuments
import SpecServer.Proofs.Uri.Settled
import SpecServer.Proofs.Engine.Merging
import SpecServer.Proofs.Workspace.Publishing
import SpecServer.Proofs.Json.Query
import SpecServer.Proofs.Json.Requery
import SpecServer.Proofs.Protocol.Sources
import SpecServer.Proofs.Literate.Shadow
import SpecServer.Proofs.Engine.Isolation
import SpecServer.Proofs.Engine.History
import SpecServer.Proofs.Engine.Discovery
import SpecServer.Proofs.Registry.Numbering
import SpecServer.Proofs.Store.Identity
import SpecServer.Proofs.Diagnostic.Landing
import SpecServer.Proofs.Json.Pointer
import SpecServer.Proofs.Json.Layering
import SpecServer.Proofs.Literate.Blocks
import SpecServer.Proofs.Engine.Version
import SpecServer.Proofs.Locate
import SpecServer.Proofs.Store.Generations
import SpecServer.Proofs.Engine.Inputs
import SpecServer.Proofs.Workspace.Setup
