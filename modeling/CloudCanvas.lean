import CloudCanvas.Archive
import CloudCanvas.Archive.Codec
import CloudCanvas.Bicep.Converter
import CloudCanvas.Bicep.Export
import CloudCanvas.Bicep.Source
import CloudCanvas.Catalog
import CloudCanvas.Dict
import CloudCanvas.Double
import CloudCanvas.Double.Decimal
import CloudCanvas.Export.Build
import CloudCanvas.Export.Capability
import CloudCanvas.Export.Compute
import CloudCanvas.Export.Fault
import CloudCanvas.Export.Network
import CloudCanvas.Export.Storage
import CloudCanvas.Export.Web
import CloudCanvas.Json
import CloudCanvas.Json.Number
import CloudCanvas.Json.Parser
import CloudCanvas.Json.Printer
import CloudCanvas.Json.Record
import CloudCanvas.Json.Token
import CloudCanvas.Json.Value
import CloudCanvas.Network.Prefix
import CloudCanvas.Proofs.Archive.Codec
import CloudCanvas.Proofs.Archive.Coherence
import CloudCanvas.Proofs.Archive.Faithful
import CloudCanvas.Proofs.Archive.Fault
import CloudCanvas.Proofs.Archive.Restore
import CloudCanvas.Proofs.Bicep.Lines
import CloudCanvas.Proofs.Bicep.Source
import CloudCanvas.Proofs.Dict
import CloudCanvas.Proofs.Double.Decimal
import CloudCanvas.Proofs.Double.Rounding
import CloudCanvas.Proofs.Export.Alike
import CloudCanvas.Proofs.Export.Annotated
import CloudCanvas.Proofs.Export.Annotations
import CloudCanvas.Proofs.Export.Build
import CloudCanvas.Proofs.Export.Congruence
import CloudCanvas.Proofs.Export.Contributions
import CloudCanvas.Proofs.Export.Kinds
import CloudCanvas.Proofs.Export.Legible
import CloudCanvas.Proofs.Export.Names
import CloudCanvas.Proofs.Export.Network
import CloudCanvas.Proofs.Export.Parameters
import CloudCanvas.Proofs.Export.Ranges
import CloudCanvas.Proofs.Export.Redrawn
import CloudCanvas.Proofs.Export.References
import CloudCanvas.Proofs.Export.Report
import CloudCanvas.Proofs.Export.Resources
import CloudCanvas.Proofs.Export.Rules
import CloudCanvas.Proofs.Export.Subnets
import CloudCanvas.Proofs.Export.TextProperties
import CloudCanvas.Proofs.Export.Texts
import CloudCanvas.Proofs.Export.UserTexts
import CloudCanvas.Proofs.Export.Visit
import CloudCanvas.Proofs.Fold
import CloudCanvas.Proofs.Grown
import CloudCanvas.Proofs.Json.Leaves
import CloudCanvas.Proofs.Json.Number
import CloudCanvas.Proofs.Json.Numeral
import CloudCanvas.Proofs.Json.Pretty
import CloudCanvas.Proofs.Json.Record
import CloudCanvas.Proofs.Json.Scan
import CloudCanvas.Proofs.Json.Text
import CloudCanvas.Proofs.Json.Value
import CloudCanvas.Proofs.Network.Carving
import CloudCanvas.Proofs.Network.Prefix
import CloudCanvas.Proofs.Network.Range
import CloudCanvas.Proofs.Network.Written
import CloudCanvas.Proofs.Server.Edits
import CloudCanvas.Proofs.Server.History
import CloudCanvas.Proofs.Session.Calls
import CloudCanvas.Proofs.Session.History
import CloudCanvas.Proofs.Session.Interleaving
import CloudCanvas.Proofs.Session.Load
import CloudCanvas.Proofs.Session.Lock
import CloudCanvas.Proofs.Session.Naming
import CloudCanvas.Proofs.Session.Newest
import CloudCanvas.Proofs.Session.Order
import CloudCanvas.Proofs.Session.Overwriting
import CloudCanvas.Proofs.Session.Progress
import CloudCanvas.Proofs.Session.Race
import CloudCanvas.Proofs.Session.Saved
import CloudCanvas.Proofs.Session.Sections
import CloudCanvas.Proofs.Store.Directory
import CloudCanvas.Proofs.Store.Failure
import CloudCanvas.Proofs.Store.Interchange
import CloudCanvas.Proofs.Store.Remote
import CloudCanvas.Proofs.Template.Batches
import CloudCanvas.Proofs.Template.Codec
import CloudCanvas.Proofs.Template.Expression
import CloudCanvas.Proofs.Template.Parameters
import CloudCanvas.Proofs.Template.References
import CloudCanvas.Proofs.Template.Texts
import CloudCanvas.Proofs.Text.Blank
import CloudCanvas.Proofs.Topology.Admission
import CloudCanvas.Proofs.Topology.Ancestors
import CloudCanvas.Proofs.Topology.Batch
import CloudCanvas.Proofs.Topology.Change
import CloudCanvas.Proofs.Topology.Containment
import CloudCanvas.Proofs.Topology.Deletion
import CloudCanvas.Proofs.Topology.FreshNumbers
import CloudCanvas.Proofs.Topology.Insertion
import CloudCanvas.Proofs.Topology.Links
import CloudCanvas.Proofs.Topology.Merge
import CloudCanvas.Proofs.Topology.Neighbours
import CloudCanvas.Proofs.Topology.Numbering
import CloudCanvas.Proofs.Topology.Outline
import CloudCanvas.Proofs.Topology.Properties
import CloudCanvas.Proofs.Topology.Reachable
import CloudCanvas.Proofs.Topology.Removal
import CloudCanvas.Proofs.Topology.Undo
import CloudCanvas.Proofs.Topology.Walks
import CloudCanvas.Proofs.Topology.WellFormed
import CloudCanvas.Proofs.Url.Percent
import CloudCanvas.Rules
import CloudCanvas.Server
import CloudCanvas.Server.Instructions
import CloudCanvas.Server.Request
import CloudCanvas.Server.Tool
import CloudCanvas.Session
import CloudCanvas.Settings
import CloudCanvas.Store
import CloudCanvas.Store.Directory
import CloudCanvas.Store.Memory
import CloudCanvas.Store.Open
import CloudCanvas.Store.Remote
import CloudCanvas.Store.Scripted
import CloudCanvas.Template
import CloudCanvas.Template.Codec
import CloudCanvas.Template.Expression
import CloudCanvas.Text.Blank
import CloudCanvas.Text.Utf8
import CloudCanvas.Topology.Basic
import CloudCanvas.Topology.Batch
import CloudCanvas.Topology.Change
import CloudCanvas.Topology.Containment
import CloudCanvas.Topology.Edit
import CloudCanvas.Topology.History
import CloudCanvas.Url
import CloudCanvas.Url.Host
import CloudCanvas.Url.Percent
