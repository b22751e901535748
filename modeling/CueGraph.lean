import CueGraph.Main
import CueGraph.Proofs.Catalog.Tidy
import CueGraph.Proofs.Compile.Account
import CueGraph.Proofs.Document.Valid
import CueGraph.Service.Respond
import CueGraph.Proofs.Catalog.Plain
import CueGraph.Proofs.Document.Restated
import CueGraph.Proofs.Catalog.Independent
import CueGraph.Proofs.Catalog.Patched
import CueGraph.Proofs.Catalog.Styles
import CueGraph.Proofs.Compile.Turn
import CueGraph.Proofs.Compile.Appended
import CueGraph.Proofs.Document.Reordered
import CueGraph.Proofs.Graph.Removed
import CueGraph.Proofs.Catalog.Inert
import CueGraph.Proofs.Script.Rendered
import CueGraph.Proofs.NodeType.Registered
import CueGraph.Proofs.Catalog.Formed
import CueGraph.Proofs.Service.Agreed
import CueGraph.Proofs.Text.Template
import CueGraph.Proofs.Json.Literal
import CueGraph.Proofs.Graph.Attached
import CueGraph.Proofs.Graph.Failed
import CueGraph.Proofs.Number.Integers
import CueGraph.Proofs.Graph.OwnParents
import CueGraph.Proofs.Catalog.Code
import CueGraph.Proofs.Catalog.Values
import CueGraph.Proofs.Script.Target
import CueGraph.Proofs.Script.Slots
import CueGraph.Proofs.NodeType.History
import CueGraph.Proofs.Catalog.OptionedCalls
import CueGraph.Proofs.Catalog.Ranges
import CueGraph.Proofs.CommandLine.Arguments
import CueGraph.Proofs.Text.Items
import CueGraph.Proofs.CommandLine.Saved
import CueGraph.Proofs.CommandLine.Delivered
import CueGraph.Proofs.Settings.Flags
import CueGraph.Proofs.CommandLine.Settled
import CueGraph.Proofs.Compile.Names
import CueGraph.Proofs.Text.Normal
