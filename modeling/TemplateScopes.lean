import TemplateScopes.Text.Blank
import TemplateScopes.Text.LetterCase
import TemplateScopes.Text.Quoted
import TemplateScopes.Text.Search
import TemplateScopes.Text.Utf8
import TemplateScopes.OrderedMap
import TemplateScopes.Markup.Span
import TemplateScopes.Markup.Condition
import TemplateScopes.Markup.Variable
import TemplateScopes.Lookup.Preset
import TemplateScopes.Scope.Block
import TemplateScopes.Scope.Cache
import TemplateScopes.Scope.Memo
import TemplateScopes.Json.Reader
import TemplateScopes.Lookup.Discovery
import TemplateScopes.Fault
import TemplateScopes.Report.Envelope
import TemplateScopes.Report.Table
import TemplateScopes.Command.Run
import TemplateScopes.Main
import TemplateScopes.Proofs.Search
import TemplateScopes.Proofs.Tags
import TemplateScopes.Proofs.Balance
import TemplateScopes.Proofs.Pairing
import TemplateScopes.Proofs.Forest
import TemplateScopes.Proofs.Contents
import TemplateScopes.Proofs.Excision
import TemplateScopes.Proofs.Ownership
import TemplateScopes.Proofs.Accounting
import TemplateScopes.Proofs.Relocation
import TemplateScopes.Proofs.Inner
import TemplateScopes.Proofs.Gaps
import TemplateScopes.Proofs.Shift
import TemplateScopes.Proofs.Isolation
import TemplateScopes.Proofs.Flags
import TemplateScopes.Proofs.Joining
import TemplateScopes.Proofs.Seams
import TemplateScopes.Proofs.Cache
import TemplateScopes.Proofs.Recency
import TemplateScopes.Proofs.Memory
import TemplateScopes.Scope.Reflection
import TemplateScopes.Proofs.Transparency
import TemplateScopes.Proofs.Depth
import TemplateScopes.Proofs.Layers
import TemplateScopes.Proofs.Tree
import TemplateScopes.Proofs.Capacity
import TemplateScopes.Proofs.Variables
import TemplateScopes.Proofs.Typing
import TemplateScopes.Proofs.Renderings
import TemplateScopes.Proofs.Utf8
import TemplateScopes.Proofs.Paths
import TemplateScopes.Proofs.Schema
import TemplateScopes.Proofs.Wording
import TemplateScopes.Proofs.Bytes
import TemplateScopes.Proofs.Writing
import TemplateScopes.Proofs.ExitCodes
import TemplateScopes.Proofs.JsonReader
import TemplateScopes.Proofs.Loading
import TemplateScopes.Proofs.LetterCase
import TemplateScopes.Proofs.Layering
import TemplateScopes.Proofs.Presets
import TemplateScopes.Proofs.Conditions
import TemplateScopes.Proofs.Closers
import TemplateScopes.Proofs.Names
import TemplateScopes.Proofs.Histories
import TemplateScopes.Proofs.Edits
import TemplateScopes.Proofs.Walks
import TemplateScopes.Proofs.Spacing
import TemplateScopes.Proofs.Flowchart
import TemplateScopes.Proofs.Ascent
import TemplateScopes.Proofs.Listing
