import ScreenCompiler.Catalog.Basic
import ScreenCompiler.Catalog.Imports
import ScreenCompiler.Catalog.Standard
import ScreenCompiler.Component.Check
import ScreenCompiler.Component.Implicit
import ScreenCompiler.Component.Imports
import ScreenCompiler.Component.Markup
import ScreenCompiler.Component.Module
import ScreenCompiler.Component.Props
import ScreenCompiler.Component.State
import ScreenCompiler.Decimal.Bounds
import ScreenCompiler.Decimal.Dyadic
import ScreenCompiler.Decimal.Layout
import ScreenCompiler.Decimal.Reading
import ScreenCompiler.Decimal.Shortest
import ScreenCompiler.Digest.Sha256
import ScreenCompiler.Document.Basic
import ScreenCompiler.Document.Block
import ScreenCompiler.Document.Decode
import ScreenCompiler.Document.Diagnostic
import ScreenCompiler.Document.Encode
import ScreenCompiler.Document.Forest
import ScreenCompiler.Document.Function
import ScreenCompiler.Document.Import
import ScreenCompiler.Document.Item
import ScreenCompiler.Document.Line
import ScreenCompiler.Document.Screen
import ScreenCompiler.Document.State
import ScreenCompiler.Document.Stylesheet
import ScreenCompiler.Json.Basic
import ScreenCompiler.Json.Number
import ScreenCompiler.Json.Printer
import ScreenCompiler.Json.Raw
import ScreenCompiler.Json.Record
import ScreenCompiler.Markup.Attributes
import ScreenCompiler.Markup.Head
import ScreenCompiler.Markup.Node
import ScreenCompiler.Markup.Pieces
import ScreenCompiler.Markup.Props
import ScreenCompiler.Markup.Value
import ScreenCompiler.Project.Basic
import ScreenCompiler.Project.Error
import ScreenCompiler.Project.FileTree
import ScreenCompiler.Project.Host
import ScreenCompiler.Project.Output
import ScreenCompiler.Project.Pass
import ScreenCompiler.Project.Path
import ScreenCompiler.Project.Settings
import ScreenCompiler.Project.Sources
import ScreenCompiler.Proofs.Catalog.Kinds
import ScreenCompiler.Proofs.Catalog.Required
import ScreenCompiler.Proofs.Component.Constants
import ScreenCompiler.Proofs.Component.ImportStatements
import ScreenCompiler.Proofs.Component.Imports
import ScreenCompiler.Proofs.Component.InitialValues
import ScreenCompiler.Proofs.Component.Markup
import ScreenCompiler.Proofs.Component.Presses
import ScreenCompiler.Proofs.Component.Quotations
import ScreenCompiler.Proofs.Component.Rereading
import ScreenCompiler.Proofs.Component.States
import ScreenCompiler.Proofs.Component.TopLevel
import ScreenCompiler.Proofs.Decimal.Numerals
import ScreenCompiler.Proofs.Decimal.Whole
import ScreenCompiler.Proofs.Document.Blocks
import ScreenCompiler.Proofs.Document.BracedValues
import ScreenCompiler.Proofs.Document.BrokenHeads
import ScreenCompiler.Proofs.Document.Composition
import ScreenCompiler.Proofs.Document.Cursor
import ScreenCompiler.Proofs.Document.CursorBlocks
import ScreenCompiler.Proofs.Document.CursorDescent
import ScreenCompiler.Proofs.Document.Declarations
import ScreenCompiler.Proofs.Document.Declared
import ScreenCompiler.Proofs.Document.Descent
import ScreenCompiler.Proofs.Document.Elements
import ScreenCompiler.Proofs.Document.FunctionBodies
import ScreenCompiler.Proofs.Document.FunctionEnds
import ScreenCompiler.Proofs.Document.HeadSlices
import ScreenCompiler.Proofs.Document.Insertion
import ScreenCompiler.Proofs.Document.JoinedHeads
import ScreenCompiler.Proofs.Document.Joining
import ScreenCompiler.Proofs.Document.Layout
import ScreenCompiler.Proofs.Document.LineEnds
import ScreenCompiler.Proofs.Document.LineMachine
import ScreenCompiler.Proofs.Document.LineNumbers
import ScreenCompiler.Proofs.Document.Machine
import ScreenCompiler.Proofs.Document.MarkupLines
import ScreenCompiler.Proofs.Document.Nodes
import ScreenCompiler.Proofs.Document.Numbering
import ScreenCompiler.Proofs.Document.OpenFunctions
import ScreenCompiler.Proofs.Document.Parameters
import ScreenCompiler.Proofs.Document.Plain
import ScreenCompiler.Proofs.Document.Progress
import ScreenCompiler.Proofs.Document.ReadingEnds
import ScreenCompiler.Proofs.Document.Renumber
import ScreenCompiler.Proofs.Document.Respacing
import ScreenCompiler.Proofs.Document.RoundTrip
import ScreenCompiler.Proofs.Document.SegmentLines
import ScreenCompiler.Proofs.Document.Segmentation
import ScreenCompiler.Proofs.Document.Signatures
import ScreenCompiler.Proofs.Document.SourceLines
import ScreenCompiler.Proofs.Document.SpacedHeads
import ScreenCompiler.Proofs.Document.SpreadHeads
import ScreenCompiler.Proofs.Document.States
import ScreenCompiler.Proofs.Document.StylesheetBlocks
import ScreenCompiler.Proofs.Document.Stylesheets
import ScreenCompiler.Proofs.Document.WellFormed
import ScreenCompiler.Proofs.Document.Writing
import ScreenCompiler.Proofs.Json.Numbers
import ScreenCompiler.Proofs.Json.RoundTrip
import ScreenCompiler.Proofs.Json.Strings
import ScreenCompiler.Proofs.Json.Tokens
import ScreenCompiler.Proofs.Json.Trees
import ScreenCompiler.Proofs.Markup.Attributes
import ScreenCompiler.Proofs.Markup.BracedValues
import ScreenCompiler.Proofs.Markup.Calls
import ScreenCompiler.Proofs.Markup.Notation
import ScreenCompiler.Proofs.Markup.Pieces
import ScreenCompiler.Proofs.Markup.Props
import ScreenCompiler.Proofs.Markup.Runs
import ScreenCompiler.Proofs.Markup.Scanning
import ScreenCompiler.Proofs.Markup.Strays
import ScreenCompiler.Proofs.Markup.ValueStyles
import ScreenCompiler.Proofs.Project.Components
import ScreenCompiler.Proofs.Project.Delivery
import ScreenCompiler.Proofs.Project.Hosts
import ScreenCompiler.Proofs.Project.Listing
import ScreenCompiler.Proofs.Project.Navigation
import ScreenCompiler.Proofs.Project.Outputs
import ScreenCompiler.Proofs.Project.Pass
import ScreenCompiler.Proofs.Project.Placement
import ScreenCompiler.Proofs.Project.Places
import ScreenCompiler.Proofs.Project.Refusal
import ScreenCompiler.Proofs.Project.Repetition
import ScreenCompiler.Proofs.Project.RouterNames
import ScreenCompiler.Proofs.Project.Writing
import ScreenCompiler.Proofs.Route.Derivation
import ScreenCompiler.Proofs.Route.ModulePath
import ScreenCompiler.Proofs.Route.Names
import ScreenCompiler.Proofs.Route.Order
import ScreenCompiler.Proofs.Route.Router
import ScreenCompiler.Proofs.Route.RouterScreens
import ScreenCompiler.Proofs.Route.RouterText
import ScreenCompiler.Proofs.Route.Segments
import ScreenCompiler.Proofs.Script.Identifier
import ScreenCompiler.Proofs.Script.Literals
import ScreenCompiler.Proofs.Script.Quoted
import ScreenCompiler.Proofs.Text.Braces
import ScreenCompiler.Proofs.Text.Dedent
import ScreenCompiler.Proofs.Text.Indent
import ScreenCompiler.Proofs.Text.Letters
import ScreenCompiler.Proofs.Text.Lines
import ScreenCompiler.Proofs.Text.Nesting
import ScreenCompiler.Proofs.Text.OpenPairs
import ScreenCompiler.Proofs.Text.Trim
import ScreenCompiler.Proofs.Text.Words
import ScreenCompiler.Proofs.Watch.Debounce
import ScreenCompiler.Proofs.Watch.Filter
import ScreenCompiler.Proofs.Watch.Replay
import ScreenCompiler.Proofs.Watch.SingleFlight
import ScreenCompiler.Route.Basic
import ScreenCompiler.Route.Decode
import ScreenCompiler.Route.Identity
import ScreenCompiler.Route.Name
import ScreenCompiler.Route.Order
import ScreenCompiler.Route.Router
import ScreenCompiler.Script.Identifier
import ScreenCompiler.Script.Quoted
import ScreenCompiler.Text.Affix
import ScreenCompiler.Text.Blank
import ScreenCompiler.Text.Case
import ScreenCompiler.Text.Hex
import ScreenCompiler.Text.Indent
import ScreenCompiler.Text.Lines
import ScreenCompiler.Text.Nesting
import ScreenCompiler.Text.Sorted
import ScreenCompiler.Text.Stretch
import ScreenCompiler.Text.Word
import ScreenCompiler.Watch.Filter
import ScreenCompiler.Watch.Machine
import ScreenCompiler.Watch.Run
import ScreenCompiler.Watch.Session
