import Pagewright.Action.Module
import Pagewright.Action.Request
import Pagewright.Code.Literal
import Pagewright.Code.Module
import Pagewright.Code.Name
import Pagewright.Component.Basic
import Pagewright.Component.Forest
import Pagewright.Component.Primitive
import Pagewright.Component.Validation
import Pagewright.Component.Violation
import Pagewright.Decimal.Binary64
import Pagewright.Decimal.Layout
import Pagewright.Decimal.Reading
import Pagewright.Decimal.Shortest
import Pagewright.Digest.Sha256
import Pagewright.Generator.Advice
import Pagewright.Generator.Basic
import Pagewright.Generator.Decode
import Pagewright.Generator.Failure
import Pagewright.Generator.Text
import Pagewright.Import.Collection
import Pagewright.Import.Statement
import Pagewright.Json.Decode
import Pagewright.Json.Document
import Pagewright.Json.Value
import Pagewright.Markup.Attribute
import Pagewright.Markup.Element
import Pagewright.Markup.Emitter
import Pagewright.Markup.View
import Pagewright.Options
import Pagewright.Ordered.FirstSeen
import Pagewright.Ordered.Map
import Pagewright.Ordered.Sorted
import Pagewright.Output.File
import Pagewright.Page.Metadata
import Pagewright.Page.Plan
import Pagewright.Page.Request
import Pagewright.Page.Route
import Pagewright.Page.Scaffold
import Pagewright.Placement.Classification
import Pagewright.Placement.Handler
import Pagewright.Placement.Hook
import Pagewright.Placement.Island
import Pagewright.Proofs.Action.Names
import Pagewright.Proofs.Code.Balance
import Pagewright.Proofs.Code.Function
import Pagewright.Proofs.Code.Name
import Pagewright.Proofs.Code.Scope
import Pagewright.Proofs.Code.Undivided
import Pagewright.Proofs.Component.Arrangement
import Pagewright.Proofs.Component.Defects
import Pagewright.Proofs.Component.Depth
import Pagewright.Proofs.Component.Preorder
import Pagewright.Proofs.Component.Reach
import Pagewright.Proofs.Component.Tree
import Pagewright.Proofs.Component.Validity
import Pagewright.Proofs.Generator.Batch
import Pagewright.Proofs.Generator.ComponentName
import Pagewright.Proofs.Generator.Formatting
import Pagewright.Proofs.Generator.Outcome
import Pagewright.Proofs.Generator.ProjectPaths
import Pagewright.Proofs.Generator.SplitAdvice
import Pagewright.Proofs.Generator.Statistics
import Pagewright.Proofs.Import.Binding
import Pagewright.Proofs.Import.Combination
import Pagewright.Proofs.Import.History
import Pagewright.Proofs.Import.Merge
import Pagewright.Proofs.Import.Origin
import Pagewright.Proofs.Import.ReadBack
import Pagewright.Proofs.Json.Quoted
import Pagewright.Proofs.Literal.ReadBack
import Pagewright.Proofs.Markup.Arrangement
import Pagewright.Proofs.Markup.AttributeNames
import Pagewright.Proofs.Markup.ClassList
import Pagewright.Proofs.Markup.Coverage
import Pagewright.Proofs.Markup.Element
import Pagewright.Proofs.Markup.Emission
import Pagewright.Proofs.Markup.Indentation
import Pagewright.Proofs.Markup.Loss
import Pagewright.Proofs.Markup.Meaning
import Pagewright.Proofs.Markup.Printing
import Pagewright.Proofs.Markup.ReadBack
import Pagewright.Proofs.Markup.Reader
import Pagewright.Proofs.Markup.Reading
import Pagewright.Proofs.Markup.Record
import Pagewright.Proofs.Markup.Reference
import Pagewright.Proofs.Markup.Rendering
import Pagewright.Proofs.Markup.Scoped
import Pagewright.Proofs.Markup.Session
import Pagewright.Proofs.Markup.Template
import Pagewright.Proofs.Markup.View
import Pagewright.Proofs.Ordered.FirstSeen
import Pagewright.Proofs.Ordered.Lookup
import Pagewright.Proofs.Ordered.Sorted
import Pagewright.Proofs.Ordered.Tally
import Pagewright.Proofs.Output.Formatting
import Pagewright.Proofs.Page.Arrangement
import Pagewright.Proofs.Page.Completeness
import Pagewright.Proofs.Page.Containment
import Pagewright.Proofs.Page.Directive
import Pagewright.Proofs.Page.FileSet
import Pagewright.Proofs.Page.FormatOption
import Pagewright.Proofs.Page.Handler
import Pagewright.Proofs.Page.IslandNames
import Pagewright.Proofs.Page.Locals
import Pagewright.Proofs.Page.ModuleScope
import Pagewright.Proofs.Page.Route
import Pagewright.Proofs.Page.RouteLocals
import Pagewright.Proofs.Page.Split
import Pagewright.Proofs.Page.Warning
import Pagewright.Proofs.Placement.Classification
import Pagewright.Proofs.Placement.Island
import Pagewright.Proofs.Placement.Partition
import Pagewright.Proofs.Style.Classification
import Pagewright.Proofs.Style.Merge
import Pagewright.Proofs.Style.Token
import Pagewright.Proofs.Text.Blank
import Pagewright.Proofs.Text.Split
import Pagewright.Proofs.Text.Words
import Pagewright.Proofs.Types.Inference
import Pagewright.Proofs.Types.Names
import Pagewright.Proofs.Types.Shape
import Pagewright.Script.Check
import Pagewright.Script.Code
import Pagewright.Script.Format
import Pagewright.Script.Grammar.Basic
import Pagewright.Script.Grammar.Expression
import Pagewright.Script.Grammar.Function
import Pagewright.Script.Grammar.Markup
import Pagewright.Script.Grammar.Module
import Pagewright.Script.Grammar.Statement
import Pagewright.Script.Grammar.Target
import Pagewright.Script.Grammar.Type
import Pagewright.Script.Print
import Pagewright.Script.Reader
import Pagewright.Script.Sheet
import Pagewright.Script.Token
import Pagewright.Script.Tree
import Pagewright.Style.Property
import Pagewright.Style.Rule
import Pagewright.Style.Scale
import Pagewright.Style.Sheet
import Pagewright.Style.Value
import Pagewright.Text.Blank
import Pagewright.Text.Identifier
import Pagewright.Text.Lines
import Pagewright.Text.Quoted
import Pagewright.Text.Range
import Pagewright.Text.UpperCase
import Pagewright.Text.Visible
import Pagewright.Text.Word
import Pagewright.Types.Inference
