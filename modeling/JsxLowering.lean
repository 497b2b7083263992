import JsxLowering.Code.Expression
import JsxLowering.Code.Layout
import JsxLowering.Code.Printer
import JsxLowering.Code.Quoted
import JsxLowering.Code.Statement
import JsxLowering.Compile
import JsxLowering.Diagnostic
import JsxLowering.Json.Problem
import JsxLowering.Json.Scan
import JsxLowering.Lowering.Pass
import JsxLowering.Lowering.Session
import JsxLowering.Markup.Boundary
import JsxLowering.Markup.Contribution
import JsxLowering.Markup.Property
import JsxLowering.Markup.Resolution
import JsxLowering.Number.Basic
import JsxLowering.Number.Parse
import JsxLowering.Number.Shortest
import JsxLowering.Number.Text
import JsxLowering.Options.Basic
import JsxLowering.Options.Decode
import JsxLowering.Proofs.AttributeTexts
import JsxLowering.Proofs.Boundaries
import JsxLowering.Proofs.Capture
import JsxLowering.Proofs.CompleteCode
import JsxLowering.Proofs.Declarations
import JsxLowering.Proofs.Decompositions
import JsxLowering.Proofs.Escapes
import JsxLowering.Proofs.Evaluation
import JsxLowering.Proofs.ExpressionShapes
import JsxLowering.Proofs.Failure
import JsxLowering.Proofs.FunctionShapes
import JsxLowering.Proofs.Interpolations
import JsxLowering.Proofs.Joining
import JsxLowering.Proofs.JsonReading
import JsxLowering.Proofs.JsonTexts
import JsxLowering.Proofs.LineBreaks
import JsxLowering.Proofs.MarkupItems
import JsxLowering.Proofs.MarkupText
import JsxLowering.Proofs.MemberPaths
import JsxLowering.Proofs.ModuleShapes
import JsxLowering.Proofs.Nesting
import JsxLowering.Proofs.NumberTexts
import JsxLowering.Proofs.OptionTexts
import JsxLowering.Proofs.Outlines
import JsxLowering.Proofs.Parameters
import JsxLowering.Proofs.Permissiveness
import JsxLowering.Proofs.Pieces
import JsxLowering.Proofs.Plainness
import JsxLowering.Proofs.Positions
import JsxLowering.Proofs.Readers
import JsxLowering.Proofs.Reading
import JsxLowering.Proofs.ReadingExpressions
import JsxLowering.Proofs.Rendering
import JsxLowering.Proofs.Scanning
import JsxLowering.Proofs.ScopeNames
import JsxLowering.Proofs.ScopeStack
import JsxLowering.Proofs.SessionRuns
import JsxLowering.Proofs.Shapes
import JsxLowering.Proofs.StatementShapes
import JsxLowering.Proofs.TagReadings
import JsxLowering.Proofs.TemplateReading
import JsxLowering.Proofs.TextCleanup
import JsxLowering.Proofs.TypeShapes
import JsxLowering.Proofs.Visits
import JsxLowering.Proofs.WrappedLines
import JsxLowering.Scope.Basic
import JsxLowering.Scope.Bindings
import JsxLowering.Source.Argument
import JsxLowering.Source.Class
import JsxLowering.Source.Declaration
import JsxLowering.Source.Element
import JsxLowering.Source.Exported
import JsxLowering.Source.Expression
import JsxLowering.Source.Function
import JsxLowering.Source.Gap
import JsxLowering.Source.Goal
import JsxLowering.Source.Item
import JsxLowering.Source.Literal.Numeric
import JsxLowering.Source.Literal.Pattern
import JsxLowering.Source.Literal.Quoted
import JsxLowering.Source.Operator
import JsxLowering.Source.Parser
import JsxLowering.Source.Reader
import JsxLowering.Source.Statement
import JsxLowering.Source.Target
import JsxLowering.Source.TemplateLiteral
import JsxLowering.Source.TypeExpression
import JsxLowering.Source.Word
import JsxLowering.Template.Basic
import JsxLowering.Template.Compile
import JsxLowering.Template.Source
import JsxLowering.Text.Blank
import JsxLowering.Text.Cleanup
import JsxLowering.Text.Debug
import JsxLowering.Text.HiddenRanges
import JsxLowering.Text.Identifier
import JsxLowering.Text.IdentifierRanges
import JsxLowering.Text.Position
import JsxLowering.Text.Quoted
import JsxLowering.Text.Ranges
import JsxLowering.Text.Wrapped
import JsxLowering.Tree.Basic
import JsxLowering.Tree.Form
import JsxLowering.Tree.Path
import JsxLowering.Tree.Walk
