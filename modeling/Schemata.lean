import Schemata.Annotation.Basic
import Schemata.Association
import Schemata.Catalog.Basic
import Schemata.Catalog.Lookup
import Schemata.Cell
import Schemata.Cell.Program
import Schemata.Cell.Script
import Schemata.Container
import Schemata.Decl.Annotation
import Schemata.Decl.Builder
import Schemata.Decl.Expr
import Schemata.Decl.Schema
import Schemata.Diagnostic
import Schemata.Diagnostic.Collector
import Schemata.Document.Csdl
import Schemata.Document.Decode
import Schemata.Document.Encode
import Schemata.Evaluation.Basic
import Schemata.Evaluation.Conversion
import Schemata.Evaluation.Function
import Schemata.Evaluation.Labels
import Schemata.Evaluation.Value
import Schemata.Expr.Basic
import Schemata.Expr.Diagnostics
import Schemata.Expr.Path
import Schemata.Graph.Chain
import Schemata.Graph.Reach
import Schemata.Json.Printer
import Schemata.Json.Reader
import Schemata.Json.Value
import Schemata.Location
import Schemata.Markup
import Schemata.Model.Basic
import Schemata.Model.Build
import Schemata.Model.Declarations
import Schemata.Model.Entry
import Schemata.Model.ExprArena
import Schemata.Model.Id
import Schemata.Name
import Schemata.Number.Binary64
import Schemata.Number.Decimal
import Schemata.Number.Integer
import Schemata.Placeholder
import Schemata.Primitive.Kind
import Schemata.Primitive.Literal
import Schemata.Primitive.Value
import Schemata.Proofs.Annotation
import Schemata.Proofs.Association
import Schemata.Proofs.Catalog
import Schemata.Proofs.Catalog.Built
import Schemata.Proofs.Catalog.Handles
import Schemata.Proofs.Catalog.Lookup
import Schemata.Proofs.Catalog.Members
import Schemata.Proofs.Catalog.Reachable
import Schemata.Proofs.Cell
import Schemata.Proofs.Cell.Script
import Schemata.Proofs.Container
import Schemata.Proofs.Document.Codec
import Schemata.Proofs.Document.Csdl
import Schemata.Proofs.Document.Declarations
import Schemata.Proofs.Document.Erasure
import Schemata.Proofs.Document.Order
import Schemata.Proofs.Document.RoundTrip
import Schemata.Proofs.Duplicates
import Schemata.Proofs.Evaluation
import Schemata.Proofs.Evaluation.Calls
import Schemata.Proofs.Evaluation.Conversion
import Schemata.Proofs.Evaluation.Cycles
import Schemata.Proofs.Evaluation.Members
import Schemata.Proofs.Evaluation.Paths
import Schemata.Proofs.Evaluation.Records
import Schemata.Proofs.Evaluation.Traversal
import Schemata.Proofs.Expr.Arena
import Schemata.Proofs.Expr.Diagnostics
import Schemata.Proofs.Expr.Labels
import Schemata.Proofs.Expr.Preorder
import Schemata.Proofs.Expr.Reports
import Schemata.Proofs.Expr.View
import Schemata.Proofs.Extension
import Schemata.Proofs.Graph.Chain
import Schemata.Proofs.Graph.Loop
import Schemata.Proofs.Graph.Reach
import Schemata.Proofs.Json
import Schemata.Proofs.Markup
import Schemata.Proofs.Matching.Annotations
import Schemata.Proofs.Matching.Catalog
import Schemata.Proofs.Matching.Containers
import Schemata.Proofs.Matching.Contents
import Schemata.Proofs.Matching.Entries
import Schemata.Proofs.Matching.Expr
import Schemata.Proofs.Matching.Extended
import Schemata.Proofs.Matching.Lifting
import Schemata.Proofs.Matching.Lookup
import Schemata.Proofs.Matching.Model
import Schemata.Proofs.Matching.Permuted
import Schemata.Proofs.Matching.Renumbered
import Schemata.Proofs.Matching.Same
import Schemata.Proofs.Matching.Types
import Schemata.Proofs.Matching.Validation
import Schemata.Proofs.Model.Consistency
import Schemata.Proofs.Model.Contents
import Schemata.Proofs.Model.Declarations
import Schemata.Proofs.Model.Growth
import Schemata.Proofs.Model.Layout
import Schemata.Proofs.Model.Members
import Schemata.Proofs.Model.Options
import Schemata.Proofs.Model.Symbols
import Schemata.Proofs.Model.Targets
import Schemata.Proofs.Options.Answers
import Schemata.Proofs.Options.Report
import Schemata.Proofs.Order
import Schemata.Proofs.Placeholder
import Schemata.Proofs.Primitive.Acceptance
import Schemata.Proofs.Primitive.Grammar
import Schemata.Proofs.Primitive.RoundTrip
import Schemata.Proofs.Reference
import Schemata.Proofs.Session.Accessors
import Schemata.Proofs.Session.Bases
import Schemata.Proofs.Session.History
import Schemata.Proofs.Session.Memory
import Schemata.Proofs.Session.Reads
import Schemata.Proofs.Session.Resolution
import Schemata.Proofs.Session.Tasks
import Schemata.Proofs.Session.Validation
import Schemata.Proofs.Session.Views
import Schemata.Proofs.Target
import Schemata.Proofs.TypeReference.Derivation
import Schemata.Proofs.Types.Ancestry
import Schemata.Proofs.Types.Base
import Schemata.Proofs.Types.Containment
import Schemata.Proofs.Types.Defaults
import Schemata.Proofs.Types.Enum
import Schemata.Proofs.Types.Lookup
import Schemata.Proofs.Types.Members
import Schemata.Proofs.Validation
import Schemata.Session.Basic
import Schemata.Session.Query
import Schemata.Session.Slot
import Schemata.Session.Validation
import Schemata.Term
import Schemata.Text.Blank
import Schemata.Text.Bytes
import Schemata.Text.IdentifierClass
import Schemata.Text.Pieces
import Schemata.TypeReference.Basic
import Schemata.TypeReference.Grammar
import Schemata.TypeReference.Resolve
import Schemata.Types.Base
import Schemata.Types.Containment
import Schemata.Types.Enum
import Schemata.Types.Members
import Schemata.Types.PropertyType
import Schemata.Validation
import Schemata.Vocabulary.Core
