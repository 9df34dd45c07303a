import SqlCompose.Compile
import SqlCompose.Config
import SqlCompose.Ddl.Column
import SqlCompose.Ddl.Database
import SqlCompose.Ddl.ForeignKey
import SqlCompose.Ddl.Index
import SqlCompose.Ddl.Naming
import SqlCompose.Ddl.Operation
import SqlCompose.Ddl.Probe
import SqlCompose.Ddl.Table
import SqlCompose.Dialect.Basic
import SqlCompose.Dialect.Names
import SqlCompose.Dialect.Operators
import SqlCompose.Dialect.Types
import SqlCompose.Error
import SqlCompose.Expr.Basic
import SqlCompose.Expr.Build
import SqlCompose.Expr.Fold
import SqlCompose.Expr.Intrinsic
import SqlCompose.Expr.Operator
import SqlCompose.Expr.Reduce
import SqlCompose.Guid
import SqlCompose.Json
import SqlCompose.Json.Number
import SqlCompose.Json.Parser
import SqlCompose.Json.Reader
import SqlCompose.Json.Token
import SqlCompose.Number.Binary64
import SqlCompose.Number.Decimal
import SqlCompose.Number.Decimal.Arith
import SqlCompose.Number.Decimal.Parser
import SqlCompose.Number.Decimal.Remainder
import SqlCompose.Number.Layout
import SqlCompose.Number.Power
import SqlCompose.Number.Shortest
import SqlCompose.Number.Word
import SqlCompose.Parameters
import SqlCompose.Proofs.Binder
import SqlCompose.Proofs.Coupling
import SqlCompose.Proofs.Lexing
import SqlCompose.Proofs.LifeCycle
import SqlCompose.Proofs.Meaning
import SqlCompose.Proofs.Reader
import SqlCompose.Proofs.Reading
import SqlCompose.Proofs.ReduceMeaning
import SqlCompose.Proofs.Relocation
import SqlCompose.Proofs.Shape
import SqlCompose.Proofs.Standing
import SqlCompose.Proofs.Steps
import SqlCompose.Proofs.Template
import SqlCompose.Query
import SqlCompose.Query.Clauses
import SqlCompose.Query.Paging
import SqlCompose.Query.Session
import SqlCompose.Render
import SqlCompose.RowStatement
import SqlCompose.Schema.Cache
import SqlCompose.Schema.Fault
import SqlCompose.Schema.Field
import SqlCompose.Schema.LogicalType
import SqlCompose.Schema.Reader
import SqlCompose.Schema.Description
import SqlCompose.Schema.Table
import SqlCompose.Text.Blank
import SqlCompose.Text.Hex
import SqlCompose.Text.Join
import SqlCompose.Text.Quote
import SqlCompose.Text.Upper
import SqlCompose.Time
import SqlCompose.Time.Parser
import SqlCompose.Toml
import SqlCompose.Toml.Parser
import SqlCompose.Toml.Scalar
import SqlCompose.Toml.Text
import SqlCompose.Value
import SqlCompose.Value.Json
import SqlCompose.Value.Reader
import SqlCompose.Value.Text
import SqlCompose.Proofs.Bindings
import SqlCompose.Proofs.ErrorFrame
import SqlCompose.Proofs.Ledger
import SqlCompose.Proofs.Placeholders
import SqlCompose.Proofs.Conditions
import SqlCompose.Proofs.NormalForm
import SqlCompose.Proofs.Portability
import SqlCompose.Proofs.Drafts
import SqlCompose.Proofs.Contributions
import SqlCompose.Proofs.Interleaving
import SqlCompose.Proofs.Objections
import SqlCompose.Proofs.Refusals
import SqlCompose.Proofs.Idempotence
import SqlCompose.Proofs.Pages
import SqlCompose.Proofs.RowNumbers
import SqlCompose.Proofs.Lookups
import SqlCompose.Proofs.Quoting
import SqlCompose.Proofs.TableBodies
import SqlCompose.Proofs.TablePlans
import SqlCompose.Proofs.Blocks
import SqlCompose.Proofs.Descriptions
import SqlCompose.Proofs.DefaultColumns
import SqlCompose.Proofs.RowStatements
import SqlCompose.Proofs.Negation
import SqlCompose.Proofs.IntegerFolding
import SqlCompose.Proofs.TupleItems
import SqlCompose.Proofs.Nesting
import SqlCompose.Proofs.Fragments
import SqlCompose.Proofs.Merging
import SqlCompose.Proofs.ConstraintNames
import SqlCompose.Proofs.Statements
import SqlCompose.Proofs.DollarBodies
import SqlCompose.Proofs.Escapes
import SqlCompose.Proofs.Choices
import SqlCompose.Proofs.IndexGroups
