import NestedQuery.Accumulator.Aggregation
import NestedQuery.Accumulator.Basic
import NestedQuery.Document
import NestedQuery.Error
import NestedQuery.Expr.Basic
import NestedQuery.Expr.Evaluate
import NestedQuery.Expr.Operator
import NestedQuery.Graph.Convert
import NestedQuery.Graph.Decode
import NestedQuery.Graph.Log
import NestedQuery.Graph.Materialize
import NestedQuery.Graph.Plan
import NestedQuery.Graph.Row
import NestedQuery.Graph.Shape
import NestedQuery.Leaf
import NestedQuery.Mapping.Chain
import NestedQuery.Mapping.Collect
import NestedQuery.Mapping.Collection
import NestedQuery.Mapping.Compile
import NestedQuery.Mapping.Compiled
import NestedQuery.Mapping.Operand
import NestedQuery.Number.Binary
import NestedQuery.Number.Integer
import NestedQuery.Number.Power
import NestedQuery.Number.Shortest
import NestedQuery.Params
import NestedQuery.Proofs.Accumulator.Views
import NestedQuery.Proofs.Accumulator.Traversal
import NestedQuery.Proofs.Graph.Chains
import NestedQuery.Proofs.Graph.Grouping
import NestedQuery.Proofs.Graph.Push
import NestedQuery.Proofs.Graph.Step
import NestedQuery.Proofs.Mapping.Values
import NestedQuery.Proofs.Result
import NestedQuery.Proofs.Yields
import NestedQuery.Query
import NestedQuery.Resolution
import NestedQuery.Schema
import NestedQuery.Select.Assemble
import NestedQuery.Select.Draft
import NestedQuery.Select.Kept
import NestedQuery.Select.Term
import NestedQuery.Sql.Dialect
import NestedQuery.Sql.Engine
import NestedQuery.Sql.Fragment
import NestedQuery.Sql.Render
import NestedQuery.Sql.Token
import NestedQuery.Statement
import NestedQuery.Target
import NestedQuery.Text.CaseTable
import NestedQuery.Text.CodeRun
import NestedQuery.Text.LetterCase
import NestedQuery.Text.LetterTable
import NestedQuery.Text.PrintTable
import NestedQuery.Text.Quoted
import NestedQuery.Text.SnakeCase
import NestedQuery.Value.Argument
import NestedQuery.Value.Basic
import NestedQuery.Value.Operation
import NestedQuery.Value.Wire
import NestedQuery.Proofs.Mapping.Folding
import NestedQuery.Proofs.Query.Stages
import NestedQuery.Proofs.Select.Kept
import NestedQuery.Proofs.Select.Draft
import NestedQuery.Proofs.Select.Sources
import NestedQuery.Proofs.Select.JoinedRows
import NestedQuery.Proofs.Select.Lockstep
import NestedQuery.Proofs.Select.GroupKeys
import NestedQuery.Proofs.Select.Separation
import NestedQuery.Proofs.Select.Lineage
import NestedQuery.Proofs.Select.Aggregates
import NestedQuery.Proofs.Graph.Elements
import NestedQuery.Proofs.Sql.Placeholders
import NestedQuery.Proofs.Graph.Refusal
import NestedQuery.Proofs.Graph.Conflict
import NestedQuery.Proofs.Select.Witnesses
import NestedQuery.Proofs.Expr.Meaning
import NestedQuery.Proofs.Accumulator.Reading
import NestedQuery.Proofs.Accumulator.Meaning
import NestedQuery.Proofs.Mapping.Preservation
import NestedQuery.Proofs.Mapping.Steps
import NestedQuery.Proofs.Sql.Closed
import NestedQuery.Proofs.Sql.Lexeme
import NestedQuery.Proofs.Sql.Spacing
import NestedQuery.Proofs.Select.Spacing
import NestedQuery.Proofs.Sql.Scope
import NestedQuery.Proofs.Select.Scope
import NestedQuery.Proofs.Sql.Grammar
import NestedQuery.Proofs.Select.Precedence
import NestedQuery.Proofs.Mapping.Arguments
import NestedQuery.Proofs.Mapping.Growth
import NestedQuery.Proofs.Mapping.Simulation
import NestedQuery.Proofs.Select.Untyped
import NestedQuery.Proofs.Query.Arguments
import NestedQuery.Proofs.Graph.Indexing
import NestedQuery.Proofs.Select.Layout
import NestedQuery.Proofs.Sql.Outside
import NestedQuery.Proofs.Select.Grouped
import NestedQuery.Proofs.Mapping.Commas
import NestedQuery.Proofs.Select.Projection
import NestedQuery.Proofs.Mapping.Embedding
import NestedQuery.Proofs.Mapping.Hidden
import NestedQuery.Proofs.Mapping.Weakening
import NestedQuery.Proofs.Query.Insertion
import NestedQuery.Proofs.Select.Embedding
import NestedQuery.Proofs.Sql.Renumbering
import NestedQuery.Proofs.Select.Renumbering
import NestedQuery.Proofs.Select.Insertion
import NestedQuery.Proofs.Query.Pruning
import NestedQuery.Proofs.Expr.Renaming
import NestedQuery.Proofs.Mapping.Renaming
import NestedQuery.Proofs.Expr.Scoping
import NestedQuery.Proofs.Accumulator.Roles
import NestedQuery.Proofs.Accumulator.Marks
import NestedQuery.Proofs.Mapping.Qualification
import NestedQuery.Proofs.Mapping.Bindings
import NestedQuery.Proofs.Mapping.Registered
import NestedQuery.Proofs.Mapping.Invariants
import NestedQuery.Proofs.Query.Invariants
import NestedQuery.Proofs.Sql.Uses
import NestedQuery.Proofs.Select.Uses
import NestedQuery.Proofs.Query.Binding
import NestedQuery.Proofs.Number.Finite
import NestedQuery.Proofs.Value.Typing
import NestedQuery.Proofs.Expr.Inlining
import NestedQuery.Proofs.Mapping.Inference
import NestedQuery.Proofs.Mapping.Typing
import NestedQuery.Proofs.Query.Typing
import NestedQuery.Proofs.Sql.Temporaries
import NestedQuery.Proofs.Query.Temporaries
import NestedQuery.Proofs.Query.Execution
import NestedQuery.Proofs.Graph.Shape
import NestedQuery.Proofs.Expr.Construction
import NestedQuery.Proofs.Mapping.Scalars
import NestedQuery.Proofs.Mapping.Constructions
import NestedQuery.Proofs.Graph.Flat
import NestedQuery.Proofs.Query.Shapes
import NestedQuery.Proofs.Sql.Occurrences
import NestedQuery.Proofs.Select.Guards
import NestedQuery.Proofs.Select.Least
import NestedQuery.Proofs.Sql.Numbering
import NestedQuery.Proofs.Query.Lists
import NestedQuery.Proofs.Value.Wire
import NestedQuery.Proofs.Graph.Trace
import NestedQuery.Proofs.Graph.Append
import NestedQuery.Proofs.Graph.Strays
import NestedQuery.Proofs.Graph.Paths
import NestedQuery.Proofs.Expr.Kleene
import NestedQuery.Proofs.Mapping.Wholes
import NestedQuery.Proofs.Mapping.Collapse
import NestedQuery.Proofs.Mapping.Shift
import NestedQuery.Proofs.Mapping.Relocation
import NestedQuery.Proofs.Mapping.Members
import NestedQuery.Proofs.Expr.Replacement
import NestedQuery.Proofs.Mapping.Replacement
import NestedQuery.Proofs.Mapping.Lists
import NestedQuery.Proofs.Query.Replacement
import NestedQuery.Proofs.Query.Membership
import NestedQuery.Proofs.Value.Arguments
import NestedQuery.Proofs.Expr.Arithmetic
import NestedQuery.Proofs.Expr.Parts
import NestedQuery.Proofs.Mapping.Breadcrumbs
import NestedQuery.Proofs.Accumulator.Traits
import NestedQuery.Proofs.Sql.Expressions
import NestedQuery.Proofs.Mapping.Traits
import NestedQuery.Proofs.Query.Expressions
import NestedQuery.Proofs.Accumulator.Classification
import NestedQuery.Proofs.Mapping.RowIds
import NestedQuery.Proofs.Graph.Links
import NestedQuery.Proofs.Graph.Messages
import NestedQuery.Proofs.Mapping.Opened
import NestedQuery.Proofs.Mapping.Operators
import NestedQuery.Proofs.Mapping.Chains
import NestedQuery.Proofs.Mapping.Placing
import NestedQuery.Proofs.Mapping.Recompilation
