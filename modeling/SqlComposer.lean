import SqlComposer.Compose.Command
import SqlComposer.Json.Reader
import SqlComposer.Record.Insertion
import SqlComposer.Record.Naming
import SqlComposer.Schema.Maintenance
import SqlComposer.Schema.Table
import SqlComposer.Sql.Equality
import SqlComposer.Proofs.Expression.Parts
import SqlComposer.Proofs.Expression.Conditions
import SqlComposer.Proofs.Writing.Layout
import SqlComposer.Proofs.Binding.Inline
import SqlComposer.Proofs.Binding.Fragment
import SqlComposer.Proofs.Binding.Placeholder
import SqlComposer.Proofs.Writing.Slots
import SqlComposer.Proofs.Binding.Secrecy
import SqlComposer.Proofs.Writing.Order
import SqlComposer.Proofs.Writing.Faults
import SqlComposer.Proofs.Writing.Lexemes
import SqlComposer.Proofs.Writing.Names
import SqlComposer.Proofs.Condition.Reading
import SqlComposer.Proofs.Condition.Tree
import SqlComposer.Proofs.Paging.Table
import SqlComposer.Proofs.Paging.Keyset
import SqlComposer.Proofs.Paging.Listing
import SqlComposer.Proofs.Record.Preorder
import SqlComposer.Proofs.Record.Growth
import SqlComposer.Proofs.Record.Queue
import SqlComposer.Proofs.Record.Links
import SqlComposer.Proofs.Record.Contest
import SqlComposer.Proofs.Record.Columns
import SqlComposer.Proofs.Condition.Clause
import SqlComposer.Proofs.Paging.Cursor
import SqlComposer.Proofs.Record.Routes
import SqlComposer.Proofs.Record.Values
import SqlComposer.Proofs.Schema.Definitions
import SqlComposer.Proofs.Record.Rows
import SqlComposer.Proofs.Record.Documents
import SqlComposer.Proofs.Schema.Generated
import SqlComposer.Proofs.Schema.Alteration
import SqlComposer.Proofs.Schema.ColumnNames
import SqlComposer.Proofs.Schema.Sources
import SqlComposer.Proofs.Schema.Renaming
import SqlComposer.Proofs.Record.Promotion
import SqlComposer.Proofs.Record.Shadowing
import SqlComposer.Proofs.Record.LookUp
import SqlComposer.Proofs.Record.Positions
import SqlComposer.Proofs.Record.Typing
import SqlComposer.Proofs.Record.Batches
import SqlComposer.Proofs.Record.Recursion
import SqlComposer.Proofs.Schema.ValueKinds
import SqlComposer.Proofs.Condition.Words
import SqlComposer.Proofs.Paging.Conjunction
import SqlComposer.Proofs.Schema.ColumnRules
import SqlComposer.Proofs.Schema.Literals
import SqlComposer.Proofs.Record.Wrapping
import SqlComposer.Proofs.Binding.Subqueries
import SqlComposer.Proofs.Schema.IndexNames
import SqlComposer.Proofs.Record.Sharing
import SqlComposer.Proofs.Calendar.Gregorian
import SqlComposer.Proofs.Calendar.Instants
import SqlComposer.Proofs.Grammar.Tree
import SqlComposer.Proofs.Grammar.Reader
import SqlComposer.Proofs.Grammar.Symbols
import SqlComposer.Proofs.Grammar.Operands
import SqlComposer.Proofs.Record.Tags
import SqlComposer.Proofs.Record.Words
import SqlComposer.Proofs.Record.Cells
import SqlComposer.Proofs.Record.Reordering
import SqlComposer.Proofs.Record.Paths
import SqlComposer.Proofs.Record.Store
import SqlComposer.Proofs.Writing.TableNames
import SqlComposer.Proofs.Schema.IndexDigests
