import CreateIndex.Command
import CreateIndex.CommandLine
import CreateIndex.Descriptor.Basic
import CreateIndex.Descriptor.Json
import CreateIndex.Input
import CreateIndex.Json.Number
import CreateIndex.Json.Reader
import CreateIndex.Json.Value
import CreateIndex.Lexeme.Body
import CreateIndex.Lexeme.Scan
import CreateIndex.Main
import CreateIndex.Proofs.Command.AnyLayout
import CreateIndex.Proofs.Command.Counts
import CreateIndex.Proofs.Command.ListMode
import CreateIndex.Proofs.Command.SecondTrip
import CreateIndex.Proofs.Descriptor.Cascade
import CreateIndex.Proofs.Descriptor.Columns
import CreateIndex.Proofs.Descriptor.Exchange
import CreateIndex.Proofs.Descriptor.NormalForm
import CreateIndex.Proofs.Descriptor.QuotedCollations
import CreateIndex.Proofs.Descriptor.RenamedExpressions
import CreateIndex.Proofs.Descriptor.Renames
import CreateIndex.Proofs.Descriptor.Settled
import CreateIndex.Proofs.Descriptor.Tame
import CreateIndex.Proofs.Descriptor.Writable
import CreateIndex.Proofs.Input.Encoders
import CreateIndex.Proofs.Input.Files
import CreateIndex.Proofs.Input.Routes
import CreateIndex.Proofs.Json.Grammar
import CreateIndex.Proofs.Json.Layouts
import CreateIndex.Proofs.Json.Numbers
import CreateIndex.Proofs.Json.Objects
import CreateIndex.Proofs.Json.PassedOver
import CreateIndex.Proofs.Json.Readers
import CreateIndex.Proofs.Json.Strings
import CreateIndex.Proofs.Lexeme.Bodies
import CreateIndex.Proofs.Lexeme.Marks
import CreateIndex.Proofs.Lexeme.Phrases
import CreateIndex.Proofs.Lexeme.Quiet
import CreateIndex.Proofs.Lexeme.Readable
import CreateIndex.Proofs.Lexeme.Rejoin
import CreateIndex.Proofs.Lexeme.Scans
import CreateIndex.Proofs.Lexeme.Separator
import CreateIndex.Proofs.Lexeme.Shown
import CreateIndex.Proofs.Lexeme.Spelling
import CreateIndex.Proofs.Lexeme.Words
import CreateIndex.Proofs.Session.Refinement
import CreateIndex.Proofs.Statement.Assembly
import CreateIndex.Proofs.Statement.Boundaries
import CreateIndex.Proofs.Statement.Calls
import CreateIndex.Proofs.Statement.Clauses
import CreateIndex.Proofs.Statement.ColumnLists
import CreateIndex.Proofs.Statement.Comments
import CreateIndex.Proofs.Statement.Compositions
import CreateIndex.Proofs.Statement.Cursors
import CreateIndex.Proofs.Statement.Entries
import CreateIndex.Proofs.Statement.Expressions
import CreateIndex.Proofs.Statement.Grammar
import CreateIndex.Proofs.Statement.Groups
import CreateIndex.Proofs.Statement.ListedColumns
import CreateIndex.Proofs.Statement.Nesting
import CreateIndex.Proofs.Statement.Outlines
import CreateIndex.Proofs.Statement.Passed
import CreateIndex.Proofs.Statement.Peeling
import CreateIndex.Proofs.Statement.Predicates
import CreateIndex.Proofs.Statement.QuotedText
import CreateIndex.Proofs.Statement.Readers
import CreateIndex.Proofs.Statement.Slices
import CreateIndex.Proofs.Statement.Spaced
import CreateIndex.Proofs.Statement.Taken
import CreateIndex.Proofs.Statement.Typed
import CreateIndex.Proofs.Statement.TypedReading
import CreateIndex.Proofs.Statement.Typing
import CreateIndex.Proofs.Text.Collapse
import CreateIndex.Proofs.Text.Dotted
import CreateIndex.Proofs.Text.Spacing
import CreateIndex.Proofs.Text.WordRuns
import CreateIndex.Session
import CreateIndex.Statement.Cursor
import CreateIndex.Statement.Head
import CreateIndex.Statement.Reading
import CreateIndex.Text.Basic
import CreateIndex.Text.Unicode
