import CreateIndex.Lexeme.Scan
import CreateIndex.Statement.Head
import CreateIndex.Statement.Reading
import CreateIndex.Text.Basic

/-!
# Reading statements

`Descriptor.ofStatement` gives the descriptor of a statement.  It is total: a text that is no
`CREATE INDEX` statement has the blank descriptor.  Underneath, a cursor stands somewhere in the
lexemes of the head; reading goes on from where it stopped.
-/

namespace CreateIndex

namespace Statement

open Text

/-! ## Outlines

The outline of a statement is what its head says before any of it is interpreted: which
optional keywords occur, the parts of the two names, and the lexemes of each entry of the
column list.
-/

/-- The head of a statement, cut into its parts. -/
structure Outline where
  unique : Bool
  optional : Bool
  /-- The parts of the name of the index. -/
  name : List (List Char)
  /-- The parts of the name of the table. -/
  table : List (List Char)
  /-- The entries of the column list. -/
  entries : List (List Lexeme)

/-- Takes a column list and gives its entries.  Nothing is left of a list that is never
closed. -/
def columnList : Reading (List (List Lexeme)) := do
  Reading.token .leftParen
  fun lexemes =>
    match cutEntries 0 lexemes with
    | some (entries, left) => (some entries, left)
    | none => (none, [])

def ifNotExists : Reading Bool := do
  let optional ← Reading.keyword? "IF"
  if optional then
    Reading.keyword "NOT"
    Reading.keyword "EXISTS"
  return optional

def outline : Reading Outline := do
  Reading.keyword "CREATE"
  let unique ← Reading.keyword? "UNIQUE"
  Reading.keyword "INDEX"
  let optional ← ifNotExists
  let name ← Reading.nameParts
  Reading.keyword "ON"
  let table ← Reading.nameParts
  let entries ← columnList
  Reading.ended
  return { unique, optional, name, table, entries }

/-- The descriptor of a statement with the given outline and predicate.  The name of the
index is split at its last dot, and entries without a name are left out. -/
def Outline.descriptor (outline : Outline) (predicate : List Char) : Descriptor :=
  let (schema, index) := splitQualifier (joinDotted outline.name)
  { unique := outline.unique
    optional := outline.optional
    schema := String.ofList schema
    index := String.ofList index
    table := String.ofList (joinDotted outline.table)
    columns := outline.entries.filterMap column?
    predicate := String.ofList predicate }

/-! ## Cursors -/

/-- A place in the head of a statement. -/
structure Cursor where
  /-- The lexemes of the head that have not been taken. -/
  pending : List Lexeme
  /-- What follows the head. -/
  trailer : List Char

namespace Cursor

/-- The cursor at the start of a text, unless a quote or comment in the head of the text
is never closed. -/
def ofText? (text : String) : Option Cursor :=
  let (head, trailer) := split (Text.squeeze text.toList)
  (Lexeme.lex head).map fun lexemes => ⟨lexemes, trailer⟩

/-- Reads a statement from where the cursor stands, and gives the cursor where reading
stopped. -/
def next (cursor : Cursor) : Option Descriptor × Cursor :=
  let (read, pending) := outline cursor.pending
  let descriptor :=
    read.bind fun outline => (predicate? cursor.trailer).map outline.descriptor
  (descriptor, { cursor with pending })

end Cursor

end Statement

/-- The descriptor of a statement, blank if the text is no `CREATE INDEX` statement. -/
def Descriptor.ofStatement (text : String) : Descriptor :=
  ((Statement.Cursor.ofText? text).bind fun cursor => cursor.next.1).getD blank

end CreateIndex
