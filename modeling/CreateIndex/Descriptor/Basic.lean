import CreateIndex.Lexeme.Body
import CreateIndex.Text.Basic
import CreateIndex.Text.Unicode

/-!
# Index descriptors

The structured form of one `CREATE INDEX` statement, and the statement that is written for it.  A
field that the statement does not give is empty or `false`; the descriptor in which all are is
the blank one.
-/

namespace CreateIndex

open Lexeme Text

/-- An entry of the column list. -/
structure Column where
  /-- The name of a column, or the text of an expression. -/
  name : String := ""
  /-- The collation, empty if none is given. -/
  collate : String := ""
  /-- The sort order, empty if none is given. -/
  sort : String := ""
  /-- Whether `name` is the text of an expression. -/
  isExpression : Bool := false
  deriving DecidableEq

/-- The structured form of a `CREATE INDEX` statement. -/
structure Descriptor where
  /-- Whether the index is `UNIQUE`. -/
  unique : Bool := false
  /-- Whether the index is created only `IF NOT EXISTS`. -/
  optional : Bool := false
  /-- The schema that qualifies the name of the index. -/
  schema : String := ""
  index : String := ""
  /-- The name of the table, with dots between its parts. -/
  table : String := ""
  /-- The entries of the column list, in key order. -/
  columns : List Column := []
  /-- The text of the `WHERE` clause, without the keyword. -/
  predicate : String := ""
  deriving DecidableEq

namespace Descriptor

/-- The descriptor of a text that is no `CREATE INDEX` statement. -/
def blank : Descriptor := {}

def isBlank (descriptor : Descriptor) : Bool :=
  descriptor == blank

/-- The names of the column list in key order. -/
def columnNames (descriptor : Descriptor) : List String :=
  descriptor.columns.map Column.name

def references (descriptor : Descriptor) (name : String) : Bool :=
  descriptor.columns.any (·.name == name)

end Descriptor

/-! ## Canonical statements

One line, keywords in upper case, names between backticks.  Quoting escapes nothing, so a backtick
inside a name ends it early.
-/

def quoteName (name : List Char) : List Char :=
  backtick :: name ++ [backtick]

def quoteDotted (name : List Char) : List Char :=
  joinDotted ((dottedParts name).map quoteName)

/-- `text` after `start`, or nothing if `text` is empty. -/
def clause (start : String) (text : List Char) : List Char :=
  if text = [] then [] else start.toList ++ text

def Column.toEntry (column : Column) : List Char :=
  let name := column.name.toList
  (if column.isExpression then name else quoteName name) ++
    clause " COLLATE " column.collate.toList ++ clause " " (upper column.sort.toList)

namespace Descriptor

def qualifiedName (descriptor : Descriptor) : List Char :=
  let schema := descriptor.schema.toList
  (if schema = [] then [] else quoteName schema ++ ['.']) ++ quoteName descriptor.index.toList

def statementChars (descriptor : Descriptor) : List Char :=
  "CREATE ".toList ++
    (if descriptor.unique then "UNIQUE ".toList else []) ++
    "INDEX ".toList ++
    (if descriptor.optional then "IF NOT EXISTS ".toList else []) ++
    descriptor.qualifiedName ++
    " ON ".toList ++
    quoteDotted descriptor.table.toList ++
    " (".toList ++
    ", ".toList.intercalate (descriptor.columns.map Column.toEntry) ++
    [')'] ++
    clause " WHERE " descriptor.predicate.toList

/-- The canonical statement of a descriptor.  Empty names and an empty column list give a
complete statement too. -/
def toStatement (descriptor : Descriptor) : String :=
  String.ofList descriptor.statementChars

end Descriptor

end CreateIndex
