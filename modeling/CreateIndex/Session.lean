import CreateIndex.Descriptor.Basic
import CreateIndex.Statement.Cursor

/-!
# Cascades and sessions

When a table or a column is renamed or dropped, the index statements of the schema have to
follow.  Each change is defined on descriptors first.  A statement that changes is read and
written anew, so it comes out in canonical form; a statement that does not mention the column
comes out as it was typed.
-/

namespace CreateIndex

namespace Column

def rename (old new : String) (column : Column) : Column :=
  if column.name == old then { column with name := new } else column

end Column

namespace Descriptor

/-- The same index on another table. -/
def onTable (table : String) (descriptor : Descriptor) : Descriptor :=
  { descriptor with table }

/-- The same index after a column was renamed.  Only the column list follows. -/
def renameColumn (old new : String) (descriptor : Descriptor) : Descriptor :=
  { descriptor with columns := descriptor.columns.map (Column.rename old new) }

end Descriptor

/-- The canonical statement with the meaning of a given one. -/
def canonicalize (statement : String) : String :=
  (Descriptor.ofStatement statement).toStatement

def renameTable (table : String) (statement : String) : String :=
  ((Descriptor.ofStatement statement).onTable table).toStatement

/-- Renames a column in the column list of a statement.  The statement stays as it was
typed if the names are equal or no entry has the old one. -/
def renameColumn (old new : String) (statement : String) : String :=
  let descriptor := Descriptor.ofStatement statement
  if old ≠ new ∧ descriptor.references old then
    (descriptor.renameColumn old new).toStatement
  else statement

def references (statement column : String) : Bool :=
  (Descriptor.ofStatement statement).references column

/-- The statements that do not depend on a dropped column. -/
def dropColumn (column : String) (statements : List String) : List String :=
  statements.filter fun statement => !references statement column

/-! ## Sessions

The history of the index statements of a schema: a list of statements, and the changes that befall
it one after the other.
-/

inductive Change where
  | renameTable (table : String)
  | renameColumn (old new : String)
  | dropColumn (column : String)
  /-- Every statement is written in canonical form. -/
  | canonicalize
  | add (statement : String)

def Change.apply (statements : List String) : Change → List String
  | .renameTable table => statements.map (CreateIndex.renameTable table)
  | .renameColumn old new => statements.map (CreateIndex.renameColumn old new)
  | .dropColumn column => CreateIndex.dropColumn column statements
  | .canonicalize => statements.map CreateIndex.canonicalize
  | .add statement => statements ++ [statement]

def replay (statements : List String) (changes : List Change) : List String :=
  changes.foldl Change.apply statements

end CreateIndex
