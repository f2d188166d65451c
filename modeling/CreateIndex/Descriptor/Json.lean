import CreateIndex.Descriptor.Basic
import CreateIndex.Json.Value

/-!
# Descriptors as JSON

The form in which descriptors are exchanged.  It does not say which entries are
expressions, so an expression that has been through it is a name.
-/

namespace CreateIndex

open Json

namespace Column

/-- The fields of an entry of the column list. -/
def jsonFields : List (RecordField Column) :=
  [.of "name" text fun name column => { column with name },
   .of "collate" text fun collate column => { column with collate },
   .of "sort" text fun sort column => { column with sort }]

def ofJson : Reader Column :=
  Json.record jsonFields {}

def toJson (depth : Nat) (column : Column) : List Char :=
  writeObject depth
    [("name", writeText column.name), ("collate", writeText column.collate),
     ("sort", writeText column.sort)]

end Column

namespace Descriptor

/-- The fields of a descriptor. -/
def jsonFields : List (RecordField Descriptor) :=
  [.of "unique" flag fun unique descriptor => { descriptor with unique },
   .of "optional" flag fun optional descriptor => { descriptor with optional },
   .of "schemaName" text fun schema descriptor => { descriptor with schema },
   .of "indexName" text fun index descriptor => { descriptor with index },
   .of "tableName" text fun table descriptor => { descriptor with table },
   .of "columns" (list Column.ofJson) fun columns descriptor => { descriptor with columns },
   .of "where" text fun predicate descriptor => { descriptor with predicate }]

def ofJson : Reader Descriptor :=
  Json.record jsonFields blank

def toJson (depth : Nat) (descriptor : Descriptor) : List Char :=
  writeObject depth
    [("unique", writeFlag descriptor.unique), ("optional", writeFlag descriptor.optional),
     ("schemaName", writeText descriptor.schema), ("indexName", writeText descriptor.index),
     ("tableName", writeText descriptor.table),
     ("columns", writeList Column.toJson (depth + 1) descriptor.columns),
     ("where", writeText descriptor.predicate)]

end Descriptor

end CreateIndex
