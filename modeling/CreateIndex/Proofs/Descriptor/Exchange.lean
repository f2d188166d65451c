import CreateIndex.Descriptor.Json
import CreateIndex.Proofs.Json.Objects

/-!
# Descriptors through JSON

Every JSON object that gives the fields of a descriptor is read as the descriptor, whatever its
layout is and whatever else it holds; and a descriptor is written as one.  But JSON does not tell
an expression from a name, so what is read has names only.
-/

namespace CreateIndex

open Json

/-- The entry as it comes back from JSON, where every entry is a name. -/
def Column.asName (column : Column) : Column :=
  { column with isExpression := false }

def Descriptor.asNames (descriptor : Descriptor) : Descriptor :=
  { descriptor with columns := descriptor.columns.map Column.asName }

/-! ## Columns -/

namespace Column

def fieldTexts : List (FieldText Column) :=
  [.of "name" StringText name "", .of "collate" StringText collate "",
   .of "sort" StringText sort ""]

/-- The entry with the given fields only. -/
def only (column : Column) (given : List String) : Column where
  name := ifGiven given "name" column.name ""
  collate := ifGiven given "collate" column.collate ""
  sort := ifGiven given "sort" column.sort ""

/-- After any members of an object, in any order, the record has the fields that
they give and the defaults of the others. -/
theorem readAs (column : Column) : ReadAs fieldTexts jsonFields column column.only where
  names_eq := rfl
  field := by
    intro field hfield written hgives
    simp only [fieldTexts, List.mem_cons, List.not_mem_nil, or_false] at hfield
    rcases hfield with rfl | rfl | rfl
    · apply exists_change_of_reads rfl (StringText.reads_text hgives)
      simp [only, FieldText.of, ifGiven_concat_of_ne]
    · apply exists_change_of_reads rfl (StringText.reads_text hgives)
      simp [only, FieldText.of, ifGiven_concat_of_ne]
    · apply exists_change_of_reads rfl (StringText.reads_text hgives)
      simp [only, FieldText.of, ifGiven_concat_of_ne]
  unknown := by
    intro name hname given
    simp only [fieldTexts, FieldText.of, List.forall_mem_cons] at hname
    simp [only, ifGiven_concat_of_ne, hname]

/-- If what is left out has its default, the fields that are given make up the
whole entry. -/
theorem only_eq_asName {column : Column} {given : List String}
    (hdefault : ∀ field ∈ fieldTexts, field.name ∉ given → field.IsDefault column) :
    column.only given = column.asName := by
  simp only [fieldTexts, FieldText.of, List.forall_mem_cons] at hdefault
  obtain ⟨hname, hcollate, hsort, -⟩ := hdefault
  rw [only, ifGiven_of_default hname, ifGiven_of_default hcollate, ifGiven_of_default hsort]
  rfl

/-- An entry is read from every object that gives it, as a name: the object has
no field that marks an expression. -/
theorem reads_of_recordText {column : Column} {text : List Char}
    (htext : RecordText fieldTexts column text) : Reads ofJson text column.asName :=
  htext.reads_record column.readAs fun _ => only_eq_asName

/-- What is written for an entry is an object that gives it. -/
theorem recordText_toJson (depth : Nat) (column : Column) :
    RecordText fieldTexts column (column.toJson depth) := by
  have hname := stringText_writeText column.name
  have hcollate := stringText_writeText column.collate
  have hsort := stringText_writeText column.sort
  exact .of_forall₂ (objectText_writeObject depth _)
    (.cons ⟨rfl, hname⟩ (.cons ⟨rfl, hcollate⟩ (.cons ⟨rfl, hsort⟩ .nil))) (by decide)

end Column

/-! ## Descriptors -/

namespace Descriptor

def fieldTexts : List (FieldText Descriptor) :=
  [.of "unique" FlagText unique false, .of "optional" FlagText optional false,
   .of "schemaName" StringText schema "", .of "indexName" StringText index "",
   .of "tableName" StringText table "",
   .of "columns" (ListOf (RecordText Column.fieldTexts)) columns [],
   .of "where" StringText predicate ""]

/-- The descriptor with the given fields only, as it comes back from JSON. -/
def only (descriptor : Descriptor) (given : List String) : Descriptor where
  unique := ifGiven given "unique" descriptor.unique false
  optional := ifGiven given "optional" descriptor.optional false
  schema := ifGiven given "schemaName" descriptor.schema ""
  index := ifGiven given "indexName" descriptor.index ""
  table := ifGiven given "tableName" descriptor.table ""
  columns := ifGiven given "columns" (descriptor.columns.map Column.asName) []
  predicate := ifGiven given "where" descriptor.predicate ""

theorem reads_columns {columns : List Column} {text : List Char}
    (htext : ListOf (RecordText Column.fieldTexts) columns text) :
    Reads (list Column.ofJson) text (columns.map Column.asName) := by
  obtain ⟨hlist, hitems⟩ := htext
  apply hlist.reads_list
  rw [List.forall₂_map_right_iff]
  exact hitems.flip.imp fun _ _ hitem => Column.reads_of_recordText hitem

theorem readAs (descriptor : Descriptor) :
    ReadAs fieldTexts jsonFields descriptor descriptor.only where
  names_eq := rfl
  field := by
    intro field hfield written hgives
    simp only [fieldTexts, List.mem_cons, List.not_mem_nil, or_false] at hfield
    rcases hfield with rfl | rfl | rfl | rfl | rfl | rfl | rfl
    · apply exists_change_of_reads rfl (FlagText.reads_flag hgives)
      simp [only, FieldText.of, ifGiven_concat_of_ne]
    · apply exists_change_of_reads rfl (FlagText.reads_flag hgives)
      simp [only, FieldText.of, ifGiven_concat_of_ne]
    · apply exists_change_of_reads rfl (StringText.reads_text hgives)
      simp [only, FieldText.of, ifGiven_concat_of_ne]
    · apply exists_change_of_reads rfl (StringText.reads_text hgives)
      simp [only, FieldText.of, ifGiven_concat_of_ne]
    · apply exists_change_of_reads rfl (StringText.reads_text hgives)
      simp [only, FieldText.of, ifGiven_concat_of_ne]
    · apply exists_change_of_reads rfl (reads_columns hgives)
      simp [only, FieldText.of, ifGiven_concat_of_ne]
    · apply exists_change_of_reads rfl (StringText.reads_text hgives)
      simp [only, FieldText.of, ifGiven_concat_of_ne]
  unknown := by
    intro name hname given
    simp only [fieldTexts, FieldText.of, List.forall_mem_cons] at hname
    simp [only, ifGiven_concat_of_ne, hname]

theorem only_eq_asNames {descriptor : Descriptor} {given : List String}
    (hdefault : ∀ field ∈ fieldTexts, field.name ∉ given → field.IsDefault descriptor) :
    descriptor.only given = descriptor.asNames := by
  simp only [fieldTexts, FieldText.of, List.forall_mem_cons] at hdefault
  obtain ⟨hunique, hoptional, hschema, hindex, htable, hcolumns, hpredicate, -⟩ := hdefault
  have hcolumns : "columns" ∉ given → descriptor.columns.map Column.asName = [] := by
    simpa using hcolumns
  rw [only, ifGiven_of_default hunique, ifGiven_of_default hoptional, ifGiven_of_default hschema,
    ifGiven_of_default hindex, ifGiven_of_default htable, ifGiven_of_default hcolumns,
    ifGiven_of_default hpredicate]
  rfl

/-- A descriptor is read from every object that gives it, with names in place of
expressions. -/
theorem reads_of_recordText {descriptor : Descriptor} {text : List Char}
    (htext : RecordText fieldTexts descriptor text) : Reads ofJson text descriptor.asNames :=
  htext.reads_record descriptor.readAs fun _ => only_eq_asNames

theorem listOf_writeList (depth : Nat) (columns : List Column) :
    ListOf (RecordText Column.fieldTexts) columns (writeList Column.toJson depth columns) := by
  refine .mk (listText_writeList Column.toJson depth columns) ?_
  rw [List.forall₂_map_right_iff]
  exact List.forall₂_same.mpr fun column _ => column.recordText_toJson (depth + 1)

theorem recordText_toJson (depth : Nat) (descriptor : Descriptor) :
    RecordText fieldTexts descriptor (descriptor.toJson depth) := by
  have hunique := flagText_writeFlag descriptor.unique
  have hoptional := flagText_writeFlag descriptor.optional
  have hschema := stringText_writeText descriptor.schema
  have hindex := stringText_writeText descriptor.index
  have htable := stringText_writeText descriptor.table
  have hcolumns := listOf_writeList (depth + 1) descriptor.columns
  have hpredicate := stringText_writeText descriptor.predicate
  exact .of_forall₂ (objectText_writeObject depth _)
    (.cons ⟨rfl, hunique⟩ (.cons ⟨rfl, hoptional⟩ (.cons ⟨rfl, hschema⟩ (.cons ⟨rfl, hindex⟩
      (.cons ⟨rfl, htable⟩ (.cons ⟨rfl, hcolumns⟩ (.cons ⟨rfl, hpredicate⟩ .nil)))))))
    (by decide)

/-- A descriptor that is written is read again, up to its expressions, at
whatever depth it was written. -/
theorem reads_toJson (depth : Nat) (descriptor : Descriptor) :
    Reads ofJson (descriptor.toJson depth) descriptor.asNames :=
  reads_of_recordText (descriptor.recordText_toJson depth)

end Descriptor

end CreateIndex
