import CreateIndex.Proofs.Descriptor.Cascade

/-!
# Quoted collations

A collation may be typed in quotes, but the canonical entry writes it without.  A collation
that is a bare word, and that is taken for no sort order, comes back all the same; then the
statement keeps its columns through every rename.  Any other content is read as something
else, and the entry as a whole becomes an expression.
-/

namespace CreateIndex

open Text Lexeme Statement

instance (word : List Char) : Decidable (IsBareWord word) :=
  decidable_of_iff
    (word ≠ [] ∧ (∀ c ∈ word.head?, isWordStart c) ∧ (∀ c ∈ word, isWordPart c) ∧
      ∀ c ∈ word, ¬Text.isBlank c)
    ⟨fun ⟨ne_nil, start, part, not_blank⟩ => ⟨ne_nil, start, part, not_blank⟩,
     fun ⟨ne_nil, start, part, not_blank⟩ => ⟨ne_nil, start, part, not_blank⟩⟩

instance (entry : List Lexeme) : Decidable (CollationFits entry) :=
  inferInstanceAs
    (Decidable (∀ collation ∈ takenCollation? entry, ∀ name ∈ collation.identifier?,
      IsBareWord name ∧ ((peelSort (trimBlanks entry)).2 = [] → ¬IsSort (bare name))))

/-- A plain statement whose collations, typed in quotes or not, can be written without. -/
structure Unquotable (statement : String) : Prop extends PlainStatement statement where
  collations : ∀ cursor ∈ Cursor.ofText? statement,
    ∀ outlined ∈ (outline cursor.pending).1, ∀ entry ∈ outlined.entries, CollationFits entry

instance (statement : String) : Decidable (Unquotable statement) :=
  decidable_of_iff
    (PlainStatement statement ∧
      ∀ cursor ∈ Cursor.ofText? statement, ∀ outlined ∈ (outline cursor.pending).1,
        ∀ entry ∈ outlined.entries, CollationFits entry)
    ⟨fun ⟨plain, collations⟩ => ⟨plain, collations⟩,
     fun unquotable => ⟨unquotable.toPlainStatement, unquotable.collations⟩⟩

variable {statement table old new : String}

/-- Collations that need no quotes are written without, so their quotes do not
matter for what is read again. -/
theorem Unquotable.settled (hstatement : Unquotable statement) :
    (Descriptor.ofStatement statement).Settled := by
  apply hstatement.toPlainStatement.settled
  intro cursor hcursor outlined houtlined entry hentry _ _ _
  exact hstatement.collations cursor hcursor outlined houtlined entry hentry

/-- The columns of a statement whose collations need no quotes survive rewriting: the canonical
form and the statement on another table have the same columns, and the rename of a column
changes its name alone. -/
theorem Unquotable.columns_eq (hstatement : Unquotable statement) :
    (Descriptor.ofStatement (canonicalize statement)).columns =
        (Descriptor.ofStatement statement).columns ∧
      (∀ table : String, IsQuotable table.toList →
        (Descriptor.ofStatement (renameTable table statement)).columns =
          (Descriptor.ofStatement statement).columns) ∧
      ∀ old new : String, IsQuotable new.toList → new ≠ "" →
        (∀ column ∈ (Descriptor.ofStatement statement).columns,
          column.isExpression = true → column.name ≠ old) →
        (Descriptor.ofStatement (renameColumn old new statement)).columns =
          (Descriptor.ofStatement statement).columns.map (Column.rename old new) := by
  refine ⟨?_, ?_, ?_⟩
  · exact congrArg Descriptor.columns hstatement.settled.ofStatement_toStatement
  · intro table htable
    rw [ofStatement_renameTable hstatement.settled htable]
    rfl
  · intro old new hnew hne hplain
    rw [ofStatement_renameColumn hstatement.settled hnew hne hplain]
    rfl

def quotedCollations : String :=
  "CREATE INDEX i ON t (a COLLATE \"nocase\" Desc, b COLLATE [rtrim], " ++
    "lower(c) COLLATE 'my_order', d COLLATE \x60asc\x60 ASC)"

theorem columns_eq_quotedCollations :
    Unquotable quotedCollations ∧
      ((Descriptor.ofStatement (canonicalize quotedCollations)).columns =
          (Descriptor.ofStatement quotedCollations).columns ∧
        (∀ table : String, IsQuotable table.toList →
          (Descriptor.ofStatement (renameTable table quotedCollations)).columns =
            (Descriptor.ofStatement quotedCollations).columns) ∧
        ∀ old new : String, IsQuotable new.toList → new ≠ "" →
          (∀ column ∈ (Descriptor.ofStatement quotedCollations).columns,
            column.isExpression = true → column.name ≠ old) →
          (Descriptor.ofStatement (renameColumn old new quotedCollations)).columns =
            (Descriptor.ofStatement quotedCollations).columns.map (Column.rename old new)) ∧
      (Descriptor.ofStatement quotedCollations).columns.map Column.collate =
        ["nocase", "rtrim", "my_order", "asc"] := by
  have hstatement : Unquotable quotedCollations := by decide +kernel
  exact ⟨hstatement, hstatement.columns_eq, by decide +kernel⟩

/-- A collation of two words: all that is asked of the rest of the statement
holds, and the canonical form has an expression in the place of the column. -/
theorem columns_ne_twoWords :
    let statement := "CREATE INDEX i ON t (a COLLATE \"my order\")"
    (∀ lexemes ∈ lex (split (squeeze statement.toList)).1,
        ∀ lexeme ∈ lexemes, lexeme.IsPlain) ∧
      (Descriptor.ofStatement statement).columns = [{ name := "a", collate := "my order" }] ∧
      (Descriptor.ofStatement (canonicalize statement)).columns =
        [{ name := "\x60a\x60 COLLATE my order", isExpression := true }] := by
  decide +kernel

end CreateIndex
