import CreateIndex.Proofs.Descriptor.Tame

/-!
# Cascades and their meaning

A change to a statement means the same change to its descriptor.  For a settled descriptor
and a new name that fits between backticks the changed descriptor is settled again, so the
meaning of the written statement is not lost.
-/

namespace CreateIndex

open Text Lexeme Statement

namespace Column

variable {column : Column} {old new : String}

theorem rename_of_ne (hname : column.name ≠ old) : column.rename old new = column :=
  if_neg (by simpa using hname)

/-- A column under its new name, unless it is an expression with the text `old`:
the new name would be written in its place without quotes. -/
theorem Settled.rename (hsettled : column.Settled) (hnew : IsQuotable new.toList)
    (hne : new ≠ "") (hplain : column.isExpression = true → column.name ≠ old) :
    (column.rename old new).Settled := by
  by_cases hname : column.name = old
  · have hcolumn : column.isExpression = false := by
      by_contra hexpression
      exact hplain (by simpa using hexpression) hname
    have hrename : column.rename old new = { column with name := new } :=
      if_pos (beq_iff_eq.mpr hname)
    have hnewName : new.toList ≠ [] := by
      intro hnil
      exact hne (String.toList_inj.mp hnil)
    rw [hrename]
    exact settled_of_plain hcolumn hnewName hnew.backtick_not_mem hnew.evenlySpaced
      hsettled.collate hsettled.sort hsettled.not_isSort_collate
  · rw [rename_of_ne hname]
    exact hsettled

end Column

namespace Descriptor

variable {descriptor : Descriptor} {old new table : String}

theorem Settled.onTable (hsettled : descriptor.Settled) (htable : IsQuotable table.toList) :
    (descriptor.onTable table).Settled where
  schema := hsettled.schema
  index := hsettled.index
  index_no_dot := hsettled.index_no_dot
  table := htable
  columns := hsettled.columns
  predicate := hsettled.predicate

/-- A descriptor whose columns are settled under their new names is settled as a
whole, for a rename touches nothing else. -/
theorem Settled.renameColumn (hsettled : descriptor.Settled) (hnew : IsQuotable new.toList)
    (hne : new ≠ "")
    (hplain : ∀ column ∈ descriptor.columns, column.isExpression = true → column.name ≠ old) :
    (descriptor.renameColumn old new).Settled where
  schema := hsettled.schema
  index := hsettled.index
  index_no_dot := hsettled.index_no_dot
  table := hsettled.table
  columns column hcolumn := by
    obtain ⟨original, horiginal, rfl⟩ := List.mem_map.mp hcolumn
    exact (hsettled.columns original horiginal).rename hnew hne (hplain original horiginal)
  predicate := hsettled.predicate

/-- Where the rename leaves a statement as it was typed, it leaves the
descriptor too. -/
theorem renameColumn_of_not (hnot : ¬(old ≠ new ∧ descriptor.references old)) :
    descriptor.renameColumn old new = descriptor := by
  have hrename : ∀ column ∈ descriptor.columns, column.rename old new = column := by
    intro column hcolumn
    by_cases hname : column.name = old
    · have hreferences : descriptor.references old :=
        List.any_eq_true.mpr ⟨column, hcolumn, beq_iff_eq.mpr hname⟩
      have heq : old = new := by
        by_contra hne
        exact hnot ⟨hne, hreferences⟩
      subst heq
      simp [Column.rename, hname.symm]
    · exact Column.rename_of_ne hname
  have hcolumns : descriptor.columns.map (Column.rename old new) = descriptor.columns :=
    (List.map_congr_left hrename).trans (List.map_id _)
  rw [Descriptor.renameColumn, hcolumns]

end Descriptor

/-! ## Changes to one statement -/

variable {statement table old new : String}

/-- Pointing a statement at a table and pointing its descriptor at the table are
one and the same. -/
theorem ofStatement_renameTable (hsettled : (Descriptor.ofStatement statement).Settled)
    (htable : IsQuotable table.toList) :
    Descriptor.ofStatement (renameTable table statement) =
      (Descriptor.ofStatement statement).onTable table :=
  (hsettled.onTable htable).ofStatement_toStatement

/-- Renaming in a statement is renaming in its descriptor, both where the
statement is rewritten and where it is left as it was typed. -/
theorem ofStatement_renameColumn (hsettled : (Descriptor.ofStatement statement).Settled)
    (hnew : IsQuotable new.toList) (hne : new ≠ "")
    (hplain : ∀ column ∈ (Descriptor.ofStatement statement).columns,
      column.isExpression = true → column.name ≠ old) :
    Descriptor.ofStatement (renameColumn old new statement) =
      (Descriptor.ofStatement statement).renameColumn old new := by
  rw [CreateIndex.renameColumn]
  split
  · exact (hsettled.renameColumn hnew hne hplain).ofStatement_toStatement
  · exact (Descriptor.renameColumn_of_not ‹_›).symm

end CreateIndex
