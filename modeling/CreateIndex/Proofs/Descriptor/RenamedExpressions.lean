import CreateIndex.Proofs.Descriptor.Renames

/-!
# Renames and expressions

A rename compares the old name with the text of each entry, and the text of an expression is
not told from a name.  So an expression that is spelled like the column gets the new name too,
and as an expression it gets it without quotes.  What is written is the same as if names alone
had been compared exactly where no expression is spelled like the old name.  Otherwise the two
statements have different lengths, or lengths that agree entry by entry and then an entry that
differs.
-/

namespace CreateIndex

open Text

namespace Column

variable {column : Column} {old new : String}

def isSpelled (text : String) (column : Column) : Bool :=
  column.isExpression && column.name == text

/-- The entry under its new name, if `old` is its name.  An expression has no
name, only a text, and so it stays. -/
def renameName (old new : String) (column : Column) : Column :=
  if column.isExpression then column else column.rename old new

theorem isSpelled_iff : column.isSpelled old ↔ column.isExpression = true ∧ column.name = old := by
  simp [isSpelled]

theorem not_isSpelled_iff :
    ¬column.isSpelled old ↔ (column.isExpression = true → column.name ≠ old) := by
  rw [isSpelled_iff, not_and]

/-- The two renames differ on expressions that are spelled like the old name,
and nowhere else. -/
theorem rename_eq_renameName (hnot : ¬column.isSpelled old) :
    column.rename old new = column.renameName old new := by
  rw [renameName]
  split
  · exact rename_of_ne (not_isSpelled_iff.mp hnot ‹_›)
  · rfl

def endings (column : Column) : List Char :=
  clause " COLLATE " column.collate.toList ++ clause " " (upper column.sort.toList)

theorem toEntry_of_isExpression (hexpression : column.isExpression = true) :
    column.toEntry = column.name.toList ++ column.endings := by
  simp [toEntry, endings, hexpression]

theorem toEntry_rename_of_isSpelled (hspelled : column.isSpelled old) :
    (column.rename old new).toEntry = new.toList ++ column.endings := by
  obtain ⟨hexpression, hname⟩ := isSpelled_iff.mp hspelled
  rw [rename_of_eq hname]
  exact toEntry_of_isExpression hexpression

theorem toEntry_renameName_of_isSpelled (hspelled : column.isSpelled old) :
    (column.renameName old new).toEntry = old.toList ++ column.endings := by
  obtain ⟨hexpression, rfl⟩ := isSpelled_iff.mp hspelled
  rw [renameName, if_pos hexpression]
  exact toEntry_of_isExpression hexpression

/-- An expression spelled like the old name is longer or shorter by what the
names differ in. -/
theorem length_toEntry_rename (hspelled : column.isSpelled old) (new : String) :
    (column.rename old new).toEntry.length + old.toList.length =
      (column.renameName old new).toEntry.length + new.toList.length := by
  rw [toEntry_rename_of_isSpelled hspelled, toEntry_renameName_of_isSpelled hspelled,
    List.length_append, List.length_append]
  omega

/-! ## Column lists -/

/-- The lists differ in length by what the expressions spelled like the old name
do. -/
theorem length_intercalate_rename (old new : String) (separator : List Char)
    (columns : List Column) :
    (separator.intercalate (columns.map fun column => (column.rename old new).toEntry)).length +
        columns.countP (isSpelled old) * old.toList.length =
      (separator.intercalate
          (columns.map fun column => (column.renameName old new).toEntry)).length +
        columns.countP (isSpelled old) * new.toList.length := by
  induction columns with
  | nil => simp
  | cons first columns ih =>
      simp only [List.map_cons, length_intercalate_cons, List.map_eq_nil_iff]
      by_cases hspelled : first.isSpelled old
      · have hfirst := length_toEntry_rename hspelled new
        rw [List.countP_cons_of_pos hspelled, Nat.add_mul, Nat.add_mul]
        omega
      · rw [List.countP_cons_of_neg hspelled, rename_eq_renameName hspelled]
        omega

/-- The lists are equal only if no expression is spelled like the old name:
equal lengths leave names of the same length, and then the entries themselves
are equal. -/
theorem not_isSpelled_of_intercalate_eq {separator : List Char} {columns : List Column}
    (hne : old ≠ new)
    (heq : separator.intercalate (columns.map fun column => (column.rename old new).toEntry) =
      separator.intercalate (columns.map fun column => (column.renameName old new).toEntry)) :
    ∀ column ∈ columns, ¬column.isSpelled old := by
  intro column hcolumn hspelled
  have hcount : 0 < columns.countP (isSpelled old) :=
    List.countP_pos_iff.mpr ⟨column, hcolumn, hspelled⟩
  have hlengths : old.toList.length = new.toList.length := by
    have hlists := length_intercalate_rename old new separator columns
    rw [heq] at hlists
    exact Nat.eq_of_mul_eq_mul_left hcount (Nat.add_left_cancel hlists)
  have hentries := eq_of_intercalate_eq (fun other _ => ?_) heq column hcolumn
  · rw [toEntry_rename_of_isSpelled hspelled, toEntry_renameName_of_isSpelled hspelled] at hentries
    exact hne (String.toList_inj.mp (List.append_cancel_right hentries).symm)
  · by_cases hother : other.isSpelled old
    · have hlength := length_toEntry_rename hother new
      omega
    · rw [rename_eq_renameName hother]

end Column

namespace Descriptor

variable {descriptor : Descriptor} {old new : String}

/-- The same index after a column was renamed, with every expression as it was. -/
def renameNames (old new : String) (descriptor : Descriptor) : Descriptor :=
  { descriptor with columns := descriptor.columns.map (Column.renameName old new) }

/-- Whatever the columns are, their entries stand between the same two texts, so
comparing statements is comparing column lists. -/
theorem exists_around_entries (descriptor : Descriptor) :
    ∃ front tail, ∀ columns, { descriptor with columns }.toStatement.toList =
      front ++ ", ".toList.intercalate (columns.map Column.toEntry) ++ tail := by
  refine ⟨Lexeme.sourceText descriptor.frontLexemes ++ [' ', '('],
    [')'] ++ clause " WHERE " descriptor.predicate.toList, fun columns => ?_⟩
  rw [toStatement, String.toList_ofList, statementChars_eq, List.append_assoc _ [')']]
  rfl

theorem toStatement_eq_iff {columns columns' : List Column} :
    { descriptor with columns }.toStatement = { descriptor with columns := columns' }.toStatement ↔
      ", ".toList.intercalate (columns.map Column.toEntry) =
        ", ".toList.intercalate (columns'.map Column.toEntry) := by
  obtain ⟨front, tail, haround⟩ := exists_around_entries descriptor
  rw [← String.toList_inj, haround, haround, List.append_left_inj, List.append_right_inj]

/-- Comparing all texts with the old name writes the same as comparing names,
exactly if no expression has that text. -/
theorem renameColumn_toStatement_eq_iff (hne : old ≠ new) :
    (descriptor.renameColumn old new).toStatement = (descriptor.renameNames old new).toStatement ↔
      ∀ column ∈ descriptor.columns, column.isExpression = true → column.name ≠ old := by
  rw [Descriptor.renameColumn, renameNames, toStatement_eq_iff, List.map_map, List.map_map]
  constructor
  · intro heq column hcolumn
    have hnot := Column.not_isSpelled_of_intercalate_eq hne heq column hcolumn
    exact Column.not_isSpelled_iff.mp hnot
  · intro hplain
    congr 1
    apply List.map_congr_left
    intro column hcolumn
    have hnot := Column.not_isSpelled_iff.mpr (hplain column hcolumn)
    exact congrArg Column.toEntry (Column.rename_eq_renameName hnot)

/-- Each entry stands in the statement. -/
theorem isInfix_toEntry {column : Column} (hcolumn : column ∈ descriptor.columns) :
    column.toEntry <:+: descriptor.toStatement.toList := by
  obtain ⟨front, tail, haround⟩ := exists_around_entries descriptor
  have hentry : column.toEntry ∈ descriptor.columns.map Column.toEntry :=
    List.mem_map_of_mem hcolumn
  exact (isInfix_intercalate hentry).trans ⟨front, tail, (haround descriptor.columns).symm⟩

end Descriptor

/-! ## Statements -/

variable {statement old new : String}

/-- A rename that rewrites a statement renames columns alone, and keeps the expressions, exactly
if no expression is spelled like the old name.  In any case it keeps the expressions that are
spelled otherwise. -/
theorem renameColumn_eq_renameNames_iff (hne : old ≠ new)
    (hreferences : references statement old) :
    (renameColumn old new statement =
        ((Descriptor.ofStatement statement).renameNames old new).toStatement ↔
      ∀ column ∈ (Descriptor.ofStatement statement).columns,
        column.isExpression = true → column.name ≠ old) ∧
    ∀ column ∈ (Descriptor.ofStatement statement).columns,
      column.isExpression = true → column.name ≠ old →
        column.name.toList <+: column.toEntry ∧
          column.toEntry <:+: (renameColumn old new statement).toList := by
  rw [renameColumn_of_references hne hreferences]
  refine ⟨Descriptor.renameColumn_toStatement_eq_iff hne, ?_⟩
  intro column hcolumn hexpression hname
  have hkept : column ∈ ((Descriptor.ofStatement statement).renameColumn old new).columns :=
    List.mem_map.mpr ⟨column, hcolumn, Column.rename_of_ne hname⟩
  refine ⟨?_, Descriptor.isInfix_toEntry hkept⟩
  rw [Column.toEntry_of_isExpression hexpression]
  exact List.prefix_append _ _

def columnConcatenated : String :=
  "CREATE INDEX i ON t (a, \"a\"||\"b\" COLLATE nocase DESC)"

theorem renameColumn_eq_renameNames_columnConcatenated :
    ("a" ≠ "z" ∧ references columnConcatenated "a") ∧
      (renameColumn "a" "z" columnConcatenated =
          ((Descriptor.ofStatement columnConcatenated).renameNames "a" "z").toStatement ↔
        ∀ column ∈ (Descriptor.ofStatement columnConcatenated).columns,
          column.isExpression = true → column.name ≠ "a") ∧
      ∀ column ∈ (Descriptor.ofStatement columnConcatenated).columns,
        column.isExpression = true → column.name ≠ "a" →
          column.name.toList <+: column.toEntry ∧
            column.toEntry <:+: (renameColumn "a" "z" columnConcatenated).toList := by
  have hne : "a" ≠ "z" := by decide
  have hreferences : references columnConcatenated "a" := by decide +kernel
  exact ⟨⟨hne, hreferences⟩, renameColumn_eq_renameNames_iff hne hreferences⟩

/-- An expression that is spelled like a quoted column is renamed with it, and
what is written in its place is a column. -/
theorem renameColumn_ne_renameNames_quotedCall :
    let statement := "CREATE INDEX i ON t (\"lower(a)\", lower(a))"
    renameColumn "lower(a)" "b" statement =
        "CREATE INDEX \x60i\x60 ON \x60t\x60 (\x60b\x60, b)" ∧
      ((Descriptor.ofStatement statement).renameNames "lower(a)" "b").toStatement =
        "CREATE INDEX \x60i\x60 ON \x60t\x60 (\x60b\x60, lower(a))" := by
  decide +kernel

end CreateIndex
