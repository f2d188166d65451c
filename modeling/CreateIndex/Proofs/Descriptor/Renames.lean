import CreateIndex.Proofs.Descriptor.Cascade

/-!
# Laws of renames

Renames of a table and of a column commute, a column that is renamed twice is renamed once,
and what a rename does to a list of statements can be told from the columns that they
reference.  Each law is one of descriptors first.  It carries over to texts because a change to
a canonical statement writes the changed descriptor, whether or not the statement had to be
written anew.
-/

namespace CreateIndex

namespace Column

variable {column : Column} {old new other : String}

theorem rename_of_eq (hname : column.name = old) :
    column.rename old new = { column with name := new } :=
  if_pos (beq_iff_eq.mpr hname)

/-- A name that was new to the column is as good as the old one: the way to a
third name leads over it. -/
theorem rename_trans (hfresh : column.name ≠ new) :
    (column.rename old new).rename new other = column.rename old other := by
  by_cases hname : column.name = old
  · rw [rename_of_eq hname, rename_of_eq hname]
    exact rename_of_eq rfl
  · rw [rename_of_ne hname, rename_of_ne hname, rename_of_ne hfresh]

theorem name_rename_eq_new_iff :
    (column.rename old new).name = new ↔ column.name = old ∨ column.name = new := by
  by_cases hname : column.name = old
  · simp [rename_of_eq hname, hname]
  · simp [rename_of_ne hname, hname]

theorem name_rename_ne_old (hne : old ≠ new) : (column.rename old new).name ≠ old := by
  by_cases hname : column.name = old
  · rw [rename_of_eq hname]
    exact hne.symm
  · rwa [rename_of_ne hname]

end Column

namespace Descriptor

variable {descriptor : Descriptor} {old new other name : String}

theorem references_iff :
    descriptor.references name ↔ ∃ column ∈ descriptor.columns, column.name = name := by
  simp [references]

theorem renameColumn_self : descriptor.renameColumn old old = descriptor :=
  renameColumn_of_not fun hrename => hrename.1 rfl

theorem renameColumn_trans (hfresh : ¬descriptor.references new) :
    (descriptor.renameColumn old new).renameColumn new other =
      descriptor.renameColumn old other := by
  have hcolumns : ∀ column ∈ descriptor.columns,
      (column.rename old new).rename new other = column.rename old other := by
    intro column hcolumn
    refine Column.rename_trans fun hname => hfresh ?_
    exact references_iff.mpr ⟨column, hcolumn, hname⟩
  simpa [Descriptor.renameColumn] using hcolumns

/-- Under its new name a column is referenced if it was under either. -/
theorem references_renameColumn_new_iff :
    (descriptor.renameColumn old new).references new ↔
      descriptor.references old ∨ descriptor.references new := by
  simp only [references_iff, Descriptor.renameColumn, List.mem_map, exists_exists_and_eq_and,
    Column.name_rename_eq_new_iff, and_or_left, exists_or]

/-- Nothing references the old name after a rename, not even an expression that
was spelled like it. -/
theorem not_references_renameColumn_old (hne : old ≠ new) :
    ¬(descriptor.renameColumn old new).references old := by
  simp [references_iff, Descriptor.renameColumn, Column.name_rename_ne_old hne]

end Descriptor

/-! ## Canonical statements -/

section Canonical

variable {descriptor : Descriptor} {table old new : String} (hsettled : descriptor.Settled)

include hsettled

theorem renameTable_toStatement :
    renameTable table descriptor.toStatement = (descriptor.onTable table).toStatement := by
  rw [renameTable, hsettled.ofStatement_toStatement]

/-- A canonical statement that is left as it stands is canonical for the new
name too. -/
theorem renameColumn_toStatement :
    renameColumn old new descriptor.toStatement =
      (descriptor.renameColumn old new).toStatement := by
  rw [CreateIndex.renameColumn, hsettled.ofStatement_toStatement]
  split
  · rfl
  · rw [Descriptor.renameColumn_of_not ‹_›]

end Canonical

/-! ## One statement -/

variable {statement table other old new : String} {statements : List String}

theorem renameColumn_of_references (hne : old ≠ new) (hreferences : references statement old) :
    renameColumn old new statement =
      ((Descriptor.ofStatement statement).renameColumn old new).toStatement :=
  if_pos ⟨hne, hreferences⟩

theorem renameColumn_of_not_references (hnot : ¬references statement old) :
    renameColumn old new statement = statement :=
  if_neg fun hrename => hnot hrename.2

/-- Renames of a table and of a column commute, and of two renames of a table
the last one counts. -/
theorem renameTable_renameColumn (htame : Tame statement) (hnew : IsQuotable new.toList)
    (hne : new ≠ "") (htable : IsQuotable table.toList) (hother : IsQuotable other.toList)
    (hplain : ∀ column ∈ (Descriptor.ofStatement statement).columns,
      column.isExpression = true → column.name ≠ old) :
    renameTable table (renameColumn old new statement) =
        renameColumn old new (renameTable table statement) ∧
      renameTable table (renameTable other statement) = renameTable table statement := by
  have hsettled := htame.settled
  let descriptor := Descriptor.ofStatement statement
  constructor
  · calc
      renameTable table (renameColumn old new statement)
        = ((descriptor.renameColumn old new).onTable table).toStatement := by
          rw [renameTable, ofStatement_renameColumn hsettled hnew hne hplain]
      _ = renameColumn old new (renameTable table statement) :=
          (renameColumn_toStatement (hsettled.onTable htable)).symm
  · exact renameTable_toStatement (hsettled.onTable hother)

def repeatedColumn : String :=
  "create  index [i.j] on t (lower( b ), b collate nocase desc, \"b\")\n where b > 1 ;"

def repeatedDescriptor : Descriptor where
  schema := "i"
  index := "j"
  table := "t"
  columns := [{ name := "lower( b )", isExpression := true },
    { name := "b", collate := "nocase", sort := "DESC" }, { name := "b" }]
  predicate := "b > 1"

theorem ofStatement_repeatedColumn :
    Descriptor.ofStatement repeatedColumn = repeatedDescriptor := by
  decide +kernel

theorem tame_repeatedColumn : Tame repeatedColumn := by
  decide +kernel

theorem plain_repeatedColumn : ∀ column ∈ (Descriptor.ofStatement repeatedColumn).columns,
    column.isExpression = true → column.name ≠ "b" := by
  rw [ofStatement_repeatedColumn]
  decide

theorem isQuotable_newName : IsQuotable "c d".toList :=
  ⟨by decide, by decide, by decide⟩

theorem renameTable_renameColumn_repeatedColumn :
    (Tame repeatedColumn ∧ IsQuotable "c d".toList ∧ "c d" ≠ "" ∧ IsQuotable "s.t".toList ∧
      IsQuotable "".toList ∧ ∀ column ∈ (Descriptor.ofStatement repeatedColumn).columns,
        column.isExpression = true → column.name ≠ "b") ∧
    renameTable "s.t" (renameColumn "b" "c d" repeatedColumn) =
        renameColumn "b" "c d" (renameTable "s.t" repeatedColumn) ∧
      renameTable "s.t" (renameTable "" repeatedColumn) = renameTable "s.t" repeatedColumn := by
  have hne : "c d" ≠ "" := by decide
  have htable : IsQuotable "s.t".toList := ⟨by decide, by decide, by decide⟩
  have hother : IsQuotable "".toList := ⟨by decide, by decide, by decide⟩
  exact ⟨⟨tame_repeatedColumn, isQuotable_newName, hne, htable, hother, plain_repeatedColumn⟩,
    renameTable_renameColumn tame_repeatedColumn isQuotable_newName hne htable hother
      plain_repeatedColumn⟩

/-- A column that is renamed twice is renamed once, and it can be given its old
name again.  The statement is then the canonical one, even if it was not so at
first. -/
theorem renameColumn_renameColumn (htame : Tame statement) (hnew : IsQuotable new.toList)
    (hne : new ≠ "") (hreferences : references statement old)
    (hplain : ∀ column ∈ (Descriptor.ofStatement statement).columns,
      column.isExpression = true → column.name ≠ old)
    (hfresh : ¬references statement new) :
    (∀ other, other ≠ old →
        renameColumn new other (renameColumn old new statement) =
          renameColumn old other statement) ∧
      renameColumn new old (renameColumn old new statement) = canonicalize statement := by
  have hsettled := htame.settled
  let descriptor := Descriptor.ofStatement statement
  have hold : old ≠ new := by
    rintro rfl
    exact hfresh hreferences
  have hrenames (other : String) :
      renameColumn new other (renameColumn old new statement) =
        (descriptor.renameColumn old other).toStatement := by
    rw [renameColumn_of_references hold hreferences,
      renameColumn_toStatement (hsettled.renameColumn hnew hne hplain),
      Descriptor.renameColumn_trans hfresh]
  refine ⟨fun other hother => ?_, ?_⟩
  · rw [hrenames, renameColumn_of_references hother.symm hreferences]
  · rw [hrenames, Descriptor.renameColumn_self]
    rfl

theorem renameColumn_renameColumn_repeatedColumn :
    (Tame repeatedColumn ∧ IsQuotable "c d".toList ∧ "c d" ≠ "" ∧
      references repeatedColumn "b" ∧
      (∀ column ∈ (Descriptor.ofStatement repeatedColumn).columns,
        column.isExpression = true → column.name ≠ "b") ∧
      ¬references repeatedColumn "c d") ∧
    (∀ other, other ≠ "b" →
        renameColumn "c d" other (renameColumn "b" "c d" repeatedColumn) =
          renameColumn "b" other repeatedColumn) ∧
      renameColumn "c d" "b" (renameColumn "b" "c d" repeatedColumn) =
        canonicalize repeatedColumn := by
  have hne : "c d" ≠ "" := by decide
  have hreferences : references repeatedColumn "b" := by
    rw [references, ofStatement_repeatedColumn]
    decide
  have hfresh : ¬references repeatedColumn "c d" := by
    rw [references, ofStatement_repeatedColumn]
    decide
  exact ⟨⟨tame_repeatedColumn, isQuotable_newName, hne, hreferences, plain_repeatedColumn,
      hfresh⟩,
    renameColumn_renameColumn tame_repeatedColumn isQuotable_newName hne hreferences
      plain_repeatedColumn hfresh⟩

/-! ## Lists of statements -/

section Renamed

variable (htame : Tame statement) (hnew : IsQuotable new.toList) (hne : new ≠ "")
  (hplain : ∀ column ∈ (Descriptor.ofStatement statement).columns,
    column.isExpression = true → column.name ≠ old)

include htame hnew hne hplain

/-- A renamed statement references what the statement did under either name. -/
theorem references_renameColumn_new :
    references (renameColumn old new statement) new =
      (references statement old || references statement new) := by
  rw [references, ofStatement_renameColumn htame.settled hnew hne hplain, Bool.eq_iff_iff,
    Bool.or_eq_true]
  exact Descriptor.references_renameColumn_new_iff

theorem not_references_renameColumn_old (hold : old ≠ new) :
    ¬references (renameColumn old new statement) old := by
  rw [references, ofStatement_renameColumn htame.settled hnew hne hplain]
  exact Descriptor.not_references_renameColumn_old hold

end Renamed

theorem mem_dropColumn_iff {column : String} :
    statement ∈ dropColumn column statements ↔
      statement ∈ statements ∧ ¬references statement column := by
  simp [dropColumn]

/-- Dropping the new name after a rename drops what references the old name or the new one, and
the old name is gone. -/
theorem dropColumn_map_renameColumn (htame : ∀ statement ∈ statements, Tame statement)
    (hold : old ≠ new) (hnew : IsQuotable new.toList) (hne : new ≠ "")
    (hplain : ∀ statement ∈ statements, ∀ column ∈ (Descriptor.ofStatement statement).columns,
      column.isExpression = true → column.name ≠ old) :
    dropColumn new (statements.map (renameColumn old new)) =
        dropColumn new (dropColumn old statements) ∧
      dropColumn old (statements.map (renameColumn old new)) =
        statements.map (renameColumn old new) := by
  have hreferences : ∀ statement ∈ statements,
      (!references (renameColumn old new statement) new) =
        (!references statement new && !references statement old) := by
    intro statement hstatement
    rw [references_renameColumn_new (htame statement hstatement) hnew hne
      (hplain statement hstatement), Bool.not_or, Bool.and_comm]
  constructor
  · -- What is kept references neither name, so the rename has left it as it was.
    have hkept : ∀ statement ∈ dropColumn new (dropColumn old statements),
        renameColumn old new statement = statement := by
      intro statement hstatement
      have hstatement := (mem_dropColumn_iff.mp hstatement).1
      exact renameColumn_of_not_references (mem_dropColumn_iff.mp hstatement).2
    have hfilter : statements.filter (fun s => !references (renameColumn old new s) new) =
        dropColumn new (dropColumn old statements) := by
      rw [dropColumn, dropColumn, List.filter_filter]
      exact List.filter_congr hreferences
    calc
      dropColumn new (statements.map (renameColumn old new))
        = (statements.filter fun s => !references (renameColumn old new s) new).map
            (renameColumn old new) := List.filter_map
      _ = (dropColumn new (dropColumn old statements)).map (renameColumn old new) := by
          rw [hfilter]
      _ = dropColumn new (dropColumn old statements) :=
          (List.map_congr_left hkept).trans (List.map_id _)
  · apply List.filter_eq_self.mpr
    intro renamed hrenamed
    obtain ⟨statement, hstatement, rfl⟩ := List.mem_map.mp hrenamed
    simpa using not_references_renameColumn_old (htame statement hstatement) hnew hne
      (hplain statement hstatement) hold

/-- Statements that reference the old name, the new one, both or neither, and a text that is no
statement. -/
def mixedStatements : List String :=
  [repeatedColumn, "create index k on t ([c d])", "create index l on t(b, 'c d')",
   "no statement"]

theorem dropColumn_map_renameColumn_mixedStatements :
    ((∀ statement ∈ mixedStatements, Tame statement) ∧ "b" ≠ "c d" ∧ IsQuotable "c d".toList ∧
      "c d" ≠ "" ∧
      ∀ statement ∈ mixedStatements, ∀ column ∈ (Descriptor.ofStatement statement).columns,
        column.isExpression = true → column.name ≠ "b") ∧
    dropColumn "c d" (mixedStatements.map (renameColumn "b" "c d")) =
        dropColumn "c d" (dropColumn "b" mixedStatements) ∧
      dropColumn "b" (mixedStatements.map (renameColumn "b" "c d")) =
        mixedStatements.map (renameColumn "b" "c d") := by
  have htame : ∀ statement ∈ mixedStatements, Tame statement :=
    List.forall_mem_cons.mpr ⟨tame_repeatedColumn, by decide +kernel⟩
  have hold : "b" ≠ "c d" := by decide
  have hne : "c d" ≠ "" := by decide
  have hplain : ∀ statement ∈ mixedStatements,
      ∀ column ∈ (Descriptor.ofStatement statement).columns,
        column.isExpression = true → column.name ≠ "b" :=
    List.forall_mem_cons.mpr ⟨plain_repeatedColumn, by decide +kernel⟩
  exact ⟨⟨htame, hold, isQuotable_newName, hne, hplain⟩,
    dropColumn_map_renameColumn htame hold isQuotable_newName hne hplain⟩

end CreateIndex
