import CreateIndex.Proofs.Command.ListMode
import CreateIndex.Proofs.Descriptor.Renames

/-!
# What the notes count

A rename of a column is counted by comparing texts.  The count is right because a tame
statement that references the old name cannot come out as it was: what is written references
the new name in its place.  So a rename reports as many statements as a drop of the same
column, and in single mode a statement is reported as unchanged if it is not among them.
-/

namespace CreateIndex

open Text Json

variable {statement old new column input : String} {statements : List String}

/-! ## Counts -/

/-- What is counted as changed is what the rename does not leave as it is. -/
theorem countChanged_map (write : String → String) (statements : List String) :
    countChanged statements (statements.map write) =
      statements.countP fun statement => statement != write statement := by
  induction statements with
  | nil => rfl
  | cons statement statements ih =>
      rw [List.countP_cons, ← ih]
      exact List.countP_cons

theorem length_dropColumn_add_countP (column : String) (statements : List String) :
    (dropColumn column statements).length + statements.countP (references · column) =
      statements.length := by
  have hsplit := List.length_eq_countP_add_countP (references · column) (l := statements)
  simpa [dropColumn, List.countP_eq_length_filter, Nat.add_comm] using hsplit.symm

/-! ## Renames -/

section Renamed

variable (htame : Tame statement) (hold : old ≠ new) (hnew : IsQuotable new.toList)
  (hne : new ≠ "") (hplain : ∀ column ∈ (Descriptor.ofStatement statement).columns,
    column.isExpression = true → column.name ≠ old)

include htame hold hnew hne hplain

/-- A rename leaves a tame statement as it is only if the statement does not
reference the old name: else the new name is in what is written. -/
theorem renameColumn_eq_self_iff :
    renameColumn old new statement = statement ↔ ¬references statement old := by
  constructor
  · intro hsame
    have hgone := not_references_renameColumn_old htame hnew hne hplain hold
    rwa [hsame] at hgone
  · exact renameColumn_of_not_references

theorem ne_renameColumn_eq_references :
    (statement != renameColumn old new statement) = references statement old := by
  have hiff := renameColumn_eq_self_iff htame hold hnew hne hplain
  rw [Bool.eq_iff_iff, bne_iff_ne, ne_comm, ne_eq, hiff, not_not]

end Renamed

/-! ## Notes -/

/-- The note on the size of an input, which every command starts with. -/
def sizeNote (input : String) : String :=
  "Read " ++ toString input.utf8ByteSize ++ " bytes of input"

/-- The notes of a request for an inline input are those of its command, after
one on the size of the input. -/
theorem Request.notes_run_inline (environment : Environment) (command : Command)
    (input : String) (listMode verbose : Bool) :
    (Request.run environment ⟨command, .inline input, listMode, verbose⟩).notes =
      sizeNote input :: (command.perform listMode input).notes :=
  rfl

/-- The counts that are reported are those of the statements that reference the column, and a
statement that is not counted is reported to be unchanged. -/
theorem Request.run_reports_references (hinput : decodeStatements input = .ok statements)
    (htame : ∀ statement ∈ statements, Tame statement) (hold : old ≠ new)
    (hnew : IsQuotable new.toList) (hne : new ≠ "")
    (hplain : ∀ statement ∈ statements, ∀ column ∈ (Descriptor.ofStatement statement).columns,
      column.isExpression = true → column.name ≠ old)
    (environment : Environment) (listMode : Bool) :
    (Request.run environment ⟨.renameColumn old new, .inline input, true, true⟩).notes =
        [sizeNote input,
          "Renamed column in " ++ toString (statements.countP (references · old)) ++ " of " ++
            toString statements.length ++ " indexes"] ∧
      (dropColumn old statements).length ≤ statements.length ∧
      (Request.run environment ⟨.dropColumn old, .inline input, listMode, true⟩).notes =
        [sizeNote input,
          "Dropped " ++ toString (statements.countP (references · old)) ++
            " indexes referencing column " ++ old] ∧
      ∀ statement ∈ statements,
        (Request.run environment
            ⟨.renameColumn old new, .inline statement, false, true⟩).notes =
          sizeNote statement ::
            if references statement old then []
            else ["Column " ++ old ++ " is not indexed, statement unchanged"] := by
  have hkept := length_dropColumn_add_countP old statements
  refine ⟨?_, by omega, ?_, ?_⟩
  · have hcount : countChanged statements (statements.map (renameColumn old new)) =
        statements.countP (references · old) := by
      rw [countChanged_map]
      apply List.countP_congr
      intro statement hstatement
      rw [ne_renameColumn_eq_references (htame statement hstatement) hold hnew hne
        (hplain statement hstatement)]
    rw [Request.notes_run_inline, Command.perform, if_pos rfl, hinput, ← hcount]
    rfl
  · have hcount : statements.length - (dropColumn old statements).length =
        statements.countP (references · old) := by
      omega
    rw [Request.notes_run_inline, Command.perform, hinput, ← hcount]
    rfl
  · intro statement hstatement
    have hiff := renameColumn_eq_self_iff (htame statement hstatement) hold hnew hne
      (hplain statement hstatement)
    rw [Request.notes_run_inline, Command.perform, if_neg (by decide)]
    by_cases hreferences : references statement old
    · rw [if_pos hreferences, Report.done, if_neg (fun hsame => hiff.mp hsame hreferences)]
    · rw [if_neg hreferences, Report.done, if_pos (hiff.mpr hreferences)]

theorem run_reports_references_mixedStatements :
    (decodeStatements (encodeStatements mixedStatements) = .ok mixedStatements ∧
      (∀ statement ∈ mixedStatements, Tame statement) ∧ "b" ≠ "c d" ∧
      IsQuotable "c d".toList ∧ "c d" ≠ "" ∧
      ∀ statement ∈ mixedStatements, ∀ column ∈ (Descriptor.ofStatement statement).columns,
        column.isExpression = true → column.name ≠ "b") ∧
    ∀ environment listMode,
      (Request.run environment
          ⟨.renameColumn "b" "c d", .inline (encodeStatements mixedStatements), true,
            true⟩).notes =
        [sizeNote (encodeStatements mixedStatements), "Renamed column in 2 of 4 indexes"] ∧
      (Request.run environment
          ⟨.dropColumn "b", .inline (encodeStatements mixedStatements), listMode, true⟩).notes =
        [sizeNote (encodeStatements mixedStatements), "Dropped 2 indexes referencing column b"] ∧
      ∀ statement ∈ mixedStatements,
        (Request.run environment
            ⟨.renameColumn "b" "c d", .inline statement, false, true⟩).notes =
          sizeNote statement ::
            if references statement "b" then []
            else ["Column b is not indexed, statement unchanged"] := by
  have hinput := decodeStatements_encodeStatements mixedStatements
  have htame : ∀ statement ∈ mixedStatements, Tame statement :=
    List.forall_mem_cons.mpr ⟨tame_repeatedColumn, by decide +kernel⟩
  have hold : "b" ≠ "c d" := by decide
  have hne : "c d" ≠ "" := by decide
  have hplain : ∀ statement ∈ mixedStatements,
      ∀ column ∈ (Descriptor.ofStatement statement).columns,
        column.isExpression = true → column.name ≠ "b" :=
    List.forall_mem_cons.mpr ⟨plain_repeatedColumn, by decide +kernel⟩
  refine ⟨⟨hinput, htame, hold, isQuotable_newName, hne, hplain⟩, ?_⟩
  intro environment listMode
  obtain ⟨hrenamed, _, hdropped, hsingle⟩ := Request.run_reports_references hinput htame hold
    isQuotable_newName hne hplain environment listMode
  have hcount : mixedStatements.countP (references · "b") = 2 := by decide +kernel
  rw [hcount] at hrenamed hdropped
  exact ⟨hrenamed, hdropped, hsingle⟩

end CreateIndex
