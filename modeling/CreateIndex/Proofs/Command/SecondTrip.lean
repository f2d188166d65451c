import CreateIndex.Proofs.Command.ListMode
import CreateIndex.Proofs.Descriptor.Tame

/-!
# A second trip through JSON

JSON does not say which columns are expressions, so the statement that is built from it holds
the text of each expression as a name.  That text is squeezed already, and it ends no name
early if it has no backtick; so the first trip gives statements that a second one leaves as
they are.
-/

namespace CreateIndex

open Text Lexeme Statement

variable {column : Column} {descriptor : Descriptor} {statement : String}

/-- The text of an expression is as good a name as any, as long as backticks can
hold it. -/
theorem Column.Settled.asName (hsettled : column.Settled)
    (hbacktick : column.isExpression = true → backtick ∉ column.name.toList) :
    column.asName.Settled := by
  cases hexpression : column.isExpression with
  | false =>
      have hsame : column.asName = column := by
        rw [Column.asName, ← hexpression]
      rwa [hsame]
  | true =>
      obtain ⟨named, hnamed⟩ := hsettled.exists_named
      have hname : column.writtenName = column.name.toList := if_pos hexpression
      have hphrase : IsPhrase column.name.toList := by
        rw [← hname, ← hnamed.sourceText_eq]
        exact hnamed.isPhrase
      exact Column.settled_of_plain rfl hsettled.name_ne_nil (hbacktick hexpression)
        hphrase.evenlySpaced hsettled.collate hsettled.sort hsettled.not_isSort_collate

/-- A settled descriptor is settled also with names in place of its expressions. -/
theorem Descriptor.Settled.asNames (hsettled : descriptor.Settled)
    (hbacktick : ∀ column ∈ descriptor.columns, column.isExpression = true →
      backtick ∉ column.name.toList) : descriptor.asNames.Settled where
  schema := hsettled.schema
  index := hsettled.index
  index_no_dot := hsettled.index_no_dot
  table := hsettled.table
  columns column hcolumn := by
    obtain ⟨original, horiginal, rfl⟩ := List.mem_map.mp hcolumn
    exact (hsettled.columns original horiginal).asName (hbacktick original horiginal)
  predicate := hsettled.predicate

theorem Descriptor.asNames_asNames (descriptor : Descriptor) :
    descriptor.asNames.asNames = descriptor.asNames := by
  simp [Descriptor.asNames, Column.asName]

/-- What a tame statement becomes on a trip is read as its descriptor without
expressions. -/
theorem Tame.ofStatement_asNames (htame : Tame statement)
    (hbacktick : ∀ column ∈ (Descriptor.ofStatement statement).columns,
      column.isExpression = true → backtick ∉ column.name.toList) :
    Descriptor.ofStatement (Descriptor.ofStatement statement).asNames.toStatement =
      (Descriptor.ofStatement statement).asNames :=
  (htame.settled.asNames hbacktick).ofStatement_toStatement

/-- A trip depends on what the statements are read as, and on nothing else of
them. -/
theorem throughJson_of_read {statements : List String} {descriptors : List Descriptor}
    (hread : statements.map Descriptor.ofStatement = descriptors) :
    throughJson statements =
      .ok (descriptors.map fun descriptor => descriptor.asNames.toStatement) := by
  rw [throughJson_eq, ← hread, List.map_map]
  rfl

/-- A trip through JSON turns the expressions of tame statements into names and changes
nothing else, and a second trip changes nothing at all. -/
theorem throughJson_throughJson (statements : List String)
    (htame : ∀ statement ∈ statements, Tame statement)
    (hbacktick : ∀ statement ∈ statements,
      ∀ column ∈ (Descriptor.ofStatement statement).columns,
        column.isExpression = true → backtick ∉ column.name.toList) :
    ∃ written, throughJson statements = .ok written ∧ throughJson written = .ok written ∧
      written.map Descriptor.ofStatement =
        statements.map fun statement => (Descriptor.ofStatement statement).asNames := by
  have hread : (statements.map fun statement =>
        (Descriptor.ofStatement statement).asNames.toStatement).map Descriptor.ofStatement =
      statements.map fun statement => (Descriptor.ofStatement statement).asNames := by
    rw [List.map_map]
    apply List.map_congr_left
    intro statement hstatement
    rw [Function.comp_apply]
    exact (htame statement hstatement).ofStatement_asNames (hbacktick statement hstatement)
  refine ⟨_, throughJson_eq statements, ?_, hread⟩
  rw [throughJson_of_read hread, List.map_map]
  simp only [Function.comp_def, Descriptor.asNames_asNames]

/-- Tame statements, one of them with an expression that holds what else ends a name. -/
def withCalls : List String :=
  ["create index i on t (f(a, ')' DESC) collate c desc)", "create index j on t (b)"]

theorem throughJson_throughJson_withCalls :
    ((∀ statement ∈ withCalls, Tame statement) ∧
      ∀ statement ∈ withCalls, ∀ column ∈ (Descriptor.ofStatement statement).columns,
        column.isExpression = true → backtick ∉ column.name.toList) ∧
      ∃ written, throughJson withCalls = .ok written ∧ throughJson written = .ok written ∧
        written.map Descriptor.ofStatement =
          withCalls.map fun statement => (Descriptor.ofStatement statement).asNames := by
  have htame : ∀ statement ∈ withCalls, Tame statement := by decide +kernel
  have hbacktick : ∀ statement ∈ withCalls,
      ∀ column ∈ (Descriptor.ofStatement statement).columns,
        column.isExpression = true → backtick ∉ column.name.toList := by
    decide +kernel
  exact ⟨⟨htame, hbacktick⟩, throughJson_throughJson withCalls htame hbacktick⟩

end CreateIndex
