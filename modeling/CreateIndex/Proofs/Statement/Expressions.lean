import CreateIndex.Proofs.Statement.Cursors
import CreateIndex.Proofs.Statement.Peeling

/-!
# Expressions in their source text

An entry that is no column is named by the piece of the squeezed statement between its first
and its last lexeme, without the collation and the sort order that were peeled off.  The
exception is an entry of one lexeme: it is named by its display form, and that is not always
what was typed.
-/

namespace CreateIndex.Statement

open Lexeme Text

variable {lexeme : Lexeme} {named : List Lexeme} {name : List Char}

/-- Only quoted literals, hexadecimal numbers and the operator "unequal" have a
display form of their own. -/
theorem token_cases_of_shown_ne (hshown : lexeme.shown ≠ lexeme.text) :
    lexeme.token = .unequal ∨ ∃ content, lexeme.token = .national content ∨
      lexeme.token = .hexadecimal content ∨ lexeme.token = .escaped content := by
  unfold shown at hshown
  split at hshown
  · exact Or.inr ⟨_, Or.inl ‹_›⟩
  · exact Or.inr ⟨_, Or.inr (Or.inl ‹_›)⟩
  · exact Or.inr ⟨_, Or.inr (Or.inr ‹_›)⟩
  · exact Or.inl ‹_›
  · exact absurd rfl hshown

theorem shown_of_entryName (hname : entryName [lexeme] = (name, true)) : name = lexeme.shown := by
  cases hidentifier : lexeme.identifier? with
  | none => simpa [entryName, hidentifier, eq_comm] using hname
  | some found => simp [entryName, hidentifier] at hname

theorem sourceText_of_entryName (hsingle : ∀ lexeme, named ≠ [lexeme])
    (hname : entryName named = (name, true)) : name = sourceText named := by
  unfold entryName at hname
  split at hname
  · exact absurd rfl (hsingle _)
  · exact (Prod.mk.inj hname).1.symm

/-- An expression is named by its source text, except where it is a lone lexeme
that is not shown as it was typed. -/
theorem eq_sourceText_iff_of_entryName (hname : entryName named = (name, true)) :
    name = sourceText named ↔ ∀ lexeme, named = [lexeme] → lexeme.shown = lexeme.text := by
  by_cases hsingle : ∃ lexeme, named = [lexeme]
  · obtain ⟨lexeme, rfl⟩ := hsingle
    rw [shown_of_entryName hname, sourceText_singleton]
    constructor
    · rintro hshown other hother
      cases hother
      exact hshown
    · exact fun hshown => hshown lexeme rfl
  · have hne : ∀ lexeme, named ≠ [lexeme] := not_exists.mp hsingle
    simp [sourceText_of_entryName hne hname, hne]

variable {text : String} {cursor : Cursor} {before entry after : List Lexeme} {column : Column}

/-- The name of an expression, and where it stands in the squeezed statement.  Around it are
the blanks of the entry, its collation and its sort order, and what stands before and after
the entry. -/
theorem Cursor.exists_source_of_isExpression (hcursor : Cursor.ofText? text = some cursor)
    (hpending : cursor.pending = before ++ entry ++ after)
    (hcolumn : column? entry = some column) (hexpression : column.isExpression = true) :
    ∃ gap named collation order gap',
      entry = gap ++ (named ++ collation ++ order) ++ gap' ∧ AllBlank gap ∧ AllBlank gap' ∧
      Parts named collation order column.collate.toList column.sort.toList ∧
      squeeze text.toList =
        sourceText (before ++ gap) ++ sourceText named ++
          (sourceText (collation ++ order ++ gap' ++ after) ++ cursor.trailer) ∧
      (column.name.toList = sourceText named ↔
        ∀ lexeme, named = [lexeme] → lexeme.shown = lexeme.text) ∧
      ∀ lexeme, named = [lexeme] → column.name.toList = lexeme.shown := by
  obtain ⟨head, hsqueeze, -, hlex⟩ := exists_of_ofText? hcursor
  obtain ⟨named, collation, order, collate, sort, gap, gap', rfl, hparts, hgap, hgap', -,
    rfl⟩ := exists_parts_of_column? hcolumn
  have hname : entryName named = ((entryName named).1, true) := Prod.ext rfl hexpression
  have hhead : sourceText cursor.pending = head := flatMap_text_of_lex hlex
  refine ⟨gap, named, collation, order, gap', rfl, hgap, hgap', ?_, ?_, ?_, ?_⟩
  · simpa using hparts
  · rw [hsqueeze, ← hhead, hpending]
    simp [sourceText_append]
  · rw [String.toList_ofList]
    exact eq_sourceText_iff_of_entryName hname
  · rintro lexeme rfl
    rw [String.toList_ofList]
    exact shown_of_entryName hname

/-- An expression whose name stands nowhere in its statement: a lone literal
with a doubled quote, which is shown with a single one. -/
theorem name_not_isInfix_doubledQuote :
    (Descriptor.ofStatement "CREATE INDEX i ON t (N'it''s')").columns =
        [{ name := "N'it's'", isExpression := true }] ∧
      ¬"N'it's'".toList <:+: squeeze "CREATE INDEX i ON t (N'it''s')".toList := by
  decide +kernel

def callText : String :=
  "CREATE INDEX i ON t (a, lower( x ) || /* y */\n 'z'  COLLATE nocase desc ) WHERE b"

theorem exists_source_callText :
    ∃ cursor before entry after column, Cursor.ofText? callText = some cursor ∧
      cursor.pending = before ++ entry ++ after ∧ column? entry = some column ∧
      (column.name = "lower( x ) || /* y */ 'z'" ∧ column.isExpression = true) ∧
      ∃ gap named collation order gap',
        entry = gap ++ (named ++ collation ++ order) ++ gap' ∧ AllBlank gap ∧ AllBlank gap' ∧
        Parts named collation order column.collate.toList column.sort.toList ∧
        squeeze callText.toList =
          sourceText (before ++ gap) ++ sourceText named ++
            (sourceText (collation ++ order ++ gap' ++ after) ++ cursor.trailer) ∧
        (column.name.toList = sourceText named ↔
          ∀ lexeme, named = [lexeme] → lexeme.shown = lexeme.text) ∧
        ∀ lexeme, named = [lexeme] → column.name.toList = lexeme.shown := by
  let column : Column :=
    { name := "lower( x ) || /* y */ 'z'", collate := "nocase", sort := "DESC",
      isExpression := true }
  have hread : ((Cursor.ofText? callText).bind fun cursor =>
      column? ((cursor.pending.drop 13).take 20)) = some column := by
    decide +kernel
  obtain ⟨cursor, hcursor, hcolumn⟩ := Option.bind_eq_some_iff.mp hread
  have hpending : cursor.pending = cursor.pending.take 13 ++ (cursor.pending.drop 13).take 20 ++
      (cursor.pending.drop 13).drop 20 := by
    rw [List.append_assoc, List.take_append_drop, List.take_append_drop]
  exact ⟨cursor, _, _, _, column, hcursor, hpending, hcolumn, ⟨rfl, rfl⟩,
    Cursor.exists_source_of_isExpression hcursor hpending hcolumn rfl⟩

end CreateIndex.Statement
