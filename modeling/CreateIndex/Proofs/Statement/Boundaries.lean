import CreateIndex.Proofs.Statement.Cursors
import CreateIndex.Proofs.Statement.Passed
import CreateIndex.Proofs.Statement.Readers

/-!
# Places between two lexemes

A place between two lexemes of a head is a place of the typed text.  The text before it and
the text after it collapse on their own, and the cut has come to some nesting there.  More
blanks at such a place join those that are there.
-/

namespace CreateIndex.Statement

open Lexeme Text

variable {text : String} {cursor : Cursor} {start left : List Char} {before after gap : List Lexeme}

def MayBeSpace (gap : List Lexeme) : Prop :=
  gap = [] ∨ gap = [space]

theorem MayBeSpace.allBlank (hgap : MayBeSpace gap) : AllBlank gap := by
  rcases hgap with rfl | rfl <;> simp [AllBlank, space, Lexeme.isBlank]

theorem MayBeSpace.pass {nesting : Nesting} (hgap : MayBeSpace gap) (hsound : nesting.IsSound) :
    nesting.pass (sourceText gap) = some nesting := by
  rcases hgap with rfl | rfl <;> exact hsound.pass_of_not_mem (by decide)

theorem MayBeSpace.lex_append (hgap : MayBeSpace gap) (hlex : lex left = some after) :
    lex (sourceText gap ++ left) = some (gap ++ after) := by
  rcases hgap with rfl | rfl
  · exact hlex
  · rw [sourceText_singleton, space, List.singleton_append, lex_space, hlex]
    rfl

/-- A place between two lexemes of a statement: the text before it and the text after it, as
they were typed, and the lexemes that they are read as.  The blanks around the statement belong
to neither. -/
structure Boundary (text : List Char) (cursor : Cursor) (start left : List Char)
    (before after : List Lexeme) : Prop where
  trim_eq : trim text = start ++ left
  pending_eq : cursor.pending = before ++ after
  collapse_start : collapse start = sourceText before
  collapse_left : collapse left = sourceText after ++ cursor.trailer

/-- Every place between two lexemes of the head is a place of the typed text,
though its blanks may be spread differently over the two sides. -/
theorem exists_boundary (hcursor : Cursor.ofText? text = some cursor)
    (hpending : cursor.pending = before ++ after) :
    ∃ start left, Boundary text.toList cursor start left before after := by
  have hsqueeze := squeeze_of_ofText? hcursor
  rw [squeeze_eq_collapse, hpending, sourceText_append, List.append_assoc] at hsqueeze
  obtain ⟨start, left, htrim, hstart, hleft, -⟩ := exists_append_of_collapse hsqueeze
  exact ⟨start, left, htrim, hpending, hstart, hleft⟩

/-- The nesting at a boundary, and what the cut makes of the text from there on:
it finds the end of the head where it did before. -/
theorem Boundary.exists_nesting (hboundary : Boundary text.toList cursor start left before after)
    (hcursor : Cursor.ofText? text = some cursor) (hne : sourceText after ≠ []) :
    ∃ nesting, Nesting.pass {} start = some nesting ∧ nesting.IsSound ∧
      splitFrom nesting (sourceText after ++ cursor.trailer) =
        (sourceText after, cursor.trailer) := by
  have hsource : sourceText cursor.pending = sourceText before ++ sourceText after := by
    rw [hboundary.pending_eq, sourceText_append]
  have hsplit : splitFrom {} (squeeze text.toList) = (sourceText cursor.pending, cursor.trailer) :=
    split_of_ofText? hcursor
  rw [squeeze_of_ofText? hcursor, hsource, List.append_assoc] at hsplit
  have hpass := Nesting.isSound_empty.pass_collapse start
  rw [hboundary.collapse_start] at hpass
  cases hstart : Nesting.pass {} start with
  | none =>
      have hprefix := prefix_of_splitFrom (hpass.trans hstart)
        (sourceText after ++ cursor.trailer)
      rw [hsplit] at hprefix
      have hlength := hprefix.length_le
      rw [List.length_append] at hlength
      exact absurd (List.eq_nil_of_length_eq_zero (by omega)) hne
  | some nesting =>
      refine ⟨nesting, rfl, Nesting.isSound_empty.of_pass hstart, ?_⟩
      rw [splitFrom_append (hpass.trans hstart), Prod.mk.injEq, List.append_cancel_left_eq]
        at hsplit
      exact Prod.ext hsplit.1 hsplit.2

/-- A space after the text before a boundary joins the blanks at its end, so at
most one space is left there. -/
theorem Boundary.exists_before (hboundary : Boundary text.toList cursor start left before after)
    (hcursor : Cursor.ofText? text = some cursor) (hne : before ≠ [])
    (hmovable : ∀ lexeme ∈ before, lexeme.IsMovable) :
    ∃ kept gap, before = kept ++ gap ∧ MayBeSpace gap ∧
      collapse (start ++ [' ']) = sourceText kept ++ [' '] := by
  have hspace : collapse (start ++ [' ']) =
      sourceText before ++ collapseAfter (gapAfter false start) [' '] := by
    rw [collapse, collapseAfter_append, ← hboundary.collapse_start]
    rfl
  cases hgap : gapAfter false start with
  | false =>
      rw [hgap] at hspace
      exact ⟨before, [], by simp, Or.inl rfl, hspace⟩
  | true =>
      -- The text ends in a blank, so the last lexeme is a space already.
      obtain ⟨hlex, heven, -⟩ := evenlySpaced_of_ofText? hcursor
      have hsource := flatMap_text_of_lex hlex
      rw [hboundary.pending_eq] at hlex hsource
      obtain ⟨kept, last, rfl⟩ : ∃ kept last, before = kept ++ [last] :=
        ⟨before.dropLast, before.getLast hne, (List.dropLast_append_getLast hne).symm⟩
      have hends : gapAfter false (sourceText (kept ++ [last])) := by
        rw [← hboundary.collapse_start]
        exact (gapAfter_collapseAfter false start).trans hgap
      obtain ⟨init, c, hinit, hblank⟩ := exists_concat_of_gapAfter hends
      have hc : c = ' ' := by
        refine heven.eq_space c ?_ hblank
        rw [← hsource]
        change c ∈ sourceText _
        rw [sourceText_append, hinit]
        simp
      have hlast : last = space :=
        eq_space_of_concat hlex (by simp) (hmovable last (by simp)) (hc ▸ hinit)
      subst hlast
      refine ⟨kept, [space], rfl, Or.inr rfl, ?_⟩
      rw [hspace, hgap, sourceText_append]
      simp [sourceText, space, collapseAfter, isBlank_space]

/-- A space before the text after a boundary joins the blanks at its start in
the same way. -/
theorem Boundary.exists_after (hboundary : Boundary text.toList cursor start left before after) :
    ∃ gap, MayBeSpace gap ∧
      collapse (' ' :: left) = sourceText (gap ++ after) ++ cursor.trailer := by
  rw [collapse, collapseAfter_of_blank isBlank_space]
  change ∃ gap, _ ∧ ' ' :: collapseAfter true left = _
  cases hleft : left with
  | nil =>
      have hnil := hboundary.collapse_left
      rw [hleft] at hnil
      refine ⟨[space], Or.inr rfl, ?_⟩
      rw [sourceText_append, List.append_assoc, ← hnil]
      rfl
  | cons c rest =>
      have hcollapse := hboundary.collapse_left
      rw [hleft] at hcollapse
      by_cases hc : Text.isBlank c
      · refine ⟨[], Or.inl rfl, ?_⟩
        rw [List.nil_append, ← hcollapse, collapse, collapseAfter_of_blank hc,
          collapseAfter_of_blank hc]
        rfl
      · refine ⟨[space], Or.inr rfl, ?_⟩
        rw [sourceText_append, List.append_assoc, ← hcollapse, collapseAfter_of_not_blank hc,
          collapse_cons_of_not_blank hc]
        rfl

end CreateIndex.Statement
