import CreateIndex.Proofs.Statement.Nesting
import CreateIndex.Proofs.Text.Collapse

/-!
# Texts that the cut passes

The cut between head and trailer reacts to quotes and parentheses alone.  Blanks are none of
them, so it passes a collapsed text as it passes the text that was typed.  After a text that
it passes it goes on as it would from the nesting there; one that it does not pass has the end
of the head in it.
-/

namespace CreateIndex.Statement

open Lexeme Text

variable {nesting nesting' : Nesting} {start text : List Char} {c : Char}

deriving instance DecidableEq for Nesting

def cutMarks : List Char :=
  ['(', ')', '\'', '"', backtick, '[', ']']

theorem not_mem_cutMarks_of_isBlank (hblank : Text.isBlank c) : c ∉ cutMarks := by
  have hmarks : ∀ d ∈ cutMarks, ¬Text.isBlank d := by decide
  exact fun hmem => hmarks c hmem hblank

namespace Nesting

/-- A nesting that the cut can come to: quoted text is closed by one of its
characters. -/
def IsSound (nesting : Nesting) : Prop :=
  ∀ closer ∈ nesting.closer, closer ∈ cutMarks

theorem isSound_empty : IsSound {} := by
  intro closer hcloser
  cases hcloser

/-- The cut comes to sound nestings only: the closers that it remembers are
those of the quotes that it knows. -/
theorem IsSound.after (hsound : nesting.IsSound) (c : Char) : (nesting.after c).IsSound := by
  unfold Nesting.after
  split
  · split
    · exact isSound_empty
    · exact hsound
  · split
    · rename_i closer hcloser
      have hpairs : ∀ pair ∈ quotePairs, pair.2 ∈ cutMarks := by decide
      intro other hother
      cases hother
      exact hpairs _ (mem_quotePairs hcloser)
    · split
      · exact hsound
      · split <;> exact hsound

theorem IsSound.of_pass (hsound : nesting.IsSound) (hpass : nesting.pass text = some nesting') :
    nesting'.IsSound := by
  induction text generalizing nesting with
  | nil =>
      cases hpass
      exact hsound
  | cons c text ih =>
      rw [pass] at hpass
      split at hpass
      · cases hpass
      · exact ih (hsound.after c) hpass

theorem IsSound.pass_cons (hsound : nesting.IsSound) (hc : c ∉ cutMarks) (text : List Char) :
    nesting.pass (c :: text) = nesting.pass text := by
  cases nesting with
  | mk depth closer =>
      cases closer with
      | none =>
          simp only [cutMarks, List.mem_cons, List.not_mem_nil, or_false, not_or] at hc
          obtain ⟨hopen, hclose, hsingle, hdouble, hback, hbracket, -⟩ := hc
          have hquote : quoteCloser? c = none := by
            simp [quoteCloser?, wordCloser?, hsingle, hdouble, hback, hbracket]
          exact pass_cons_outside hquote hopen hclose depth text
      | some closer =>
          have hne : c ≠ closer := by
            rintro rfl
            exact hc (hsound c rfl)
          exact pass_inside hne depth text

/-- A text without quotes, brackets and parentheses leaves every nesting as it
is. -/
theorem IsSound.pass_of_not_mem (hsound : nesting.IsSound) (htext : ∀ c ∈ text, c ∉ cutMarks) :
    nesting.pass text = some nesting := by
  induction text with
  | nil => rfl
  | cons c text ih =>
      rw [hsound.pass_cons (htext c (by simp))]
      exact ih fun d hd => htext d (by simp [hd])

theorem IsSound.pass_collapseAfter (hsound : nesting.IsSound) (blank : Bool) (text : List Char) :
    nesting.pass (collapseAfter blank text) = nesting.pass text := by
  have hspace : ' ' ∉ cutMarks := by decide
  induction text generalizing nesting blank with
  | nil => rfl
  | cons c text ih =>
      by_cases hc : Text.isBlank c
      · rw [collapseAfter_of_blank hc, hsound.pass_cons (not_mem_cutMarks_of_isBlank hc)]
        cases blank with
        | true => exact ih hsound true
        | false => exact (hsound.pass_cons hspace _).trans (ih hsound true)
      · rw [collapseAfter_of_not_blank hc, pass, pass, collapse, ih (hsound.after c)]

/-- The cut passes a text as it passes what the text collapses to, since it
reacts to no blank. -/
theorem IsSound.pass_collapse (hsound : nesting.IsSound) (text : List Char) :
    nesting.pass (collapse text) = nesting.pass text :=
  hsound.pass_collapseAfter false text

/-- In a text that the cut does not pass, it finds the end of the head, and what
comes after the text has no part in that. -/
theorem exists_cutFrom_of_pass_eq_none (hpass : nesting.pass start = none) (rest : List Char) :
    ∃ head trailer, cutFrom nesting (start ++ rest) = some (head, trailer) ∧ head <+: start := by
  induction start generalizing nesting with
  | nil => cases hpass
  | cons c start ih =>
      rw [pass] at hpass
      rw [List.cons_append, cutFrom]
      split at hpass
      · rename_i hcloses
        rw [if_pos hcloses]
        exact ⟨_, _, rfl, List.cons_prefix_cons.mpr ⟨rfl, List.nil_prefix⟩⟩
      · rename_i hcloses
        obtain ⟨head, trailer, hcut, hprefix⟩ := ih hpass
        rw [if_neg hcloses, hcut]
        exact ⟨_, _, rfl, List.cons_prefix_cons.mpr ⟨rfl, hprefix⟩⟩

end Nesting

/-! ## Splitting from a place on -/

/-- The head and the trailer of what is left of a statement at a place with the nesting. -/
def splitFrom (nesting : Nesting) (text : List Char) : List Char × List Char :=
  (cutFrom nesting text).getD (text, [])

theorem splitFrom_append (hpass : nesting.pass start = some nesting') (rest : List Char) :
    splitFrom nesting (start ++ rest) =
      (start ++ (splitFrom nesting' rest).1, (splitFrom nesting' rest).2) := by
  rw [splitFrom, splitFrom, Nesting.cutFrom_append hpass]
  cases cutFrom nesting' rest <;> rfl

theorem prefix_of_splitFrom (hpass : nesting.pass start = none) (rest : List Char) :
    (splitFrom nesting (start ++ rest)).1 <+: start := by
  obtain ⟨head, trailer, hcut, hprefix⟩ := Nesting.exists_cutFrom_of_pass_eq_none hpass rest
  rw [splitFrom, hcut]
  exact hprefix

end CreateIndex.Statement
