import CreateIndex.Proofs.Lexeme.Readable
import CreateIndex.Proofs.Statement.Outlines
import CreateIndex.Proofs.Statement.Peeling
import CreateIndex.Proofs.Statement.Predicates
import CreateIndex.Statement.Cursor

/-!
# Assembled statements

A head is assembled from a front and the entries of a column list.  If its text is read as
the lexemes it was assembled from, then the cut, the outline and the descriptor of the
whole statement follow: this is where the passes over the text meet.
-/

namespace CreateIndex.Statement

open Text Lexeme

variable {start pieces : List Lexeme} {entries : List (List Lexeme)}

/-- The lexemes of a head with the given entries. -/
def assemble (start : List Lexeme) (entries : List (List Lexeme)) : List Lexeme :=
  start ++ leftParen :: ([comma].intercalate entries ++ [rightParen])

theorem sourceText_assemble (start : List Lexeme) (entries : List (List Lexeme)) :
    sourceText (assemble start entries) =
      sourceText start ++ '(' :: (sourceText ([comma].intercalate entries) ++ [')']) := by
  rw [assemble, sourceText_append]
  change _ ++ '(' :: sourceText ([comma].intercalate entries ++ [rightParen]) = _
  rw [sourceText_append]
  rfl

/-! ## The cut -/

theorem neutral_of_solid {lexemes : List Lexeme}
    (hneutral : ∀ piece ∈ solid lexemes, IsNeutral piece) :
    ∀ lexeme ∈ lexemes, IsNeutral lexeme := by
  intro lexeme hlexeme
  by_cases hblank : lexeme.isBlank
  · exact isNeutral_of_isBlank hblank
  · exact hneutral lexeme (List.mem_filter.mpr ⟨hlexeme, by simpa using hblank⟩)

theorem afterToken_neutral {lexeme : Lexeme} (hneutral : IsNeutral lexeme) (depth : Nat) :
    Nesting.afterToken depth lexeme.token = some (.outside depth) := by
  obtain ⟨hleft, hright, -⟩ := hneutral
  unfold Nesting.afterToken
  split <;> first | rfl | contradiction

theorem pass_neutral {lexemes : List Lexeme} (hneutral : ∀ lexeme ∈ lexemes, IsNeutral lexeme)
    (hagrees : ∀ lexeme ∈ lexemes, lexeme.AgreesWithCut) (depth : Nat) :
    (Nesting.outside depth).pass (sourceText lexemes) = some (.outside depth) := by
  induction lexemes with
  | nil => rfl
  | cons lexeme lexemes ih =>
      have hlexeme : (Nesting.outside depth).pass lexeme.text = some (.outside depth) :=
        (hagrees lexeme (by simp) depth).trans
          (afterToken_neutral (hneutral lexeme (by simp)) depth)
      change (Nesting.outside depth).pass (lexeme.text ++ sourceText lexemes) = _
      rw [Nesting.pass_append_of_pass hlexeme]
      exact ih (fun other hother => hneutral other (by simp [hother]))
        fun other hother => hagrees other (by simp [hother])

/-- The cut stays within the column list: parentheses are balanced in each
entry, and the commas between entries do not concern it. -/
theorem pass_entries (hagrees : ∀ entry ∈ entries, ∀ lexeme ∈ entry, lexeme.AgreesWithCut)
    (hbalanced : ∀ entry ∈ entries, Balanced entry) :
    (Nesting.outside 1).pass (sourceText ([comma].intercalate entries)) =
      some (.outside 1) := by
  induction entries with
  | nil => rfl
  | cons entry entries ih =>
      have hentry : (Nesting.outside 1).pass (sourceText entry) = some (.outside 1) :=
        pass_sourceText (hagrees entry (by simp)) (hbalanced entry (by simp))
      cases entries with
      | nil =>
          rw [List.intercalate_singleton]
          exact hentry
      | cons next entries =>
          have hcomma : (Nesting.outside 1).pass [','] = some (.outside 1) :=
            Nesting.pass_cons_outside rfl (by decide) (by decide) 1 []
          rw [List.intercalate_cons_cons, sourceText_append, sourceText_append,
            List.append_assoc, Nesting.pass_append_of_pass hentry]
          change (Nesting.outside 1).pass ([','] ++ _) = _
          rw [Nesting.pass_append_of_pass hcomma]
          exact ih (fun other hother => hagrees other (by simp [hother]))
            fun other hother => hbalanced other (by simp [hother])

/-- The cut finds the end of an assembled head, whatever comes after it: no
parenthesis before the last one closes the list. -/
theorem split_assemble (hneutral : ∀ lexeme ∈ start, IsNeutral lexeme)
    (hstart : ∀ lexeme ∈ start, lexeme.AgreesWithCut)
    (hentries : ∀ entry ∈ entries, ∀ lexeme ∈ entry, lexeme.AgreesWithCut)
    (hbalanced : ∀ entry ∈ entries, Balanced entry) (trailer : List Char) :
    split (sourceText (assemble start entries) ++ trailer) =
      (sourceText (assemble start entries), trailer) := by
  let list := sourceText ([comma].intercalate entries)
  have hpass : (Nesting.outside 0).pass (sourceText start ++ '(' :: list) =
      some (.outside 1) := by
    rw [Nesting.pass_append_of_pass (pass_neutral hneutral hstart 0)]
    change (Nesting.outside 0).pass (['('] ++ list) = _
    rw [Nesting.pass_append_of_pass (Nesting.pass_leftParen 0)]
    exact pass_entries hentries hbalanced
  have hclose : cutFrom (.outside 1) (')' :: trailer) = some ([')'], trailer) := rfl
  have hcut : cutAfterList? (sourceText start ++ '(' :: list ++ ')' :: trailer) =
      some (sourceText start ++ '(' :: list ++ [')'], trailer) := by
    rw [cutAfterList?]
    change cutFrom (.outside 0) _ = _
    rw [Nesting.cutFrom_append hpass, hclose]
    rfl
  have htext : sourceText (assemble start entries) = sourceText start ++ '(' :: list ++ [')'] := by
    rw [sourceText_assemble]
    simp [list]
  rw [split, htext, List.append_assoc (sourceText start ++ '(' :: list), List.singleton_append,
    hcut]
  rfl

/-! ## The lexemes -/

theorem readable_intercalate (hentries : ∀ entry ∈ entries, Readable entry) :
    Readable ([comma].intercalate entries) := by
  induction entries with
  | nil => exact readable_nil
  | cons entry entries ih =>
      have hentry : Readable entry := hentries entry (by simp)
      have hrest := ih fun other hother => hentries other (by simp [hother])
      cases entries with
      | nil =>
          rw [List.intercalate_singleton]
          exact hentry
      | cons next entries =>
          rw [List.intercalate_cons_cons, List.append_assoc]
          exact hentry.append (hrest.cons_separator (c := ',') rfl) (separated_cons rfl _)

/-- An assembled head is read as what it was assembled from, since parentheses
and commas end the lexeme before them. -/
theorem readable_assemble (hstart : Readable start)
    (hentries : ∀ entry ∈ entries, Readable entry) : Readable (assemble start entries) := by
  have hclose : Readable ([] ++ [rightParen]) := readable_nil.cons_separator (c := ')') rfl
  have hlist : Readable ([comma].intercalate entries ++ [rightParen]) :=
    (readable_intercalate hentries).append hclose (separated_cons rfl _)
  exact hstart.append (hlist.cons_separator (c := '(') rfl) (separated_cons rfl _)

/-! ## The descriptor -/

/-- The descriptor of a statement with an assembled head.  All that is asked of
the text is that squeezing leaves the head in front of a trailer with a
predicate. -/
theorem ofStatement_of_squeeze {unique optional : Bool} {name table : List (List Char)}
    {text trailer predicate : List Char}
    (hsqueeze : squeeze text = sourceText (assemble start entries) ++ trailer)
    (hfront : IsFront (solid start) unique optional name table) (hstart : Readable start)
    (hne : entries ≠ []) (hentries : ∀ entry ∈ entries, Readable entry)
    (hbalanced : ∀ entry ∈ entries, Balanced entry)
    (hpredicate : predicate? trailer = some predicate) :
    Descriptor.ofStatement (String.ofList text) =
      Outline.descriptor { unique, optional, name, table, entries } predicate := by
  have hsplit := split_assemble (neutral_of_solid hfront.neutral) hstart.agrees
    (fun entry hentry => (hentries entry hentry).agrees) hbalanced trailer
  have hcursor : Cursor.ofText? (String.ofList text) =
      some ⟨assemble start entries, trailer⟩ := by
    rw [Cursor.ofText?, String.toList_ofList, hsqueeze, hsplit]
    change (lex _).map _ = _
    rw [(readable_assemble hstart hentries).read]
    rfl
  have houtline : outline (assemble start entries) =
      (some { unique, optional, name, table, entries }, []) :=
    outline_append hfront rfl (cutEntries_intercalate hne hbalanced []) allBlank_nil
  rw [Descriptor.ofStatement, hcursor, Option.bind_some, Cursor.next, houtline]
  simp [hpredicate]

end CreateIndex.Statement
