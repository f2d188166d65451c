import CreateIndex.Proofs.Lexeme.Marks
import CreateIndex.Statement.Cursor

/-!
# Cursors at the start of a text

What a cursor at the start of a text stands on, and what it takes for a descriptor to be
read there.
-/

namespace CreateIndex.Statement

open Lexeme Text

variable {text : String} {cursor : Cursor} {head trailer : List Char}

/-- The head and the trailer of a text are what its cursor was made of, and only
the head was cut into lexemes. -/
theorem exists_of_ofText? (hcursor : Cursor.ofText? text = some cursor) :
    ∃ head, squeeze text.toList = head ++ cursor.trailer ∧
      head = (split (squeeze text.toList)).1 ∧ lex head = some cursor.pending := by
  obtain ⟨lexemes, hread, rfl⟩ := Option.map_eq_some_iff.mp hcursor
  exact ⟨_, (split_append _).symm, rfl, hread⟩

/-- The lexemes of a cursor are read from their own text, which is the head. -/
theorem lex_of_ofText? (hcursor : Cursor.ofText? text = some cursor) :
    lex (sourceText cursor.pending) = some cursor.pending := by
  obtain ⟨head, -, -, hlex⟩ := exists_of_ofText? hcursor
  rwa [sourceText, flatMap_text_of_lex hlex]

theorem squeeze_of_ofText? (hcursor : Cursor.ofText? text = some cursor) :
    squeeze text.toList = sourceText cursor.pending ++ cursor.trailer := by
  obtain ⟨head, hsqueeze, -, hlex⟩ := exists_of_ofText? hcursor
  rwa [sourceText, flatMap_text_of_lex hlex]

theorem split_of_ofText? (hcursor : Cursor.ofText? text = some cursor) :
    split (squeeze text.toList) = (sourceText cursor.pending, cursor.trailer) := by
  obtain ⟨head, hsqueeze, hhead, hlex⟩ := exists_of_ofText? hcursor
  have happend := split_append (squeeze text.toList)
  rw [← hhead] at happend
  rw [sourceText, flatMap_text_of_lex hlex]
  exact Prod.ext hhead.symm (List.append_cancel_left (happend.trans hsqueeze))

/-- A cursor at the start of a text has the lexemes of an evenly spaced head
before it, and an evenly spaced trailer. -/
theorem evenlySpaced_of_ofText? (hcursor : Cursor.ofText? text = some cursor) :
    lex (split (squeeze text.toList)).1 = some cursor.pending ∧
      EvenlySpaced (split (squeeze text.toList)).1 ∧ EvenlySpaced cursor.trailer := by
  obtain ⟨head, hsqueeze, rfl, hlex⟩ := exists_of_ofText? hcursor
  have heven : EvenlySpaced (squeeze text.toList) := evenlySpaced_squeeze _
  rw [hsqueeze] at heven
  exact ⟨hlex, heven.of_isInfix (List.prefix_append _ _).isInfix,
    heven.of_isInfix (List.suffix_append _ _).isInfix⟩

theorem marksSpelled_of_ofText? (hcursor : Cursor.ofText? text = some cursor) :
    MarksSpelled cursor.pending := by
  obtain ⟨head, -, -, hlex⟩ := exists_of_ofText? hcursor
  exact marksSpelled_of_lex hlex

/-- A descriptor takes an outline and a predicate, from the head and the
trailer, and neither sees what the other is read from. -/
theorem Cursor.next_eq_some_iff {descriptor : Descriptor} :
    cursor.next.1 = some descriptor ↔
      ∃ outlined left predicate, outline cursor.pending = (some outlined, left) ∧
        predicate? cursor.trailer = some predicate ∧
        outlined.descriptor predicate = descriptor := by
  rcases houtline : outline cursor.pending with ⟨_ | outlined, left⟩
  · simp [next, houtline]
  · simp [next, houtline]

end CreateIndex.Statement
