import CreateIndex.Proofs.Statement.Clauses
import CreateIndex.Proofs.Statement.Cursors
import CreateIndex.Proofs.Statement.Taken

/-!
# The grammar of statements

A sentence is a `CREATE INDEX` statement by its parts.  The grammar says where a cursor has to
stand for a sentence, and apart from it what descriptor the sentence has.  Reading succeeds
for exactly the cursors that stand on a sentence, and gives its descriptor.
-/

namespace CreateIndex.Statement

open Lexeme Text

/-- A name is split at its last dot.  Without a dot there is no qualifier. -/
inductive SplitsAtLastDot : List Char → List Char → List Char → Prop where
  | undotted {name : List Char} (hdot : '.' ∉ name) : SplitsAtLastDot name [] name
  | dotted {proper : List Char} (hdot : '.' ∉ proper) (qualifier : List Char) :
      SplitsAtLastDot (qualifier ++ '.' :: proper) qualifier proper

/-- The name of an index is split as the grammar says, at its last dot or not at
all. -/
theorem splitsAtLastDot_splitQualifier (name : List Char) :
    SplitsAtLastDot name (splitQualifier name).1 (splitQualifier name).2 := by
  have hdot := not_mem_splitQualifier name
  rcases splitQualifier_cases name with hsplit | hsplit
  · rw [hsplit] at hdot ⊢
    exact .undotted hdot
  · have hdotted := SplitsAtLastDot.dotted hdot (splitQualifier name).1
    rwa [← hsplit] at hdotted

structure Sentence where
  unique : Bool
  optional : Bool
  /-- The parts of the name of the index. -/
  name : List (List Char)
  /-- The parts of the name of the table. -/
  table : List (List Char)
  /-- What stands between the parentheses of the column list. -/
  body : List Lexeme
  predicate : List Char

namespace Sentence

variable {sentence : Sentence} {cursor : Cursor}

/-- The cursor stands on the sentence: its front, its body between parentheses, and nothing
else in the head, with its clause as the trailer.  Blanks and comments may stand before any
piece of the front, before the opening parenthesis and after the closing one; the body is
taken as it is, with its own. -/
structure IsAt (sentence : Sentence) (cursor : Cursor) : Prop where
  head : ∃ start left,
    cursor.pending = start ++ leftParen :: (sentence.body ++ rightParen :: left) ∧
      IsFront (solid start) sentence.unique sentence.optional sentence.name sentence.table ∧
      AllBlank left
  parensMatch : ParensMatch sentence.body
  clause : IsClause (clauseText cursor.trailer) sentence.predicate

/-- The descriptor says what the sentence says, field by field. -/
structure Describes (sentence : Sentence) (descriptor : Descriptor) : Prop where
  unique : descriptor.unique = sentence.unique
  optional : descriptor.optional = sentence.optional
  name : SplitsAtLastDot (joinDotted sentence.name) descriptor.schema.toList
    descriptor.index.toList
  table : descriptor.table.toList = joinDotted sentence.table
  columns : ∃ entries, Lists sentence.body entries ∧
    descriptor.columns = entries.filterMap column?
  predicate : descriptor.predicate.toList = sentence.predicate

/-- A sentence is read wherever it stands, whatever blanks and comments are
between its pieces. -/
theorem IsAt.exists_next (hat : sentence.IsAt cursor)
    (hmarks : MarksSpelled cursor.pending) :
    ∃ descriptor, cursor.next.1 = some descriptor ∧ sentence.Describes descriptor := by
  obtain ⟨start, left, hpending, hfront, hleft⟩ := hat.head
  have hbodyMarks : MarksSpelled sentence.body := fun lexeme hlexeme =>
    hmarks lexeme (by simp [hpending, hlexeme])
  obtain ⟨entries, hlists⟩ := hat.parensMatch.exists_lists hbodyMarks
  let outlined : Outline := { sentence with entries }
  have houtline : outline cursor.pending = (some outlined, left) :=
    (outline_eq_some_iff hmarks).mpr
      ⟨start, sentence.body, hpending, hfront, hat.parensMatch, hlists, hleft⟩
  refine ⟨_, Cursor.next_eq_some_iff.mpr
    ⟨outlined, left, _, houtline, predicate?_eq_some_iff.mpr hat.clause, rfl⟩, ?_⟩
  exact {
    unique := rfl
    optional := rfl
    name := by
      simpa [Outline.descriptor] using
        splitsAtLastDot_splitQualifier (joinDotted sentence.name)
    table := String.toList_ofList
    columns := ⟨entries, hlists, rfl⟩
    predicate := String.toList_ofList }

/-- What is read is a sentence: each piece that the readers have taken is a
piece of one. -/
theorem exists_isAt {descriptor : Descriptor} (hmarks : MarksSpelled cursor.pending)
    (hnext : cursor.next.1 = some descriptor) : ∃ sentence : Sentence, sentence.IsAt cursor := by
  obtain ⟨outlined, left, predicate, houtline, hpredicate, -⟩ :=
    Cursor.next_eq_some_iff.mp hnext
  obtain ⟨start, body, hpending, hfront, hmatch, -, hleft⟩ :=
    (outline_eq_some_iff hmarks).mp houtline
  exact ⟨{ outlined with body, predicate },
    ⟨start, left, hpending, hfront, hleft⟩, hmatch, predicate?_eq_some_iff.mp hpredicate⟩

end Sentence

/-- From the start of a text exactly the sentences are read, and as what they
say.  A text may be a sentence in one way only, as far as a descriptor can tell. -/
theorem Cursor.next_follows_grammar {text : String} {cursor : Cursor}
    (hcursor : Cursor.ofText? text = some cursor) :
    ((∃ descriptor, cursor.next.1 = some descriptor) ↔
        ∃ sentence : Sentence, sentence.IsAt cursor) ∧
      ∀ (descriptor : Descriptor) (sentence : Sentence),
        cursor.next.1 = some descriptor → sentence.IsAt cursor →
          sentence.Describes descriptor := by
  have hmarks := marksSpelled_of_ofText? hcursor
  refine ⟨⟨?_, ?_⟩, ?_⟩
  · rintro ⟨descriptor, hnext⟩
    exact Sentence.exists_isAt hmarks hnext
  · rintro ⟨sentence, hat⟩
    obtain ⟨descriptor, hnext, -⟩ := hat.exists_next hmarks
    exact ⟨descriptor, hnext⟩
  · intro descriptor sentence hnext hat
    obtain ⟨descriptor', hnext', hdescribes⟩ := hat.exists_next hmarks
    rw [hnext] at hnext'
    cases hnext'
    exact hdescribes

def commentedText : String :=
  "/* by day */ create Unique INDEX main /**/ . 'the.day' on \"t u\"\n" ++
    "( a, lower(b) || ',' desc ) Where(a > 1) ; ; "

def commentedDescriptor : Descriptor where
  unique := true
  schema := "main.the"
  index := "day"
  table := "t u"
  columns := [{ name := "a" },
    { name := "lower(b) || ','", sort := "DESC", isExpression := true }]
  predicate := "(a > 1)"

theorem next_follows_grammar_commentedText :
    ∃ cursor, Cursor.ofText? commentedText = some cursor ∧
      cursor.next.1 = some commentedDescriptor ∧
      ((∃ descriptor, cursor.next.1 = some descriptor) ↔
        ∃ sentence : Sentence, sentence.IsAt cursor) ∧
      ∀ (descriptor : Descriptor) (sentence : Sentence),
        cursor.next.1 = some descriptor → sentence.IsAt cursor →
          sentence.Describes descriptor := by
  have hread : ((Cursor.ofText? commentedText).bind fun cursor => cursor.next.1) =
      some commentedDescriptor := by
    decide +kernel
  obtain ⟨cursor, hcursor, hnext⟩ := Option.bind_eq_some_iff.mp hread
  exact ⟨cursor, hcursor, hnext, Cursor.next_follows_grammar hcursor⟩

end CreateIndex.Statement
