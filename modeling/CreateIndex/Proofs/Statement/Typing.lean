import CreateIndex.Proofs.Statement.Clauses
import CreateIndex.Proofs.Statement.Cursors
import CreateIndex.Proofs.Statement.TypedReading
import CreateIndex.Proofs.Text.WordRuns
import CreateIndex.Session

/-!
# Statements as they are typed

Three things that typing does not disturb.  Once the column list is closed, the head of a
statement is settled, and the predicate only grows.  What stands at the end besides blanks and
semicolons is all that counts there.  And how the words are spaced makes no difference at all.
-/

namespace CreateIndex.Statement

open Lexeme Text

variable {trailer tail : List Char} {text typed ending : String} {cursor : Cursor}
  {descriptor : Descriptor}

/-! ## Statements that are being typed -/

/-- The first parenthesised group of the text is closed. -/
def HasList (text : String) : Prop :=
  (cutAfterList? (squeeze text.toList)).isSome

instance (text : String) : Decidable (HasList text) :=
  inferInstanceAs (Decidable (_ = true))

/-- Once the list is closed, what follows only makes the trailer longer. -/
theorem ofText?_of_cut {head trailer rest : List Char}
    (hcut : cutAfterList? (squeeze typed.toList) = some (head, trailer))
    (hsqueeze : squeeze text.toList = squeeze typed.toList ++ rest) :
    Cursor.ofText? text = (lex head).map fun lexemes => ⟨lexemes, trailer ++ rest⟩ := by
  have hcutText : cutAfterList? (squeeze text.toList) = some (head, trailer ++ rest) := by
    rw [hsqueeze]
    exact Nesting.cutFrom_append_of_eq_some hcut rest
  rw [Cursor.ofText?, split, hcutText]
  rfl

/-- As soon as the list is closed the cursor has the lexemes that it will have
in the end. -/
theorem exists_trailer_of_isPrefix (hcursor : Cursor.ofText? text = some cursor)
    (hbegins : typed.toList <+: text.toList) (hlist : HasList typed) :
    ∃ trailer, Cursor.ofText? typed = some { cursor with trailer } ∧
      trailer <+: cursor.trailer := by
  obtain ⟨⟨head, trailer⟩, hcut⟩ := Option.isSome_iff_exists.mp hlist
  obtain ⟨rest, hrest⟩ := squeeze_isPrefix hbegins
  rw [ofText?_of_cut hcut hrest.symm] at hcursor
  obtain ⟨lexemes, hlex, rfl⟩ := Option.map_eq_some_iff.mp hcursor
  refine ⟨trailer, ?_, List.prefix_append trailer rest⟩
  rw [ofText?_of_cut hcut (List.append_nil _).symm, hlex]
  simp

/-- Live typing never loses the head: from the closed list on, what has been typed has the
descriptor of the whole, with a predicate that has been typed as far. -/
theorem Cursor.next_of_isPrefix (hcursor : Cursor.ofText? text = some cursor)
    (hnext : cursor.next.1 = some descriptor) (hbegins : typed.toList <+: text.toList)
    (hlist : HasList typed) :
    ∃ cursor' predicate, Cursor.ofText? typed = some cursor' ∧
      cursor'.next.1 = some { descriptor with predicate } ∧
      predicate.toList <+: descriptor.predicate.toList := by
  obtain ⟨trailer, htyped, htrailer⟩ := exists_trailer_of_isPrefix hcursor hbegins hlist
  obtain ⟨outlined, left, predicate, houtline, hpredicate, rfl⟩ :=
    Cursor.next_eq_some_iff.mp hnext
  obtain ⟨begun, hbegun, hgrows⟩ := predicate?_of_isPrefix hpredicate htrailer
  refine ⟨_, String.ofList begun, htyped,
    Cursor.next_eq_some_iff.mpr ⟨outlined, left, begun, houtline, hbegun, rfl⟩, ?_⟩
  simpa [Outline.descriptor] using hgrows

/-- A statement up to the middle of a string, with the rest still to come. -/
def unfinishedText : String :=
  "create index i on t ( a, b desc )\n  Where  a > ';  "

def finishedText : String :=
  unfinishedText ++ " x' /* ) */  ;  ;"

def finishedDescriptor : Descriptor where
  index := "i"
  table := "t"
  columns := [{ name := "a" }, { name := "b", sort := "DESC" }]
  predicate := "a > '; x' /* ) */"

theorem next_of_isPrefix_unfinishedText :
    ∃ cursor, Cursor.ofText? finishedText = some cursor ∧
      cursor.next.1 = some finishedDescriptor ∧ unfinishedText.toList <+: finishedText.toList ∧
      HasList unfinishedText ∧
      (∃ cursor' predicate, Cursor.ofText? unfinishedText = some cursor' ∧
        cursor'.next.1 = some { finishedDescriptor with predicate } ∧
        predicate.toList <+: finishedDescriptor.predicate.toList) ∧
      Descriptor.ofStatement unfinishedText = { finishedDescriptor with predicate := "a > '" } := by
  have hread : ((Cursor.ofText? finishedText).bind fun cursor => cursor.next.1) =
      some finishedDescriptor := by
    decide +kernel
  obtain ⟨cursor, hcursor, hnext⟩ := Option.bind_eq_some_iff.mp hread
  have hbegins : unfinishedText.toList <+: finishedText.toList := by
    rw [finishedText, String.toList_append]
    exact List.prefix_append _ _
  have hlist : HasList unfinishedText := by decide +kernel
  exact ⟨cursor, hcursor, hnext, hbegins, hlist,
    Cursor.next_of_isPrefix hcursor hnext hbegins hlist, by decide +kernel⟩

/-! ## The end of a statement

Blanks are squeezed, the trailer is trimmed, and then it loses the semicolons and spaces at its
end.  After a closed list these passes together take in whatever blanks and semicolons a statement
ends with, in any order, also where its clause is unfinished.
-/

/-- Blanks at the end of an evenly spaced trailer are spaces, so they are
dropped anyway. -/
theorem clauseText_eq (heven : EvenlySpaced trailer) :
    clauseText trailer =
      dropEndWhile (fun c => c == ';' || c == ' ') (trailer.dropWhile Text.isBlank) := by
  rw [clauseText, trim, trimWhile]
  apply dropEndWhile_dropEndWhile
  intro c hc hblank
  rw [heven.eq_space c ((List.dropWhile_sublist _).subset hc) hblank]
  rfl

theorem clauseText_append (heven : EvenlySpaced (trailer ++ tail)) (htail : IsEnd tail) :
    clauseText (trailer ++ tail) = clauseText trailer := by
  have htrailer := heven.of_isInfix (List.prefix_append trailer tail).isInfix
  rw [clauseText_eq heven, clauseText_eq htrailer, List.dropWhile_append]
  split
  · rename_i hempty
    have hrest : IsEnd (tail.dropWhile Text.isBlank) :=
      htail.of_isInfix (List.dropWhile_suffix _).isInfix
    rw [dropEndWhile_of_all hrest, List.isEmpty_iff.mp hempty]
    rfl
  · exact dropEndWhile_append_of_all htail _

/-- Spaces and semicolons at the end of a trailer are no part of its predicate. -/
theorem predicate?_append (heven : EvenlySpaced (trailer ++ tail)) (htail : IsEnd tail) :
    predicate? (trailer ++ tail) = predicate? trailer := by
  rw [predicate?_eq, predicate?_eq, clauseText_append heven htail]

/-- After a closed list, blanks and semicolons at the end change nothing, whether or not the
text is a statement. -/
theorem ofStatement_append_ending (hlist : HasList text) (hending : IsTypedEnd ending.toList) :
    Descriptor.ofStatement (text ++ ending) = Descriptor.ofStatement text := by
  obtain ⟨⟨head, trailer⟩, hcut⟩ := Option.isSome_iff_exists.mp hlist
  have hne : squeeze text.toList ≠ [] := by
    intro hnil
    rw [hnil] at hcut
    cases hcut
  obtain ⟨gap, hsqueeze⟩ := exists_squeeze_append hne ending.toList
  rw [← String.toList_append] at hsqueeze
  have htail : IsEnd (squeezeAfter gap ending.toList) := isEnd_squeezeAfter hending gap
  have heven : EvenlySpaced (trailer ++ squeezeAfter gap ending.toList) := by
    have hwhole := evenlySpaced_squeeze (text ++ ending).toList
    rw [hsqueeze, ← Nesting.append_of_cutFrom hcut, List.append_assoc] at hwhole
    exact hwhole.of_isInfix (List.suffix_append _ _).isInfix
  have hread (lexemes : List Lexeme) :
      (Cursor.next ⟨lexemes, trailer ++ squeezeAfter gap ending.toList⟩).1 =
        (Cursor.next ⟨lexemes, trailer⟩).1 := by
    simp only [Cursor.next, predicate?_append heven htail]
  rw [Descriptor.ofStatement, Descriptor.ofStatement, ofText?_of_cut hcut hsqueeze,
    ofText?_of_cut hcut (List.append_nil _).symm]
  cases lex head with
  | none => rfl
  | some lexemes => simpa using congrArg (·.getD Descriptor.blank) (hread lexemes)

/-- A statement up to the middle of a string, which has a semicolon in it.  What
ends the text ends no string. -/
theorem ofStatement_append_ending_open :
    let text := "create index i on t ( a )\n  Where  b = '\u00e9;\t"
    let ending := "\u3000; ;\n;\u00a0"
    HasList text ∧ (∀ c ∈ ending.toList, c = ';' ∨ Text.isBlank c) ∧
      Descriptor.ofStatement (text ++ ending) = Descriptor.ofStatement text ∧
      (Descriptor.ofStatement text).predicate = "b = '\u00e9" := by
  have hlist : HasList "create index i on t ( a )\n  Where  b = '\u00e9;\t" := by decide +kernel
  have hending : IsTypedEnd "\u3000; ;\n;\u00a0".toList := by
    unfold IsTypedEnd
    decide
  exact ⟨hlist, hending, ofStatement_append_ending hlist hending, by decide +kernel⟩

end CreateIndex.Statement

namespace CreateIndex

open Text

variable {text other : String}

/-! ## Statements that differ in their blanks

A statement is squeezed before anything else is done with it, so what is read, and what is written
for another table, depends on the words of the text alone.  Line breaks and indentation do not
matter, and between quotes too the blanks only separate words.
-/

theorem Statement.Cursor.ofText?_of_words_eq (hwords : words other.toList = words text.toList) :
    ofText? other = ofText? text := by
  rw [ofText?, ofText?, squeeze_eq_intercalate, squeeze_eq_intercalate, hwords]

theorem Descriptor.ofStatement_of_words_eq (hwords : words other.toList = words text.toList) :
    ofStatement other = ofStatement text := by
  rw [ofStatement, ofStatement, Statement.Cursor.ofText?_of_words_eq hwords]

/-- A text has one list of words.  Replacing every run of blanks by a space and trimming the
result is squeezing, which leaves the words with single spaces in between, so texts with the
same words have the same descriptor and are written alike for another table. -/
theorem reads_only_words (text : String) :
    (∀ runs, HasWords text.toList runs ↔ runs = words text.toList) ∧
      trim (collapse text.toList) = squeeze text.toList ∧
      squeeze text.toList = [' '].intercalate (words text.toList) ∧
      ∀ other : String, words other.toList = words text.toList →
        Descriptor.ofStatement other = Descriptor.ofStatement text ∧
          ∀ table, renameTable table other = renameTable table text := by
  refine ⟨fun runs => hasWords_iff, (squeeze_eq_trim_collapse _).symm,
    squeeze_eq_intercalate _, ?_⟩
  intro other hwords
  have hread := Descriptor.ofStatement_of_words_eq hwords
  refine ⟨hread, ?_⟩
  intro table
  rw [renameTable, renameTable, hread]

def respacedText : String :=
  "\u2003create\tUNIQUE  index i\r\n on t ( a ,lower(b\u00a0) desc )" ++
    "\n\twhere  b = 'x\u3000 y' ;\u2028"

def evenText : String :=
  "create UNIQUE index i on t ( a ,lower(b ) desc ) where b = 'x y' ;"

theorem reads_only_words_respacedText :
    words respacedText.toList = words evenText.toList ∧
      Descriptor.ofStatement respacedText = Descriptor.ofStatement evenText ∧
      (∀ table, renameTable table respacedText = renameTable table evenText) ∧
      renameTable "u" respacedText =
        "CREATE UNIQUE INDEX `i` ON `u` (`a`, lower(b ) DESC) WHERE b = 'x y'" := by
  have hwords : words respacedText.toList = words evenText.toList := by decide +kernel
  obtain ⟨-, -, -, hagrees⟩ := reads_only_words evenText
  obtain ⟨hread, hrename⟩ := hagrees respacedText hwords
  exact ⟨hwords, hread, hrename, by decide +kernel⟩

end CreateIndex
