import CreateIndex.Proofs.Lexeme.Spelling
import CreateIndex.Proofs.Statement.Cursors
import CreateIndex.Proofs.Statement.Grammar
import CreateIndex.Proofs.Statement.Peeling
import CreateIndex.Session

/-!
# Quoted text in a statement

Names in quotes and quoted text in the predicate are squeezed like the rest of a statement: a run
of blanks in them becomes one space.  Nothing else happens to them, neither when a statement is
read nor when it is written on another table.
-/

namespace CreateIndex.Statement

open Lexeme Text

/-! ## What the lexemes were typed as

The lexemes of a statement are read from its squeezed text.  Each of them stands for one stretch of
the text as it was typed, and the trailer stands for the rest; only the lengths and kinds of the
blanks differ.
-/

/-- A stretch of typed text, and the lexeme that it was read as.  Blanks that
were collapsed are still there in what was typed. -/
structure Stretch where
  typed : List Char
  lexeme : Lexeme

namespace Stretch

def textOf (stretches : List Stretch) : List Char :=
  stretches.flatMap typed

def lexemes (stretches : List Stretch) : List Lexeme :=
  stretches.map lexeme

/-- The stretch is an identifier with the name, and it was typed as the name may be. -/
def Names (stretch : Stretch) (name : List Char) : Prop :=
  stretch.lexeme.identifier? = some name ∧ TypedAs name stretch.typed

end Stretch

open Stretch

section ReadAs

variable {text rest typed after : List Char} {cursor : Cursor} {stretches : List Stretch}
  {lexemes : List Lexeme}

/-- The text was typed as the stretches, which are read as the lexemes of the cursor, and a
rest, which is its trailer.  The blanks around the text belong to none of them. -/
structure ReadAs (text : List Char) (cursor : Cursor) (stretches : List Stretch)
    (rest : List Char) : Prop where
  trim_eq : trim text = textOf stretches ++ rest
  lexemes_eq : Stretch.lexemes stretches = cursor.pending
  collapse_typed : ∀ stretch ∈ stretches, collapse stretch.typed = stretch.lexeme.text
  collapse_rest : collapse rest = cursor.trailer

/-- Lexemes whose texts make up a collapsed text were typed one after the other,
so that each of them has its own stretch of what was typed. -/
theorem exists_stretches (hcollapse : collapse typed = sourceText lexemes ++ after) :
    ∃ stretches rest, typed = textOf stretches ++ rest ∧ Stretch.lexemes stretches = lexemes ∧
      (∀ stretch ∈ stretches, collapse stretch.typed = stretch.lexeme.text) ∧
      collapse rest = after := by
  induction lexemes generalizing typed with
  | nil => exact ⟨[], typed, rfl, rfl, by simp, hcollapse⟩
  | cons lexeme lexemes ih =>
      rw [sourceText_cons, List.append_assoc] at hcollapse
      obtain ⟨first, left, rfl, hfirst, hleft, -⟩ := exists_append_of_collapse hcollapse
      obtain ⟨stretches, rest, rfl, hlexemes, htyped, hrest⟩ := ih hleft
      refine ⟨⟨first, lexeme⟩ :: stretches, rest, ?_, ?_, ?_, hrest⟩
      · rw [← List.append_assoc]
        rfl
      · rw [← hlexemes]
        rfl
      · intro stretch hstretch
        rcases List.mem_cons.mp hstretch with rfl | hstretch
        · exact hfirst
        · exact htyped stretch hstretch

/-- Every text with a cursor was typed as what the cursor stands on. -/
theorem exists_readAs {text : String} (hcursor : Cursor.ofText? text = some cursor) :
    ∃ stretches rest, ReadAs text.toList cursor stretches rest := by
  have hsqueeze := squeeze_of_ofText? hcursor
  rw [squeeze_eq_collapse] at hsqueeze
  obtain ⟨stretches, rest, htrim, hlexemes, htyped, hrest⟩ := exists_stretches hsqueeze
  exact ⟨stretches, rest, htrim, hlexemes, htyped, hrest⟩

/-- Every identifier was typed as its name may be, and a quoted one in quotes of
some kind. -/
theorem ReadAs.names {text : String} (hcursor : Cursor.ofText? text = some cursor)
    (hread : ReadAs text.toList cursor stretches rest) {stretch : Stretch}
    (hmem : stretch ∈ stretches) {name : List Char}
    (hname : stretch.lexeme.identifier? = some name) : stretch.Names name := by
  obtain ⟨hlex, heven, -⟩ := evenlySpaced_of_ofText? hcursor
  have hlexeme : stretch.lexeme ∈ cursor.pending := by
    rw [← hread.lexemes_eq]
    exact List.mem_map_of_mem hmem
  exact ⟨hname, typedAs_of_mem hlex heven hlexeme hname (hread.collapse_typed stretch hmem)⟩

end ReadAs

variable {text : String} {cursor : Cursor} {descriptor : Descriptor} {stretches : List Stretch}
  {rest : List Char} {sentence : Sentence} {opener closer : Char} {content : List Char}

/-! ## Names -/

theorem IsFront.exists_table {pieces : List Lexeme} {unique optional : Bool}
    {name table : List (List Char)} (hfront : IsFront pieces unique optional name table) :
    ∃ before tables, pieces = before ++ tables ∧ SpellsName tables table := by
  cases hfront with
  | @mk create index on uniques optionals names tables _ _ _ _ _ _ _ _ _ _ _ htable =>
      refine ⟨[create] ++ (uniques ++ ([index] ++ (optionals ++ (names ++ [on])))), tables, ?_,
        htable⟩
      simp only [List.append_assoc]

/-- The stretches of a sentence: those of the table name stand before the column
list. -/
theorem Sentence.IsAt.exists_table (hat : sentence.IsAt cursor)
    (hlexemes : Stretch.lexemes stretches = cursor.pending) :
    ∃ before dotted list, stretches = before ++ dotted ++ list ∧
      SpellsName (solid (Stretch.lexemes dotted)) sentence.table ∧
      (Stretch.lexemes list).head? = some leftParen := by
  obtain ⟨start, left, hpending, hfront, -⟩ := hat.head
  obtain ⟨first, tables, hsolid, htable⟩ := hfront.exists_table
  obtain ⟨before, dotted, rfl, rfl, rfl⟩ := List.filter_eq_append_iff.mp hsolid
  rw [hpending] at hlexemes
  obtain ⟨front, list, rfl, hstart, hlist⟩ := List.map_eq_append_iff.mp hlexemes
  obtain ⟨before', dotted', rfl, -, rfl⟩ := List.map_eq_append_iff.mp hstart
  exact ⟨before', dotted', list, rfl, htable, by rw [Stretch.lexemes, hlist]; rfl⟩

/-- A column that is no expression is named by an identifier in its entry, and
the entry has its own stretches. -/
theorem Sentence.IsAt.exists_entry (hat : sentence.IsAt cursor)
    (hdescribes : sentence.Describes descriptor)
    (hlexemes : Stretch.lexemes stretches = cursor.pending) {column : Column}
    (hcolumn : column ∈ descriptor.columns) (hplain : column.isExpression = false) :
    ∃ before entry after, stretches = before ++ entry ++ after ∧
      column? (Stretch.lexemes entry) = some column ∧
      ∃ stretch ∈ entry, stretch.lexeme.identifier? = some column.name.toList := by
  obtain ⟨start, left, hpending, -⟩ := hat.head
  obtain ⟨entries, hlists, hcolumns⟩ := hdescribes.columns
  rw [hcolumns] at hcolumn
  obtain ⟨entry, hentry, hread⟩ := List.mem_filterMap.mp hcolumn
  obtain ⟨front, back, hbody⟩ := hlists.isInfix_of_mem hentry
  have hsplit : Stretch.lexemes stretches =
      start ++ leftParen :: front ++ entry ++ (back ++ rightParen :: left) := by
    rw [hlexemes, hpending, ← hbody]
    simp
  obtain ⟨before', after, rfl, hbefore', -⟩ := List.map_eq_append_iff.mp hsplit
  obtain ⟨before, typed, rfl, -, rfl⟩ := List.map_eq_append_iff.mp hbefore'
  refine ⟨before, typed, after, rfl, hread, ?_⟩
  obtain ⟨named, collation, order, collate, sort, gap, gap', hparts, -, -, -, -, rfl⟩ :=
    exists_parts_of_column? hread
  obtain ⟨lexeme, rfl, hname⟩ := exists_of_entryName (Prod.ext rfl hplain)
  have hmem : lexeme ∈ typed.map Stretch.lexeme := by
    rw [hparts]
    simp
  obtain ⟨stretch, hstretch, rfl⟩ := List.mem_map.mp hmem
  exact ⟨stretch, hstretch, by simpa using hname⟩

/-! ## The predicate -/

theorem not_mem_keyword {word : List Char} (hcloser : quoteCloser? opener = some closer)
    (hword : word.map Char.toUpper <+: whereKeyword) : opener ∉ word := by
  have hpairs : ∀ pair ∈ quotePairs, pair.1.toUpper ∉ whereKeyword := by decide
  intro hmem
  exact hpairs _ (mem_quotePairs hcloser) (hword.subset (List.mem_map_of_mem hmem))

/-- A piece that starts with a character outside the first of two texts is
within the other. -/
theorem isInfix_of_isInfix_append {c : Char} {part start left : List Char} (hc : c ∉ start)
    (hwithin : c :: part <:+: start ++ left) : c :: part <:+: left := by
  obtain ⟨before, after, happend⟩ := hwithin
  rw [List.append_assoc] at happend
  rcases List.append_eq_append_iff.mp happend with ⟨gap, hstart, hleft⟩ | ⟨gap, -, hleft⟩
  · cases gap with
    | nil => exact ⟨[], after, by simpa using hleft⟩
    | cons d gap =>
        obtain ⟨rfl, -⟩ := List.cons.inj hleft
        exact absurd (by simp [hstart]) hc
  · exact ⟨gap, after, by rw [hleft, List.append_assoc]⟩

/-- Quoted text in a trailer is text of its predicate, for no keyword has a
quote in it and none is dropped at the end. -/
theorem isInfix_predicate {trailer predicate : List Char}
    (hread : predicate? trailer = some predicate) (hcloser : quoteCloser? opener = some closer)
    (hwithin : opener :: content ++ [closer] <:+: trailer) :
    opener :: content ++ [closer] <:+: predicate := by
  obtain ⟨hopenerBlank, hcloserBlank⟩ := not_isBlank_of_quoteCloser? hcloser
  have hlast : ∀ c ∈ (opener :: content ++ [closer]).getLast?, c = closer := by
    rw [List.getLast?_concat]
    exact fun c hc => (Option.some.inj hc).symm
  have htrim {items : List Char} (hitems : opener :: content ++ [closer] <:+: items) :
      opener :: content ++ [closer] <:+: trim items := by
    apply isInfix_trimWhile _ _ (by simp) hitems
    · simpa using hopenerBlank
    · exact fun c hc => hlast c hc ▸ hcloserBlank
  have hclause : opener :: content ++ [closer] <:+: clauseText trailer := by
    apply isInfix_dropEndWhile _ (by simp) (htrim hwithin)
    have hpairs : ∀ pair ∈ quotePairs, pair.2 ≠ ';' ∧ pair.2 ≠ ' ' := by decide
    intro c hc
    simpa [hlast c hc] using hpairs _ (mem_quotePairs hcloser)
  have hreads := predicate?_eq_some_iff.mp hread
  generalize clauseText trailer = clause at hclause hreads
  cases hreads with
  | begun hbegun =>
      exact absurd (hclause.subset (by simp)) (not_mem_keyword hcloser hbegun)
  | @whole word rest hword =>
      have hkeyword : word.map Char.toUpper <+: whereKeyword := by
        simp only [hword, List.prefix_rfl]
      exact htrim (isInfix_of_isInfix_append (not_mem_keyword hcloser hkeyword) hclause)

/-- What was typed in quotes after the column list is in the predicate, with its runs of blanks
collapsed. -/
theorem ReadAs.isInfix_predicate (hread : ReadAs text.toList cursor stretches rest)
    {predicate : List Char} (hpredicate : predicate? cursor.trailer = some predicate)
    (hcloser : quoteCloser? opener = some closer)
    (hwithin : opener :: content ++ [closer] <:+: rest) :
    opener :: collapse content ++ [closer] <:+: predicate := by
  obtain ⟨hopenerBlank, hcloserBlank⟩ := not_isBlank_of_quoteCloser? hcloser
  have hquoted := isInfix_collapse (by simpa using hopenerBlank) hwithin
  rw [collapse_enclose hopenerBlank hcloserBlank, hread.collapse_rest] at hquoted
  exact Statement.isInfix_predicate hpredicate hcloser hquoted

/-- The canonical statement holds the predicate as it is. -/
theorem isInfix_toStatement {part : List Char} (hne : part ≠ [])
    (hwithin : part <:+: descriptor.predicate.toList) :
    part <:+: descriptor.toStatement.toList := by
  have hpredicate : descriptor.predicate.toList ≠ [] := by
    intro hnil
    rw [hnil] at hwithin
    exact hne (List.infix_nil.mp hwithin)
  have hclause : part <:+: clause " WHERE " descriptor.predicate.toList := by
    rw [clause, if_neg hpredicate]
    exact hwithin.trans (List.suffix_append _ _).isInfix
  have hsuffix : clause " WHERE " descriptor.predicate.toList <:+ descriptor.statementChars :=
    ⟨_, rfl⟩
  rw [Descriptor.toStatement, String.toList_ofList]
  exact hclause.trans hsuffix.isInfix

/-! ## Whole statements -/

/-- What a descriptor says in quotes is what was typed in quotes, with every run of blanks
collapsed. -/
structure KeepsQuoted (text : String) (descriptor : Descriptor) (sentence : Sentence)
    (stretches : List Stretch) (rest : List Char) : Prop where
  /-- Every identifier of the head has the name that it was typed as. -/
  typedAs : ∀ stretch ∈ stretches, ∀ name, stretch.lexeme.identifier? = some name →
    TypedAs name stretch.typed
  /-- The parts of the table name are the identifiers right before the column list. -/
  table : ∃ before dotted list, stretches = before ++ dotted ++ list ∧
    SpellsName (solid (Stretch.lexemes dotted)) sentence.table ∧
    (Stretch.lexemes list).head? = some leftParen
  /-- A column that is no expression is named by an identifier of its entry. -/
  columns : ∀ column ∈ descriptor.columns, column.isExpression = false →
    ∃ before entry after, stretches = before ++ entry ++ after ∧
      column? (Stretch.lexemes entry) = some column ∧
      ∃ stretch ∈ entry, stretch.lexeme.identifier? = some column.name.toList
  /-- Quoted text after the column list stays in the predicate, and in the statement that is
  written for another table. -/
  predicate : ∀ opener closer content, quoteCloser? opener = some closer →
    opener :: content ++ [closer] <:+: rest →
      opener :: collapse content ++ [closer] <:+: descriptor.predicate.toList ∧
      ∀ table, opener :: collapse content ++ [closer] <:+: (renameTable table text).toList

/-- A statement that is read keeps what it says in quotes. -/
theorem Cursor.next_keepsQuoted (hcursor : Cursor.ofText? text = some cursor)
    (hnext : cursor.next.1 = some descriptor) :
    ∃ stretches rest sentence, ReadAs text.toList cursor stretches rest ∧
      sentence.IsAt cursor ∧ sentence.Describes descriptor ∧
      KeepsQuoted text descriptor sentence stretches rest := by
  have hmarks := marksSpelled_of_ofText? hcursor
  obtain ⟨stretches, rest, hread⟩ := exists_readAs hcursor
  obtain ⟨sentence, hat⟩ := Sentence.exists_isAt hmarks hnext
  obtain ⟨descriptor', hnext', hdescribes⟩ := hat.exists_next hmarks
  rw [hnext] at hnext'
  cases hnext'
  refine ⟨stretches, rest, sentence, hread, hat, hdescribes, ?_, ?_, ?_, ?_⟩
  · exact fun stretch hstretch name hname => (hread.names hcursor hstretch hname).2
  · exact hat.exists_table hread.lexemes_eq
  · exact fun column hcolumn hplain =>
      hat.exists_entry hdescribes hread.lexemes_eq hcolumn hplain
  · intro opener closer content hcloser hwithin
    have hpredicate : predicate? cursor.trailer = some descriptor.predicate.toList := by
      rw [hdescribes.predicate]
      exact predicate?_eq_some_iff.mpr hat.clause
    have hkept := hread.isInfix_predicate hpredicate hcloser hwithin
    have hofStatement : Descriptor.ofStatement text = descriptor := by
      rw [Descriptor.ofStatement, hcursor, Option.bind_some, hnext]
      rfl
    refine ⟨hkept, fun table => ?_⟩
    rw [renameTable, hofStatement]
    exact isInfix_toStatement (by simp) hkept

def spacedText : String :=
  " CREATE INDEX i ON [my  db].'t\t1' (\"a\n\nb\" , c)\n WHERE d = 'x  y' AND \"e\t f\" > 0; "

def spacedDescriptor : Descriptor where
  index := "i"
  table := "my db.t 1"
  columns := [{ name := "a b" }, { name := "c" }]
  predicate := "d = 'x y' AND \"e f\" > 0"

theorem next_keepsQuoted_spacedText :
    ∃ cursor, Cursor.ofText? spacedText = some cursor ∧
      cursor.next.1 = some spacedDescriptor ∧
      ∃ stretches rest sentence, ReadAs spacedText.toList cursor stretches rest ∧
        sentence.IsAt cursor ∧ sentence.Describes spacedDescriptor ∧
        KeepsQuoted spacedText spacedDescriptor sentence stretches rest := by
  have hread : ((Cursor.ofText? spacedText).bind fun cursor => cursor.next.1) =
      some spacedDescriptor := by
    decide +kernel
  obtain ⟨cursor, hcursor, hnext⟩ := Option.bind_eq_some_iff.mp hread
  exact ⟨cursor, hcursor, hnext, Cursor.next_keepsQuoted hcursor hnext⟩

/-- Quoted text with two spaces in it is neither in the predicate nor in the
statement for another table. -/
theorem not_isInfix_twoSpaces :
    let statement := "CREATE INDEX i ON t (a) WHERE b = 'x  y'"
    (Descriptor.ofStatement statement).predicate = "b = 'x y'" ∧
      "'x  y'".toList <:+: statement.toList ∧
      ¬"'x  y'".toList <:+: (Descriptor.ofStatement statement).predicate.toList ∧
      ¬"'x  y'".toList <:+: (renameTable "u" statement).toList := by
  decide +kernel

end CreateIndex.Statement
