import CreateIndex.Proofs.Descriptor.Columns
import CreateIndex.Proofs.Lexeme.Shown
import CreateIndex.Proofs.Statement.Cursors
import CreateIndex.Proofs.Statement.Predicates
import CreateIndex.Proofs.Statement.Taken
import CreateIndex.Proofs.Text.Dotted

/-!
# Normal form

Whatever a statement is, its descriptor is in normal form: names and predicate are spaced
like a squeezed text, the name of the index has no dot, and sort orders are keywords in upper
case.  Each field gets this from the squeezed statement, along its own path.  The one path
that does not keep it is the display form of a lone literal, which shows escapes decoded.
-/

namespace CreateIndex

open Text Lexeme Statement

namespace Statement

variable {named collation order : List Lexeme} {collate sort : List Char}

def namedLexemes (entry : List Lexeme) : List Lexeme :=
  (peelCollation (peelSort (trimBlanks entry)).1).1

theorem Parts.namedLexemes_eq (hparts : Parts named collation order collate sort)
    {gap gap' : List Lexeme} (hgap : AllBlank gap) (hgap' : AllBlank gap') :
    namedLexemes (gap ++ (named ++ collation ++ order) ++ gap') = named := by
  rw [namedLexemes, trimBlanks_append hgap hparts.isTrimmed_entry hgap', hparts.peelSort_eq,
    hparts.peelCollation_eq]

end Statement

/-! ## Columns -/

namespace Column

/-- A column in normal form, up to the spacing of its name. -/
structure IsNormal (column : Column) : Prop where
  name_ne : column.name ≠ ""
  collate : EvenlySpaced column.collate.toList
  sort : IsSortOrder column.sort.toList

section Read

variable {text : List Char} {lexemes named collation order entry : List Lexeme}
  {name collate sort : List Char} {column : Column}
  (hread : lex text = some lexemes) (heven : EvenlySpaced text)

include hread heven

theorem evenlySpaced_of_givesCollation (hgives : GivesCollation collation collate)
    (hmem : ∀ lexeme ∈ collation, lexeme ∈ lexemes) : EvenlySpaced collate := by
  cases hgives with
  | none => exact evenlySpaced_nil
  | some _ _ _ hname => exact evenlySpaced_identifier hread heven (hmem _ (by simp)) hname

theorem isSortOrder_of_givesSort (hgives : GivesSort order sort)
    (hmem : ∀ lexeme ∈ order, lexeme ∈ lexemes) :
    order = [] ∧ sort = [] ∨ sort ≠ [] ∧ IsSortOrder sort := by
  cases hgives with
  | none => exact Or.inl ⟨rfl, rfl⟩
  | @some gap word _ hsort =>
      right
      have hupper (spelling : String) (hkeyword : word.isKeyword spelling) :
          upper word.shown = spelling.toList := by
        unfold isKeyword at hkeyword
        split at hkeyword
        · rename_i name htoken
          obtain ⟨rfl, -⟩ := eq_bare_of_mem hread heven (hmem word (by simp)) htoken
          exact beq_iff_eq.mp hkeyword
        · cases hkeyword
      rcases hsort with hsort | hsort
      · rw [hupper "ASC" hsort]
        exact ⟨by decide, Or.inr (Or.inl rfl)⟩
      · rw [hupper "DESC" hsort]
        exact ⟨by decide, Or.inr (Or.inr rfl)⟩

/-- A name is unquoted from a lexeme, shown, or a piece of the text, and so it
is spaced as the text is unless an escape was decoded. -/
theorem evenlySpaced_of_entryName (hwithin : named <:+: lexemes) :
    EvenlySpaced (entryName named).1 ∨
      ∃ literal, named = [literal] ∧ literal.IsDecoded := by
  unfold entryName
  split
  · rename_i lexeme
    have hmem : lexeme ∈ lexemes := hwithin.subset (by simp)
    cases hidentifier : lexeme.identifier? with
    | some name => exact .inl (evenlySpaced_identifier hread heven hmem hidentifier)
    | none =>
        exact (evenlySpaced_shown hread heven hmem).imp_right
          fun hdecoded => ⟨lexeme, rfl, hdecoded⟩
  · exact .inl (heven.of_isInfix (isInfix_sourceText hread hwithin))

/-- The collation and the sort order of any column that is read are in normal
form, each in its own way. -/
theorem isNormal_of_column? (hwithin : entry <:+: lexemes)
    (hcolumn : column? entry = some column) : column.IsNormal := by
  obtain ⟨named, collation, order, collate, sort, gap, gap', rfl, hparts, -, -, hne, rfl⟩ :=
    exists_parts_of_column? hcolumn
  have hcollate := evenlySpaced_of_givesCollation hread heven hparts.givesCollation
    fun lexeme hlexeme => hwithin.subset (by simp [hlexeme])
  have hsort := isSortOrder_of_givesSort hread heven hparts.givesSort
    fun lexeme hlexeme => hwithin.subset (by simp [hlexeme])
  constructor
  · exact fun hname => hne (by simpa using congrArg String.toList hname)
  · simpa using hcollate
  · rw [String.toList_ofList]
    exact hsort.elim (fun h => Or.inl h.2) And.right

theorem evenlySpaced_of_column? (hwithin : entry <:+: lexemes)
    (hcolumn : column? entry = some column) :
    EvenlySpaced column.name.toList ∨
      ∃ literal, namedLexemes entry = [literal] ∧ literal.IsDecoded := by
  obtain ⟨named, collation, order, collate, sort, gap, gap', rfl, hparts, hgap, hgap', -, rfl⟩ :=
    exists_parts_of_column? hcolumn
  have hnamed : named <:+: lexemes :=
    List.IsInfix.trans ⟨gap, collation ++ order ++ gap', by simp⟩ hwithin
  rw [hparts.namedLexemes_eq hgap hgap', String.toList_ofList]
  exact evenlySpaced_of_entryName hread heven hnamed

end Read

end Column

/-! ## Descriptors -/

variable {statement : String} {column : Column}

/-- A descriptor is blank or comes from an outline and a predicate, with nothing
in between. -/
theorem ofStatement_cases (statement : String) :
    Descriptor.ofStatement statement = .blank ∨
      ∃ cursor outlined left predicate, Cursor.ofText? statement = some cursor ∧
        outline cursor.pending = (some outlined, left) ∧
        predicate? cursor.trailer = some predicate ∧
        Descriptor.ofStatement statement = outlined.descriptor predicate := by
  rw [Descriptor.ofStatement]
  cases hcursor : Cursor.ofText? statement with
  | none => exact Or.inl rfl
  | some cursor =>
      rw [Option.bind_some]
      cases hnext : cursor.next.1 with
      | none => exact Or.inl rfl
      | some descriptor =>
          obtain ⟨outlined, left, predicate, houtline, hpredicate, rfl⟩ :=
            Cursor.next_eq_some_iff.mp hnext
          exact Or.inr ⟨cursor, outlined, left, predicate, rfl, houtline, hpredicate, rfl⟩

/-- Each column was read from an entry between the parentheses of the column
list. -/
theorem exists_entry_of_mem (hcolumn : column ∈ (Descriptor.ofStatement statement).columns) :
    ∃ cursor outlined left entry, Cursor.ofText? statement = some cursor ∧
      outline cursor.pending = (some outlined, left) ∧ entry ∈ outlined.entries ∧
      entry <:+: cursor.pending ∧ Balanced entry ∧ column? entry = some column := by
  obtain hblank | ⟨cursor, outlined, left, predicate, hcursor, houtline, -, hread⟩ :=
    ofStatement_cases statement
  · rw [hblank] at hcolumn
    cases hcolumn
  rw [hread] at hcolumn
  obtain ⟨entry, hentry, hcolumn⟩ := List.mem_filterMap.mp hcolumn
  obtain ⟨start, body, hpending, -, -, hlists, -⟩ :=
    (outline_eq_some_iff (marksSpelled_of_ofText? hcursor)).mp houtline
  have hbody : body <:+: cursor.pending := by
    rw [hpending]
    exact ⟨start ++ [leftParen], rightParen :: left, by simp⟩
  exact ⟨cursor, outlined, left, entry, hcursor, houtline, hentry,
    (hlists.isInfix_of_mem hentry).trans hbody, hlists.balanced entry hentry, hcolumn⟩

namespace Descriptor

/-- A descriptor in normal form, up to the spacing of the names of its columns. -/
structure IsNormal (descriptor : Descriptor) : Prop where
  schema : EvenlySpaced descriptor.schema.toList
  index : EvenlySpaced descriptor.index.toList
  index_no_dot : '.' ∉ descriptor.index.toList
  table : EvenlySpaced descriptor.table.toList
  columns : ∀ column ∈ descriptor.columns, column.IsNormal
  predicate : descriptor.predicate.toList = [] ∨ IsPredicate descriptor.predicate.toList

theorem isNormal_blank : blank.IsNormal where
  schema := evenlySpaced_nil
  index := evenlySpaced_nil
  index_no_dot := by decide
  table := evenlySpaced_nil
  columns column hcolumn := by cases hcolumn
  predicate := Or.inl rfl

theorem isNormal_ofStatement (statement : String) : (ofStatement statement).IsNormal := by
  obtain hblank | ⟨cursor, outlined, left, predicate, hcursor, houtline, hpredicate, hread⟩ :=
    ofStatement_cases statement
  · rw [hblank]
    exact isNormal_blank
  obtain ⟨hlex, hevenHead, hevenTrailer⟩ := evenlySpaced_of_ofText? hcursor
  obtain ⟨start, body, hpending, hfront, -⟩ :=
    (outline_eq_some_iff (marksSpelled_of_lex hlex)).mp houtline
  have hparts : ∀ part ∈ outlined.name ++ outlined.table, EvenlySpaced part := by
    intro part hpart
    obtain ⟨lexeme, hmem, hname⟩ := hfront.exists_of_mem hpart
    have hstart : lexeme ∈ start := List.mem_of_mem_filter hmem
    exact evenlySpaced_identifier hlex hevenHead (by simp [hpending, hstart]) hname
  have hname := evenlySpaced_splitQualifier
    (evenlySpaced_joinDotted fun part hpart => hparts part (List.mem_append_left _ hpart))
  have htable := evenlySpaced_joinDotted fun part hpart =>
    hparts part (List.mem_append_right _ hpart)
  constructor
  · simpa [hread, Outline.descriptor] using hname.1
  · simpa [hread, Outline.descriptor] using hname.2
  · simpa [hread, Outline.descriptor] using not_mem_splitQualifier (joinDotted outlined.name)
  · simpa [hread, Outline.descriptor] using htable
  · intro column hcolumn
    obtain ⟨cursor, -, -, entry, hcursor, -, -, hwithin, -, hcolumnRead⟩ :=
      exists_entry_of_mem hcolumn
    obtain ⟨hlex, heven, -⟩ := evenlySpaced_of_ofText? hcursor
    exact Column.isNormal_of_column? hlex heven hwithin hcolumnRead
  · simpa [hread, Outline.descriptor] using isPredicate_of_predicate? hpredicate hevenTrailer

/-- The column was read from an entry with a lone literal as its name, and an
escape in the literal was decoded. -/
def IsDecodedIn (statement : String) (column : Column) : Prop :=
  ∃ cursor outlined entry literal, Cursor.ofText? statement = some cursor ∧
    (outline cursor.pending).1 = some outlined ∧ entry ∈ outlined.entries ∧
    column? entry = some column ∧ namedLexemes entry = [literal] ∧ literal.IsDecoded

/-- What is read from any statement is in normal form.  Only the name of a column that is one
decoded literal may be spaced otherwise. -/
theorem ofStatement_in_normal_form (statement : String) :
    (ofStatement statement).IsNormal ∧
      ∀ column ∈ (ofStatement statement).columns,
        EvenlySpaced column.name.toList ∨ IsDecodedIn statement column := by
  refine ⟨isNormal_ofStatement statement, fun column hcolumn => ?_⟩
  obtain ⟨cursor, outlined, left, entry, hcursor, houtline, hentry, hwithin, -, hread⟩ :=
    exists_entry_of_mem hcolumn
  obtain ⟨hlex, heven, -⟩ := evenlySpaced_of_ofText? hcursor
  refine (Column.evenlySpaced_of_column? hlex heven hwithin hread).imp_right ?_
  rintro ⟨literal, hnamed, hdecoded⟩
  exact ⟨cursor, outlined, entry, literal, hcursor, by rw [houtline], hentry, hread, hnamed,
    hdecoded⟩

/-- A literal that is not escaped as a whole, but has a line feed in its display
form: the letter `N` does not keep escapes from being decoded. -/
theorem not_evenlySpaced_lineFeed :
    (ofStatement "CREATE INDEX i ON t (N'p\\nq')").columns =
        [{ name := "N'p\nq'", isExpression := true }] ∧
      ¬EvenlySpaced "N'p\nq'".toList := by
  refine ⟨by decide +kernel, fun heven => ?_⟩
  exact absurd (heven.eq_space '\n' (by decide) (by decide)) (by decide)

end Descriptor

end CreateIndex
