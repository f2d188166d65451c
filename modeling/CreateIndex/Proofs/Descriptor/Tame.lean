import CreateIndex.Proofs.Descriptor.NormalForm
import CreateIndex.Proofs.Descriptor.Settled
import CreateIndex.Session

/-!
# Tame statements

A statement is tame if its head holds nothing that the lexer and the cut understand in
different ways, if its collations are bare words, and if its names fit between backticks.
Whatever is read from a tame statement is settled, expressions included, so its canonical
form has the same meaning.
-/

namespace CreateIndex

open Text Lexeme Statement

namespace Statement

variable {named collation order entry : List Lexeme} {collate sort : List Char}

def takenCollation? (entry : List Lexeme) : Option Lexeme :=
  let unsorted := (peelSort (trimBlanks entry)).1
  if (peelCollation unsorted).1 = unsorted then none else unsorted.getLast?

def isUnquoted (lexeme : Lexeme) : Bool :=
  match lexeme.token with
  | .word _ false => true
  | _ => false

theorem exists_word_of_isUnquoted {lexeme : Lexeme} (hunquoted : isUnquoted lexeme) :
    ∃ word, lexeme.token = .word word false := by
  unfold isUnquoted at hunquoted
  split at hunquoted
  · exact ⟨_, ‹_›⟩
  · cases hunquoted

/-- What an entry has as its collation is the last lexeme of the clause. -/
theorem Parts.takenCollation?_eq (hparts : Parts named collation order collate sort)
    {gap gap' : List Lexeme} (hgap : AllBlank gap) (hgap' : AllBlank gap') :
    takenCollation? (gap ++ (named ++ collation ++ order) ++ gap') = collation.getLast? := by
  rw [takenCollation?, trimBlanks_append hgap hparts.isTrimmed_entry hgap', hparts.peelSort_eq,
    hparts.peelCollation_eq]
  by_cases hnil : collation = []
  · simp [hnil]
  · have hne : named ≠ named ++ collation := by
      intro heq
      exact hnil (List.self_eq_append_right.mp heq)
    simp only [if_neg hne]
    exact List.getLast?_append_of_ne_nil _ hnil

/-- The collation of the entry, if it has one, can be written without quotes: it is a bare
word, and no sort order is seen in it where none follows. -/
def CollationFits (entry : List Lexeme) : Prop :=
  ∀ collation ∈ takenCollation? entry, ∀ name ∈ collation.identifier?,
    IsBareWord name ∧ ((peelSort (trimBlanks entry)).2 = [] → ¬IsSort (bare name))

/-- Whether a collation can be written without quotes depends on its name and on
the sort order after it alone. -/
theorem Parts.collationFits_iff (hparts : Parts named collation order collate sort)
    {gap gap' : List Lexeme} (hgap : AllBlank gap) (hgap' : AllBlank gap') :
    CollationFits (gap ++ (named ++ collation ++ order) ++ gap') ↔
      collation = [] ∧ collate = [] ∨
        IsBareWord collate ∧ (sort = [] → ¬IsSort (bare collate)) := by
  rw [CollationFits, hparts.takenCollation?_eq hgap hgap',
    trimBlanks_append hgap hparts.isTrimmed_entry hgap', hparts.peelSort_eq]
  cases hparts.givesCollation with
  | none => simp
  | some _ _ _ hname =>
      rw [List.getLast?_concat]
      simp [hname]

end Statement

namespace Column

/-! ## Columns of tame statements -/

section Reread

variable {text : List Char} {lexemes named collation order entry : List Lexeme}
  {collate sort : List Char} {column : Column}
  (hread : lex text = some lexemes) (heven : EvenlySpaced text)
  (hplain : ∀ lexeme ∈ lexemes, lexeme.IsPlain)

include hread heven in
theorem isBareWord_of_givesCollation (hgives : GivesCollation collation collate)
    (hmem : ∀ lexeme ∈ collation, lexeme ∈ lexemes)
    (hunquoted : ∀ last ∈ collation.getLast?, isUnquoted last) :
    collation = [] ∧ collate = [] ∨
      IsBareWord collate ∧ collation.getLast? = some (bare collate) := by
  cases hgives with
  | none => exact Or.inl ⟨rfl, rfl⟩
  | @some gap gap' keyword last _ _ _ _ hname =>
      right
      obtain ⟨word, htoken⟩ := exists_word_of_isUnquoted (hunquoted last List.getLast?_concat)
      obtain ⟨rfl, hword⟩ := eq_bare_of_mem hread heven (hmem _ (by simp)) htoken
      cases hname
      exact ⟨hword, List.getLast?_concat⟩

include hread heven hplain in
/-- An expression of one lexeme is written in its display form, which is read as
a lexeme with the same token. -/
theorem exists_namedBy_lexeme {lexeme : Lexeme} (hmem : lexeme ∈ lexemes)
    (hblank : ¬lexeme.isBlank) (hname : entryName [lexeme] = (column.name.toList, true))
    (hbalanced : Balanced [lexeme]) (hexpression : column.isExpression = true)
    (hparts : ∀ other : Lexeme, ¬other.isBlank → Parts [other] column.collation column.order
      column.collate.toList column.sort.toList) : ∃ named, column.NamedBy named := by
  have hidentifier : lexeme.identifier? = none := by
    cases hfound : lexeme.identifier? with
    | none => rfl
    | some found => simp [entryName, hfound] at hname
  have hshown : lexeme.shown = column.name.toList := by
    simpa [entryName, hidentifier] using hname
  obtain ⟨other, htoken, htext, hreadable, hphrase⟩ :=
    exists_shown hread heven hmem (hplain lexeme hmem) hblank
  have hotherBlank : ¬other.isBlank := by
    unfold Lexeme.isBlank at hblank ⊢
    rwa [htoken]
  have hotherIdentifier : other.identifier? = none := by
    unfold identifier? at hidentifier ⊢
    rwa [htoken]
  refine ⟨[other], ?_, hreadable, ?_, ?_, ?_, hparts other hotherBlank⟩
  · rw [sourceText_singleton, htext, hshown, writtenName, hexpression]
    rfl
  · have hdepth : depthAfter 0 [other] = depthAfter 0 [lexeme] := by
      rw [depthAfter_cons, depthAfter_cons, htoken]
    exact hdepth.trans hbalanced
  · rwa [sourceText_singleton]
  · simp only [entryName, hotherIdentifier, hexpression, shown_congr htoken htext, hshown]

include hread heven hplain in
/-- An expression of several lexemes is written as it was typed, and is read
again as these lexemes. -/
theorem namedBy_of_ne_singleton (hwithin : named <:+: lexemes)
    (hsingle : ∀ lexeme, named ≠ [lexeme])
    (hname : entryName named = (column.name.toList, true))
    (hbalanced : Balanced named) (hexpression : column.isExpression = true)
    (hparts : Parts named column.collation column.order column.collate.toList
      column.sort.toList) : column.NamedBy named where
  sourceText_eq := by
    rw [writtenName, hexpression]
    unfold entryName at hname
    split at hname
    · exact absurd rfl (hsingle _)
    · exact (Prod.mk.inj hname).1
  readable := readable_of_isInfix hread hwithin fun lexeme hlexeme =>
    hplain lexeme (hwithin.subset hlexeme)
  balanced := hbalanced
  isPhrase := isPhrase_of_isInfix hread heven hwithin
    (fun lexeme hlexeme => hplain lexeme (hwithin.subset hlexeme)) hparts.isTrimmed.ne_nil
    hparts.isTrimmed.head_not_blank hparts.isTrimmed.last_not_blank
  entryName_eq := by rw [hname, hexpression]
  parts := hparts

include hread heven hplain in
/-- A column with the parts of an entry is settled.  The cases are those of its
name: an identifier, a lone lexeme that is none, or more than one lexeme. -/
theorem settled_of_parts
    (hparts : Parts named collation order column.collate.toList column.sort.toList)
    (hwithin : named ++ collation ++ order <:+: lexemes) (hbalanced : Balanced named)
    (hname : entryName named = (column.name.toList, column.isExpression))
    (hne : column.name.toList ≠ [])
    (hcollate : collation = [] ∧ column.collate.toList = [] ∨
      IsBareWord column.collate.toList ∧
        (column.sort.toList = [] → ¬IsSort (bare column.collate.toList)))
    (hbacktick : column.isExpression = false → backtick ∉ column.name.toList) :
    column.Settled := by
  have hnamed : named <:+: lexemes := by
    apply List.IsInfix.trans _ hwithin
    rw [List.append_assoc]
    exact (List.prefix_append named _).isInfix
  have hsort := isSortOrder_of_givesSort hread heven hparts.givesSort
    fun lexeme hlexeme => hwithin.subset (by simp [hlexeme])
  have hno_collation (hnil : column.collate.toList = []) : collation = [] :=
    (hcollate.resolve_right fun h => h.1.ne_nil hnil).1
  have hno_order (hnil : column.sort.toList = []) : order = [] :=
    (hsort.resolve_right fun h => h.1 hnil).1
  have hbare (hcollation : column.collate.toList ≠ []) :
      column.sort.toList = [] → ¬IsSort (bare column.collate.toList) :=
    (hcollate.resolve_left fun h => hcollation h.2).2
  have hcollation : column.collate.toList = [] ∨ IsBareWord column.collate.toList :=
    hcollate.imp And.right And.left
  have hsortOrder : IsSortOrder column.sort.toList := hsort.elim (fun h => Or.inl h.2) And.right
  cases hexpression : column.isExpression with
  | false =>
      obtain ⟨lexeme, rfl, hidentifier⟩ := exists_of_entryName (hexpression ▸ hname)
      exact settled_of_plain hexpression hne (hbacktick hexpression)
        (evenlySpaced_identifier hread heven (hnamed.subset (by simp)) hidentifier)
        hcollation hsortOrder hbare
  | true =>
      rw [hexpression] at hname
      refine ⟨?_, hne, hcollation, hsortOrder⟩
      by_cases hsingle : ∃ lexeme, named = [lexeme]
      · obtain ⟨lexeme, rfl⟩ := hsingle
        apply exists_namedBy_lexeme hread heven hplain (hnamed.subset (by simp))
          (hparts.isTrimmed.head_not_blank lexeme rfl) hname hbalanced hexpression
        intro other hblank
        exact parts_canonical (isTrimmed_singleton hblank) hsortOrder
          (fun _ => peelCollation_singleton other) (fun _ _ => peelSort_singleton other) hbare
      · refine ⟨named, namedBy_of_ne_singleton hread heven hplain hnamed (not_exists.mp hsingle)
          hname hbalanced hexpression ?_⟩
        apply parts_canonical hparts.isTrimmed hsortOrder _ _ hbare
        · intro hnil
          exact hparts.no_collation (hno_collation hnil)
        · intro hnil hnone
          have hpeel := hparts.no_order (hno_order hnone)
          rwa [hno_collation hnil, List.append_nil] at hpeel

include hread heven in
/-- A collation that was written without quotes can be written so again. -/
theorem collationFits_of_isUnquoted (hwithin : entry <:+: lexemes)
    (hcolumn : column? entry = some column)
    (hunquoted : ∀ collation ∈ takenCollation? entry, isUnquoted collation) :
    CollationFits entry := by
  obtain ⟨named, collation, order, collate, sort, gap, gap', rfl, hparts, hgap, hgap', -, -⟩ :=
    exists_parts_of_column? hcolumn
  rw [hparts.takenCollation?_eq hgap hgap'] at hunquoted
  rw [hparts.collationFits_iff hgap hgap']
  have hcollate := isBareWord_of_givesCollation hread heven hparts.givesCollation
    (fun lexeme hlexeme => hwithin.subset (by simp [hlexeme])) hunquoted
  have hsort := isSortOrder_of_givesSort hread heven hparts.givesSort
    fun lexeme hlexeme => hwithin.subset (by simp [hlexeme])
  apply hcollate.imp_right
  rintro ⟨hword, hlast⟩
  refine ⟨hword, fun hnil => ?_⟩
  have hno_order : order = [] := (hsort.resolve_right fun h => h.1 hnil).1
  exact hparts.not_isSort_last hno_order _ hlast

include hread heven hplain in
/-- A column that is read from an entry is settled if its collation needs no
quotes and backticks can hold its name. -/
theorem settled_of_column? (hwithin : entry <:+: lexemes) (hbalanced : Balanced entry)
    (hcolumn : column? entry = some column) (hfits : CollationFits entry)
    (hbacktick : column.isExpression = false → backtick ∉ column.name.toList) :
    column.Settled := by
  obtain ⟨named, collation, order, collate, sort, gap, gap', rfl, hparts, hgap, hgap', hne,
    rfl⟩ := exists_parts_of_column? hcolumn
  have hcollate := (hparts.collationFits_iff hgap hgap').mp hfits
  have hparts' := (hparts.balanced_iff hgap hgap').mp hbalanced
  have hinner : named ++ collation ++ order <:+: lexemes :=
    List.IsInfix.trans ⟨gap, gap', rfl⟩ hwithin
  apply settled_of_parts hread heven hplain _ hinner hparts' _ _ _ hbacktick
  · simpa using hparts
  · simp
  · simpa using hne
  · simpa using hcollate

end Reread

end Column

/-! ## Tame statements -/

/-- A statement whose head the lexer and the cut understand alike, and whose names fit between
backticks.  Nothing is said of how its collations are spelled. -/
structure PlainStatement (statement : String) : Prop where
  /-- The head is no text of lexemes at all, or all of its lexemes are plain. -/
  plain : ∀ lexemes ∈ lex (split (squeeze statement.toList)).1,
    ∀ lexeme ∈ lexemes, lexeme.IsPlain
  schema : backtick ∉ (Descriptor.ofStatement statement).schema.toList
  index : backtick ∉ (Descriptor.ofStatement statement).index.toList
  table : backtick ∉ (Descriptor.ofStatement statement).table.toList
  columns : ∀ column ∈ (Descriptor.ofStatement statement).columns,
    column.isExpression = false → backtick ∉ column.name.toList

instance (statement : String) : Decidable (PlainStatement statement) :=
  decidable_of_iff
    ((∀ lexemes ∈ lex (split (squeeze statement.toList)).1,
        ∀ lexeme ∈ lexemes, lexeme.IsPlain) ∧
      backtick ∉ (Descriptor.ofStatement statement).schema.toList ∧
      backtick ∉ (Descriptor.ofStatement statement).index.toList ∧
      backtick ∉ (Descriptor.ofStatement statement).table.toList ∧
      ∀ column ∈ (Descriptor.ofStatement statement).columns,
        column.isExpression = false → backtick ∉ column.name.toList)
    ⟨fun ⟨plain, schema, index, table, columns⟩ => ⟨plain, schema, index, table, columns⟩,
     fun ⟨plain, schema, index, table, columns⟩ => ⟨plain, schema, index, table, columns⟩⟩

/-- A plain statement whose collations were typed without quotes.  Its canonical form has the
same meaning. -/
structure Tame (statement : String) : Prop extends PlainStatement statement where
  collations : ∀ cursor ∈ Cursor.ofText? statement,
    ∀ outlined ∈ (outline cursor.pending).1,
      ∀ entry ∈ outlined.entries, ∀ collation ∈ takenCollation? entry, isUnquoted collation

instance (statement : String) : Decidable (Tame statement) :=
  decidable_of_iff
    (PlainStatement statement ∧
      ∀ cursor ∈ Cursor.ofText? statement, ∀ outlined ∈ (outline cursor.pending).1,
        ∀ entry ∈ outlined.entries, ∀ collation ∈ takenCollation? entry, isUnquoted collation)
    ⟨fun ⟨plain, collations⟩ => ⟨plain, collations⟩,
     fun tame => ⟨tame.toPlainStatement, tame.collations⟩⟩

variable {statement : String}

/-- What is read from a plain statement is settled, if the collation of every entry that gives
a column can be written without quotes. -/
theorem PlainStatement.settled (hplain : PlainStatement statement)
    (hfits : ∀ cursor ∈ Cursor.ofText? statement, ∀ outlined ∈ (outline cursor.pending).1,
      ∀ entry ∈ outlined.entries, entry <:+: cursor.pending →
        ∀ column, column? entry = some column → CollationFits entry) :
    (Descriptor.ofStatement statement).Settled := by
  have hnormal := Descriptor.isNormal_ofStatement statement
  refine ⟨⟨hplain.schema, hnormal.schema⟩, ⟨hplain.index, hnormal.index⟩, hnormal.index_no_dot,
    ⟨hplain.table, hnormal.table⟩, ?_, hnormal.predicate⟩
  intro column hmem
  obtain ⟨cursor, outlined, left, entry, hcursor, houtline, hentry, hwithin, hbalanced, hcolumn⟩ :=
    exists_entry_of_mem hmem
  obtain ⟨hlex, heven, -⟩ := evenlySpaced_of_ofText? hcursor
  have houtlined : outlined ∈ (outline cursor.pending).1 := by simp [houtline]
  exact Column.settled_of_column? hlex heven (hplain.plain _ hlex) hwithin hbalanced hcolumn
    (hfits cursor hcursor outlined houtlined entry hentry hwithin column hcolumn)
    (hplain.columns column hmem)

/-- What is read from a tame statement can be written and read again. -/
theorem Tame.settled (htame : Tame statement) :
    (Descriptor.ofStatement statement).Settled := by
  apply htame.toPlainStatement.settled
  intro cursor hcursor outlined houtlined entry hentry hwithin column hcolumn
  obtain ⟨hlex, heven, -⟩ := evenlySpaced_of_ofText? hcursor
  exact Column.collationFits_of_isUnquoted hlex heven hwithin hcolumn
    (htame.collations cursor hcursor outlined houtlined entry hentry)

/-- The canonical form of a tame statement has the same meaning, flags and
predicate included. -/
theorem Tame.ofStatement_canonicalize (htame : Tame statement) :
    Descriptor.ofStatement (canonicalize statement) = Descriptor.ofStatement statement :=
  htame.settled.ofStatement_toStatement

def withExpressions : String :=
  "create unique Index main.[a ''b] ON 't.u' (lower( x )||\"y,\" collate rtrim Desc,\n" ++
    "z ASC, 0x1F)  where a  > ';' ;; "

theorem ofStatement_canonicalize_withExpressions :
    (Tame withExpressions ∧
      (Descriptor.ofStatement withExpressions).columns.map Column.isExpression =
        [true, false, true]) ∧
      Descriptor.ofStatement (canonicalize withExpressions) =
        Descriptor.ofStatement withExpressions := by
  have htame : Tame withExpressions := by decide +kernel
  exact ⟨⟨htame, by decide +kernel⟩, htame.ofStatement_canonicalize⟩

end CreateIndex
