import CreateIndex.Proofs.Descriptor.Columns
import CreateIndex.Proofs.Statement.Assembly
import CreateIndex.Proofs.Text.Dotted

/-!
# Settled descriptors

A descriptor is settled if its names fit between backticks, its columns are settled, and its
predicate is one that a clause gives back.  The canonical statement of a settled descriptor
is read as that descriptor, by every pass from the squeezing of blanks to the split of the
qualified name.
-/

namespace CreateIndex

open Text Lexeme Statement

/-- A name that can be written between backticks and read again. -/
structure IsQuotable (name : List Char) : Prop where
  backtick_not_mem : backtick ∉ name
  evenlySpaced : EvenlySpaced name

theorem IsQuotable.isPhrase {name : List Char} (hname : IsQuotable name) :
    IsPhrase (quoteName name) :=
  hname.evenlySpaced.isPhrase_enclose (by decide) (by decide)

theorem isPhrase_joinDotted {parts : List (List Char)} (hne : parts ≠ [])
    (hparts : ∀ part ∈ parts, IsPhrase part) : IsPhrase (joinDotted parts) := by
  induction parts with
  | nil => exact absurd rfl hne
  | cons part parts ih =>
      have hpart : IsPhrase part := hparts part (by simp)
      by_cases hnil : parts = []
      · rw [hnil, joinDotted_singleton]
        exact hpart
      · have hrest : IsPhrase (joinDotted parts) :=
          ih hnil fun other hother => hparts other (by simp [hother])
        have hdot : IsPhrase ['.'] := isPhrase_of_not_blank (by simp) (by decide)
        rw [joinDotted_cons part hnil]
        exact hpart.append (hdot.append hrest)

/-! ## Dotted names -/

def nameLexemes : List (List Char) → List Lexeme
  | [] => []
  | part :: parts => backticked part :: Reading.furtherPieces (parts.map backticked)

theorem sourceText_nameLexemes (parts : List (List Char)) :
    sourceText (nameLexemes parts) = joinDotted (parts.map quoteName) := by
  cases parts with
  | nil => rfl
  | cons part parts =>
      induction parts generalizing part with
      | nil => rfl
      | cons next parts ih =>
          rw [List.map_cons, joinDotted_cons _ (by simp), ← ih next]
          rfl

/-- Between backticks each part of a name is one lexeme, and the periods between
them are read as such. -/
theorem readable_nameLexemes {parts : List (List Char)}
    (hparts : ∀ part ∈ parts, backtick ∉ part) : Readable (nameLexemes parts) := by
  have hperiod : IsMark period := by simp [IsMark]
  cases parts with
  | nil => exact readable_nil
  | cons part parts =>
      apply readable_of_isChain
      · intro lexeme hlexeme
        rcases List.mem_cons.mp hlexeme with rfl | hlexeme
        · exact Or.inr ⟨part, names_backticked (hparts part (by simp))⟩
        · obtain ⟨name, hname, hlexeme⟩ := List.mem_flatMap.mp hlexeme
          obtain ⟨other, hother, rfl⟩ := List.mem_map.mp hname
          simp only [List.mem_cons, List.not_mem_nil, or_false] at hlexeme
          rcases hlexeme with rfl | rfl
          · exact Or.inl hperiod
          · exact Or.inr ⟨other, names_backticked (hparts other (by simp [hother]))⟩
      · clear hparts
        induction parts generalizing part with
        | nil => exact List.isChain_singleton _
        | cons next parts ih =>
            exact .cons_cons (Or.inr hperiod) (.cons_cons (Or.inl hperiod) (ih next))

/-- Name lexemes spell the parts that they were made of, whatever characters
these have. -/
theorem spellsName_nameLexemes {parts : List (List Char)} (hne : parts ≠ []) :
    SpellsName (nameLexemes parts) parts := by
  cases parts with
  | nil => exact absurd rfl hne
  | cons part parts =>
      refine .mk rfl ?_
      induction parts with
      | nil => exact .nil
      | cons next parts ih => exact .cons rfl (ih (by simp))

/-! ## The lexemes of a canonical statement -/

namespace Descriptor

variable {descriptor : Descriptor}

/-- The parts of the name of the index, as the canonical statement quotes them. -/
def nameParts (descriptor : Descriptor) : List (List Char) :=
  if descriptor.schema.toList = [] then [descriptor.index.toList]
  else [descriptor.schema.toList, descriptor.index.toList]

def frontLexemes (descriptor : Descriptor) : List Lexeme :=
  bare "CREATE".toList :: space ::
    ((if descriptor.unique then [bare "UNIQUE".toList, space] else []) ++
      bare "INDEX".toList :: space ::
        ((if descriptor.optional then
            [bare "IF".toList, space, bare "NOT".toList, space, bare "EXISTS".toList, space]
          else []) ++
          (nameLexemes descriptor.nameParts ++
            space :: bare "ON".toList :: space ::
              nameLexemes (dottedParts descriptor.table.toList))))

/-- A descriptor that its canonical statement is read as: its names fit between
backticks, its columns are settled, and its predicate is one that is read to its
end. -/
structure Settled (descriptor : Descriptor) : Prop where
  schema : IsQuotable descriptor.schema.toList
  index : IsQuotable descriptor.index.toList
  index_no_dot : '.' ∉ descriptor.index.toList
  table : IsQuotable descriptor.table.toList
  columns : ∀ column ∈ descriptor.columns, column.Settled
  predicate : descriptor.predicate.toList = [] ∨ IsPredicate descriptor.predicate.toList

theorem qualifiedName_eq (descriptor : Descriptor) :
    descriptor.qualifiedName = joinDotted (descriptor.nameParts.map quoteName) := by
  rw [qualifiedName, nameParts]
  by_cases hschema : descriptor.schema.toList = []
  · simp [hschema, joinDotted_singleton]
  · simp [hschema, joinDotted_singleton, joinDotted_cons]

def listChars (descriptor : Descriptor) : List Char :=
  ", ".toList.intercalate (descriptor.columns.map Column.toEntry)

theorem sourceText_frontLexemes (descriptor : Descriptor) :
    sourceText descriptor.frontLexemes =
      "CREATE ".toList ++
        (if descriptor.unique then "UNIQUE ".toList else []) ++
        "INDEX ".toList ++
        (if descriptor.optional then "IF NOT EXISTS ".toList else []) ++
        descriptor.qualifiedName ++
        " ON ".toList ++
        quoteDotted descriptor.table.toList := by
  have hname : sourceText (nameLexemes descriptor.nameParts) = descriptor.qualifiedName := by
    rw [sourceText_nameLexemes, qualifiedName_eq]
  have htable : sourceText (nameLexemes (dottedParts descriptor.table.toList)) =
      quoteDotted descriptor.table.toList := sourceText_nameLexemes _
  cases hunique : descriptor.unique <;> cases hoptional : descriptor.optional <;>
    simp [frontLexemes, sourceText_append, sourceText_cons, hunique, hoptional, hname,
      htable, bare, space]

/-- The canonical statement is the text of its lexemes, with the column list and
the predicate put in. -/
theorem statementChars_eq (descriptor : Descriptor) :
    descriptor.statementChars =
      sourceText descriptor.frontLexemes ++ [' ', '('] ++ descriptor.listChars ++ [')'] ++
        clause " WHERE " descriptor.predicate.toList := by
  rw [sourceText_frontLexemes]
  rfl

/-! ## The front is read -/

theorem readable_keyword (spelling : String) {rest : List Lexeme} (hrest : Readable rest)
    (hword : Writes spelling.toList spelling := by exact writes_self _) :
    Readable (bare spelling.toList :: space :: rest) := by
  have hspace : Readable (space :: rest) := hrest.cons_separator (c := ' ') rfl
  exact (Names.bare hword.isBareWord).readable.append hspace (separated_cons rfl _)

theorem isPhrase_keyword (spelling : String) {rest : List Char} (hrest : IsPhrase rest)
    (hword : Writes spelling.toList spelling := by exact writes_self _) :
    IsPhrase (spelling.toList ++ ' ' :: rest) :=
  hword.isBareWord.isPhrase.append_space hrest

theorem Settled.nameParts_quotable (hsettled : descriptor.Settled) :
    ∀ part ∈ descriptor.nameParts, IsQuotable part := by
  intro part hpart
  rw [nameParts] at hpart
  split at hpart
  · rw [List.mem_singleton.mp hpart]
    exact hsettled.index
  · simp only [List.mem_cons, List.not_mem_nil, or_false] at hpart
    rcases hpart with rfl | rfl
    · exact hsettled.schema
    · exact hsettled.index

theorem Settled.tableParts_quotable (hsettled : descriptor.Settled) :
    ∀ part ∈ dottedParts descriptor.table.toList, IsQuotable part := by
  intro part hpart
  have hwithin := infix_of_mem_dottedParts hpart
  exact ⟨fun h => hsettled.table.backtick_not_mem (hwithin.subset h),
    hsettled.table.evenlySpaced.of_isInfix hwithin⟩

/-- The front of the canonical statement is read as the lexemes it was made of. -/
theorem Settled.readable_frontLexemes (hsettled : descriptor.Settled) :
    Readable descriptor.frontLexemes := by
  have htable := readable_nameLexemes fun part hpart =>
    (hsettled.tableParts_quotable part hpart).backtick_not_mem
  have hon := readable_keyword "ON" htable
  have hname := (readable_nameLexemes fun part hpart =>
    (hsettled.nameParts_quotable part hpart).backtick_not_mem).append
      (hon.cons_separator (c := ' ') rfl) (separated_cons rfl _)
  apply readable_keyword "CREATE"
  cases descriptor.unique <;> cases descriptor.optional
  · exact readable_keyword "INDEX" hname
  · exact readable_keyword "INDEX" (readable_keyword "IF"
      (readable_keyword "NOT" (readable_keyword "EXISTS" hname)))
  · exact readable_keyword "UNIQUE" (readable_keyword "INDEX" hname)
  · exact readable_keyword "UNIQUE" (readable_keyword "INDEX"
      (readable_keyword "IF" (readable_keyword "NOT"
        (readable_keyword "EXISTS" hname))))

theorem nameParts_ne_nil (descriptor : Descriptor) : descriptor.nameParts ≠ [] := by
  rw [nameParts]
  split <;> simp

/-- Of any descriptor the canonical front says the flags, the name and the
table, even if a name is empty. -/
theorem isFront_frontLexemes (descriptor : Descriptor) :
    IsFront (solid descriptor.frontLexemes) descriptor.unique descriptor.optional
      descriptor.nameParts (dottedParts descriptor.table.toList) := by
  have hname := spellsName_nameLexemes descriptor.nameParts_ne_nil
  have htable := spellsName_nameLexemes (dottedParts_ne_nil descriptor.table.toList)
  have hunique : MayHave "UNIQUE"
      (if descriptor.unique then [bare "UNIQUE".toList] else []) descriptor.unique := by
    cases descriptor.unique
    · exact .without
    · exact .within (writes_self "UNIQUE").isKeyword
  have hoptional : MayBeOptional
      (if descriptor.optional then
        [bare "IF".toList, bare "NOT".toList, bare "EXISTS".toList] else [])
      descriptor.optional := by
    cases descriptor.optional
    · exact .without
    · exact .within (writes_self "IF").isKeyword (writes_self "NOT").isKeyword
        (writes_self "EXISTS").isKeyword
  -- A quoted name is no keyword, so it never looks like the start of `IF NOT EXISTS`.
  have hif : ∀ first ∈ (nameLexemes descriptor.nameParts).head?,
      first.isKeyword "IF" = false := by
    intro first hfirst
    cases hparts : descriptor.nameParts with
    | nil => exact absurd hparts descriptor.nameParts_ne_nil
    | cons part parts =>
        rw [hparts] at hfirst
        cases hfirst
        rfl
  have hfront := IsFront.mk (writes_self "CREATE").isKeyword hunique
    (writes_self "INDEX").isKeyword hoptional hname (fun _ => hif)
    (writes_self "ON").isKeyword htable
  have hbare (word : List Char) (rest : List Lexeme) :
      solid (bare word :: space :: rest) = bare word :: solid rest := rfl
  have hspace (rest : List Lexeme) : solid (space :: rest) = solid rest := rfl
  have hsolid : solid descriptor.frontLexemes =
      [bare "CREATE".toList] ++ ((if descriptor.unique then [bare "UNIQUE".toList] else []) ++
        ([bare "INDEX".toList] ++ ((if descriptor.optional then
            [bare "IF".toList, bare "NOT".toList, bare "EXISTS".toList] else []) ++
          (nameLexemes descriptor.nameParts ++ ([bare "ON".toList] ++
            nameLexemes (dottedParts descriptor.table.toList)))))) := by
    cases hunique : descriptor.unique <;> cases hoptional : descriptor.optional <;>
      simp [frontLexemes, hunique, hoptional, solid_append, hbare, hspace, hname.solid_eq,
        htable.solid_eq]
  rw [hsolid]
  exact hfront

/-! ## The column list is read -/

/-- The canonical column list of settled columns is read as these columns.
Without columns there is still one entry, which describes none. -/
theorem exists_entries {columns : List Column} (hcolumns : ∀ column ∈ columns, column.Settled) :
    ∃ entries : List (List Lexeme), entries ≠ [] ∧
      (∀ entry ∈ entries, Readable entry ∧ Balanced entry) ∧
      sourceText ([comma].intercalate entries) =
        ", ".toList.intercalate (columns.map Column.toEntry) ∧
      entries.filterMap column? = columns := by
  induction columns with
  | nil =>
      refine ⟨[[]], by simp, ?_, rfl, rfl⟩
      intro entry hentry
      rw [List.mem_singleton.mp hentry]
      exact ⟨readable_nil, rfl⟩
  | cons column columns ih =>
      have hsettled : column.Settled := hcolumns column (by simp)
      obtain ⟨named, hnamed⟩ := hsettled.exists_named
      have hreadable := hnamed.readable_entry hsettled
      have hbalanced := hnamed.balanced_entry
      have htext := hnamed.sourceText_entry hsettled
      have hcolumn := hnamed.column?_entry hsettled
      generalize named ++ column.collation ++ column.order = first at *
      cases columns with
      | nil =>
          refine ⟨[first], by simp, ?_, by simpa using htext, by simp [hcolumn]⟩
          intro entry hentry
          rw [List.mem_singleton.mp hentry]
          exact ⟨hreadable, hbalanced⟩
      | cons next columns =>
          obtain ⟨entries, hne, hentries, htexts, hread⟩ :=
            ih fun other hother => hcolumns other (by simp [hother])
          obtain ⟨second, entries, rfl⟩ := List.exists_cons_of_ne_nil hne
          obtain ⟨hsecond, hsecondBalanced⟩ := hentries second (by simp)
          -- The space after a comma becomes the front of the next entry.
          have hspaced : Balanced ([space] ++ second) :=
            (balanced_neutral_append (by simp [IsNeutral, space])).mpr hsecondBalanced
          refine ⟨first :: (space :: second) :: entries, by simp, ?_, ?_, ?_⟩
          · intro entry hentry
            rcases List.mem_cons.mp hentry with rfl | hentry
            · exact ⟨hreadable, hbalanced⟩
            rcases List.mem_cons.mp hentry with rfl | hentry
            · exact ⟨hsecond.cons_separator (c := ' ') rfl, hspaced⟩
            · exact hentries entry (by simp [hentry])
          · rw [List.intercalate_cons_cons, List.intercalate_cons_cons_left,
              sourceText_append, sourceText_append, htext, sourceText_cons space, htexts]
            simp [List.intercalate_cons_cons, comma, space, sourceText]
          · rw [List.filterMap_cons_some hcolumn, List.filterMap_cons, column?_cons_blank rfl,
              ← List.filterMap_cons, hread]

/-! ## The statement is a phrase -/

theorem isPhrase_intercalate {entries : List (List Char)} (hne : entries ≠ [])
    (hentries : ∀ entry ∈ entries, IsPhrase entry) :
    IsPhrase (", ".toList.intercalate entries) := by
  induction entries with
  | nil => exact absurd rfl hne
  | cons entry entries ih =>
      have hentry : IsPhrase entry := hentries entry (by simp)
      cases entries with
      | nil =>
          rw [List.intercalate_singleton]
          exact hentry
      | cons next entries =>
          have hrest := ih (by simp) fun other hother => hentries other (by simp [hother])
          have hcomma : IsPhrase [','] := isPhrase_of_not_blank (by simp) (by decide)
          have hphrase := (hentry.append hcomma).append_space hrest
          rw [List.intercalate_cons_cons]
          simpa using hphrase

theorem Settled.isPhrase_columnList (hsettled : descriptor.Settled) :
    IsPhrase ('(' :: descriptor.listChars ++ [')']) := by
  have heven : EvenlySpaced descriptor.listChars := by
    by_cases hnil : descriptor.columns = []
    · rw [listChars, hnil]
      exact evenlySpaced_nil
    · apply (isPhrase_intercalate (by simpa using hnil) ?_).evenlySpaced
      intro entry hentry
      obtain ⟨column, hcolumn, rfl⟩ := List.mem_map.mp hentry
      exact (hsettled.columns column hcolumn).isPhrase_toEntry
  exact heven.isPhrase_enclose (by decide) (by decide)

/-- The canonical statement is a phrase, so it is squeezed to itself before it
is read. -/
theorem Settled.isPhrase_statementChars (hsettled : descriptor.Settled) :
    IsPhrase descriptor.statementChars := by
  have hname : IsPhrase descriptor.qualifiedName := by
    rw [qualifiedName_eq]
    apply isPhrase_joinDotted (by simpa using descriptor.nameParts_ne_nil)
    intro part hpart
    obtain ⟨name, hname, rfl⟩ := List.mem_map.mp hpart
    exact (hsettled.nameParts_quotable name hname).isPhrase
  have htable : IsPhrase (quoteDotted descriptor.table.toList) := by
    apply isPhrase_joinDotted (by simpa using dottedParts_ne_nil _)
    intro part hpart
    obtain ⟨name, hname, rfl⟩ := List.mem_map.mp hpart
    exact (hsettled.tableParts_quotable name hname).isPhrase
  have hfront : IsPhrase (sourceText descriptor.frontLexemes) := by
    have hnamed := hname.append_space (isPhrase_keyword "ON" htable)
    rw [sourceText_frontLexemes]
    cases descriptor.unique <;> cases descriptor.optional
    · simpa using isPhrase_keyword "CREATE" (isPhrase_keyword "INDEX" hnamed)
    · simpa using isPhrase_keyword "CREATE" (isPhrase_keyword "INDEX"
        (isPhrase_keyword "IF" (isPhrase_keyword "NOT" (isPhrase_keyword "EXISTS" hnamed))))
    · simpa using isPhrase_keyword "CREATE" (isPhrase_keyword "UNIQUE"
        (isPhrase_keyword "INDEX" hnamed))
    · simpa using isPhrase_keyword "CREATE" (isPhrase_keyword "UNIQUE"
        (isPhrase_keyword "INDEX" (isPhrase_keyword "IF" (isPhrase_keyword "NOT"
          (isPhrase_keyword "EXISTS" hnamed)))))
  have hhead : IsPhrase
      (sourceText descriptor.frontLexemes ++ [' ', '('] ++ descriptor.listChars ++ [')']) := by
    simpa using hfront.append_space hsettled.isPhrase_columnList
  rw [statementChars_eq]
  rcases hsettled.predicate with hpredicate | hpredicate
  · rw [hpredicate, clause_nil, List.append_nil]
    exact hhead
  · have hclause : " WHERE ".toList ++ descriptor.predicate.toList =
        ' ' :: ("WHERE".toList ++ ' ' :: descriptor.predicate.toList) := rfl
    rw [clause_of_ne_nil hpredicate.isPhrase.ne_nil, hclause]
    exact hhead.append_space (isPhrase_keyword "WHERE" hpredicate.isPhrase)

/-! ## The statement is read -/

/-- The clause that is written for a predicate is read as the predicate, and the
empty one as none. -/
theorem predicate?_clause {predicate : List Char}
    (hpredicate : predicate = [] ∨ IsPredicate predicate) :
    predicate? (clause " WHERE " predicate) = some predicate := by
  have hend : IsEnd [] := by
    intro c hc
    cases hc
  rcases hpredicate with rfl | hpredicate
  · exact predicate?_end hend
  · have hspace : ∀ c ∈ [' '], Text.isBlank c := by simp [isBlank_space]
    have hread := predicate?_where hspace (writes_self "WHERE") hpredicate hend
    rw [clause_of_ne_nil hpredicate.isPhrase.ne_nil]
    simpa using hread

/-- The qualified name is split where schema and index were joined. -/
theorem Settled.splitQualifier_nameParts (hsettled : descriptor.Settled) :
    splitQualifier (joinDotted descriptor.nameParts) =
      (descriptor.schema.toList, descriptor.index.toList) := by
  rw [nameParts]
  by_cases hschema : descriptor.schema.toList = []
  · rw [if_pos hschema, joinDotted_singleton, hschema]
    exact splitQualifier_of_not_mem hsettled.index_no_dot
  · rw [if_neg hschema, joinDotted_cons _ (by simp), joinDotted_singleton]
    exact splitQualifier_append hsettled.index_no_dot _

/-- The canonical statement of a settled descriptor is read as that descriptor:
every pass over the text meets what it is made of. -/
theorem Settled.ofStatement_toStatement (hsettled : descriptor.Settled) :
    ofStatement descriptor.toStatement = descriptor := by
  obtain ⟨entries, hne, hentries, htext, hcolumns⟩ := exists_entries hsettled.columns
  let start := descriptor.frontLexemes ++ [space]
  have hsolid : solid start = solid descriptor.frontLexemes := by
    rw [solid_append]
    exact List.append_nil _
  have hstart : Readable start := hsettled.readable_frontLexemes.append
    (readable_nil.cons_separator (c := ' ') rfl) (separated_cons rfl _)
  have hchars : descriptor.statementChars =
      sourceText (assemble start entries) ++ clause " WHERE " descriptor.predicate.toList := by
    rw [statementChars_eq, sourceText_assemble, htext, sourceText_append, listChars]
    simp [sourceText, space]
  have hsqueeze : squeeze descriptor.statementChars =
      sourceText (assemble start entries) ++ clause " WHERE " descriptor.predicate.toList := by
    rw [squeeze_phrase hsettled.isPhrase_statementChars, hchars]
  have hread := ofStatement_of_squeeze hsqueeze (hsolid ▸ descriptor.isFront_frontLexemes)
    hstart hne (fun entry hentry => (hentries entry hentry).1)
    (fun entry hentry => (hentries entry hentry).2) (predicate?_clause hsettled.predicate)
  rw [toStatement, hread, Outline.descriptor, hsettled.splitQualifier_nameParts,
    joinDotted_dottedParts, hcolumns]
  simp

end Descriptor

end CreateIndex
