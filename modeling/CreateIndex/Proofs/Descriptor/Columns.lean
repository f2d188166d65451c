import CreateIndex.Proofs.Lexeme.Readable
import CreateIndex.Proofs.Statement.Peeling

/-!
# Settled columns

A column is settled if its canonical entry is read as the same column.  The part that can
fail is the name: that of an expression is a piece of statement text which has to be
read again as the lexemes it came from.
-/

namespace CreateIndex

open Text Lexeme Statement

theorem clause_nil (start : String) : clause start [] = [] := rfl

theorem clause_of_ne_nil {text : List Char} (hne : text ≠ []) (start : String) :
    clause start text = start.toList ++ text :=
  if_neg hne

def IsSortOrder (sort : List Char) : Prop :=
  sort = [] ∨ sort = "ASC".toList ∨ sort = "DESC".toList

namespace Column

variable {column : Column} {named : List Lexeme}

def collation (column : Column) : List Lexeme :=
  if column.collate.toList = [] then []
  else [space, bare "COLLATE".toList, space, bare column.collate.toList]

def order (column : Column) : List Lexeme :=
  if column.sort.toList = [] then [] else [space, bare column.sort.toList]

/-- The name of the column as the canonical entry writes it. -/
def writtenName (column : Column) : List Char :=
  if column.isExpression then column.name.toList else quoteName column.name.toList

/-- The lexemes are what the name in the canonical entry is read as, and they
mean the column.  For an expression these are its lexemes, for a name the one
between backticks. -/
structure NamedBy (column : Column) (named : List Lexeme) : Prop where
  sourceText_eq : sourceText named = column.writtenName
  readable : Readable named
  balanced : Balanced named
  isPhrase : IsPhrase (sourceText named)
  entryName_eq : entryName named = (column.name.toList, column.isExpression)
  parts : Parts named column.collation column.order column.collate.toList column.sort.toList

/-- A column that its canonical entry is read as.  Settled columns are the ones
that survive being written. -/
structure Settled (column : Column) : Prop where
  exists_named : ∃ named, column.NamedBy named
  name_ne_nil : column.name.toList ≠ []
  collate : column.collate.toList = [] ∨ IsBareWord column.collate.toList
  sort : IsSortOrder column.sort.toList

/-! ## Words of the entry -/

/-- A sort order is a keyword in upper case, or there is none. -/
theorem sort_cases {sort : List Char} (hsort : IsSortOrder sort) :
    sort = [] ∨ IsBareWord sort ∧ upper sort = sort ∧ IsSort (bare sort) := by
  have hasc : Writes "ASC".toList "ASC" := writes_self "ASC"
  have hdesc : Writes "DESC".toList "DESC" := writes_self "DESC"
  rcases hsort with rfl | rfl | rfl
  · exact Or.inl rfl
  · exact Or.inr ⟨hasc.isBareWord, hasc.upper_eq, Or.inl hasc.isKeyword⟩
  · exact Or.inr ⟨hdesc.isBareWord, hdesc.upper_eq, Or.inr hdesc.isKeyword⟩

theorem readable_space_bare {word : List Char} (hword : IsBareWord word)
    {rest : List Lexeme} (hrest : Readable rest) (hsep : Separated (sourceText rest)) :
    Readable (space :: bare word :: rest) :=
  (Readable.append (Names.bare hword).readable hrest hsep).cons_separator (c := ' ') rfl

theorem Settled.readable_order (hsettled : column.Settled) :
    Readable column.order ∧ Separated (sourceText column.order) := by
  rw [order]
  rcases sort_cases hsettled.sort with hsort | ⟨hword, -, -⟩
  · rw [if_pos hsort]
    exact ⟨readable_nil, separated_nil⟩
  · rw [if_neg hword.ne_nil]
    exact ⟨readable_space_bare hword readable_nil separated_nil, separated_cons rfl _⟩

theorem Settled.readable_collation (hsettled : column.Settled) :
    Readable column.collation ∧ Separated (sourceText column.collation) := by
  rw [collation]
  rcases hsettled.collate with hcollate | hword
  · rw [if_pos hcollate]
    exact ⟨readable_nil, separated_nil⟩
  · rw [if_neg hword.ne_nil]
    have hend : Readable [space, bare column.collate.toList] :=
      readable_space_bare hword readable_nil separated_nil
    exact ⟨readable_space_bare (writes_self "COLLATE").isBareWord hend (separated_cons rfl _),
      separated_cons rfl _⟩

/-- What the canonical entry has after its name cannot end the entry. -/
theorem neutral_endings (column : Column) :
    ∀ lexeme ∈ column.collation ++ column.order, IsNeutral lexeme := by
  have hspace : IsNeutral space := by simp [IsNeutral, space]
  have hbare (word : List Char) : IsNeutral (bare word) := by simp [IsNeutral, bare]
  intro lexeme hlexeme
  rcases List.mem_append.mp hlexeme with hlexeme | hlexeme
  · rw [collation] at hlexeme
    split at hlexeme
    · cases hlexeme
    · simp only [List.mem_cons, List.not_mem_nil, or_false] at hlexeme
      rcases hlexeme with rfl | rfl | rfl | rfl
      · exact hspace
      · exact hbare _
      · exact hspace
      · exact hbare _
  · rw [order] at hlexeme
    split at hlexeme
    · cases hlexeme
    · simp only [List.mem_cons, List.not_mem_nil, or_false] at hlexeme
      rcases hlexeme with rfl | rfl
      · exact hspace
      · exact hbare _

/-! ## The entry -/

theorem NamedBy.readable_entry (hnamed : column.NamedBy named) (hsettled : column.Settled) :
    Readable (named ++ column.collation ++ column.order) :=
  (hnamed.readable.append hsettled.readable_collation.1 hsettled.readable_collation.2).append
    hsettled.readable_order.1 hsettled.readable_order.2

theorem NamedBy.balanced_entry (hnamed : column.NamedBy named) :
    Balanced (named ++ column.collation ++ column.order) := by
  rw [List.append_assoc, balanced_append_neutral column.neutral_endings]
  exact hnamed.balanced

theorem sourceText_collation (column : Column) :
    sourceText column.collation = clause " COLLATE " column.collate.toList := by
  rw [collation]
  split
  · rename_i hcollate
    rw [hcollate]
    rfl
  · rename_i hcollate
    rw [clause_of_ne_nil hcollate]
    simp [sourceText, space, bare]

theorem Settled.sourceText_order (hsettled : column.Settled) :
    sourceText column.order = clause " " (upper column.sort.toList) := by
  rw [order]
  rcases sort_cases hsettled.sort with hsort | ⟨hword, hupper, -⟩
  · rw [hsort]
    rfl
  · rw [hupper, if_neg hword.ne_nil, clause_of_ne_nil hword.ne_nil]
    simp [sourceText, space, bare]

/-- The lexemes of the canonical entry are written as the writer writes the
column. -/
theorem NamedBy.sourceText_entry (hnamed : column.NamedBy named)
    (hsettled : column.Settled) :
    sourceText (named ++ column.collation ++ column.order) = column.toEntry := by
  rw [sourceText_append, sourceText_append, hnamed.sourceText_eq, sourceText_collation,
    hsettled.sourceText_order]
  rfl

/-- The canonical entry starts and ends with something, so that squeezing leaves
it as it is. -/
theorem Settled.isPhrase_toEntry (hsettled : column.Settled) : IsPhrase column.toEntry := by
  obtain ⟨named, hnamed⟩ := hsettled.exists_named
  have hname : IsPhrase column.writtenName := hnamed.sourceText_eq ▸ hnamed.isPhrase
  have hcollation : IsPhrase
      (column.writtenName ++ clause " COLLATE " column.collate.toList) := by
    rcases hsettled.collate with hcollate | hword
    · rw [hcollate, clause_nil, List.append_nil]
      exact hname
    · rw [clause_of_ne_nil hword.ne_nil]
      exact hname.append_space
        ((writes_self "COLLATE").isBareWord.isPhrase.append_space hword.isPhrase)
  have hentry : column.toEntry =
      column.writtenName ++ clause " COLLATE " column.collate.toList ++
        clause " " (upper column.sort.toList) := rfl
  rw [hentry]
  rcases sort_cases hsettled.sort with hsort | ⟨hword, hupper, -⟩
  · rw [hsort]
    change IsPhrase (_ ++ [])
    rw [List.append_nil]
    exact hcollation
  · rw [hupper, clause_of_ne_nil hword.ne_nil]
    exact hcollation.append_space hword.isPhrase

/-- The canonical entry is read as the column: its name, its collation and its
sort order come off where they were put. -/
theorem NamedBy.column?_entry (hnamed : column.NamedBy named) (hsettled : column.Settled) :
    column? (named ++ column.collation ++ column.order) = some column := by
  have hcolumn := column?_of_parts hnamed.parts allBlank_nil allBlank_nil
  rw [List.append_nil, hnamed.entryName_eq, if_neg hsettled.name_ne_nil] at hcolumn
  simpa using hcolumn

/-- The collation of a settled column is taken for no sort order. -/
theorem Settled.not_isSort_collate (hsettled : column.Settled)
    (hne : column.collate.toList ≠ []) (hnil : column.sort.toList = []) :
    ¬IsSort (bare column.collate.toList) := by
  obtain ⟨named, hnamed⟩ := hsettled.exists_named
  apply hnamed.parts.not_isSort_last
  · rw [order, if_pos hnil]
  · rw [collation, if_neg hne]
    rfl

/-! ## Which columns are settled -/

/-- The parts of the canonical entry, if its name has no collation or sort order
of its own where the column has none. -/
theorem parts_canonical (htrimmed : IsTrimmed named)
    (hsort : IsSortOrder column.sort.toList)
    (hno_collation : column.collate.toList = [] → peelCollation named = (named, []))
    (hno_order : column.collate.toList = [] → column.sort.toList = [] →
      peelSort named = (named, []))
    (hcollation : column.collate.toList ≠ [] → column.sort.toList = [] →
      ¬IsSort (bare column.collate.toList)) :
    Parts named column.collation column.order column.collate.toList column.sort.toList where
  isTrimmed := htrimmed
  givesCollation := by
    by_cases hcollate : column.collate.toList = []
    · rw [collation, if_pos hcollate, hcollate]
      exact .none
    · rw [collation, if_neg hcollate]
      exact .some allBlank_space (writes_self "COLLATE").isKeyword allBlank_space rfl
  givesSort := by
    by_cases hne : column.sort.toList = []
    · rw [order, if_pos hne, hne]
      exact .none
    · obtain ⟨-, hupper, hkeyword⟩ := (sort_cases hsort).resolve_left hne
      have hgives : GivesSort ([space] ++ [bare column.sort.toList])
          (upper column.sort.toList) := .some allBlank_space hkeyword
      rw [order, if_neg hne]
      rwa [hupper] at hgives
  no_collation hnone := by
    apply hno_collation
    by_contra hcollate
    rw [collation, if_neg hcollate] at hnone
    cases hnone
  no_order hnone := by
    have hsortNil : column.sort.toList = [] := by
      by_contra hne
      rw [order, if_neg hne] at hnone
      cases hnone
    by_cases hcollate : column.collate.toList = []
    · rw [collation, if_pos hcollate, List.append_nil]
      exact hno_order hcollate hsortNil
    -- The collation comes last then.
    · apply peelSort_of_not_isSort
      rw [collation, if_neg hcollate]
      intro last hlast
      have : last = bare column.collate.toList := by
        rw [List.getLast?_append_of_ne_nil _ (by simp)] at hlast
        exact (Option.some.inj hlast).symm
      rw [this]
      exact hcollation hcollate hsortNil

/-- A column with a name that backticks can hold, a collation that is a bare
word, and a sort order is settled. -/
theorem settled_of_plain (hplain : column.isExpression = false)
    (hne : column.name.toList ≠ []) (hbacktick : backtick ∉ column.name.toList)
    (heven : EvenlySpaced column.name.toList)
    (hcollate : column.collate.toList = [] ∨ IsBareWord column.collate.toList)
    (hsort : IsSortOrder column.sort.toList)
    (hcollation : column.collate.toList ≠ [] → column.sort.toList = [] →
      ¬IsSort (bare column.collate.toList)) : column.Settled where
  exists_named := by
    have hnames := names_backticked hbacktick
    refine ⟨[backticked column.name.toList], ?_, hnames.readable, ?_, ?_, ?_, ?_⟩
    · rw [sourceText_singleton, writtenName, hplain]
      rfl
    · apply balanced_of_neutral
      intro lexeme hlexeme
      rw [List.mem_singleton.mp hlexeme]
      exact isNeutral_of_identifier? hnames.identifier?
    · rw [sourceText_singleton]
      exact heven.isPhrase_enclose (by decide) (by decide)
    · rw [hplain]
      rfl
    · exact parts_canonical (isTrimmed_singleton (identifier?_not_blank hnames.identifier?))
        hsort (fun _ => peelCollation_singleton _) (fun _ _ => peelSort_singleton _)
        hcollation
  name_ne_nil := hne
  collate := hcollate
  sort := hsort

end Column

end CreateIndex
