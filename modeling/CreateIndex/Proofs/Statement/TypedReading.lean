import CreateIndex.Proofs.Statement.Typed

/-!
# Reading statements as they are typed

Whatever blanks stand among the pieces of a well-formed statement, its head is read as its
front and its entries, its trailer as its condition, and so the whole as its descriptor.
-/

namespace CreateIndex.Statement

open Text Lexeme

variable {lexemes entry rest : List Lexeme} {item : Item} {items : List Item}

/-! ## Entries -/

namespace Item

/-- The collation as the column has it, at the front of lexemes that go on with
something else, and with the blanks that were typed in it. -/
theorem exists_collation (hsolid : solid lexemes = item.collationPieces ++ rest) :
    ∃ collation left, lexemes = collation ++ left ∧ solid left = rest ∧
      GivesCollation collation item.column.collate.toList ∧
      (collation = [] ∨
        ∃ given ∈ item.collation, collation.getLast? = some (bare given.word)) := by
  cases hgiven : item.collation with
  | none =>
      simp only [collationPieces, hgiven, List.nil_append] at hsolid
      simp only [column, hgiven]
      exact ⟨[], lexemes, rfl, hsolid, .none, Or.inl rfl⟩
  | some given =>
      simp only [collationPieces, hgiven] at hsolid
      simp only [column, hgiven]
      obtain ⟨gap, left, rfl, hgap, -, hleft⟩ := exists_of_solid_eq_cons hsolid
      obtain ⟨gap', left, rfl, hgap', -, hleft⟩ := exists_of_solid_eq_cons hleft
      refine ⟨gap ++ [given.keyword.piece] ++ gap' ++ [bare given.word], left, by simp, hleft,
        ?_, Or.inr ⟨given, rfl, List.getLast?_concat⟩⟩
      apply GivesCollation.some hgap given.keyword.writes.isKeyword hgap'
      simp [bare, identifier?]

/-- The sort order as the column has it.  The blanks behind it belong to no part
of the entry. -/
theorem exists_order (hsolid : solid lexemes = item.orderPieces) :
    ∃ order gap, lexemes = order ++ gap ∧ AllBlank gap ∧
      GivesSort order item.column.sort.toList ∧ (order = [] → item.order = none) := by
  cases hgiven : item.order with
  | none =>
      simp only [orderPieces, hgiven] at hsolid
      simp only [column, hgiven]
      exact ⟨[], lexemes, rfl, allBlank_of_solid_eq_nil hsolid, .none, fun _ => trivial⟩
  | some order =>
      simp only [orderPieces, hgiven] at hsolid
      simp only [column, hgiven]
      obtain ⟨gap, left, rfl, hgap, -, hleft⟩ := exists_of_solid_eq_cons hsolid
      refine ⟨gap ++ [order.piece], left, by simp, allBlank_of_solid_eq_nil hleft, ?_, ?_⟩
      · have hgives := GivesSort.some hgap order.isSort
        rwa [order.upper_shown] at hgives
      · intro hnil
        exact absurd hnil (by simp)

/-- A collation without a sort order after it is taken for none, because an item
asks that it does not look like one. -/
theorem not_isSort (item : Item) (hnone : item.order = none) {given : Collation}
    (hgiven : given ∈ item.collation) : ¬IsSort (bare given.word) := by
  obtain ⟨hasc, hdesc⟩ := item.collation_ne hnone given hgiven
  intro hsort
  rcases hsort with hsort | hsort
  · exact hasc (beq_iff_eq.mp hsort)
  · exact hdesc (beq_iff_eq.mp hsort)

/-- An entry is read as the column it describes, and it ends where it should,
however it is spaced. -/
theorem column?_eq (hsolid : solid entry = item.pieces) :
    column? entry = some item.column ∧ Balanced entry := by
  obtain ⟨gap, rest, rfl, hgap, hblank, hrest⟩ := exists_of_solid_eq_cons hsolid
  obtain ⟨collation, left, rfl, hleft, hcollation, hlast⟩ := exists_collation hrest
  obtain ⟨order, gap', rfl, hgap', horder, hnone⟩ := exists_order hleft
  have hidentifier := item.name.names.identifier?
  have hparts : Parts [item.name.piece] collation order item.column.collate.toList
      item.column.sort.toList := by
    refine ⟨isTrimmed_singleton hblank, hcollation, horder,
      fun _ => peelCollation_singleton _, fun hnil => ?_⟩
    rcases hlast with rfl | ⟨given, hgiven, hlast⟩
    · exact peelSort_singleton _
    · apply peelSort_of_not_isSort
      intro last hmem
      have hne : collation ≠ [] := by
        rintro rfl
        cases hlast
      rw [List.getLast?_append_of_ne_nil _ hne, hlast] at hmem
      cases hmem
      exact item.not_isSort (hnone hnil) hgiven
  have hentry : gap ++ item.name.piece :: (collation ++ (order ++ gap')) =
      gap ++ ([item.name.piece] ++ collation ++ order) ++ gap' := by
    simp
  have hname : entryName [item.name.piece] = (item.name.content, false) := by
    simp [entryName, hidentifier]
  rw [hentry]
  constructor
  · rw [column?_of_parts hparts hgap hgap', hname, if_neg item.name_ne, String.ofList_toList,
      String.ofList_toList]
    rfl
  · rw [hparts.balanced_iff hgap hgap']
    apply balanced_of_neutral
    intro lexeme hlexeme
    rw [List.mem_singleton.mp hlexeme]
    exact isNeutral_of_identifier? hidentifier

end Item

/-- The column list is read as the columns its entries describe, by induction on
the items. -/
theorem exists_typed_entries
    (hsolid : solid lexemes = [comma].intercalate (items.map Item.pieces)) :
    ∃ entries, entries ≠ [] ∧ lexemes = [comma].intercalate entries ∧
      (∀ entry ∈ entries, Balanced entry) ∧
      entries.filterMap column? = items.map Item.column := by
  induction items generalizing lexemes with
  | nil =>
      have hblank : AllBlank lexemes := allBlank_of_solid_eq_nil hsolid
      have hnone : column? lexemes = none := by
        rw [column?, trimBlanks_of_allBlank hblank]
        rfl
      refine ⟨[lexemes], by simp, by simp, ?_, by simp [hnone]⟩
      intro entry hentry
      rw [List.mem_singleton.mp hentry]
      exact balanced_of_neutral hblank.neutral
  | cons item items ih =>
      cases items with
      | nil =>
          have hentry : solid lexemes = item.pieces := by simpa using hsolid
          obtain ⟨hcolumn, hbalanced⟩ := Item.column?_eq hentry
          exact ⟨[lexemes], by simp, by simp, by simpa using hbalanced, by simp [hcolumn]⟩
      | cons next items =>
          rw [List.map_cons, List.map_cons, List.intercalate_cons_cons,
            List.append_assoc] at hsolid
          obtain ⟨first, rest, rfl, hfirst, hrest⟩ := List.filter_eq_append_iff.mp hsolid
          obtain ⟨gap, rest, rfl, hgap, -, hlist⟩ := exists_of_solid_eq_cons hrest
          obtain ⟨entries, hne, rfl, hbalanced, hcolumns⟩ := ih hlist
          have hentry : solid (first ++ gap) = item.pieces := by
            rw [solid_append, hgap.solid_eq, List.append_nil]
            exact hfirst
          obtain ⟨hcolumn, hbalancedFirst⟩ := Item.column?_eq hentry
          obtain ⟨second, entries, rfl⟩ := List.exists_cons_of_ne_nil hne
          refine ⟨(first ++ gap) :: second :: entries, by simp, ?_, ?_, ?_⟩
          · simp [List.intercalate_cons_cons]
          · intro entry hentry
            rcases List.mem_cons.mp hentry with rfl | hentry
            · exact hbalancedFirst
            · exact hbalanced entry hentry
          · rw [List.filterMap_cons_some hcolumn, hcolumns]
            rfl

/-! ## Pieces -/

/-- A punctuation mark, or a word or name as it is typed. -/
def IsTypedPiece (lexeme : Lexeme) : Prop :=
  lexeme ∈ [comma, period, leftParen, rightParen] ∨ ∃ name : TypedName, lexeme = name.piece

variable {lexeme : Lexeme} {typed : Typed} {text : List Char}

theorem isTypedPiece_name (name : TypedName) : IsTypedPiece name.piece :=
  Or.inr ⟨name, rfl⟩

theorem isTypedPiece_bare {word : List Char} (hword : IsBareWord word) :
    IsTypedPiece (bare word) :=
  Or.inr ⟨.bare word hword, rfl⟩

theorem Keyword.isTypedPiece {spelling : String} (keyword : Keyword spelling) :
    IsTypedPiece keyword.piece :=
  isTypedPiece_bare keyword.writes.isBareWord

theorem IsTypedPiece.isBasic (hpiece : IsTypedPiece lexeme) : IsBasic lexeme := by
  rcases hpiece with hmark | ⟨name, rfl⟩
  · exact Or.inl (List.mem_cons_of_mem space hmark)
  · exact Or.inr ⟨name.content, name.names⟩

theorem IsTypedPiece.isPhrase (hpiece : IsTypedPiece lexeme) : IsPhrase lexeme.text := by
  rcases hpiece with hmark | ⟨name, rfl⟩
  · simp only [List.mem_cons, List.not_mem_nil, or_false] at hmark
    rcases hmark with rfl | rfl | rfl | rfl <;>
      exact isPhrase_of_not_blank (by decide) (by decide)
  · exact name.isPhrase

theorem IsTypedPiece.not_blank (hpiece : IsTypedPiece lexeme) : ¬lexeme.isBlank := by
  rcases hpiece with hmark | ⟨name, rfl⟩
  · simp only [List.mem_cons, List.not_mem_nil, or_false] at hmark
    rcases hmark with rfl | rfl | rfl | rfl <;> decide
  · exact identifier?_not_blank name.names.identifier?

theorem DottedName.isTypedPiece (name : DottedName) :
    ∀ lexeme ∈ name.pieces, IsTypedPiece lexeme := by
  intro lexeme hlexeme
  rcases List.mem_cons.mp hlexeme with rfl | hlexeme
  · exact isTypedPiece_name name.first
  · obtain ⟨part, hpart, hlexeme⟩ := List.mem_flatMap.mp hlexeme
    obtain ⟨next, -, rfl⟩ := List.mem_map.mp hpart
    rcases List.mem_cons.mp hlexeme with rfl | hlexeme
    · exact Or.inl (by simp)
    · rw [List.mem_singleton.mp hlexeme]
      exact isTypedPiece_name next

theorem Item.isTypedPiece (item : Item) : ∀ lexeme ∈ item.pieces, IsTypedPiece lexeme := by
  have hcollation : ∀ lexeme ∈ item.collationPieces, IsTypedPiece lexeme := by
    rw [collationPieces]
    cases item.collation with
    | none => simp
    | some given =>
        simpa using ⟨given.keyword.isTypedPiece, isTypedPiece_bare given.isBareWord⟩
  have horder : ∀ lexeme ∈ item.orderPieces, IsTypedPiece lexeme := by
    rw [orderPieces]
    cases item.order with
    | none => simp
    | some order =>
        cases order with
        | ascending keyword => simpa [Order.piece] using keyword.isTypedPiece
        | descending keyword => simpa [Order.piece] using keyword.isTypedPiece
  intro lexeme hlexeme
  rcases List.mem_cons.mp hlexeme with rfl | hlexeme
  · exact isTypedPiece_name item.name
  rcases List.mem_append.mp hlexeme with hlexeme | hlexeme
  · exact hcollation lexeme hlexeme
  · exact horder lexeme hlexeme

namespace Typed

theorem isTypedPiece_front (typed : Typed) : ∀ lexeme ∈ typed.front, IsTypedPiece lexeme := by
  have hunique : ∀ lexeme ∈ typed.uniquePieces, IsTypedPiece lexeme := by
    rw [uniquePieces]
    cases typed.unique with
    | none => simp
    | some keyword => simpa using keyword.isTypedPiece
  have hoptional : ∀ lexeme ∈ typed.optionalPieces, IsTypedPiece lexeme := by
    rw [optionalPieces]
    cases typed.optional with
    | none => simp
    | some keywords =>
        simpa using ⟨keywords.1.isTypedPiece, keywords.2.1.isTypedPiece,
          keywords.2.2.isTypedPiece⟩
  simp only [front, List.mem_append, List.mem_singleton]
  rintro lexeme (rfl | hlexeme | rfl | hlexeme | hlexeme | rfl | hlexeme)
  · exact typed.create.isTypedPiece
  · exact hunique lexeme hlexeme
  · exact typed.index.isTypedPiece
  · exact hoptional lexeme hlexeme
  · exact typed.name.isTypedPiece lexeme hlexeme
  · exact typed.on.isTypedPiece
  · exact typed.table.isTypedPiece lexeme hlexeme

/-- A typed statement has no lexemes but marks, words and names, so it can be
spaced in any way. -/
theorem isTypedPiece (typed : Typed) : ∀ lexeme ∈ typed.pieces, IsTypedPiece lexeme := by
  simp only [pieces, assemble, List.mem_append, List.mem_cons, List.not_mem_nil, or_false]
  rintro lexeme (hlexeme | rfl | hlexeme | rfl)
  · exact typed.isTypedPiece_front lexeme hlexeme
  · exact Or.inl (by simp)
  · rcases mem_of_mem_intercalate hlexeme with hlexeme | ⟨item, hitem, hlexeme⟩
    · rw [List.mem_singleton.mp hlexeme]
      exact Or.inl (by simp)
    · obtain ⟨item, -, rfl⟩ := List.mem_map.mp hitem
      exact item.isTypedPiece lexeme hlexeme
  · exact Or.inl (by simp)

/-! ## The front and the trailer -/

/-- The front of a typed statement says what the statement has: its keywords,
its name and its table. -/
theorem isFront (typed : Typed) :
    IsFront typed.front typed.unique.isSome typed.optional.isSome typed.name.parts
      typed.table.parts := by
  have hunique : MayHave "UNIQUE" typed.uniquePieces typed.unique.isSome := by
    rw [uniquePieces]
    cases typed.unique with
    | none => exact .without
    | some keyword => exact .within keyword.writes.isKeyword
  have hoptional : MayBeOptional typed.optionalPieces typed.optional.isSome := by
    rw [optionalPieces]
    cases typed.optional with
    | none => exact .without
    | some keywords =>
        exact .within keywords.1.writes.isKeyword keywords.2.1.writes.isKeyword
          keywords.2.2.writes.isKeyword
  apply IsFront.mk typed.create.writes.isKeyword hunique typed.index.writes.isKeyword hoptional
    typed.name.spellsName _ typed.on.writes.isKeyword typed.table.spellsName
  intro hnone first hfirst
  have hoptionalNone : typed.optional = none := by simpa using hnone
  cases hfirst
  cases hname : typed.name.first with
  | bare word hword =>
      have hne := typed.first_ne hoptionalNone word hword hname
      exact beq_eq_false_iff_ne.mpr hne
  | quoted => rfl
  | string => rfl

end Typed

theorem isEnd_squeezeAfter {tail : List Char} (htail : IsTypedEnd tail) (gap : Bool) :
    IsEnd (squeezeAfter gap tail) := by
  intro c hc
  rcases mem_squeezeAfter hc with rfl | ⟨hmem, hblank⟩
  · rfl
  · rcases htail c hmem with rfl | hc
    · rfl
    · exact absurd hc hblank

/-- The squeezed trailer gives the predicate of the condition, or none if there
is no condition. -/
theorem predicate?_squeezeAfter {condition : Option Condition} {trailer : List Char}
    (htrailer : IsTypedTrailer condition trailer) :
    predicate? (squeezeAfter false trailer) =
      some ((condition.map fun given => squeeze given.predicate).getD []) := by
  cases htrailer with
  | without htail => exact predicate?_end (isEnd_squeezeAfter htail false)
  | @within condition before after tail hbefore hafter hne htail =>
      have hword := condition.keyword.writes
      have hphrase : IsPhrase (squeeze condition.predicate) :=
        (squeeze_eq_nil_or_isPhrase _).resolve_left condition.ne_nil
      let gap : List Char := if !before.isEmpty then [' '] else []
      let last := squeezeAfter (gapAfter true condition.predicate) tail
      have hgap : ∀ c ∈ gap, Text.isBlank c := by
        simp only [gap]
        split <;> simp [isBlank_space]
      have hafterNe : (false || !after.isEmpty) = true := by simpa using hne
      have hsqueeze : squeezeAfter false
          (before ++ condition.keyword.word ++ after ++ condition.predicate ++ tail) =
          gap ++ (condition.keyword.word ++ ' ' :: squeeze condition.predicate) ++ last := by
        calc
          squeezeAfter false
              (before ++ condition.keyword.word ++ after ++ condition.predicate ++ tail)
            = squeezeAfter (!before.isEmpty)
                (condition.keyword.word ++ (after ++ (condition.predicate ++ tail))) := by
              simpa using squeezeAfter_blanks hbefore false
                (condition.keyword.word ++ (after ++ (condition.predicate ++ tail)))
          _ = gap ++ condition.keyword.word ++
                squeezeAfter false (after ++ (condition.predicate ++ tail)) :=
              squeezeAfter_phrase hword.isBareWord.isPhrase _ _
          _ = gap ++ condition.keyword.word ++
                (' ' :: squeeze condition.predicate ++ last) := by
              rw [squeezeAfter_blanks hafter, hafterNe, squeezeAfter_append,
                squeezeAfter_true condition.ne_nil]
          _ = _ := by simp
      rw [hsqueeze]
      exact predicate?_where hgap hword ⟨hphrase, condition.last_ne⟩
        (isEnd_squeezeAfter htail _)

/-! ## Whole statements -/

/-- Lexemes that are a head up to blanks are assembled from a front and entries. -/
theorem exists_assemble (hsolid : solid lexemes = typed.pieces)
    (hlast : ∀ last ∈ lexemes.getLast?, ¬last.isBlank) :
    ∃ start entries, lexemes = assemble start entries ∧ solid start = typed.front ∧
      entries ≠ [] ∧ (∀ entry ∈ entries, Balanced entry) ∧
      entries.filterMap column? = typed.items.map Item.column := by
  rw [Typed.pieces, assemble] at hsolid
  obtain ⟨start, rest, rfl, hstart, hrest⟩ := List.filter_eq_append_iff.mp hsolid
  obtain ⟨gap, rest, rfl, hgap, -, hrest⟩ := exists_of_solid_eq_cons hrest
  obtain ⟨list, rest, rfl, hlist, hclose⟩ := List.filter_eq_append_iff.mp hrest
  obtain ⟨gap', rest, rfl, hgap', -, hnil⟩ := exists_of_solid_eq_cons hclose
  -- The last parenthesis is the last lexeme, since no blank is.
  obtain rfl : rest = [] := by
    by_contra hne
    have hend : ∀ last ∈ rest.getLast?, ¬last.isBlank := by
      intro last hmem
      apply hlast last
      have hends : start ++ (gap ++ leftParen :: (list ++ (gap' ++ rightParen :: rest))) =
          (start ++ gap ++ [leftParen] ++ list ++ gap' ++ [rightParen]) ++ rest := by
        simp
      rwa [hends, List.getLast?_append_of_ne_nil _ hne]
    have hmem := List.getLast?_eq_some_getLast hne
    exact hend _ hmem (allBlank_of_solid_eq_nil hnil _ (List.mem_of_getLast? hmem))
  have hentries : solid (list ++ gap') = [comma].intercalate (typed.items.map Item.pieces) := by
    rw [solid_append, hgap'.solid_eq, List.append_nil]
    exact hlist
  obtain ⟨entries, hne, hlexemes, hbalanced, hcolumns⟩ := exists_typed_entries hentries
  refine ⟨start ++ gap, entries, ?_, ?_, hne, hbalanced, hcolumns⟩
  · rw [assemble, ← hlexemes]
    simp
  · rw [solid_append, hgap.solid_eq, List.append_nil]
    exact hstart

/-- A statement is read as what it describes, however it is typed: with any
blanks between its pieces, in any quotes, and with keywords in any case. -/
theorem Typed.ofStatement_eq (htyped : typed.IsTypedAs text) :
    Descriptor.ofStatement (String.ofList text) = typed.descriptor := by
  obtain ⟨placed, trailer, hpieces, hplaced, htrailer, rfl⟩ := htyped
  have hkind : ∀ place ∈ placed, IsTypedPiece place.piece := by
    intro place hplace
    apply typed.isTypedPiece
    rw [← hpieces]
    exact List.mem_map_of_mem hplace
  obtain ⟨place, placed, rfl⟩ : ∃ place rest, placed = place :: rest := by
    apply List.exists_cons_of_ne_nil
    rintro rfl
    cases hpieces
  let lexemes := place.piece :: spaced placed
  have hblank : ∀ other ∈ place :: placed, ¬other.piece.isBlank :=
    fun other hother => (hkind other hother).not_blank
  have hbasic : ∀ other ∈ place :: placed, IsBasic other.piece :=
    fun other hother => (hkind other hother).isBasic
  have hsolid : solid lexemes = typed.pieces := by
    have htail : solid (spaced placed) = placed.map Placed.piece :=
      solid_spaced fun other hother => hblank other (List.mem_cons_of_mem place hother)
    rw [solid_cons (hblank place List.mem_cons_self), htail, ← hpieces]
    rfl
  -- The squeezed head differs from the pieces by single spaces only, so it can be assembled.
  obtain ⟨start, entries, hlexemes, hstart, hne, hbalanced, hcolumns⟩ :=
    exists_assemble hsolid (last_spaced_not_blank hblank)
  have hreadable {part : List Lexeme} (hwithin : part <:+: assemble start entries) :
      Readable part := by
    rw [← hlexemes] at hwithin
    exact hplaced.readable hbasic hwithin
  have hentry : ∀ entry ∈ entries, Readable entry := by
    intro entry hentry
    apply hreadable
    have hlist : [comma].intercalate entries <:+: assemble start entries :=
      ⟨start ++ [leftParen], [rightParen], by simp [assemble]⟩
    exact (isInfix_intercalate hentry).trans hlist
  have hsqueeze := squeeze_typedText hplaced (fun other hother => (hkind other hother).isPhrase)
    trailer
  change squeeze _ = sourceText lexemes ++ _ at hsqueeze
  rw [hlexemes] at hsqueeze
  have hread := ofStatement_of_squeeze hsqueeze (hstart ▸ typed.isFront)
    (hreadable (List.prefix_append start _).isInfix) hne hentry hbalanced
    (predicate?_squeezeAfter htrailer)
  rw [hread, Outline.descriptor, Typed.descriptor, hcolumns]
  cases typed.condition <;> rfl

/-- A statement with names of every kind, an entry named like a sort order, and a collation
named like a keyword. -/
def exampleTyped : Typed where
  create := ⟨"Create".toList, by decide, by decide, by decide⟩
  unique := none
  index := ⟨"index".toList, by decide, by decide, by decide⟩
  optional := none
  name :=
    { first := .string "on (".toList (by decide) ⟨by decide, by decide⟩
      further := [.bare "if".toList ⟨by decide, by decide, by decide, by decide⟩] }
  on := ⟨"oN".toList, by decide, by decide, by decide⟩
  table :=
    { first := .quoted '[' ']' "a \", b".toList rfl (by decide) ⟨by decide, by decide⟩
      further := [] }
  items :=
    [{ name := .bare "desc".toList ⟨by decide, by decide, by decide, by decide⟩
       collation := some
         { keyword := ⟨"collate".toList, by decide, by decide, by decide⟩
           word := "Asc".toList
           isBareWord := ⟨by decide, by decide, by decide, by decide⟩ }
       order := some (.ascending ⟨"Asc".toList, by decide, by decide, by decide⟩)
       name_ne := by decide
       collation_ne := by simp },
     { name := .quoted '"' '"' "-- c".toList rfl (by decide) ⟨by decide, by decide⟩
       collation := none
       order := none
       name_ne := by decide
       collation_ne := by simp }]
  condition := some
    { keyword := ⟨"Where".toList, by decide, by decide, by decide⟩
      predicate := " c\n>  ';' ".toList
      ne_nil := by decide
      last_ne := by decide }
  first_ne := by
    intro _ word hword heq
    cases heq

def exampleGaps : List String :=
  ["\n", " ", "\t ", " ", "", " ", "\u2003", "", " ", "\u00a0 ", " ", "  ", "", "\n", " "]

def exampleText : List Char :=
  ("\nCreate index\t 'on (' .if oN\u2003[a \", b]( desc\u00a0 collate Asc  Asc,\n" ++
    "\"-- c\" )Where\t c\n>  ';' ; ;").toList

def exampleDescriptor : Descriptor where
  schema := "on ("
  index := "if"
  table := "a \", b"
  columns := [{ name := "desc", collate := "Asc", sort := "ASC" }, { name := "-- c" }]
  predicate := "c > ';'"

theorem ofStatement_exampleText :
    exampleTyped.IsTypedAs exampleText ∧
      Descriptor.ofStatement (String.ofList exampleText) = exampleTyped.descriptor ∧
      exampleTyped.descriptor = exampleDescriptor := by
  have hafter : ∀ c ∈ "\t".toList, Text.isBlank c := by decide
  have htail : IsTypedEnd "; ;".toList := by
    unfold IsTypedEnd
    decide
  have hbefore : ∀ c ∈ [], Text.isBlank c := by simp
  have htyped : exampleTyped.IsTypedAs exampleText :=
    ⟨List.zipWith Placed.mk (exampleGaps.map String.toList) exampleTyped.pieces, _,
      by decide, ⟨by decide, by decide⟩, .within hbefore hafter (by decide) htail, by decide⟩
  exact ⟨htyped, Typed.ofStatement_eq htyped, by decide +kernel⟩

end CreateIndex.Statement
