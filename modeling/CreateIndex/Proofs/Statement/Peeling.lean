import CreateIndex.Proofs.Text.Spacing
import CreateIndex.Proofs.Statement.Entries
import CreateIndex.Proofs.Statement.Readers

/-!
# Peeling an entry

An entry has a name, perhaps a collation, and perhaps a sort order, with blanks between
them.  `Parts` relates an entry to its parts from the side of one who writes it, and
peeling finds exactly these parts.  The relation also says what makes the parts unique: a
part is left out only where peeling would not find one.
-/

namespace CreateIndex.Statement

open Text Lexeme

variable {entry items before named gap gap' : List Lexeme} {last keyword : Lexeme}
  {name collate sort : List Char}

theorem AllBlank.neutral (hblank : AllBlank gap) : ∀ lexeme ∈ gap, IsNeutral lexeme :=
  fun lexeme hlexeme => isNeutral_of_isBlank (hblank lexeme hlexeme)

/-- Lexemes that start and end with something. -/
structure IsTrimmed (lexemes : List Lexeme) : Prop where
  ne_nil : lexemes ≠ []
  head_not_blank : ∀ lexeme ∈ lexemes.head?, ¬lexeme.isBlank
  last_not_blank : ∀ lexeme ∈ lexemes.getLast?, ¬lexeme.isBlank

theorem isTrimmed_singleton {lexeme : Lexeme} (hblank : ¬lexeme.isBlank) :
    IsTrimmed [lexeme] := by
  refine ⟨by simp, ?_, ?_⟩
  · intro other hother
    cases hother
    exact hblank
  · intro other hother
    cases hother
    exact hblank

/-- What starts with trimmed lexemes and ends with a lexeme that is no blank is
trimmed, whatever stands in between. -/
theorem IsTrimmed.append_last (hbefore : IsTrimmed before) (hlast : ¬last.isBlank)
    (gap : List Lexeme) : IsTrimmed (before ++ gap ++ [last]) where
  ne_nil := by simp
  head_not_blank lexeme hlexeme := by
    rw [List.append_assoc, List.head?_append_of_ne_nil _ hbefore.ne_nil] at hlexeme
    exact hbefore.head_not_blank lexeme hlexeme
  last_not_blank lexeme hlexeme := by
    rw [List.getLast?_concat] at hlexeme
    cases hlexeme
    exact hlast

theorem trimBlanks_append (hgap : AllBlank gap) (hitems : IsTrimmed items)
    (hgap' : AllBlank gap') : trimBlanks (gap ++ items ++ gap') = items :=
  trimWhile_append hgap hitems.head_not_blank hitems.last_not_blank hgap' hitems.ne_nil

theorem trimBlanks_append_gap (hitems : IsTrimmed items) (hgap : AllBlank gap) :
    trimBlanks (items ++ gap) = items :=
  trimBlanks_append allBlank_nil hitems hgap

theorem trimBlanks_of_allBlank (hblank : AllBlank items) : trimBlanks items = [] := by
  have hdrop : (items ++ []).dropWhile Lexeme.isBlank = [] :=
    List.dropWhile_append_of_pos hblank
  rw [List.append_nil] at hdrop
  rw [trimBlanks, trimWhile, hdrop]
  rfl

theorem trimBlanks_cons {lexeme : Lexeme} (hblank : lexeme.isBlank) (items : List Lexeme) :
    trimBlanks (lexeme :: items) = trimBlanks items := by
  rw [trimBlanks, trimWhile, List.dropWhile_cons_of_pos hblank]
  rfl

theorem column?_cons_blank {lexeme : Lexeme} (hblank : lexeme.isBlank)
    (items : List Lexeme) : column? (lexeme :: items) = column? items := by
  rw [column?, trimBlanks_cons hblank]
  rfl

theorem isTrimmed_trimBlanks (hne : trimBlanks items ≠ []) : IsTrimmed (trimBlanks items) :=
  ⟨hne, head?_trimWhile_not _ items, getLast?_trimWhile_not _ items⟩

/-- Trimmed blanks were the only thing around what is left. -/
theorem exists_append_trimBlanks (items : List Lexeme) :
    ∃ gap gap', items = gap ++ trimBlanks items ++ gap' ∧ AllBlank gap ∧ AllBlank gap' :=
  exists_append_trimWhile Lexeme.isBlank items

/-- Trimming leaves the front of lexemes that start with something, so blanks
are lost at the end only. -/
theorem exists_append_trimBlanks_of_head (hhead : ∀ lexeme ∈ items.head?, ¬lexeme.isBlank) :
    ∃ gap, items = trimBlanks items ++ gap ∧ AllBlank gap := by
  obtain ⟨gap, gap', hitems, hgap, hgap'⟩ := exists_append_trimBlanks items
  cases gap with
  | nil => exact ⟨gap', hitems, hgap'⟩
  | cons lexeme gap =>
      rw [hitems] at hhead
      exact absurd (hgap lexeme (by simp)) (hhead lexeme rfl)

/-! ## The sort order -/

def IsSort (lexeme : Lexeme) : Prop :=
  lexeme.isKeyword "ASC" ∨ lexeme.isKeyword "DESC"

instance (lexeme : Lexeme) : Decidable (IsSort lexeme) :=
  inferInstanceAs (Decidable (_ ∨ _))

theorem IsSort.not_blank (hsort : IsSort last) : ¬last.isBlank :=
  hsort.elim isKeyword_not_blank isKeyword_not_blank

theorem IsSort.neutral (hsort : IsSort last) : IsNeutral last :=
  hsort.elim isNeutral_of_isKeyword isNeutral_of_isKeyword

/-- A sort order is peeled off with the blanks before it, if there is something
before them. -/
theorem peelSort_append (hbefore : IsTrimmed before) (hgap : AllBlank gap)
    (hsort : IsSort last) :
    peelSort (before ++ gap ++ [last]) = (before, upper last.shown) := by
  have htrim : trimBlanks (before ++ gap) = before := trimBlanks_append_gap hbefore hgap
  have hkeyword : (last.isKeyword "ASC" || last.isKeyword "DESC") = true :=
    Bool.or_eq_true_iff.mpr hsort
  simp only [peelSort, List.getLast?_concat, List.dropLast_concat, htrim, hkeyword]
  simp [hbefore.ne_nil]

theorem peelSort_of_not_isSort (hlast : ∀ last ∈ entry.getLast?, ¬IsSort last) :
    peelSort entry = (entry, []) := by
  rw [peelSort]
  split
  · rfl
  · rename_i last hmem
    have hkeyword : (last.isKeyword "ASC" || last.isKeyword "DESC") = false :=
      Bool.eq_false_iff.mpr fun h => hlast last hmem (Bool.or_eq_true_iff.mp h)
    simp [hkeyword]

theorem peelSort_singleton (lexeme : Lexeme) : peelSort [lexeme] = ([lexeme], []) := by
  simp [peelSort, trimBlanks, trimWhile, dropEndWhile]

/-- An entry either keeps all its lexemes, or it loses its sort order. -/
theorem peelSort_cases (hentry : IsTrimmed entry) :
    peelSort entry = (entry, []) ∨
      ∃ before gap last, entry = before ++ gap ++ [last] ∧ IsTrimmed before ∧
        AllBlank gap ∧ IsSort last := by
  by_cases hlast : ∀ last ∈ entry.getLast?, ¬IsSort last
  · exact Or.inl (peelSort_of_not_isSort hlast)
  · push Not at hlast
    obtain ⟨last, hmem, hsort⟩ := hlast
    have hsplit : entry.dropLast ++ [last] = entry := List.dropLast_append_getLast? last hmem
    by_cases hbefore : trimBlanks entry.dropLast = []
    · left
      rw [peelSort, Option.mem_def.mp hmem]
      simp [hbefore]
    · right
      have hhead : ∀ lexeme ∈ entry.dropLast.head?, ¬lexeme.isBlank := by
        intro lexeme hlexeme
        apply hentry.head_not_blank
        rw [← hsplit, List.head?_append, Option.mem_def.mp hlexeme]
        rfl
      obtain ⟨gap, hgap, hblank⟩ := exists_append_trimBlanks_of_head hhead
      refine ⟨trimBlanks entry.dropLast, gap, last, ?_, isTrimmed_trimBlanks hbefore, hblank,
        hsort⟩
      rw [← hgap, hsplit]

/-! ## The collation -/

/-- A collation is peeled off with its keyword and the blanks around that, if
there is something before them. -/
theorem peelCollation_append (hnamed : IsTrimmed named) (hgap : AllBlank gap)
    (hkeyword : keyword.isKeyword "COLLATE") (hgap' : AllBlank gap')
    (hlast : last.identifier? = some collate) :
    peelCollation (named ++ gap ++ [keyword] ++ gap' ++ [last]) = (named, collate) := by
  have hbefore : trimBlanks (named ++ gap ++ [keyword] ++ gap') = named ++ gap ++ [keyword] :=
    trimBlanks_append_gap (hnamed.append_last (isKeyword_not_blank hkeyword) gap) hgap'
  have htrim : trimBlanks (named ++ gap) = named := trimBlanks_append_gap hnamed hgap
  simp only [peelCollation, List.getLast?_concat, Option.bind_some, hlast,
    List.dropLast_concat, hbefore, htrim]
  simp [hkeyword, hnamed.ne_nil]

theorem peelCollation_singleton (lexeme : Lexeme) :
    peelCollation [lexeme] = ([lexeme], []) := by
  rw [peelCollation]
  split <;> simp [trimBlanks, trimWhile, dropEndWhile]

/-- Lexemes without a sort order either stay, or they lose their collation. -/
theorem peelCollation_cases (hentry : IsTrimmed entry) :
    peelCollation entry = (entry, []) ∨
      ∃ named gap keyword gap' last collate,
        entry = named ++ gap ++ [keyword] ++ gap' ++ [last] ∧ IsTrimmed named ∧
        AllBlank gap ∧ keyword.isKeyword "COLLATE" ∧ AllBlank gap' ∧
        last.identifier? = some collate := by
  cases hlast : entry.getLast?.bind Lexeme.identifier? with
  | none =>
      left
      rw [peelCollation, hlast]
  | some collate =>
      obtain ⟨last, hmem, hname⟩ := Option.bind_eq_some_iff.mp hlast
      have hsplit : entry.dropLast ++ [last] = entry :=
        List.dropLast_append_getLast? last hmem
      -- Peeling trims twice: between the keyword and the collation, and before the keyword.
      let before := trimBlanks entry.dropLast
      by_cases hkeyword : before.getLast?.any (·.isKeyword "COLLATE") &&
          !(trimBlanks before.dropLast).isEmpty
      · right
        rw [Bool.and_eq_true, Option.any_eq_true] at hkeyword
        obtain ⟨⟨keyword, hkeywordMem, hcollate⟩, hnamed⟩ := hkeyword
        have hbefore : before.dropLast ++ [keyword] = before :=
          List.dropLast_append_getLast? keyword hkeywordMem
        have hhead : ∀ lexeme ∈ entry.dropLast.head?, ¬lexeme.isBlank := by
          intro lexeme hlexeme
          apply hentry.head_not_blank
          rw [← hsplit, List.head?_append, Option.mem_def.mp hlexeme]
          rfl
        obtain ⟨gap', hgap', hblank'⟩ := exists_append_trimBlanks_of_head hhead
        have hne : before ≠ [] := by
          rw [← hbefore]
          simp
        have hhead' : ∀ lexeme ∈ before.dropLast.head?, ¬lexeme.isBlank := by
          intro lexeme hlexeme
          apply (isTrimmed_trimBlanks hne).head_not_blank
          change lexeme ∈ before.head?
          rw [← hbefore, List.head?_append, Option.mem_def.mp hlexeme]
          rfl
        obtain ⟨gap, hgap, hblank⟩ := exists_append_trimBlanks_of_head hhead'
        refine ⟨trimBlanks before.dropLast, gap, keyword, gap', last, collate, ?_,
          isTrimmed_trimBlanks (by simpa using hnamed), hblank, hcollate, hblank', hname⟩
        rw [← hgap, hbefore, ← hgap', hsplit]
      · left
        rw [peelCollation, hlast]
        exact if_neg hkeyword

/-! ## All parts of an entry -/

/-- The lexemes that give the collation of an entry, with the blanks between them. -/
inductive GivesCollation : List Lexeme → List Char → Prop where
  | none : GivesCollation [] []
  | some {before after : List Lexeme} {word collation : Lexeme} {content : List Char}
      (hbefore : AllBlank before) (hword : word.isKeyword "COLLATE")
      (hafter : AllBlank after) (hcollation : collation.identifier? = some content) :
      GivesCollation (before ++ [word] ++ after ++ [collation]) content

/-- The lexemes that give the sort order of an entry, with the blanks before them. -/
inductive GivesSort : List Lexeme → List Char → Prop where
  | none : GivesSort [] []
  | some {before : List Lexeme} {word : Lexeme} (hbefore : AllBlank before)
      (hword : IsSort word) : GivesSort (before ++ [word]) (upper word.shown)

/-- The parts of an entry.  The name could be followed by more of it that looks like a
collation or a sort order, so where there is none, peeling must not find one either. -/
structure Parts (named collation order : List Lexeme) (collate sort : List Char) : Prop where
  isTrimmed : IsTrimmed named
  givesCollation : GivesCollation collation collate
  givesSort : GivesSort order sort
  no_collation : collation = [] → peelCollation named = (named, [])
  no_order : order = [] → peelSort (named ++ collation) = (named ++ collation, [])

variable {collation order : List Lexeme}

theorem IsTrimmed.append_collation (hnamed : IsTrimmed named)
    (hgives : GivesCollation collation collate) : IsTrimmed (named ++ collation) := by
  cases hgives with
  | none =>
      rw [List.append_nil]
      exact hnamed
  | @some gap gap' keyword _ _ hgap hkeyword hgap' hlast =>
      have := hnamed.append_last (identifier?_not_blank hlast) (gap ++ [keyword] ++ gap')
      simpa using this

theorem Parts.isTrimmed_unsorted (hparts : Parts named collation order collate sort) :
    IsTrimmed (named ++ collation) :=
  hparts.isTrimmed.append_collation hparts.givesCollation

theorem Parts.isTrimmed_entry (hparts : Parts named collation order collate sort) :
    IsTrimmed (named ++ collation ++ order) := by
  cases hparts.givesSort with
  | none =>
      rw [List.append_nil]
      exact hparts.isTrimmed_unsorted
  | @some gap last hgap hsort =>
      rw [← List.append_assoc]
      exact hparts.isTrimmed_unsorted.append_last hsort.not_blank gap

/-- The sort order is peeled off first, so that a collation is seen only in
front of it. -/
theorem Parts.peelSort_eq (hparts : Parts named collation order collate sort) :
    peelSort (named ++ collation ++ order) = (named ++ collation, sort) := by
  cases hparts.givesSort with
  | none =>
      rw [List.append_nil]
      exact hparts.no_order rfl
  | some hgap hsort =>
      rw [← List.append_assoc]
      exact peelSort_append hparts.isTrimmed_unsorted hgap hsort

theorem Parts.peelCollation_eq (hparts : Parts named collation order collate sort) :
    peelCollation (named ++ collation) = (named, collate) := by
  cases hparts.givesCollation with
  | none =>
      rw [List.append_nil]
      exact hparts.no_collation rfl
  | some hgap hkeyword hgap' hlast =>
      simpa using peelCollation_append hparts.isTrimmed hgap hkeyword hgap' hlast

/-- Where no sort order was peeled off, the collation does not look like one;
else it would have been taken for the order. -/
theorem Parts.not_isSort_last (hparts : Parts named collation order collate sort)
    (hnone : order = []) : ∀ last ∈ collation.getLast?, ¬IsSort last := by
  have hpeel := hparts.no_order hnone
  cases hparts.givesCollation with
  | none =>
      intro last hlast
      cases hlast
  | @some gap gap' keyword last _ hgap hkeyword hgap' _ =>
      intro other hother hsort
      rw [List.getLast?_concat] at hother
      cases hother
      have hbefore := hparts.isTrimmed.append_last (isKeyword_not_blank hkeyword) gap
      have hshort := peelSort_append hbefore hgap' hsort
      have heq : named ++ (gap ++ [keyword] ++ gap' ++ [last]) =
          named ++ gap ++ [keyword] ++ gap' ++ [last] := by
        simp
      rw [heq, hshort] at hpeel
      have hlength := congrArg List.length (Prod.mk.inj hpeel).1
      simp at hlength

theorem GivesCollation.neutral (hgives : GivesCollation collation collate) :
    ∀ lexeme ∈ collation, IsNeutral lexeme := by
  cases hgives with
  | none => simp
  | some hgap hkeyword hgap' hlast =>
      intro lexeme hlexeme
      simp only [List.mem_append, List.mem_singleton] at hlexeme
      rcases hlexeme with ((hlexeme | rfl) | hlexeme) | rfl
      · exact hgap.neutral lexeme hlexeme
      · exact isNeutral_of_isKeyword hkeyword
      · exact hgap'.neutral lexeme hlexeme
      · exact isNeutral_of_identifier? hlast

theorem GivesSort.neutral (hgives : GivesSort order sort) :
    ∀ lexeme ∈ order, IsNeutral lexeme := by
  cases hgives with
  | none => simp
  | some hgap hsort =>
      intro lexeme hlexeme
      rcases List.mem_append.mp hlexeme with hlexeme | hlexeme
      · exact hgap.neutral lexeme hlexeme
      · rw [List.mem_singleton.mp hlexeme]
        exact hsort.neutral

/-- Parentheses and commas occur in the name alone, so an entry ends where its
name lets it end. -/
theorem Parts.balanced_iff (hparts : Parts named collation order collate sort)
    (hgap : AllBlank gap) (hgap' : AllBlank gap') :
    Balanced (gap ++ (named ++ collation ++ order) ++ gap') ↔ Balanced named := by
  rw [balanced_append_neutral hgap'.neutral, balanced_neutral_append hgap.neutral,
    balanced_append_neutral hparts.givesSort.neutral,
    balanced_append_neutral hparts.givesCollation.neutral]

/-- An entry is read as its parts say, whatever blanks stand around it.  It gives
no column if its name is empty. -/
theorem column?_of_parts (hparts : Parts named collation order collate sort)
    (hgap : AllBlank gap) (hgap' : AllBlank gap') :
    column? (gap ++ (named ++ collation ++ order) ++ gap') =
      if (entryName named).1 = [] then none
      else some
        { name := String.ofList (entryName named).1
          collate := String.ofList collate
          sort := String.ofList sort
          isExpression := (entryName named).2 } := by
  rw [column?, trimBlanks_append hgap hparts.isTrimmed_entry hgap']
  simp only [hparts.peelSort_eq, hparts.peelCollation_eq]

/-- Every entry has parts, namely those that peeling finds. -/
theorem exists_parts (hentry : IsTrimmed entry) :
    ∃ named collation order collate sort, entry = named ++ collation ++ order ∧
      Parts named collation order collate sort := by
  have hcollated {unsorted order : List Lexeme} {sort : List Char}
      (hunsorted : IsTrimmed unsorted) (horder : GivesSort order sort)
      (hnone : order = [] → peelSort unsorted = (unsorted, [])) :
      ∃ named collation collate, unsorted = named ++ collation ∧
        Parts named collation order collate sort := by
    rcases peelCollation_cases hunsorted with hpeel |
      ⟨named, gap, keyword, gap', last, collate, rfl, hnamed, hgap, hkeyword, hgap', hlast⟩
    · refine ⟨unsorted, [], [], (List.append_nil _).symm, hunsorted, .none, horder,
        fun _ => hpeel, ?_⟩
      rwa [List.append_nil]
    · refine ⟨named, gap ++ [keyword] ++ gap' ++ [last], collate, by simp, hnamed,
        .some hgap hkeyword hgap' hlast, horder, fun h => absurd h (by simp), ?_⟩
      simpa using hnone
  rcases peelSort_cases hentry with hpeel |
    ⟨before, gap, last, rfl, hbefore, hgap, hsort⟩
  · obtain ⟨named, collation, collate, rfl, hparts⟩ :=
      hcollated hentry .none fun _ => hpeel
    exact ⟨named, collation, [], collate, [], (List.append_nil _).symm, hparts⟩
  · obtain ⟨named, collation, collate, rfl, hparts⟩ :=
      hcollated hbefore (.some hgap hsort) fun h => absurd h (by simp)
    exact ⟨named, collation, _, collate, _, by simp, hparts⟩

/-- Every column that is read from an entry is read from its parts, so a fact
about parts is one about columns. -/
theorem exists_parts_of_column? {column : Column} (hcolumn : column? entry = some column) :
    ∃ named collation order collate sort gap gap',
      entry = gap ++ (named ++ collation ++ order) ++ gap' ∧
      Parts named collation order collate sort ∧ AllBlank gap ∧ AllBlank gap' ∧
      (entryName named).1 ≠ [] ∧
      column =
        { name := String.ofList (entryName named).1
          collate := String.ofList collate
          sort := String.ofList sort
          isExpression := (entryName named).2 } := by
  obtain ⟨gap, gap', hentry, hgap, hgap'⟩ := exists_append_trimBlanks entry
  by_cases hne : trimBlanks entry = []
  · exfalso
    rw [column?, hne] at hcolumn
    cases hcolumn
  · obtain ⟨named, collation, order, collate, sort, htrim, hparts⟩ :=
      exists_parts (isTrimmed_trimBlanks hne)
    rw [htrim] at hentry
    rw [hentry, column?_of_parts hparts hgap hgap'] at hcolumn
    by_cases hname : (entryName named).1 = []
    · rw [if_pos hname] at hcolumn
      cases hcolumn
    · rw [if_neg hname] at hcolumn
      exact ⟨named, collation, order, collate, sort, gap, gap', hentry, hparts, hgap, hgap',
        hname, (Option.some.inj hcolumn).symm⟩

theorem exists_of_entryName {name : List Char} (hname : entryName named = (name, false)) :
    ∃ lexeme, named = [lexeme] ∧ lexeme.identifier? = some name := by
  unfold entryName at hname
  split at hname
  · rename_i lexeme
    refine ⟨lexeme, rfl, ?_⟩
    split at hname
    · rename_i found hfound
      rw [hfound, (Prod.mk.inj hname).1]
    · cases hname
  · cases hname

end CreateIndex.Statement
