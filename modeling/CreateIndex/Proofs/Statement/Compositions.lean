import CreateIndex.Proofs.Lexeme.Words
import CreateIndex.Proofs.Statement.Cursors
import CreateIndex.Proofs.Statement.Peeling

/-!
# How an entry is composed

One who writes an entry puts a collation and a sort order behind a name, with blanks wherever
there may be some.  Keywords are names too, so the same lexemes could be put together in several
ways: `a COLLATE asc` might have a collation or a sort order.  `Composition` leaves a part out
only where the rest does not look like it, and with that every entry is composed in exactly one
way, which is the way in which it is read.
-/

namespace CreateIndex.Statement

open Text Lexeme

variable {entry unsorted named : List Lexeme}

/-! ## Parts behind a name -/

/-- A collation after its keyword, with the blanks before each of the two. -/
@[ext]
structure CollationClause where
  before : List Lexeme
  keyword : Lexeme
  between : List Lexeme
  name : Lexeme
  allBlank_before : AllBlank before
  isKeyword : keyword.isKeyword "COLLATE"
  allBlank_between : AllBlank between
  isIdentifier : name.identifier?.isSome

/-- A sort order with the blanks before it. -/
@[ext]
structure OrderClause where
  before : List Lexeme
  word : Lexeme
  allBlank_before : AllBlank before
  isSort : IsSort word

namespace CollationClause

def lexemes (clause : CollationClause) : List Lexeme :=
  clause.before ++ [clause.keyword] ++ clause.between ++ [clause.name]

def collate (clause : CollationClause) : List Char :=
  clause.name.identifier?.get clause.isIdentifier

theorem identifier?_name (clause : CollationClause) :
    clause.name.identifier? = some clause.collate :=
  (Option.some_get clause.isIdentifier).symm

theorem givesCollation (clause : CollationClause) :
    GivesCollation clause.lexemes clause.collate :=
  .some clause.allBlank_before clause.isKeyword clause.allBlank_between clause.identifier?_name

end CollationClause

namespace OrderClause

def lexemes (clause : OrderClause) : List Lexeme :=
  clause.before ++ [clause.word]

def sort (clause : OrderClause) : List Char :=
  upper clause.word.shown

theorem givesSort (clause : OrderClause) : GivesSort clause.lexemes clause.sort :=
  .some clause.allBlank_before clause.isSort

end OrderClause

def collationLexemes (collation : Option CollationClause) : List Lexeme :=
  collation.elim [] CollationClause.lexemes

def orderLexemes (order : Option OrderClause) : List Lexeme :=
  order.elim [] OrderClause.lexemes

/-- A collation is given by its clause, and the empty one by leaving the clause
out. -/
theorem givesCollation_collationLexemes (collation : Option CollationClause) :
    GivesCollation (collationLexemes collation) (collation.elim [] CollationClause.collate) := by
  cases collation with
  | none => exact .none
  | some clause => exact clause.givesCollation

theorem givesSort_orderLexemes (order : Option OrderClause) :
    GivesSort (orderLexemes order) (order.elim [] OrderClause.sort) := by
  cases order with
  | none => exact .none
  | some clause => exact clause.givesSort

/-- Whatever gives a collation is the clause of one, or nothing. -/
theorem exists_collationLexemes_eq {lexemes : List Lexeme} {collate : List Char}
    (hgives : GivesCollation lexemes collate) :
    ∃ collation, lexemes = collationLexemes collation := by
  cases hgives with
  | none => exact ⟨none, rfl⟩
  | some hbefore hkeyword hbetween hname =>
      exact ⟨some ⟨_, _, _, _, hbefore, hkeyword, hbetween, by simp [hname]⟩, rfl⟩

theorem exists_orderLexemes_eq {lexemes : List Lexeme} {sort : List Char}
    (hgives : GivesSort lexemes sort) : ∃ order, lexemes = orderLexemes order := by
  cases hgives with
  | none => exact ⟨none, rfl⟩
  | some hbefore hsort => exact ⟨some ⟨_, _, hbefore, hsort⟩, rfl⟩

/-- What stands between blanks is found again, and so are the blanks: the first
and the last lexeme that is none show where they end. -/
theorem eq_of_append_blanks {before before' items items' after after' : List Lexeme}
    (hbefore : AllBlank before) (hbefore' : AllBlank before') (hitems : IsTrimmed items)
    (hitems' : IsTrimmed items') (hafter : AllBlank after) (hafter' : AllBlank after')
    (heq : before ++ items ++ after = before' ++ items' ++ after') :
    before = before' ∧ items = items' ∧ after = after' := by
  have htrim : items = items' := by
    rw [← trimBlanks_append hbefore hitems hafter, heq,
      trimBlanks_append hbefore' hitems' hafter']
  subst htrim
  have hdrop {gap rest : List Lexeme} (hgap : AllBlank gap) :
      (gap ++ items ++ rest).dropWhile Lexeme.isBlank = items ++ rest := by
    rw [List.append_assoc]
    apply dropWhile_append_of_head hgap
    rw [List.head?_append_of_ne_nil _ hitems.ne_nil]
    exact hitems.head_not_blank
  have hrest : items ++ after = items ++ after' := by
    rw [← hdrop hbefore, heq, hdrop hbefore']
  have hafters : after = after' := List.append_cancel_left hrest
  subst hafters
  exact ⟨List.append_cancel_right (List.append_cancel_right heq), rfl, rfl⟩

theorem CollationClause.lexemes_injective : Function.Injective lexemes := by
  intro first second heq
  obtain ⟨hfront, hname⟩ := List.append_inj' heq rfl
  obtain ⟨hbefore, hkeyword, hbetween⟩ := eq_of_append_blanks first.allBlank_before
    second.allBlank_before (isTrimmed_singleton (isKeyword_not_blank first.isKeyword))
    (isTrimmed_singleton (isKeyword_not_blank second.isKeyword)) first.allBlank_between
    second.allBlank_between hfront
  exact CollationClause.ext hbefore (List.singleton_inj.mp hkeyword) hbetween
    (List.singleton_inj.mp hname)

theorem OrderClause.lexemes_injective : Function.Injective lexemes := by
  intro first second heq
  obtain ⟨hbefore, hword⟩ := List.append_inj' heq rfl
  exact OrderClause.ext hbefore (List.singleton_inj.mp hword)

/-- A part that may be left out is known by its lexemes, if it has some. -/
theorem injective_elim_nil {α : Type} {lexemes : α → List Lexeme}
    (hinjective : Function.Injective lexemes) (hne : ∀ part, lexemes part ≠ []) :
    Function.Injective fun part? : Option α => part?.elim [] lexemes := by
  intro first second heq
  cases first with
  | none =>
      cases second with
      | none => rfl
      | some part => exact absurd heq.symm (hne part)
  | some part =>
      cases second with
      | none => exact absurd heq (hne part)
      | some other => exact congrArg some (hinjective heq)

theorem collationLexemes_injective : Function.Injective collationLexemes :=
  injective_elim_nil CollationClause.lexemes_injective fun _ => by simp [CollationClause.lexemes]

theorem orderLexemes_injective : Function.Injective orderLexemes :=
  injective_elim_nil OrderClause.lexemes_injective fun _ => by simp [OrderClause.lexemes]

/-! ## Where peeling finds nothing -/

/-- What trimmed lexemes start with is trimmed too, once the blanks behind it
are off. -/
theorem IsTrimmed.exists_front {start rest : List Lexeme} (hwhole : IsTrimmed (start ++ rest))
    (hne : start ≠ []) : ∃ items gap, start = items ++ gap ∧ IsTrimmed items ∧ AllBlank gap := by
  have hhead : ∀ lexeme ∈ start.head?, ¬lexeme.isBlank := by
    intro lexeme hlexeme
    apply hwhole.head_not_blank
    rwa [List.head?_append_of_ne_nil _ hne]
  obtain ⟨gap, hstart, hgap⟩ := exists_append_trimBlanks_of_head hhead
  refine ⟨trimBlanks start, gap, hstart, isTrimmed_trimBlanks fun hnil => ?_, hgap⟩
  obtain ⟨lexeme, rest, rfl⟩ := List.exists_cons_of_ne_nil hne
  rw [hnil, List.nil_append] at hstart
  exact hhead lexeme rfl (hgap lexeme (hstart ▸ List.mem_cons_self))

/-- No collation is peeled off exactly if nothing before the end looks like one.
A keyword without anything before it is itself the name. -/
theorem peelCollation_eq_self_iff (hnamed : IsTrimmed named) :
    peelCollation named = (named, []) ↔
      ∀ (start : List Lexeme) (clause : CollationClause), start ≠ [] →
        named ≠ start ++ clause.lexemes := by
  constructor
  · rintro hpeel start clause hne rfl
    obtain ⟨items, gap, rfl, hitems, hgap⟩ := hnamed.exists_front hne
    have hshort := peelCollation_append hitems (hgap.append clause.allBlank_before)
      clause.isKeyword clause.allBlank_between clause.identifier?_name
    have heq : items ++ gap ++ clause.lexemes =
        items ++ (gap ++ clause.before) ++ [clause.keyword] ++ clause.between ++
          [clause.name] := by
      simp [CollationClause.lexemes]
    rw [heq, hshort] at hpeel
    have hlength := congrArg List.length (Prod.mk.inj hpeel).1
    simp at hlength
  · intro hnone
    rcases peelCollation_cases hnamed with hpeel |
      ⟨items, gap, keyword, gap', last, collate, hsplit, hitems, hgap, hkeyword, hgap', hlast⟩
    · exact hpeel
    · let clause : CollationClause :=
        ⟨gap, keyword, gap', last, hgap, hkeyword, hgap', by simp [hlast]⟩
      refine absurd ?_ (hnone items clause hitems.ne_nil)
      rw [hsplit]
      simp [clause, CollationClause.lexemes]

/-- No sort order is peeled off exactly if there is none at the end, or nothing
before it. -/
theorem peelSort_eq_self_iff (hunsorted : IsTrimmed unsorted) :
    peelSort unsorted = (unsorted, []) ↔
      ∀ last ∈ (solid unsorted).getLast?, IsSort last → solid unsorted = [last] := by
  obtain ⟨init, last, rfl⟩ := List.eq_nil_or_concat' unsorted |>.resolve_left hunsorted.ne_nil
  have hlast : ¬last.isBlank := hunsorted.last_not_blank last (by simp)
  have hsolid : solid (init ++ [last]) = solid init ++ [last] := by
    rw [solid_append, solid_cons hlast]
    rfl
  rw [hsolid, List.getLast?_concat]
  constructor
  · rintro hpeel other hother hsort
    cases hother
    by_cases hne : init = []
    · rw [hne]
      rfl
    · exfalso
      obtain ⟨items, gap, rfl, hitems, hgap⟩ := hunsorted.exists_front hne
      rw [peelSort_append hitems hgap hsort] at hpeel
      have hlength := congrArg List.length (Prod.mk.inj hpeel).1
      simp at hlength
  · intro honly
    rcases peelSort_cases hunsorted with hpeel | ⟨before, gap, word, hsplit, hbefore, hgap, hsort⟩
    · exact hpeel
    · exfalso
      obtain ⟨rfl, hword⟩ := List.append_inj' hsplit rfl
      obtain rfl := List.singleton_inj.mp hword
      have hnil := honly last rfl hsort
      have hnil : solid (before ++ gap) = [] := List.append_left_eq_self.mp hnil
      obtain ⟨lexeme, rest, rfl⟩ := List.exists_cons_of_ne_nil hbefore.ne_nil
      exact hbefore.head_not_blank lexeme rfl (allBlank_of_solid_eq_nil hnil lexeme (by simp))

/-! ## Whole entries -/

/-- An entry by its parts.  Without a collation the name is not one more name before a
collation; without a sort order nothing but a lone lexeme ends in one. -/
@[ext]
structure Composition where
  before : List Lexeme
  /-- The lexemes of the name. -/
  named : List Lexeme
  collation : Option CollationClause
  order : Option OrderClause
  after : List Lexeme
  allBlank_before : AllBlank before
  isTrimmed : IsTrimmed named
  allBlank_after : AllBlank after
  not_collated : collation = none →
    ∀ (start : List Lexeme) (clause : CollationClause), start ≠ [] →
      named ≠ start ++ clause.lexemes
  not_ordered : order = none →
    let entry := before ++ (named ++ collationLexemes collation) ++ after
    ∀ last ∈ (solid entry).getLast?, IsSort last → solid entry = [last]

namespace Composition

variable (composition : Composition)

def lexemes : List Lexeme :=
  composition.before ++
    (composition.named ++ collationLexemes composition.collation ++
      orderLexemes composition.order) ++
    composition.after

def collate : List Char :=
  composition.collation.elim [] CollationClause.collate

def sort : List Char :=
  composition.order.elim [] OrderClause.sort

/-- The parts of the lexemes that the composition has between its outer blanks.
What the composition asks of an entry without a collation is what peeling tests. -/
theorem parts : Parts composition.named (collationLexemes composition.collation)
    (orderLexemes composition.order) composition.collate composition.sort := by
  have hcollation := givesCollation_collationLexemes composition.collation
  have horder := givesSort_orderLexemes composition.order
  refine ⟨composition.isTrimmed, hcollation, horder, fun hnil => ?_, fun hnil => ?_⟩
  · exact (peelCollation_eq_self_iff composition.isTrimmed).mpr
      (composition.not_collated (collationLexemes_injective hnil))
  · have hnone := composition.not_ordered (orderLexemes_injective hnil)
    rw [peelSort_eq_self_iff (composition.isTrimmed.append_collation hcollation)]
    simpa [solid_append, composition.allBlank_before.solid_eq,
      composition.allBlank_after.solid_eq] using hnone

/-- Equal entries are composed alike: peeling takes the same parts off both
sides, and parts determine the clauses. -/
theorem lexemes_injective : Function.Injective lexemes := by
  intro first second heq
  have hfirst := first.parts
  have hsecond := second.parts
  obtain ⟨hbefore, hentry, hafter⟩ := eq_of_append_blanks first.allBlank_before
    second.allBlank_before hfirst.isTrimmed_entry hsecond.isTrimmed_entry first.allBlank_after
    second.allBlank_after heq
  have hunsorted : first.named ++ collationLexemes first.collation =
      second.named ++ collationLexemes second.collation := by
    have hpeel := congrArg peelSort hentry
    rw [hfirst.peelSort_eq, hsecond.peelSort_eq] at hpeel
    exact (Prod.mk.inj hpeel).1
  have hnamed : first.named = second.named := by
    have hpeel := congrArg peelCollation hunsorted
    rw [hfirst.peelCollation_eq, hsecond.peelCollation_eq] at hpeel
    exact (Prod.mk.inj hpeel).1
  have horder : orderLexemes first.order = orderLexemes second.order := by
    rw [hunsorted] at hentry
    exact List.append_cancel_left hentry
  have hcollation : collationLexemes first.collation = collationLexemes second.collation := by
    rw [hnamed] at hunsorted
    exact List.append_cancel_left hunsorted
  exact Composition.ext hbefore hnamed (collationLexemes_injective hcollation)
    (orderLexemes_injective horder) hafter

/-- Whatever is no blank throughout is composed somehow: peel it, and take the
pieces that come off. -/
theorem exists_lexemes_eq (hsolid : ∃ lexeme ∈ entry, ¬lexeme.isBlank) :
    ∃ composition : Composition, composition.lexemes = entry := by
  obtain ⟨before, after, hentry, hbefore, hafter⟩ := exists_append_trimBlanks entry
  have hne : trimBlanks entry ≠ [] := by
    intro hnil
    obtain ⟨lexeme, hmem, hblank⟩ := hsolid
    rw [hentry, hnil, List.append_nil] at hmem
    exact hblank (hbefore.append hafter lexeme hmem)
  obtain ⟨named, collation, order, collate, sort, htrim, hparts⟩ :=
    exists_parts (isTrimmed_trimBlanks hne)
  obtain ⟨collation, rfl⟩ := exists_collationLexemes_eq hparts.givesCollation
  obtain ⟨order, rfl⟩ := exists_orderLexemes_eq hparts.givesSort
  refine ⟨⟨before, named, collation, order, after, hbefore, hparts.isTrimmed, hafter, ?_, ?_⟩, ?_⟩
  · intro hnone
    have hpeel := hparts.no_collation (by rw [hnone]; rfl)
    exact (peelCollation_eq_self_iff hparts.isTrimmed).mp hpeel
  · intro hnone
    have hpeel := hparts.no_order (by rw [hnone]; rfl)
    have honly := (peelSort_eq_self_iff hparts.isTrimmed_unsorted).mp hpeel
    simpa [solid_append, hbefore.solid_eq, hafter.solid_eq] using honly
  · rw [htrim] at hentry
    exact hentry.symm

end Composition

/-! ## Reading what is composed -/

/-- Some lexemes name a column with the given text, or an expression if the flag is set.  A
lone lexeme that is no identifier is named by its display form. -/
inductive NamesEntry : List Lexeme → List Char → Bool → Prop where
  | identifier {lexeme : Lexeme} {name : List Char} (hname : lexeme.identifier? = some name) :
      NamesEntry [lexeme] name false
  | lone {lexeme : Lexeme} (hother : lexeme.identifier? = none) :
      NamesEntry [lexeme] lexeme.shown true
  | several {named : List Lexeme} (hseveral : ∀ lexeme, named ≠ [lexeme]) :
      NamesEntry named (sourceText named) true

theorem namesEntry_entryName (named : List Lexeme) :
    NamesEntry named (entryName named).1 (entryName named).2 := by
  unfold entryName
  split
  · split
    · exact .identifier ‹_›
    · exact .lone ‹_›
  · exact .several fun lexeme hsingle => ‹∀ lexeme, named = [lexeme] → False› lexeme hsingle

theorem shown_ne_nil {lexeme : Lexeme} (htext : lexeme.text ≠ []) : lexeme.shown ≠ [] := by
  unfold shown
  split <;> first | exact htext | simp

/-- Of lexemes that were written, only an identifier with an empty name has no
name: all others show some of their text. -/
theorem NamesEntry.eq_nil_iff {name : List Char} {isExpression : Bool}
    (hnames : NamesEntry named name isExpression) (htext : sourceText named ≠ []) :
    name = [] ↔ ∃ lexeme, named = [lexeme] ∧ lexeme.identifier? = some [] := by
  cases hnames with
  | @identifier lexeme _ hname =>
      constructor
      · rintro rfl
        exact ⟨lexeme, rfl, hname⟩
      · rintro ⟨other, hother, hnil⟩
        cases hother
        exact Option.some.inj (hname.symm.trans hnil)
  | @lone lexeme hother =>
      rw [sourceText_singleton] at htext
      constructor
      · exact fun hnil => absurd hnil (shown_ne_nil htext)
      · rintro ⟨other, hsingle, hnil⟩
        cases hsingle
        cases hother.symm.trans hnil
  | several hseveral =>
      constructor
      · exact fun hnil => absurd hnil htext
      · rintro ⟨lexeme, hsingle, -⟩
        exact absurd hsingle (hseveral lexeme)

/-- An entry is read as what it is composed of, and every entry that is no blank throughout is
composed in exactly one way.  Lexemes that were read from a text have some text themselves
(`sourceText_ne_nil`). -/
theorem column?_of_composition :
    (∀ composition : Composition,
      (sourceText composition.named ≠ [] →
        (column? composition.lexemes = none ↔
          ∃ lexeme, composition.named = [lexeme] ∧ lexeme.identifier? = some [])) ∧
        ∀ column, column? composition.lexemes = some column →
          column.collate.toList = composition.collate ∧
          column.sort.toList = composition.sort ∧
          NamesEntry composition.named column.name.toList column.isExpression) ∧
      ∀ entry : List Lexeme, (∃ lexeme ∈ entry, ¬lexeme.isBlank) →
        ∃! composition : Composition, composition.lexemes = entry := by
  refine ⟨fun composition => ?_, fun entry hsolid => ?_⟩
  · have hcolumn : column? composition.lexemes = _ :=
      column?_of_parts composition.parts composition.allBlank_before composition.allBlank_after
    have hnames := namesEntry_entryName composition.named
    rw [hcolumn]
    refine ⟨fun htext => ?_, fun column hread => ?_⟩
    · rw [← hnames.eq_nil_iff htext]
      simp
    · split at hread
      · cases hread
      · cases hread
        simpa using hnames
  · obtain ⟨composition, hlexemes⟩ := Composition.exists_lexemes_eq hsolid
    exact ⟨composition, hlexemes, fun other hother =>
      Composition.lexemes_injective (hother.trans hlexemes.symm)⟩

theorem bare_not_blank (word : List Char) : ¬(bare word).isBlank :=
  Bool.false_ne_true

/-- An entry in which the keyword of the collation is part of the name as well. -/
def chainedEntry : Composition where
  before := [space]
  named := [bare "a".toList, space, bare "COLLATE".toList, space, bare "b".toList]
  collation := some
    { before := [space, blockComment " k ".toList]
      keyword := bare "collate".toList
      between := [space]
      name := bare "c".toList
      allBlank_before := List.forall_mem_cons.mpr ⟨rfl, List.forall_mem_singleton.mpr rfl⟩
      isKeyword := by decide +kernel
      allBlank_between := allBlank_space
      isIdentifier := rfl }
  order := some
    { before := [space]
      word := bare "asc".toList
      allBlank_before := allBlank_space
      isSort := by decide +kernel }
  after := []
  allBlank_before := allBlank_space
  isTrimmed :=
    ((isTrimmed_singleton (bare_not_blank _)).append_last (bare_not_blank _) [space]).append_last
      (bare_not_blank _) [space]
  allBlank_after := allBlank_nil
  not_collated := nofun
  not_ordered := nofun

theorem column?_of_composition_chained :
    lex " a COLLATE b /* k */collate c asc".toList = some chainedEntry.lexemes ∧
      chainedEntry.collate = "c".toList ∧ chainedEntry.sort = "ASC".toList ∧
      (column? chainedEntry.lexemes = none ↔
        ∃ lexeme, chainedEntry.named = [lexeme] ∧ lexeme.identifier? = some []) ∧
      (∀ column, column? chainedEntry.lexemes = some column →
        column.collate.toList = chainedEntry.collate ∧
        column.sort.toList = chainedEntry.sort ∧
        NamesEntry chainedEntry.named column.name.toList column.isExpression) ∧
      ∃! composition : Composition, composition.lexemes = chainedEntry.lexemes := by
  obtain ⟨hread, hunique⟩ := column?_of_composition
  have htext : sourceText chainedEntry.named ≠ [] := by decide
  have hsolid : ∃ lexeme ∈ chainedEntry.lexemes, ¬lexeme.isBlank := by decide +kernel
  exact ⟨by decide +kernel, rfl, by decide +kernel, (hread chainedEntry).1 htext,
    (hread chainedEntry).2, hunique chainedEntry.lexemes hsolid⟩

end CreateIndex.Statement
