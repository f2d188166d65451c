import CreateIndex.Proofs.Statement.ColumnLists
import CreateIndex.Proofs.Statement.Outlines
import Mathlib.Data.List.TakeWhile

/-!
# What readers have taken

The other direction: a reader that has given something has taken exactly the pieces that say
it.  So whatever has an outline is a front and a column list, and the names in the outline are
those that the front spells.
-/

namespace CreateIndex.Statement

open Lexeme Reading

variable {α β : Type} {read : Reading α} {next : α → Reading β} {a : α} {b : β}
  {accept : Lexeme → Option α} {spelling : String} {unique optional : Bool}
  {name table : List (List Char)}
  {lexemes left middle pieces pieces' : List Lexeme}

/-- Exactly the pieces were taken from the front, with the blanks among them. -/
def Took (lexemes pieces left : List Lexeme) : Prop :=
  ∃ taken, lexemes = taken ++ left ∧ solid taken = pieces

theorem took_nil (lexemes : List Lexeme) : Took lexemes [] lexemes :=
  ⟨[], rfl, rfl⟩

/-- What two steps have taken, one after the other, was taken in that order. -/
theorem Took.append (hfirst : Took lexemes pieces middle) (hsecond : Took middle pieces' left) :
    Took lexemes (pieces ++ pieces') left := by
  obtain ⟨taken, rfl, rfl⟩ := hfirst
  obtain ⟨taken', rfl, rfl⟩ := hsecond
  exact ⟨taken ++ taken', (List.append_assoc ..).symm, solid_append taken taken'⟩

theorem Took.suffix (htook : Took lexemes pieces left) : left <:+ lexemes := by
  obtain ⟨taken, rfl, -⟩ := htook
  exact List.suffix_append taken left

theorem Took.solid_eq (htook : Took lexemes pieces left) :
    solid lexemes = pieces ++ solid left := by
  obtain ⟨taken, rfl, rfl⟩ := htook
  exact solid_append taken left

theorem took_of_append {gap : List Lexeme} {piece : Lexeme} (hgap : AllBlank gap)
    (hpiece : ¬piece.isBlank) (left : List Lexeme) :
    Took (gap ++ piece :: left) [piece] left := by
  refine ⟨gap ++ [piece], by simp, ?_⟩
  rw [solid_append, hgap.solid_eq, solid_cons hpiece]
  rfl

/-! ## One reader after the other -/

theorem eq_some_of_bind (hread : (read >>= next) lexemes = (some b, left)) :
    ∃ a middle, read lexemes = (some a, middle) ∧ next a middle = (some b, left) := by
  simp only [Bind.bind] at hread
  cases hfirst : read lexemes with
  | mk a middle =>
      rw [hfirst] at hread
      cases a with
      | none => cases hread
      | some a => exact ⟨a, middle, rfl, hread⟩

/-- A reader of one lexeme has passed over blanks and then taken one that it
accepts. -/
theorem exists_of_one (hread : one accept lexemes = (some a, left)) :
    ∃ gap piece, lexemes = gap ++ piece :: left ∧ AllBlank gap ∧ ¬piece.isBlank ∧
      accept piece = some a := by
  rw [one] at hread
  cases hdrop : lexemes.dropWhile Lexeme.isBlank with
  | nil =>
      rw [hdrop] at hread
      cases hread
  | cons piece rest =>
      have hpiece : ¬piece.isBlank := by
        have := List.head?_dropWhile_not Lexeme.isBlank lexemes
        simpa [hdrop] using this
      simp only [hdrop] at hread
      cases haccept : accept piece with
      | none =>
          rw [haccept] at hread
          cases hread
      | some a' =>
          rw [haccept] at hread
          cases hread
          refine ⟨lexemes.takeWhile Lexeme.isBlank, piece, ?_, ?_, hpiece, haccept⟩
          · rw [← hdrop, List.takeWhile_append_dropWhile]
          · exact fun _ => List.mem_takeWhile_imp

theorem took_of_one (hread : one accept lexemes = (some a, left)) :
    ∃ piece, accept piece = some a ∧ Took lexemes [piece] left := by
  obtain ⟨gap, piece, rfl, hgap, hpiece, haccept⟩ := exists_of_one hread
  exact ⟨piece, haccept, took_of_append hgap hpiece left⟩

theorem left_of_one_eq_none (hread : one accept lexemes = (none, left)) : left = lexemes := by
  rw [one] at hread
  split at hread
  · cases hread
    rfl
  · split at hread <;> cases hread
    rfl

theorem took_of_keyword {taken : Unit} (hread : keyword spelling lexemes = (some taken, left)) :
    ∃ word, word.isKeyword spelling ∧ Took lexemes [word] left := by
  obtain ⟨word, haccept, htook⟩ := took_of_one hread
  refine ⟨word, ?_, htook⟩
  by_contra hword
  rw [if_neg hword] at haccept
  cases haccept

/-- A keyword is passed over only if it does not come next, which is what sets a
missing keyword apart from a word of the name. -/
theorem took_of_keyword? {found : Bool}
    (hread : keyword? spelling lexemes = (some found, left)) :
    ∃ pieces, MayHave spelling pieces found ∧ Took lexemes pieces left ∧
      (found = false → ∀ piece ∈ (solid left).head?, piece.isKeyword spelling = false) := by
  rw [keyword?] at hread
  cases hkeyword : keyword spelling lexemes with
  | mk taken middle =>
      rw [hkeyword] at hread
      cases taken with
      | some =>
          cases hread
          obtain ⟨word, hword, htook⟩ := took_of_keyword hkeyword
          exact ⟨[word], .within hword, htook, by simp⟩
      | none =>
          cases hread
          have hleft : left = lexemes := left_of_one_eq_none hkeyword
          subst hleft
          refine ⟨[], .without, took_nil _, fun _ piece hpiece => ?_⟩
          by_contra hword
          obtain ⟨pieces, hsolid⟩ := List.head?_eq_some_iff.mp hpiece
          obtain ⟨left', -, -, htakes⟩ :=
            takes_keyword (show piece.isKeyword spelling by simpa using hword) pieces _ hsolid
          have hread := htakes []
          rw [List.append_nil, hkeyword] at hread
          cases hread

/-- A reader of a mark has taken the mark, as lexemes with its token are spelled
in one way. -/
theorem exists_of_token {mark : Lexeme} {taken : Unit} (hmarks : MarksSpelled lexemes)
    (hmark : IsMark mark) (hread : token mark.token lexemes = (some taken, left)) :
    ∃ gap, lexemes = gap ++ mark :: left ∧ AllBlank gap ∧ Took lexemes [mark] left := by
  obtain ⟨gap, piece, rfl, hgap, hpiece, haccept⟩ := exists_of_one hread
  have htoken : piece.token = mark.token := by
    by_contra hne
    rw [if_neg hne] at haccept
    cases haccept
  obtain rfl := hmarks piece (by simp) mark hmark htoken
  exact ⟨gap, rfl, hgap, took_of_append hgap hpiece left⟩

/-! ## Names -/

theorem took_of_furtherParts {parts : List (List Char)} (hmarks : MarksSpelled lexemes)
    (hread : furtherParts lexemes = (some parts, left)) :
    ∃ names, List.Forall₂ (fun name part => name.identifier? = some part) names parts ∧
      Took lexemes (furtherPieces names) left := by
  fun_induction furtherParts lexemes generalizing parts with
  | case1 lexemes left' hperiod =>
      cases hread
      rw [left_of_one_eq_none hperiod]
      exact ⟨[], .nil, took_nil lexemes⟩
  | case2 => cases hread
  | case3 =>
      rename_i hperiod _ _ hpart _ _ hfurther ih
      cases hread
      obtain ⟨_, _, _, hfirst⟩ := exists_of_token hmarks (show IsMark period by decide) hperiod
      obtain ⟨name, hname, hsecond⟩ := took_of_one hpart
      obtain ⟨names, hnames, hthird⟩ :=
        ih (hmarks.of_suffix (hsecond.suffix.trans hfirst.suffix)) hfurther
      exact ⟨name :: names, .cons hname hnames, hfirst.append (hsecond.append hthird)⟩
  | case4 => cases hread

/-- What was read as a dotted name spells it, part by part. -/
theorem took_of_nameParts {parts : List (List Char)} (hmarks : MarksSpelled lexemes)
    (hread : nameParts lexemes = (some parts, left)) :
    ∃ pieces, SpellsName pieces parts ∧ Took lexemes pieces left := by
  obtain ⟨first, middle, hfirst, hrest⟩ := eq_some_of_bind hread
  obtain ⟨further, left', hfurther, hpure⟩ := eq_some_of_bind hrest
  cases hpure
  obtain ⟨name, hname, htook⟩ := took_of_one hfirst
  obtain ⟨names, hnames, htook'⟩ :=
    took_of_furtherParts (hmarks.of_suffix htook.suffix) hfurther
  exact ⟨name :: furtherPieces names, .mk hname hnames, htook.append htook'⟩

/-! ## The front -/

theorem took_of_ifNotExists (hread : ifNotExists lexemes = (some optional, left)) :
    ∃ pieces, MayBeOptional pieces optional ∧ Took lexemes pieces left ∧
      (optional = false → ∀ piece ∈ (solid left).head?, piece.isKeyword "IF" = false) := by
  rw [ifNotExists] at hread
  obtain ⟨found, left₁, hif, hread⟩ := eq_some_of_bind hread
  obtain ⟨pieces, hmay, htook, hother⟩ := took_of_keyword? hif
  cases hmay with
  | without =>
      cases hread
      exact ⟨[], .without, htook, hother⟩
  | within hfirst =>
      obtain ⟨_, left₂, hnot, hread⟩ := eq_some_of_bind hread
      obtain ⟨_, left₃, hexists, hread⟩ := eq_some_of_bind hread
      cases hread
      obtain ⟨second, hsecond, htook₂⟩ := took_of_keyword hnot
      obtain ⟨third, hthird, htook₃⟩ := took_of_keyword hexists
      exact ⟨_, .within hfirst hsecond hthird, htook.append (htook₂.append htook₃), by simp⟩

theorem SpellsName.head?_append {name : List (List Char)} (hname : SpellsName pieces name)
    (rest : List Lexeme) : (pieces ++ rest).head? = pieces.head? := by
  cases hname
  rfl

/-- What was read before a column list is a front, and what the front says is
what was read. -/
theorem took_of_front (hmarks : MarksSpelled lexemes)
    (hread : front lexemes = (some (unique, optional, name, table), left)) :
    ∃ pieces, IsFront pieces unique optional name table ∧ Took lexemes pieces left := by
  rw [front] at hread
  obtain ⟨_, left₁, hcreate, hread⟩ := eq_some_of_bind hread
  obtain ⟨_, left₂, hunique, hread⟩ := eq_some_of_bind hread
  obtain ⟨_, left₃, hindex, hread⟩ := eq_some_of_bind hread
  obtain ⟨_, left₄, hoptional, hread⟩ := eq_some_of_bind hread
  obtain ⟨name, left₅, hname, hread⟩ := eq_some_of_bind hread
  obtain ⟨_, left₆, hon, hread⟩ := eq_some_of_bind hread
  obtain ⟨table, left₇, htable, hread⟩ := eq_some_of_bind hread
  cases hread
  obtain ⟨create, hcreate, htook₁⟩ := took_of_keyword hcreate
  obtain ⟨uniques, hunique, htook₂, -⟩ := took_of_keyword? hunique
  obtain ⟨index, hindex, htook₃⟩ := took_of_keyword hindex
  obtain ⟨optionals, hoptional, htook₄, hif⟩ := took_of_ifNotExists hoptional
  have hsuffix₄ := htook₄.suffix.trans
    (htook₃.suffix.trans (htook₂.suffix.trans htook₁.suffix))
  obtain ⟨names, hname, htook₅⟩ := took_of_nameParts (hmarks.of_suffix hsuffix₄) hname
  obtain ⟨on, hon, htook₆⟩ := took_of_keyword hon
  have hsuffix₆ := htook₆.suffix.trans (htook₅.suffix.trans hsuffix₄)
  obtain ⟨tables, htable, htook₇⟩ := took_of_nameParts (hmarks.of_suffix hsuffix₆) htable
  rw [htook₅.solid_eq, hname.head?_append] at hif
  exact ⟨_, .mk hcreate hunique hindex hoptional hname hif hon htable,
    htook₁.append (htook₂.append (htook₃.append (htook₄.append
      (htook₅.append (htook₆.append htook₇)))))⟩

/-! ## Whole outlines -/

theorem exists_of_columnList {entries : List (List Lexeme)}
    (hread : columnList lexemes = (some entries, left)) :
    ∃ gap opening rest, lexemes = gap ++ opening :: rest ∧ AllBlank gap ∧
      opening.token = .leftParen ∧ cutEntries 0 rest = some (entries, left) := by
  obtain ⟨_, rest, hparen, hcut⟩ := eq_some_of_bind hread
  obtain ⟨gap, opening, rfl, hgap, -, haccept⟩ := exists_of_one hparen
  have hopening : opening.token = .leftParen := by
    by_contra hne
    rw [if_neg hne] at haccept
    cases haccept
  refine ⟨gap, opening, rest, rfl, hgap, hopening, ?_⟩
  cases hentries : cutEntries 0 rest with
  | none =>
      rw [hentries] at hcut
      cases hcut
  | some cut =>
      rw [hentries] at hcut
      cases hcut
      rfl

theorem allBlank_of_ended {done : Unit} (hread : ended lexemes = (some done, left)) :
    left = lexemes ∧ AllBlank left := by
  rw [ended] at hread
  split at hread
  · rename_i hall
    cases hread
    exact ⟨rfl, List.all_eq_true.mp hall⟩
  · cases hread

/-- What has an outline is a front, a column list, and blanks. -/
theorem exists_of_outline {outlined : Outline} (hmarks : MarksSpelled lexemes)
    (hread : outline lexemes = (some outlined, left)) :
    ∃ start rest, lexemes = start ++ leftParen :: rest ∧
      IsFront (solid start) outlined.unique outlined.optional outlined.name outlined.table ∧
      cutEntries 0 rest = some (outlined.entries, left) ∧ AllBlank left := by
  rw [outline_eq] at hread
  obtain ⟨⟨unique, optional, name, table⟩, pending, hfrontRead, hread⟩ := eq_some_of_bind hread
  obtain ⟨entries, left₁, hlist, hread⟩ := eq_some_of_bind hread
  obtain ⟨_, left₂, hended, hread⟩ := eq_some_of_bind hread
  cases hread
  obtain ⟨pieces, hfront, taken, rfl, rfl⟩ := took_of_front hmarks hfrontRead
  obtain ⟨gap, opening, rest, rfl, hgap, hopening, hcut⟩ := exists_of_columnList hlist
  obtain rfl := hmarks opening (by simp) leftParen (by decide) hopening
  obtain ⟨rfl, hblank⟩ := allBlank_of_ended hended
  refine ⟨taken ++ gap, rest, by simp, ?_, hcut, hblank⟩
  rwa [solid_append, hgap.solid_eq, List.append_nil]

/-- An outline is had by exactly the lexemes of a front, a body whose
parentheses match between two more, and blanks. -/
theorem outline_eq_some_iff {outlined : Outline} (hmarks : MarksSpelled lexemes) :
    outline lexemes = (some outlined, left) ↔
      ∃ start body, lexemes = start ++ leftParen :: (body ++ rightParen :: left) ∧
        IsFront (solid start) outlined.unique outlined.optional outlined.name
          outlined.table ∧
        ParensMatch body ∧ Lists body outlined.entries ∧ AllBlank left := by
  constructor
  · intro hread
    obtain ⟨start, rest, rfl, hfront, hcut, hleft⟩ := exists_of_outline hmarks hread
    have hsuffix : rest <:+ start ++ leftParen :: rest :=
      (List.suffix_cons leftParen rest).trans (List.suffix_append start _)
    obtain ⟨body, rfl, hmatch, hlists⟩ :=
      (cutEntries_eq_some_iff (hmarks.of_suffix hsuffix)).mp hcut
    exact ⟨start, body, rfl, hfront, hmatch, hlists, hleft⟩
  · rintro ⟨start, body, rfl, hfront, -, hlists, hleft⟩
    exact outline_append hfront rfl (hlists.cutEntries_eq left) hleft

/-! ## Names in the text -/

theorem exists_name_of_mem {names : List Lexeme} {parts : List (List Char)} {part : List Char}
    (hnames : List.Forall₂ (fun name part => name.identifier? = some part) names parts)
    (hpart : part ∈ parts) : ∃ name ∈ names, name.identifier? = some part := by
  induction hnames with
  | nil => cases hpart
  | cons hname _ ih =>
      rcases List.mem_cons.mp hpart with rfl | hpart
      · exact ⟨_, by simp, hname⟩
      · obtain ⟨name, hmem, hspells⟩ := ih hpart
        exact ⟨name, by simp [hmem], hspells⟩

/-- Every part of a name is spelled by one of its pieces. -/
theorem SpellsName.exists_of_mem {part : List Char} (hname : SpellsName pieces name)
    (hpart : part ∈ name) : ∃ piece ∈ pieces, piece.identifier? = some part := by
  cases hname with
  | mk hfirst hfurther =>
      rcases List.mem_cons.mp hpart with rfl | hpart
      · exact ⟨_, by simp, hfirst⟩
      · obtain ⟨piece, hpiece, hspells⟩ := exists_name_of_mem hfurther hpart
        have hmem : piece ∈ furtherPieces _ :=
          List.mem_flatMap.mpr ⟨piece, hpiece, by simp⟩
        exact ⟨piece, List.mem_cons_of_mem _ hmem, hspells⟩

theorem IsFront.exists_of_mem {part : List Char}
    (hfront : IsFront pieces unique optional name table) (hpart : part ∈ name ++ table) :
    ∃ piece ∈ pieces, piece.identifier? = some part := by
  cases hfront with
  | mk hcreate hunique hindex hoptional hname hif hon htable =>
      rcases List.mem_append.mp hpart with hpart | hpart
      · obtain ⟨piece, hpiece, hspells⟩ := hname.exists_of_mem hpart
        exact ⟨piece, by simp [hpiece], hspells⟩
      · obtain ⟨piece, hpiece, hspells⟩ := htable.exists_of_mem hpart
        exact ⟨piece, by simp [hpiece], hspells⟩

end CreateIndex.Statement
