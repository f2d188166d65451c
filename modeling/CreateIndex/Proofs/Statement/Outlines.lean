import CreateIndex.Proofs.Statement.Entries
import CreateIndex.Proofs.Statement.Readers
import CreateIndex.Statement.Cursor

/-!
# Outlines of statements

`IsFront` lists the pieces of a statement before its column list.  However blanks are
spread among them, the outline is what the pieces say.
-/

namespace CreateIndex.Statement

open Lexeme

namespace Reading

instance : LawfulMonad Reading :=
  LawfulMonad.mk' Reading
    (fun read => by
      funext lexemes
      change (match read lexemes with
        | (some a, left) => (some (id a), left)
        | (none, left) => (none, left)) = read lexemes
      rcases read lexemes with ⟨_ | a, left⟩ <;> rfl)
    (fun _ _ => rfl)
    (fun read next last => by
      funext lexemes
      change (match (match read lexemes with
          | (some a, left) => next a left
          | (none, left) => (none, left)) with
        | (some b, left) => last b left
        | (none, left) => (none, left)) =
        match read lexemes with
        | (some a, left) => (next a >>= last) left
        | (none, left) => (none, left)
      rcases read lexemes with ⟨_ | a, left⟩ <;> rfl)

end Reading

open Reading

variable {lexemes left pieces following : List Lexeme} {unique optional : Bool}
  {name table : List (List Char)}

/-! ## The front of a statement -/

inductive MayHave (spelling : String) : List Lexeme → Bool → Prop where
  | without : MayHave spelling [] false
  | within {word : Lexeme} (hword : word.isKeyword spelling) : MayHave spelling [word] true

/-- The pieces of an optional `IF NOT EXISTS`, and whether it is there. -/
inductive MayBeOptional : List Lexeme → Bool → Prop where
  | without : MayBeOptional [] false
  | within {first second third : Lexeme} (hfirst : first.isKeyword "IF")
      (hsecond : second.isKeyword "NOT") (hthird : third.isKeyword "EXISTS") :
      MayBeOptional [first, second, third] true

inductive SpellsName : List Lexeme → List (List Char) → Prop where
  | mk {name : Lexeme} {names : List Lexeme} {part : List Char} {parts : List (List Char)}
      (hname : name.identifier? = some part)
      (hnames : List.Forall₂ (fun name part => name.identifier? = some part) names parts) :
      SpellsName (name :: furtherPieces names) (part :: parts)

/-- The pieces of a statement before its column list, and what they say.  Without
`IF NOT EXISTS` the name of the index must not look like the start of it. -/
inductive IsFront : List Lexeme → Bool → Bool → List (List Char) → List (List Char) → Prop where
  | mk {create index on : Lexeme} {uniques optionals names tables : List Lexeme}
      {unique optional : Bool} {name table : List (List Char)}
      (hcreate : create.isKeyword "CREATE") (hunique : MayHave "UNIQUE" uniques unique)
      (hindex : index.isKeyword "INDEX") (hoptional : MayBeOptional optionals optional)
      (hname : SpellsName names name)
      (hif : optional = false → ∀ first ∈ names.head?, first.isKeyword "IF" = false)
      (hon : on.isKeyword "ON") (htable : SpellsName tables table) :
      IsFront ([create] ++ (uniques ++ ([index] ++ (optionals ++ (names ++ ([on] ++ tables))))))
        unique optional name table

theorem isKeyword_ne {lexeme : Lexeme} {spelling other : String}
    (hkeyword : lexeme.isKeyword spelling) (hne : spelling ≠ other) :
    lexeme.isKeyword other = false := by
  unfold Lexeme.isKeyword at hkeyword ⊢
  split
  · rename_i word htoken
    simp only [htoken, beq_iff_eq] at hkeyword
    rw [hkeyword, beq_eq_false_iff_ne]
    intro heq
    exact hne (String.toList_inj.mp heq)
  · rfl

theorem isKeyword_token_ne_period {lexeme : Lexeme} {spelling : String}
    (hkeyword : lexeme.isKeyword spelling) : lexeme.token ≠ .period := by
  intro htoken
  simp [Lexeme.isKeyword, htoken] at hkeyword

/-- An optional keyword is taken if it is there.  If not, what comes next must
not be the keyword. -/
theorem MayHave.takes {spelling : String} {present : Bool} {piece : Lexeme}
    (hmay : MayHave spelling pieces present) (hother : piece.isKeyword spelling = false)
    (following : List Lexeme) :
    Takes (keyword? spelling) (pieces ++ piece :: following) (piece :: following) present := by
  cases hmay with
  | without => exact takes_keyword?_other hother following
  | within hword => exact takes_keyword? hword _

/-- The three words of `IF NOT EXISTS` are taken together or not at all; the
first of them decides. -/
theorem MayBeOptional.takes {piece : Lexeme} (hmay : MayBeOptional pieces optional)
    (hother : optional = false → piece.isKeyword "IF" = false) (following : List Lexeme) :
    Takes ifNotExists (pieces ++ piece :: following) (piece :: following) optional := by
  rw [ifNotExists]
  cases hmay with
  | without =>
      apply Takes.bind (takes_keyword?_other (hother rfl) following)
      exact takes_pure false _
  | within hfirst hsecond hthird =>
      apply Takes.bind (takes_keyword? hfirst _)
      apply Takes.bind (takes_keyword hsecond _)
      exact Takes.bind (takes_keyword hthird _) (takes_pure true _)

/-! ## Pieces of a front -/

/-- A keyword is an identifier too, so all pieces before a column list are
treated alike. -/
theorem exists_identifier?_of_isKeyword {lexeme : Lexeme} {spelling : String}
    (hkeyword : lexeme.isKeyword spelling) : ∃ word, lexeme.identifier? = some word := by
  unfold Lexeme.isKeyword at hkeyword
  split at hkeyword
  · rename_i word htoken
    exact ⟨word, by rw [Lexeme.identifier?, htoken]⟩
  · cases hkeyword

theorem MayHave.exists_identifier? {spelling : String} {present : Bool}
    (hmay : MayHave spelling pieces present) :
    ∀ piece ∈ pieces, ∃ word, piece.identifier? = some word := by
  cases hmay with
  | without => simp
  | within hword => simpa using exists_identifier?_of_isKeyword hword

theorem MayBeOptional.exists_identifier? (hmay : MayBeOptional pieces optional) :
    ∀ piece ∈ pieces, ∃ word, piece.identifier? = some word := by
  cases hmay with
  | without => simp
  | within hfirst hsecond hthird =>
      simpa using ⟨exists_identifier?_of_isKeyword hfirst, exists_identifier?_of_isKeyword hsecond,
        exists_identifier?_of_isKeyword hthird⟩

theorem exists_part_of_mem {names : List Lexeme} {parts : List (List Char)} {name : Lexeme}
    (hnames : List.Forall₂ (fun name part => name.identifier? = some part) names parts)
    (hmem : name ∈ names) : ∃ part, name.identifier? = some part := by
  induction hnames with
  | nil => cases hmem
  | cons hname _ ih =>
      rcases List.mem_cons.mp hmem with rfl | hmem
      · exact ⟨_, hname⟩
      · exact ih hmem

theorem SpellsName.piece_cases {name : List (List Char)} (hname : SpellsName pieces name) :
    ∀ piece ∈ pieces, piece = period ∨ ∃ part, piece.identifier? = some part := by
  cases hname with
  | mk hfirst hfurther =>
      intro piece hpiece
      rcases List.mem_cons.mp hpiece with rfl | hpiece
      · exact Or.inr ⟨_, hfirst⟩
      · obtain ⟨name, hname, hpiece⟩ := List.mem_flatMap.mp hpiece
        rcases List.mem_cons.mp hpiece with rfl | hpiece
        · exact Or.inl rfl
        · rw [List.mem_singleton.mp hpiece]
          exact Or.inr (exists_part_of_mem hfurther hname)

theorem SpellsName.solid_eq {name : List (List Char)} (hname : SpellsName pieces name) :
    solid pieces = pieces := by
  rw [solid, List.filter_eq_self]
  intro piece hpiece
  rcases hname.piece_cases piece hpiece with rfl | ⟨part, hpart⟩
  · rfl
  · simpa using identifier?_not_blank hpart

/-- The pieces before a column list are words and periods, so no parenthesis is
counted there. -/
theorem IsFront.piece_cases (hfront : IsFront pieces unique optional name table) :
    ∀ piece ∈ pieces, piece = period ∨ ∃ word, piece.identifier? = some word := by
  cases hfront with
  | mk hcreate hunique hindex hoptional hname _ hon htable =>
      simp only [List.mem_append, List.mem_singleton]
      rintro piece (rfl | hpiece | rfl | hpiece | hpiece | rfl | hpiece)
      · exact Or.inr (exists_identifier?_of_isKeyword hcreate)
      · exact Or.inr (hunique.exists_identifier? piece hpiece)
      · exact Or.inr (exists_identifier?_of_isKeyword hindex)
      · exact Or.inr (hoptional.exists_identifier? piece hpiece)
      · exact hname.piece_cases piece hpiece
      · exact Or.inr (exists_identifier?_of_isKeyword hon)
      · exact htable.piece_cases piece hpiece

theorem IsFront.neutral (hfront : IsFront pieces unique optional name table) :
    ∀ piece ∈ pieces, IsNeutral piece := by
  intro piece hpiece
  rcases hfront.piece_cases piece hpiece with rfl | ⟨word, hword⟩
  · simp [IsNeutral, period]
  · exact isNeutral_of_identifier? hword

/-! ## Reading the front -/

def front : Reading (Bool × Bool × List (List Char) × List (List Char)) := do
  keyword "CREATE"
  let unique ← keyword? "UNIQUE"
  keyword "INDEX"
  let optional ← ifNotExists
  let name ← nameParts
  keyword "ON"
  let table ← nameParts
  return (unique, optional, name, table)

theorem outline_eq :
    outline = front >>= fun (unique, optional, name, table) => do
      let entries ← columnList
      ended
      return { unique, optional, name, table, entries } := by
  simp only [outline, front, bind_assoc, pure_bind]

/-- A front is read as what it says if a parenthesis follows it, with any blanks
between its pieces. -/
theorem IsFront.takes (hfront : IsFront pieces unique optional name table) :
    Takes front (pieces ++ [leftParen]) [leftParen] (unique, optional, name, table) := by
  cases hfront with
  | mk hcreate hunique hindex hoptional hname hif hon htable =>
      have hunique' := isKeyword_ne hindex (show "INDEX" ≠ "UNIQUE" by decide)
      have hparen : leftParen.token ≠ .period := by decide
      cases hname with
      | mk hfirst hfurther =>
      cases htable with
      | mk htableFirst htableFurther =>
          simp only [List.append_assoc]
          apply Takes.bind (takes_keyword hcreate _)
          apply Takes.bind (hunique.takes hunique' _)
          apply Takes.bind (takes_keyword hindex _)
          apply Takes.bind (hoptional.takes (fun h => hif h _ rfl) _)
          apply Takes.bind (takes_nameParts hfirst hfurther (isKeyword_token_ne_period hon) _)
          apply Takes.bind (takes_keyword hon _)
          exact Takes.bind (takes_nameParts htableFirst htableFurther hparen _) (takes_pure _ _)

/-! ## Whole outlines -/

theorem columnList_append {gap entriesLexemes : List Lexeme} {entries : List (List Lexeme)}
    (hgap : AllBlank gap) (hcut : cutEntries 0 entriesLexemes = some (entries, left)) :
    columnList (gap ++ leftParen :: entriesLexemes) = (some entries, left) := by
  have hparen : token .leftParen (gap ++ leftParen :: entriesLexemes) =
      (some (), entriesLexemes) :=
    one_append hgap (by decide) entriesLexemes
  refine (bind_of_some hparen).trans ?_
  rw [hcut]

/-- A statement has the outline that its front and its column list say.  What is
left after the list may only be blank. -/
theorem outline_append {start rest : List Lexeme} {entries : List (List Lexeme)}
    (hfront : IsFront pieces unique optional name table) (hsolid : solid start = pieces)
    (hcut : cutEntries 0 rest = some (entries, left)) (hleft : AllBlank left) :
    outline (start ++ leftParen :: rest) =
      (some { unique, optional, name, table, entries }, left) := by
  have hsolid' : solid (start ++ [leftParen]) = pieces ++ [leftParen] := by
    rw [solid_append, hsolid]
    rfl
  obtain ⟨left', hsuffix, hpending, hread⟩ := hfront.takes _ hsolid'
  -- Only blanks are pending before the parenthesis, and it comes last.
  obtain ⟨gap, rfl, hgap⟩ : ∃ gap, left' = gap ++ [leftParen] ∧ AllBlank gap := by
    rcases List.suffix_concat_iff.mp hsuffix with rfl | ⟨gap, rfl, -⟩
    · cases hpending
    · refine ⟨gap, rfl, allBlank_of_solid_eq_nil ?_⟩
      rw [solid_append] at hpending
      exact List.append_cancel_right hpending
  have hlist := columnList_append hgap hcut
  have hfrontRead : front (start ++ leftParen :: rest) =
      (some (unique, optional, name, table), gap ++ leftParen :: rest) := by
    have := hread rest
    simpa using this
  have hended : ended left = (some (), left) := by
    rw [ended, if_pos (List.all_eq_true.mpr hleft)]
  rw [outline_eq, bind_of_some hfrontRead]
  change (columnList >>= fun entries => ended >>= fun _ => pure _) _ = _
  rw [bind_of_some hlist, bind_of_some hended]
  rfl

end CreateIndex.Statement
