import CreateIndex.Proofs.Lexeme.Words
import CreateIndex.Statement.Reading
import Mathlib.Data.List.Forall2

/-!
# What readers take

Readers pass over blanks, so what one takes is told by the lexemes that are no blanks.
`Takes` says that a reader takes given lexemes before given others, whatever blanks stand
among them, and whatever comes after the others.
-/

namespace CreateIndex.Statement

open Lexeme

def AllBlank (lexemes : List Lexeme) : Prop :=
  ∀ lexeme ∈ lexemes, lexeme.isBlank

theorem allBlank_nil : AllBlank [] := by
  intro lexeme hlexeme
  cases hlexeme

theorem allBlank_space : AllBlank [space] :=
  List.forall_mem_singleton.mpr rfl

theorem AllBlank.append {gap gap' : List Lexeme} (hgap : AllBlank gap) (hgap' : AllBlank gap') :
    AllBlank (gap ++ gap') :=
  List.forall_mem_append.mpr ⟨hgap, hgap'⟩

theorem isKeyword_not_blank {lexeme : Lexeme} {spelling : String}
    (hkeyword : lexeme.isKeyword spelling) : ¬lexeme.isBlank := by
  intro hblank
  simp only [Lexeme.isBlank, Lexeme.isKeyword] at hblank hkeyword
  split at hblank <;> simp_all

theorem identifier?_not_blank {lexeme : Lexeme} {name : List Char}
    (hname : lexeme.identifier? = some name) : ¬lexeme.isBlank := by
  intro hblank
  simp only [Lexeme.isBlank, Lexeme.identifier?] at hblank hname
  split at hblank <;> simp_all

def solid (lexemes : List Lexeme) : List Lexeme :=
  lexemes.filter (!·.isBlank)

theorem AllBlank.solid_eq {gap : List Lexeme} (hgap : AllBlank gap) : solid gap = [] := by
  rw [solid, List.filter_eq_nil_iff]
  intro lexeme hlexeme
  simp [hgap lexeme hlexeme]

theorem solid_append (start rest : List Lexeme) :
    solid (start ++ rest) = solid start ++ solid rest :=
  List.filter_append start rest

theorem solid_cons {lexeme : Lexeme} (hblank : ¬lexeme.isBlank) (rest : List Lexeme) :
    solid (lexeme :: rest) = lexeme :: solid rest :=
  List.filter_cons_of_pos (by simpa using hblank)

theorem allBlank_of_solid_eq_nil {lexemes : List Lexeme} (hsolid : solid lexemes = []) :
    AllBlank lexemes := by
  intro lexeme hlexeme
  have := List.filter_eq_nil_iff.mp hsolid lexeme hlexeme
  simpa using this

theorem exists_of_solid_eq_cons {lexemes pieces : List Lexeme} {piece : Lexeme}
    (hsolid : solid lexemes = piece :: pieces) :
    ∃ gap rest, lexemes = gap ++ piece :: rest ∧ AllBlank gap ∧ ¬piece.isBlank ∧
      solid rest = pieces := by
  obtain ⟨gap, rest, hlexemes, hgap, hpiece, hrest⟩ := List.filter_eq_cons_iff.mp hsolid
  refine ⟨gap, rest, hlexemes, ?_, by simpa using hpiece, hrest⟩
  intro lexeme hlexeme
  simpa using hgap lexeme hlexeme

namespace Reading

variable {α β : Type} {read : Reading α} {next : α → Reading β} {a : α} {b : β}
  {accept : Lexeme → Option α} {piece : Lexeme} {spelling : String}
  {lexemes left pieces pieces' following : List Lexeme}

theorem bind_of_some {read : Reading α} (hread : read lexemes = (some a, left)) :
    (read >>= next) lexemes = next a left := by
  simp only [Bind.bind, hread]

/-- The reader takes some of the pieces and leaves others, with any blanks among
them.  Only the lexemes that are no blanks are pieces. -/
def Takes (read : Reading α) (pieces following : List Lexeme) (a : α) : Prop :=
  ∀ lexemes, solid lexemes = pieces →
    ∃ left, left <:+ lexemes ∧ solid left = following ∧
      ∀ rest, read (lexemes ++ rest) = (some a, left ++ rest)

/-- Readers in sequence take pieces in sequence.  Only the pieces are counted,
and the blanks among them may be any. -/
theorem Takes.bind (hread : Takes read pieces pieces' a)
    (hnext : Takes (next a) pieces' following b) :
    Takes (read >>= next) pieces following b := by
  intro lexemes hsolid
  obtain ⟨middle, hsuffix, hmiddle, hfirst⟩ := hread lexemes hsolid
  obtain ⟨left, hsuffix', hleft, hsecond⟩ := hnext middle hmiddle
  refine ⟨left, hsuffix'.trans hsuffix, hleft, fun rest => ?_⟩
  rw [bind_of_some (hfirst rest)]
  exact hsecond rest

theorem takes_pure (a : α) (pieces : List Lexeme) : Takes (pure a) pieces pieces a := by
  intro lexemes hsolid
  exact ⟨lexemes, List.suffix_rfl, hsolid, fun rest => rfl⟩

/-- A reader of one lexeme looks at the first one that is no blank. -/
theorem one_append {gap : List Lexeme} (hgap : AllBlank gap) (hpiece : ¬piece.isBlank)
    (rest : List Lexeme) :
    one accept (gap ++ piece :: rest) =
      match accept piece with
      | some a => (some a, rest)
      | none => (none, gap ++ piece :: rest) := by
  have hdrop : (gap ++ piece :: rest).dropWhile Lexeme.isBlank = piece :: rest := by
    rw [List.dropWhile_append_of_pos hgap, List.dropWhile_cons_of_neg hpiece]
  cases haccept : accept piece with
  | none => simp only [one, hdrop, haccept]
  | some a => simp only [one, hdrop, haccept]

theorem takes_one (haccept : accept piece = some a) (following : List Lexeme) :
    Takes (one accept) (piece :: following) following a := by
  intro lexemes hsolid
  obtain ⟨gap, left, rfl, hgap, hpiece, hleft⟩ := exists_of_solid_eq_cons hsolid
  have hsuffix : left <:+ gap ++ piece :: left :=
    (List.suffix_cons piece left).trans (List.suffix_append gap _)
  refine ⟨left, hsuffix, hleft, fun rest => ?_⟩
  rw [List.append_assoc, List.cons_append, one_append hgap hpiece, haccept]

/-- What a reader does not accept stays, with the blanks before it. -/
theorem one_eq_none (hrefuse : accept piece = none)
    (hsolid : solid lexemes = piece :: pieces) (rest : List Lexeme) :
    one accept (lexemes ++ rest) = (none, lexemes ++ rest) := by
  obtain ⟨gap, left, rfl, hgap, hpiece, -⟩ := exists_of_solid_eq_cons hsolid
  rw [List.append_assoc, List.cons_append, one_append hgap hpiece, hrefuse]

theorem takes_token {expected : Token} (htoken : piece.token = expected)
    (following : List Lexeme) : Takes (token expected) (piece :: following) following () :=
  takes_one (if_pos htoken) following

theorem takes_keyword (hkeyword : piece.isKeyword spelling) (following : List Lexeme) :
    Takes (keyword spelling) (piece :: following) following () :=
  takes_one (if_pos hkeyword) following

theorem takes_keyword? (hkeyword : piece.isKeyword spelling) (following : List Lexeme) :
    Takes (keyword? spelling) (piece :: following) following true := by
  intro lexemes hsolid
  obtain ⟨left, hsuffix, hleft, hread⟩ := takes_keyword hkeyword following lexemes hsolid
  refine ⟨left, hsuffix, hleft, fun rest => ?_⟩
  rw [keyword?, hread rest]

theorem takes_keyword?_other (hother : piece.isKeyword spelling = false)
    (following : List Lexeme) :
    Takes (keyword? spelling) (piece :: following) (piece :: following) false := by
  intro lexemes hsolid
  refine ⟨lexemes, List.suffix_rfl, hsolid, fun rest => ?_⟩
  have hread : keyword spelling (lexemes ++ rest) = (none, lexemes ++ rest) :=
    one_eq_none (if_neg (by simp [hother])) hsolid rest
  rw [keyword?, hread]

theorem takes_identifier {name : List Char} (hname : piece.identifier? = some name)
    (following : List Lexeme) : Takes identifier (piece :: following) following name :=
  takes_one hname following

/-- A period has to be followed by a part, and a name ends where no period comes
next. -/
theorem furtherParts_eq (lexemes : List Lexeme) :
    furtherParts lexemes =
      match token .period lexemes with
      | (none, left) => (some [], left)
      | (some _, left) =>
        (do
          let part ← identifier
          let parts ← furtherParts
          return part :: parts : Reading (List (List Char))) left := by
  rw [furtherParts]
  split
  · rename_i left hperiod
    rw [hperiod]
  · rename_i left hperiod
    rw [hperiod]
    dsimp only [bind]
    split
    · rename_i hpart
      rw [hpart]
    · rename_i part left' hpart
      rw [hpart]
      dsimp only
      rcases furtherParts left' with ⟨_ | parts, left''⟩ <;> rfl

def furtherPieces (names : List Lexeme) : List Lexeme :=
  names.flatMap fun name => [period, name]

theorem takes_furtherParts {names : List Lexeme} {parts : List (List Char)}
    (hnames : List.Forall₂ (fun name part => name.identifier? = some part) names parts)
    (hpiece : piece.token ≠ .period) (following : List Lexeme) :
    Takes furtherParts (furtherPieces names ++ piece :: following) (piece :: following)
      parts := by
  induction hnames with
  | nil =>
      intro lexemes hsolid
      refine ⟨lexemes, List.suffix_rfl, hsolid, fun rest => ?_⟩
      have hread : token .period (lexemes ++ rest) = (none, lexemes ++ rest) :=
        one_eq_none (if_neg hpiece) hsolid rest
      rw [furtherParts_eq, hread]
  | @cons name part names parts hname _ ih =>
      intro lexemes hsolid
      have hperiod : Takes (token .period)
          (period :: name :: (furtherPieces names ++ piece :: following))
          (name :: (furtherPieces names ++ piece :: following)) () := takes_token rfl _
      obtain ⟨middle, hsuffix, hmiddle, hfirst⟩ := hperiod lexemes hsolid
      have hpart : Takes
          (do
            let part ← identifier
            let parts ← furtherParts
            return part :: parts : Reading (List (List Char)))
          (name :: (furtherPieces names ++ piece :: following)) (piece :: following)
          (part :: parts) :=
        .bind (takes_identifier hname _) (.bind ih (takes_pure _ _))
      obtain ⟨left, hsuffix', hleft, hsecond⟩ := hpart middle hmiddle
      refine ⟨left, hsuffix'.trans hsuffix, hleft, fun rest => ?_⟩
      rw [furtherParts_eq, hfirst rest]
      exact hsecond rest

/-- A dotted name is taken with all its parts, as long as no other period comes
after it. -/
theorem takes_nameParts {name : Lexeme} {names : List Lexeme} {part : List Char}
    {parts : List (List Char)} (hname : name.identifier? = some part)
    (hnames : List.Forall₂ (fun name part => name.identifier? = some part) names parts)
    (hpiece : piece.token ≠ .period) (following : List Lexeme) :
    Takes nameParts (name :: furtherPieces names ++ piece :: following) (piece :: following)
      (part :: parts) :=
  .bind (takes_identifier hname _)
    (.bind (takes_furtherParts hnames hpiece following) (takes_pure _ _))

end Reading

end CreateIndex.Statement
