import CreateIndex.Proofs.Statement.Calls
import CreateIndex.Proofs.Statement.Cursors

/-!
# The columns of a list

A column list goes up to the parenthesis that closes it.  What stands before that is cut at
every comma outside inner parentheses, and each of the pieces gives its column, or none.  So no
lexeme of a list is lost between two entries, and none belongs to both.  A list that is never
closed uses up all lexemes.
-/

namespace CreateIndex.Statement

open Lexeme Reading

variable {opening : Lexeme} {lexemes rest body left : List Lexeme}
  {entries pieces : List (List Lexeme)}

/-- Takes a column list and gives the columns that its entries describe. -/
def listedColumns : Reading (List Column) := do
  let entries ← columnList
  return entries.filterMap column?

/-- A parenthesis that is open before the lexemes is closed after `body`, and `left` follows. -/
def ClosesAfter (lexemes body left : List Lexeme) : Prop :=
  ∃ close, lexemes = body ++ close :: left ∧ close.token = .rightParen ∧ ParensMatch body

theorem token_cons (hopening : opening.token = .leftParen) (rest : List Lexeme) :
    Reading.token .leftParen (opening :: rest) = (some (), rest) := by
  have hblank : ¬opening.isBlank := by simp [Lexeme.isBlank, hopening]
  have hread : one (fun lexeme => if lexeme.token = .leftParen then some () else none)
      ([] ++ opening :: rest) = (some (), rest) := by
    rw [one_append allBlank_nil hblank, if_pos hopening]
  exact hread

theorem columnList_cons (hopening : opening.token = .leftParen) (rest : List Lexeme) :
    columnList (opening :: rest) =
      match cutEntries 0 rest with
      | some (entries, left) => (some entries, left)
      | none => (none, []) :=
  bind_of_some (token_cons hopening rest)

/-- The columns of a list are those that its entries describe; entries that
describe none are left out. -/
theorem listedColumns_of_cutEntries (hopening : opening.token = .leftParen)
    (hcut : cutEntries 0 rest = some (entries, left)) :
    listedColumns (opening :: rest) = (some (entries.filterMap column?), left) := by
  have hlist : columnList (opening :: rest) = (some entries, left) := by
    rw [columnList_cons hopening, hcut]
  exact bind_of_some hlist

theorem listedColumns_of_cutEntries_eq_none (hopening : opening.token = .leftParen)
    (hcut : cutEntries 0 rest = none) : listedColumns (opening :: rest) = (none, []) := by
  have hlist : columnList (opening :: rest) = (none, []) := by
    rw [columnList_cons hopening, hcut]
  simp only [listedColumns, Bind.bind, hlist]

theorem exists_closesAfter_of_cutEntries (hcut : cutEntries 0 rest = some (entries, left)) :
    ∃ body, ClosesAfter rest body left := by
  obtain ⟨body, close, hrest, hclose, hpieces⟩ := cutEntries_eq_some_iff_cutAtCommas.mp hcut
  exact ⟨body, close, hrest, hclose, hpieces.parensMatch⟩

/-- A closed list is cut in one way, and its columns are those of the pieces. -/
theorem ClosesAfter.listedColumns_eq (hcloses : ClosesAfter rest body left)
    (hopening : opening.token = .leftParen) :
    (∃! pieces, CutAtCommas body pieces) ∧
      ∀ pieces, CutAtCommas body pieces →
        listedColumns (opening :: rest) = (some (pieces.filterMap column?), left) := by
  obtain ⟨close, rfl, hclose, hmatch⟩ := hcloses
  obtain ⟨pieces, hpieces⟩ := hmatch.exists_pieces
  refine ⟨⟨pieces, hpieces, fun other hother => hother.eq hpieces⟩, fun other hother => ?_⟩
  exact listedColumns_of_cutEntries hopening (hother.cutEntries_eq hclose left)

/-- A list that is never closed uses up all lexemes, so that no later reading
starts inside of it. -/
theorem listedColumns_of_not_closed (hopening : opening.token = .leftParen)
    (hnone : ¬∃ body left, ClosesAfter rest body left) :
    listedColumns (opening :: rest) = (none, []) := by
  cases hcut : cutEntries 0 rest with
  | none => exact listedColumns_of_cutEntries_eq_none hopening hcut
  | some cut =>
      obtain ⟨body, hcloses⟩ := exists_closesAfter_of_cutEntries hcut
      exact absurd ⟨body, cut.2, hcloses⟩ hnone

/-- After an opening parenthesis, columns are given exactly if some later parenthesis closes it.
They are those of the pieces between the two, which are cut apart in one way, and reading goes
on behind the closing one. -/
theorem listedColumns_after_opening (hopening : opening.token = .leftParen)
    (rest : List Lexeme) :
    ((∃ columns left, listedColumns (opening :: rest) = (some columns, left)) ↔
        ∃ body left, ClosesAfter rest body left) ∧
      (∀ body left, ClosesAfter rest body left →
        (∃! pieces, CutAtCommas body pieces) ∧
          ∀ pieces, CutAtCommas body pieces →
            listedColumns (opening :: rest) = (some (pieces.filterMap column?), left)) ∧
      ((¬∃ body left, ClosesAfter rest body left) →
        listedColumns (opening :: rest) = (none, [])) := by
  have hclosed (body left : List Lexeme) (hcloses : ClosesAfter rest body left) :=
    hcloses.listedColumns_eq hopening
  refine ⟨⟨?_, ?_⟩, hclosed, listedColumns_of_not_closed hopening⟩
  · rintro ⟨columns, left, hread⟩
    by_contra hnone
    rw [listedColumns_of_not_closed hopening hnone] at hread
    cases hread
  · rintro ⟨body, left, hcloses⟩
    obtain ⟨⟨pieces, hpieces, -⟩, hread⟩ := hclosed body left hcloses
    exact ⟨_, left, hread pieces hpieces⟩

def nestedListText : List Char :=
  "(a, f(b, (c)) desc /*,*/ ,) x".toList

def nestedListColumns : List Column :=
  [{ name := "a" }, { name := "f(b, (c))", sort := "DESC", isExpression := true }]

theorem listedColumns_after_opening_nested :
    ∃ opening rest, lex nestedListText = some (opening :: rest) ∧
      opening.token = .leftParen ∧
      (listedColumns (opening :: rest)).1 = some nestedListColumns ∧
      ((∃ columns left, listedColumns (opening :: rest) = (some columns, left)) ↔
          ∃ body left, ClosesAfter rest body left) ∧
        (∀ body left, ClosesAfter rest body left →
          (∃! pieces, CutAtCommas body pieces) ∧
            ∀ pieces, CutAtCommas body pieces →
              listedColumns (opening :: rest) = (some (pieces.filterMap column?), left)) ∧
        ((¬∃ body left, ClosesAfter rest body left) →
          listedColumns (opening :: rest) = (none, [])) := by
  let lexemes := (lex nestedListText).getD []
  have hread : lex nestedListText = some (leftParen :: lexemes.tail) := by decide +kernel
  have hcolumns : (listedColumns (leftParen :: lexemes.tail)).1 = some nestedListColumns := by
    decide +kernel
  exact ⟨leftParen, lexemes.tail, hread, rfl, hcolumns,
    listedColumns_after_opening rfl lexemes.tail⟩

/-! ## Lists in a statement -/

/-- The columns of a descriptor are those that the list of its statement gives,
and nothing but blanks is left after it. -/
theorem Cursor.exists_listedColumns_of_next {cursor : Cursor} {descriptor : Descriptor}
    (hnext : cursor.next.1 = some descriptor) :
    ∃ start opening rest left, cursor.pending = start ++ opening :: rest ∧
      opening.token = .leftParen ∧
      listedColumns (opening :: rest) = (some descriptor.columns, left) ∧ AllBlank left := by
  obtain ⟨outlined, left, predicate, houtline, -, rfl⟩ := Cursor.next_eq_some_iff.mp hnext
  rw [outline_eq] at houtline
  obtain ⟨_, middle, hfront, houtline⟩ := eq_some_of_bind houtline
  obtain ⟨entries, left', hlist, houtline⟩ := eq_some_of_bind houtline
  obtain ⟨_, _, hended, houtline⟩ := eq_some_of_bind houtline
  cases houtline
  obtain ⟨rfl, hblank⟩ := allBlank_of_ended hended
  obtain ⟨gap, opening, rest, rfl, -, hopening, hcut⟩ := exists_of_columnList hlist
  obtain ⟨taken, htaken⟩ := LeavesSuffix.front.suffix hfront
  exact ⟨taken ++ gap, opening, rest, _, by simp [← htaken], hopening,
    listedColumns_of_cutEntries hopening hcut, hblank⟩

end CreateIndex.Statement
