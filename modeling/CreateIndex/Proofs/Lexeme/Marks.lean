import CreateIndex.Proofs.Lexeme.Readable

/-!
# Marks in a text

A space or a punctuation mark has one spelling: whatever is read with its token is the mark.
So the marks among the lexemes of a text can be told by their tokens.
-/

namespace CreateIndex.Lexeme

variable {text left : List Char} {lexeme mark : Lexeme} {lexemes : List Lexeme}

/-- Every lexeme with the token of a mark is that mark. -/
def MarksSpelled (lexemes : List Lexeme) : Prop :=
  ∀ lexeme ∈ lexemes, ∀ mark, IsMark mark → lexeme.token = mark.token → lexeme = mark

theorem MarksSpelled.of_suffix {rest : List Lexeme} (hmarks : MarksSpelled lexemes)
    (hsuffix : rest <:+ lexemes) : MarksSpelled rest :=
  fun lexeme hlexeme => hmarks lexeme (hsuffix.subset hlexeme)

theorem isMark_iff : IsMark mark ↔
    mark = space ∨ mark = comma ∨ mark = period ∨ mark = leftParen ∨ mark = rightParen := by
  simp [IsMark]

/-- A period is what is left of a number without digits.  The other outcome, in
which nothing was taken, does not occur where a lexeme was read. -/
theorem scanNumber_period (hread : scanNumber text = (.period, left)) :
    text = '.' :: left ∨ text = left := by
  have hdrop {digits : List Char} (hnone : digits.takeWhile Char.isDigit = []) :
      digits.dropWhile Char.isDigit = digits := by
    have := List.takeWhile_append_dropWhile (p := Char.isDigit) (l := digits)
    rwa [hnone, List.nil_append] at this
  simp only [scanNumber] at hread
  split at hread
  · cases hread
  split at hread
  · rename_i hnone
    rw [hdrop hnone.1] at hread hnone
    rw [hdrop hnone.2] at hread
    obtain rfl : skipOne (· == '.') text = left := (Prod.mk.inj hread).2
    cases text with
    | nil => exact Or.inr rfl
    | cons c rest =>
        rw [skipOne_cons]
        by_cases hc : c = '.'
        · exact Or.inl (by simp [hc])
        · exact Or.inr (by simp [hc])
  · cases hread

theorem eq_mark_of_punctuation {c : Char} (hmark : IsMark mark)
    (htoken : punctuation c = mark.token) : (⟨punctuation c, [c]⟩ : Lexeme) = mark := by
  unfold punctuation at htoken ⊢
  split_ifs at htoken ⊢ with hopen hclose hcomma
  all_goals rcases isMark_iff.mp hmark with rfl | rfl | rfl | rfl | rfl <;> cases htoken
  · rw [hopen]
    rfl
  · rw [hclose]
    rfl
  · rw [hcomma]
    rfl

/-- A lexeme that means a mark is the mark: nothing but its one character was
read. -/
theorem eq_mark_of_scanPlain {c : Char} {rest : List Char} {token : Token}
    (hread : scanPlain c rest = (token, left)) (hsuffix : left <:+ rest) (hmark : IsMark mark)
    (htoken : token = mark.token) : rest = left ∧ (⟨token, [c]⟩ : Lexeme) = mark := by
  cases scansPlain_of_scanPlain hread with
  | space hc =>
      refine ⟨rfl, ?_⟩
      rcases isMark_iff.mp hmark with rfl | rfl | rfl | rfl | rfl <;> cases htoken
      rw [hc]
      rfl
  | number hnumber =>
      have hkind := scanNumber_token (c :: rest)
      rw [hnumber] at hkind
      rcases hkind with rfl | rfl | ⟨content, rfl⟩ <;>
        rcases isMark_iff.mp hmark with rfl | rfl | rfl | rfl | rfl <;> cases htoken
      rcases scanNumber_period hnumber with heq | heq
      · obtain ⟨rfl, rfl⟩ := List.cons.inj heq
        exact ⟨rfl, rfl⟩
      · have := hsuffix.length_le
        rw [← heq, List.length_cons] at this
        omega
  | operator hoperator =>
      rcases scanOperator?_token hoperator with rfl | rfl <;>
        rcases isMark_iff.mp hmark with rfl | rfl | rfl | rfl | rfl <;> cases htoken
  | punctuation =>
      exact ⟨rfl, eq_mark_of_punctuation hmark htoken⟩
  | word | mark | dollar =>
      rcases isMark_iff.mp hmark with rfl | rfl | rfl | rfl | rfl <;> cases htoken

theorem eq_mark_of_scan {c : Char} {body : List Char} {token : Token}
    (hscan : scan c (body ++ left) = some (token, left)) (hmark : IsMark mark)
    (htoken : token = mark.token) : (⟨token, c :: body⟩ : Lexeme) = mark := by
  have hscans := scan_eq_some_iff.mp hscan
  generalize hbody : body ++ left = rest at hscans
  cases hscans with
  | plain _ _ _ _ _ hread =>
      obtain ⟨hleft, heq⟩ := eq_mark_of_scanPlain hread ⟨body, hbody⟩ hmark htoken
      have hnil : body = [] := by simpa [hleft] using hbody
      rw [hnil, heq]
  | national | hexadecimal | escaped | string | quotedWord | lineComment | blockComment =>
      rcases isMark_iff.mp hmark with rfl | rfl | rfl | rfl | rfl <;> cases htoken

/-- Every lexeme that is read is spelled in the one way its token has, if that
is the token of a mark. -/
theorem marksSpelled_of_lex (hread : lex text = some lexemes) : MarksSpelled lexemes := by
  intro lexeme hlexeme mark hmark htoken
  obtain ⟨c, body, left, htext, hscan, -⟩ := exists_scan_of_mem hread hlexeme
  have hspelled := eq_mark_of_scan hscan hmark htoken
  rwa [← htext] at hspelled

/-- Movable lexemes whose text ends in a space end in the lexeme `space`: no
movable lexeme but a blank has a space at its end. -/
theorem eq_space_of_concat {kept : List Lexeme} {last : Lexeme} {start : List Char}
    (hread : lex text = some lexemes) (hmem : last ∈ lexemes) (hmovable : last.IsMovable)
    (hends : sourceText (kept ++ [last]) = start ++ [' ']) : last = space := by
  obtain ⟨c, body, left, htext, hscan, -⟩ := exists_scan_of_mem hread hmem
  apply marksSpelled_of_lex hread last hmem space (by decide)
  by_contra hblank
  have hlast : ' ' ∈ (c :: body).getLast? := by
    rw [← htext, ← List.getLast?_append_of_ne_nil (sourceText kept) (by simp [htext]),
      ← sourceText_singleton last, ← sourceText_append, hends]
    simp
  exact (ends_of_scan hscan hblank hmovable.1 hmovable.2).2 ' ' hlast rfl

end CreateIndex.Lexeme
