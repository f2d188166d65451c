import CreateIndex.Proofs.Lexeme.Marks
import CreateIndex.Proofs.Statement.Entries
import CreateIndex.Proofs.Text.Dotted

/-!
# Column lists

A column list ends with the first parenthesis that closes none of the list itself.  So what
can stand in one is told by its parentheses alone: they have to match.  The commas only
decide which entries the list is cut into.
-/

namespace CreateIndex.Statement

open Lexeme

variable {depth depth' : Nat} {token : Token} {body lexemes left : List Lexeme}
  {entries : List (List Lexeme)}

/-- The number of open parentheses after a lexeme with the given token, or nothing if that
closes a parenthesis that was not opened. -/
def openAfterToken (depth : Nat) (token : Token) : Option Nat :=
  match token with
  | .leftParen => some (depth + 1)
  | .rightParen => if depth = 0 then none else some (depth - 1)
  | _ => some depth

/-- The number of open parentheses after some lexemes, or nothing if one is closed among
them that was not opened. -/
def openAfter (depth : Nat) (lexemes : List Lexeme) : Option Nat :=
  lexemes.foldlM (fun depth lexeme => openAfterToken depth lexeme.token) depth

def ParensMatch (lexemes : List Lexeme) : Prop :=
  openAfter 0 lexemes = some 0

/-- The lexemes are balanced entries with commas between them. -/
structure Lists (lexemes : List Lexeme) (entries : List (List Lexeme)) : Prop where
  ne_nil : entries ≠ []
  balanced : ∀ entry ∈ entries, Balanced entry
  eq_intercalate : lexemes = [comma].intercalate entries

theorem openAfter_cons (depth : Nat) (lexeme : Lexeme) (rest : List Lexeme) :
    openAfter depth (lexeme :: rest) =
      (openAfterToken depth lexeme.token).bind (openAfter · rest) :=
  List.foldlM_cons

/-- Open parentheses are counted as within an entry, but for a comma between
entries, which ends an entry and not the list. -/
theorem openAfterToken_eq (depth : Nat) (token : Token) :
    openAfterToken depth token =
      if token = .comma ∧ depth = 0 then some 0 else depthAfterToken depth token := by
  cases token <;> simp [openAfterToken, depthAfterToken]
  split <;> simp_all

theorem eq_zero_of_depthAfterToken (hends : depthAfterToken depth token = none) :
    depth = 0 ∧ (token = .rightParen ∨ token = .comma) := by
  unfold depthAfterToken at hends
  split at hends <;> simp_all

/-! ## Where a list ends -/

/-- What is cut into entries stands before a parenthesis that closes none of it,
and all of its own parentheses match. -/
theorem exists_body_of_cutEntries (hcut : cutEntries depth lexemes = some (entries, left)) :
    ∃ body close, lexemes = body ++ close :: left ∧ close.token = .rightParen ∧
      openAfter depth body = some 0 := by
  induction lexemes generalizing depth entries with
  | nil => cases hcut
  | cons lexeme rest ih =>
      -- The lexeme is part of an entry, or it ends one.
      cases hdepth : depthAfterToken depth lexeme.token with
      | some inner =>
          rw [cutEntries_cons hdepth] at hcut
          obtain ⟨⟨entries', left'⟩, hrest, heq⟩ := Option.map_eq_some_iff.mp hcut
          cases heq
          obtain ⟨body, close, rfl, hclose, hbody⟩ := ih hrest
          refine ⟨lexeme :: body, close, rfl, hclose, ?_⟩
          have hcomma : ¬(lexeme.token = .comma ∧ depth = 0) := by
            rintro ⟨htoken, rfl⟩
            simp [depthAfterToken, htoken] at hdepth
          rw [openAfter_cons, openAfterToken_eq, if_neg hcomma, hdepth]
          exact hbody
      | none =>
          obtain ⟨rfl, htoken | htoken⟩ := eq_zero_of_depthAfterToken hdepth
          · rw [cutEntries, if_pos ⟨htoken, rfl⟩] at hcut
            cases hcut
            exact ⟨[], lexeme, rfl, htoken, rfl⟩
          · rw [cutEntries, if_neg (by simp [htoken]), if_pos ⟨htoken, rfl⟩] at hcut
            obtain ⟨⟨entries', left'⟩, hrest, heq⟩ := Option.map_eq_some_iff.mp hcut
            cases heq
            obtain ⟨body, close, rfl, hclose, hbody⟩ := ih hrest
            refine ⟨lexeme :: body, close, rfl, hclose, ?_⟩
            rw [openAfter_cons, htoken]
            exact hbody

/-! ## What a list is cut into -/

/-- A first entry can be split off from whatever has matching parentheses: it
ends at the first comma outside all of them, and the rest is cut into pieces
too. -/
theorem exists_first_of_openAfter (hopen : openAfter depth lexemes = some 0) :
    ∃ first, depthAfter depth first = some 0 ∧
      (lexemes = first ∨
        ∃ mark rest pieces, lexemes = first ++ mark :: rest ∧ mark.token = .comma ∧
          CutAtCommas rest pieces) := by
  induction lexemes generalizing depth with
  | nil => exact ⟨[], hopen, Or.inl rfl⟩
  | cons lexeme rest ih =>
      rw [openAfter_cons, openAfterToken_eq] at hopen
      split at hopen
      · rename_i hcomma
        obtain ⟨htoken, rfl⟩ := hcomma
        obtain ⟨first, hfirst, rfl | ⟨mark, rest, pieces, rfl, hmark, hrest⟩⟩ := ih hopen
        · exact ⟨[], rfl, Or.inr ⟨lexeme, rest, [rest], rfl, htoken, .last hfirst⟩⟩
        · exact ⟨[], rfl, Or.inr ⟨lexeme, _, _, rfl, htoken, .comma hfirst hmark hrest⟩⟩
      · obtain ⟨inner, hinner, hopen⟩ := Option.bind_eq_some_iff.mp hopen
        obtain ⟨first, hfirst, hrest⟩ := ih hopen
        refine ⟨lexeme :: first, ?_, ?_⟩
        · rw [depthAfter_cons, hinner]
          exact hfirst
        · rcases hrest with rfl | ⟨mark, rest, pieces, rfl, hmark, hpieces⟩
          · exact Or.inl rfl
          · exact Or.inr ⟨mark, rest, pieces, rfl, hmark, hpieces⟩

/-- Whatever has matching parentheses can be cut into pieces, the first of which
is all of it if there is no comma to cut at. -/
theorem ParensMatch.exists_pieces (hmatch : ParensMatch body) :
    ∃ pieces, CutAtCommas body pieces := by
  obtain ⟨first, hfirst, rfl | ⟨mark, rest, pieces, rfl, hmark, hrest⟩⟩ :=
    exists_first_of_openAfter hmatch
  · exact ⟨[body], .last hfirst⟩
  · exact ⟨first :: pieces, .comma hfirst hmark hrest⟩

theorem CutAtCommas.parensMatch {pieces : List (List Lexeme)}
    (hcut : CutAtCommas body pieces) : ParensMatch body := by
  have hclose : rightParen.token = .rightParen := rfl
  obtain ⟨body', close, heq, -, hmatch⟩ :=
    exists_body_of_cutEntries (hcut.cutEntries_eq hclose [])
  rwa [(List.append_inj' heq rfl).1]

/-- There is one way to cut at all commas: any pieces are those that cutting the
list gives. -/
theorem CutAtCommas.eq {pieces pieces' : List (List Lexeme)} (hcut : CutAtCommas body pieces)
    (hcut' : CutAtCommas body pieces') : pieces = pieces' := by
  have hclose : rightParen.token = .rightParen := rfl
  have heq := hcut.cutEntries_eq hclose []
  rw [hcut'.cutEntries_eq hclose []] at heq
  cases heq
  rfl

/-- A list that is cut ends with a parenthesis, and its pieces lie between the
commas. -/
theorem cutEntries_eq_some_iff_cutAtCommas :
    cutEntries 0 lexemes = some (entries, left) ↔
      ∃ body close, lexemes = body ++ close :: left ∧ close.token = .rightParen ∧
        CutAtCommas body entries := by
  constructor
  · intro hcut
    obtain ⟨body, close, rfl, hclose, hmatch⟩ := exists_body_of_cutEntries hcut
    obtain ⟨pieces, hpieces⟩ := ParensMatch.exists_pieces hmatch
    rw [hpieces.cutEntries_eq hclose left] at hcut
    cases hcut
    exact ⟨body, close, rfl, hclose, hpieces⟩
  · rintro ⟨body, close, rfl, hclose, hpieces⟩
    exact hpieces.cutEntries_eq hclose left

/-! ## Lists in a text -/

theorem CutAtCommas.lists (hcut : CutAtCommas body entries) (hmarks : MarksSpelled body) :
    Lists body entries := by
  induction hcut with
  | last hpiece => exact ⟨by simp, by simpa using hpiece, List.intercalate_singleton.symm⟩
  | @comma piece rest mark pieces hpiece hmark _ ih =>
      have hsuffix : rest <:+ piece ++ mark :: rest :=
        (List.suffix_cons mark rest).trans (List.suffix_append piece _)
      have hrest := ih (hmarks.of_suffix hsuffix)
      obtain rfl := hmarks mark (by simp) Lexeme.comma (by decide) hmark
      refine ⟨by simp, List.forall_mem_cons.mpr ⟨hpiece, hrest.balanced⟩, ?_⟩
      rw [List.intercalate_cons_of_ne_nil hrest.ne_nil, ← hrest.eq_intercalate]
      simp

theorem Lists.cutEntries_eq (hlists : Lists body entries) (left : List Lexeme) :
    cutEntries 0 (body ++ rightParen :: left) = some (entries, left) := by
  rw [hlists.eq_intercalate]
  exact cutEntries_intercalate hlists.ne_nil hlists.balanced left

theorem Lists.isInfix_of_mem {entry : List Lexeme} (hlists : Lists body entries)
    (hentry : entry ∈ entries) : entry <:+: body := by
  rw [hlists.eq_intercalate]
  exact Text.isInfix_intercalate hentry

theorem ParensMatch.exists_lists (hmatch : ParensMatch body) (hmarks : MarksSpelled body) :
    ∃ entries, Lists body entries := by
  obtain ⟨entries, hcut⟩ := hmatch.exists_pieces
  exact ⟨entries, hcut.lists hmarks⟩

/-- Cutting gives the entries that the list is made of, and what follows it.  The
marks among the lexemes have to be spelled as marks are. -/
theorem cutEntries_eq_some_iff (hmarks : MarksSpelled lexemes) :
    cutEntries 0 lexemes = some (entries, left) ↔
      ∃ body, lexemes = body ++ rightParen :: left ∧ ParensMatch body ∧
        Lists body entries := by
  constructor
  · intro hcut
    obtain ⟨body, close, rfl, hclose, hpieces⟩ := cutEntries_eq_some_iff_cutAtCommas.mp hcut
    obtain rfl := hmarks close (by simp) rightParen (by decide) hclose
    have hbodyMarks : MarksSpelled body := fun lexeme hlexeme =>
      hmarks lexeme (List.mem_append_left _ hlexeme)
    exact ⟨body, rfl, hpieces.parensMatch, hpieces.lists hbodyMarks⟩
  · rintro ⟨body, rfl, -, hlists⟩
    exact hlists.cutEntries_eq left

end CreateIndex.Statement
