import CreateIndex.Proofs.Lexeme.Marks

/-!
# The first parenthesised group

The cut finds the end of the first parenthesised group among the characters of a text, before
anything is read.  The same end can be told afterwards from the lexemes, by counting the
parentheses among them.  The two agree for every text of ordinary lexemes, so the head is
never cut in the middle of a lexeme, unless a backslash takes a quote with it in a literal
`N'..'` or `X'..'`: the cut knows no escapes.
-/

namespace CreateIndex.Statement

open Lexeme Text

variable {text : List Char} {before after lexemes : List Lexeme} {close : Lexeme}

/-- The number of open parentheses after a lexeme with the given token.  A parenthesis that
closes nothing is passed over. -/
def levelAfterToken (level : Nat) (token : Token) : Nat :=
  match token with
  | .leftParen => level + 1
  | .rightParen => level - 1
  | _ => level

def level (lexemes : List Lexeme) : Nat :=
  lexemes.foldl (fun level lexeme => levelAfterToken level lexeme.token) 0

/-- After `before` comes a parenthesis that closes an outermost group. -/
structure ClosesGroup (before : List Lexeme) (close : Lexeme) : Prop where
  isClose : close.token = .rightParen
  inside : level before ≠ 0
  outside : level (before ++ [close]) = 0

/-- After `before` comes the parenthesis that closes the first group. -/
structure ClosesFirstGroup (before : List Lexeme) (close : Lexeme) : Prop
    extends ClosesGroup before close where
  first : ∀ start mark, start ++ [mark] <+: before → ¬ClosesGroup start mark

def HasGroup (lexemes : List Lexeme) : Prop :=
  ∃ before close after, lexemes = before ++ close :: after ∧ ClosesGroup before close

theorem level_concat (start : List Lexeme) (last : Lexeme) :
    level (start ++ [last]) = levelAfterToken (level start) last.token :=
  List.foldl_concat ..

theorem closesGroup_iff :
    ClosesGroup before close ↔ close.token = .rightParen ∧ level before = 1 := by
  constructor
  · rintro ⟨hclose, hinside, houtside⟩
    rw [level_concat, hclose] at houtside
    simp only [levelAfterToken] at houtside
    exact ⟨hclose, by omega⟩
  · rintro ⟨hclose, hlevel⟩
    refine ⟨hclose, by omega, ?_⟩
    rw [level_concat, hclose, hlevel]
    rfl

theorem afterToken_of_not_closesGroup (hnot : ¬ClosesGroup before close) :
    Nesting.afterToken (level before) close.token =
      some (.outside (level (before ++ [close]))) := by
  rw [closesGroup_iff, not_and] at hnot
  rw [level_concat]
  cases htoken : close.token <;> simp_all [Nesting.afterToken, levelAfterToken]

/-! ## The first group -/

/-- Either no group is closed among the lexemes, or one is closed first.  The
induction goes from the front, since what comes later does not change which is
first. -/
theorem exists_closesFirstGroup_or (lexemes : List Lexeme) :
    (∃ before close after, lexemes = before ++ close :: after ∧ ClosesFirstGroup before close) ∨
      ∀ start mark, start ++ [mark] <+: lexemes → ¬ClosesGroup start mark := by
  induction lexemes using List.reverseRecOn with
  | nil => exact Or.inr fun start mark hstart => by simp at hstart
  | append_singleton lexemes last ih =>
      obtain ⟨before, close, after, rfl, hfirst⟩ | hnone := ih
      · exact Or.inl ⟨before, close, after ++ [last], by simp, hfirst⟩
      by_cases hlast : ClosesGroup lexemes last
      · exact Or.inl ⟨lexemes, last, [], rfl, hlast, hnone⟩
      · refine Or.inr fun start mark hstart => ?_
        rcases List.prefix_concat_iff.mp hstart with heq | hprefix
        · obtain ⟨rfl, hmark⟩ := List.append_inj' heq rfl
          obtain rfl := List.singleton_inj.mp hmark
          exact hlast
        · exact hnone start mark hprefix

/-! ## The cut -/

/-- The cut passes lexemes that close no group, and it counts as they do: a
parenthesis that closes nothing is passed over by both. -/
theorem pass_of_not_closesGroup (hagrees : ∀ lexeme ∈ lexemes, lexeme.AgreesWithCut)
    (hnone : ∀ start mark, start ++ [mark] <+: lexemes → ¬ClosesGroup start mark) :
    (Nesting.outside 0).pass (sourceText lexemes) = some (.outside (level lexemes)) := by
  induction lexemes using List.reverseRecOn with
  | nil => rfl
  | append_singleton lexemes last ih =>
      have hstart := ih (fun lexeme hlexeme => hagrees lexeme (by simp [hlexeme]))
        fun start mark hstart => hnone start mark (hstart.trans (List.prefix_append _ _))
      have hlast := (hagrees last (by simp) (level lexemes)).trans
        (afterToken_of_not_closesGroup (hnone lexemes last List.prefix_rfl))
      rw [sourceText_append, Nesting.pass_append_of_pass hstart]
      change (Nesting.outside (level lexemes)).pass (last.text ++ []) = _
      rw [List.append_nil]
      exact hlast

/-- Without a closed group there is nothing to cut, however many parentheses are
left open. -/
theorem cutAfterList?_eq_none (hread : lex text = some lexemes)
    (hagrees : ∀ lexeme ∈ lexemes, lexeme.AgreesWithCut)
    (hnone : ∀ start mark, start ++ [mark] <+: lexemes → ¬ClosesGroup start mark) :
    cutAfterList? text = none := by
  have hpass := pass_of_not_closesGroup hagrees hnone
  have hcut : cutFrom (.outside 0) (sourceText lexemes ++ []) = none :=
    Nesting.cutFrom_append hpass
  have htext : sourceText lexemes = text := flatMap_text_of_lex hread
  rwa [htext, List.append_nil] at hcut

/-- The cut is made after the parenthesis that closes the first group, so it is
never made inside a lexeme. -/
theorem cutAfterList?_eq_some (hread : lex text = some (before ++ close :: after))
    (hagrees : ∀ lexeme ∈ before ++ close :: after, lexeme.AgreesWithCut)
    (hfirst : ClosesFirstGroup before close) :
    cutAfterList? text = some (sourceText (before ++ [close]), sourceText after) := by
  have hmarks := marksSpelled_of_lex hread
  obtain rfl : close = rightParen := hmarks close (by simp) rightParen (by decide) hfirst.isClose
  have hpass := pass_of_not_closesGroup
    (fun lexeme hlexeme => hagrees lexeme (by simp [hlexeme])) hfirst.first
  rw [(closesGroup_iff.mp hfirst.toClosesGroup).2] at hpass
  have htext : text = sourceText before ++ ')' :: sourceText after := by
    rw [← flatMap_text_of_lex hread]
    exact sourceText_append ..
  have hclose : cutFrom (.outside 1) (')' :: sourceText after) = some ([')'], sourceText after) :=
    rfl
  rw [htext, sourceText_append, cutAfterList?]
  change cutFrom (.outside 0) _ = _
  rw [Nesting.cutFrom_append hpass, hclose]
  rfl

/-- The text of the first lexemes of a text is read as these, once it has been
cut off behind them. -/
theorem lex_sourceText_of_append (hread : lex text = some (before ++ after))
    (hmovable : ∀ lexeme ∈ before, lexeme.IsMovable) :
    lex (sourceText before) = some before := by
  have hstart : lex text = some ([] ++ before ++ after) := hread
  exact lex_sourceText hstart hmovable

/-- The cut and the lexemes of a text agree on the end of its first group.  What stands before
the cut is read as the lexemes up to there, and nothing that follows the text moves the cut. -/
theorem cutAfterList?_of_lex (hread : lex text = some lexemes)
    (hordinary : ∀ lexeme ∈ lexemes, lexeme.IsOrdinary)
    (hescapes : ∀ lexeme ∈ lexemes, ¬lexeme.escapesQuote) :
    ((∃ cut, cutAfterList? text = some cut) ↔ HasGroup lexemes) ∧
      ∀ head trailer, cutAfterList? text = some (head, trailer) →
        ∃ before close after, lexemes = before ++ close :: after ∧
          ClosesFirstGroup before close ∧ head = sourceText (before ++ [close]) ∧
          trailer = sourceText after ∧ lex head = some (before ++ [close]) ∧
          ∀ rest, cutAfterList? (text ++ rest) = some (head, trailer ++ rest) := by
  have hagrees : ∀ lexeme ∈ lexemes, lexeme.AgreesWithCut := fun lexeme hlexeme =>
    agreesWithCut_of_isOrdinary hread hlexeme (hordinary lexeme hlexeme) (hescapes lexeme hlexeme)
  obtain ⟨before, close, after, rfl, hfirst⟩ | hnone := exists_closesFirstGroup_or lexemes
  · have hcut := cutAfterList?_eq_some hread hagrees hfirst
    refine ⟨⟨fun _ => ⟨before, close, after, rfl, hfirst.toClosesGroup⟩, fun _ => ⟨_, hcut⟩⟩, ?_⟩
    intro head trailer hfound
    obtain ⟨rfl, rfl⟩ := Prod.mk.inj (Option.some.inj (hcut.symm.trans hfound))
    rw [List.append_cons] at hread hordinary
    have hhead := lex_sourceText_of_append hread fun lexeme hlexeme =>
      (hordinary lexeme (List.mem_append_left after hlexeme)).isMovable
    exact ⟨before, close, after, rfl, hfirst, rfl, rfl, hhead,
      Nesting.cutFrom_append_of_eq_some hcut⟩
  · have hcut := cutAfterList?_eq_none hread hagrees hnone
    have hgroup : ¬HasGroup lexemes := by
      rintro ⟨before, close, after, rfl, hcloses⟩
      exact hnone before close ⟨after, by simp⟩ hcloses
    simp [hcut, hgroup]

/-- Literals and quoted words with parentheses in them, and backslashes that take no quote. -/
def literalText : List Char :=
  "a) (N'\\\\)', x'\\n''(' || [b (c], 'd'')' ) where (e".toList

theorem cutAfterList?_of_lex_literalText :
    ∃ lexemes, lex literalText = some lexemes ∧ (∀ lexeme ∈ lexemes, lexeme.IsOrdinary) ∧
      (∀ lexeme ∈ lexemes, ¬lexeme.escapesQuote) ∧ (cutAfterList? literalText).isSome ∧
      ((∃ cut, cutAfterList? literalText = some cut) ↔ HasGroup lexemes) ∧
      ∀ head trailer, cutAfterList? literalText = some (head, trailer) →
        ∃ before close after, lexemes = before ++ close :: after ∧
          ClosesFirstGroup before close ∧ head = sourceText (before ++ [close]) ∧
          trailer = sourceText after ∧ lex head = some (before ++ [close]) ∧
          ∀ rest, cutAfterList? (literalText ++ rest) = some (head, trailer ++ rest) := by
  let lexemes := (lex literalText).getD []
  have hread : lex literalText = some lexemes := by decide +kernel
  have hordinary : ∀ lexeme ∈ lexemes, lexeme.IsOrdinary := by decide +kernel
  have hescapes : ∀ lexeme ∈ lexemes, ¬lexeme.escapesQuote := by decide +kernel
  exact ⟨lexemes, hread, hordinary, hescapes, by decide +kernel,
    cutAfterList?_of_lex hread hordinary hescapes⟩

def escapedQuoteText : List Char :=
  "CREATE INDEX i ON t (N'\\'') WHERE a = 1".toList

/-- An escaped quote ends the literal for the cut, which then takes the last quote for the
start of another one and finds no closed group. -/
theorem not_hasGroup_iff_escapedQuoteText :
    ∃ lexemes, squeeze escapedQuoteText = escapedQuoteText ∧
      lex escapedQuoteText = some lexemes ∧ (∀ lexeme ∈ lexemes, lexeme.IsOrdinary) ∧
      ¬((∃ cut, cutAfterList? escapedQuoteText = some cut) ↔ HasGroup lexemes) := by
  let lexemes := (lex escapedQuoteText).getD []
  have hread : lex escapedQuoteText = some lexemes := by decide +kernel
  have hgroup : HasGroup lexemes :=
    ⟨lexemes.take 12, rightParen, lexemes.drop 13, by decide +kernel,
      closesGroup_iff.mpr (by decide +kernel)⟩
  have hcut : cutAfterList? escapedQuoteText = none := by decide +kernel
  exact ⟨lexemes, by decide +kernel, hread, by decide +kernel, by simp [hcut, hgroup]⟩

end CreateIndex.Statement
