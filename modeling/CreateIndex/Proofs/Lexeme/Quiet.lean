import CreateIndex.Proofs.Lexeme.Words

/-!
# Quiet characters

Only a few characters matter to the cut between head and trailer: quotes and parentheses.
These and the separators are loud, all others are quiet.  A lexeme without quotes is one
loud character or consists of quiet ones.
-/

namespace CreateIndex.Lexeme

open Text

variable {text left content : List Char}

def loud : List Char :=
  [' ', ',', '(', ')', '\'', '"', backtick, '[']

/-- What stands before `left` in the text is quiet, so the cut does not react to
any of it. -/
def QuietUpTo (text left : List Char) : Prop :=
  ∃ taken, text = taken ++ left ∧ ∀ c ∈ taken, c ∉ loud

theorem not_loud_of_class {p : Char → Bool} (hloud : loud.all (!p ·)) {c : Char}
    (hc : p c) : c ∉ loud := by
  intro hmem
  have := List.all_eq_true.mp hloud c hmem
  simp [hc] at this

theorem QuietUpTo.rfl : QuietUpTo text text :=
  ⟨[], by simp, by simp⟩

/-- Quiet pieces may be put together, which is how a lexeme is gone through
class by class. -/
theorem QuietUpTo.trans {middle : List Char} (hfirst : QuietUpTo text middle)
    (hsecond : QuietUpTo middle left) : QuietUpTo text left := by
  obtain ⟨taken, rfl, htaken⟩ := hfirst
  obtain ⟨taken', rfl, htaken'⟩ := hsecond
  refine ⟨taken ++ taken', by simp, ?_⟩
  intro c hc
  rcases List.mem_append.mp hc with hc | hc
  · exact htaken c hc
  · exact htaken' c hc

theorem quietUpTo_cons {c : Char} (hc : c ∉ loud) (text : List Char) :
    QuietUpTo (c :: text) text :=
  ⟨[c], by simp, by simpa using hc⟩

section Classes

variable {p : Char → Bool} (hloud : loud.all (!p ·))

include hloud

theorem quietUpTo_dropWhile (text : List Char) : QuietUpTo text (text.dropWhile p) := by
  refine ⟨text.takeWhile p, List.takeWhile_append_dropWhile.symm, ?_⟩
  intro c hc
  exact not_loud_of_class hloud (List.all_eq_true.mp List.all_takeWhile c hc)

theorem quietUpTo_skipOne (text : List Char) : QuietUpTo text (skipOne p text) := by
  cases text with
  | nil => exact .rfl
  | cons c text =>
      rw [skipOne_cons]
      split
      · exact quietUpTo_cons (not_loud_of_class hloud ‹_›) text
      · exact .rfl

end Classes

theorem quietUpTo_skipExponent (text : List Char) : QuietUpTo text (skipExponent text) := by
  cases text with
  | nil => exact .rfl
  | cons c text =>
      rw [skipExponent_cons]
      split
      · rename_i htaken
        have hc : c ∉ loud := not_loud_of_class (p := isExponent) rfl htaken.1
        exact (quietUpTo_cons hc text).trans
          ((quietUpTo_skipOne rfl text).trans (quietUpTo_dropWhile rfl _))
      · exact .rfl

/-- Digits, points and exponents are quiet, so the cut passes over a number. -/
theorem quietUpTo_scanNumber (text : List Char) : QuietUpTo text (scanNumber text).2 := by
  have hdigits := quietUpTo_dropWhile (p := Char.isDigit) rfl
  refine (hdigits text).trans ?_
  simp only [scanNumber]
  split
  · rename_i hhex
    obtain ⟨rest, hrest⟩ := List.head?_eq_some_iff.mp hhex.2
    rw [hrest]
    exact (quietUpTo_cons (by decide) rest).trans (quietUpTo_dropWhile rfl rest)
  · have hpoint := (quietUpTo_skipOne rfl (text.dropWhile Char.isDigit)).trans
      (hdigits (skipOne (· == '.') (text.dropWhile Char.isDigit)))
    split
    · exact hpoint
    · exact hpoint.trans ((quietUpTo_skipExponent _).trans (quietUpTo_skipOne rfl _))

theorem not_loud_of_mem_operators :
    ∀ operator ∈ operators, ∀ c ∈ operator.toList, c ∉ loud := by
  decide

theorem quietUpTo_scanOperator? {token : Token}
    (hread : scanOperator? text = some (token, left)) : QuietUpTo text left := by
  obtain ⟨_, operator, _, hops, hfound, _⟩ := List.findSome?_eq_some_iff.mp hread
  obtain ⟨_, hleft, heq⟩ := Option.map_eq_some_iff.mp hfound
  obtain ⟨-, rfl⟩ := Prod.mk.inj heq
  exact ⟨operator.toList, (append_of_isPrefixOf? hleft).symm,
    not_loud_of_mem_operators operator (by simp [hops])⟩

theorem scanNumber_token (text : List Char) :
    (scanNumber text).1 = .period ∨ (scanNumber text).1 = .number ∨
      ∃ content, (scanNumber text).1 = .hexadecimal content := by
  simp only [scanNumber]
  split
  · exact Or.inr (Or.inr ⟨_, rfl⟩)
  · split
    · exact Or.inl rfl
    · exact Or.inr (Or.inl rfl)

theorem scanOperator?_token {token : Token}
    (hread : scanOperator? text = some (token, left)) :
    token = .unequal ∨ token = .symbol := by
  obtain ⟨_, operator, _, _, hfound, _⟩ := List.findSome?_eq_some_iff.mp hread
  obtain ⟨_, _, heq⟩ := Option.map_eq_some_iff.mp hfound
  obtain ⟨htoken, -⟩ := Prod.mk.inj heq
  split at htoken
  · exact Or.inl htoken.symm
  · exact Or.inr htoken.symm

/-- The token of a lexeme that may have more than one character, which is every
token but those of separators. -/
def isCompound (token : Token) : Bool :=
  match token with
  | .blank | .comma | .leftParen | .rightParen => false
  | _ => true

/-- A lexeme without quotes is quiet, or it is one character, which its token
tells. -/
theorem quietUpTo_scanPlain {c : Char} {rest : List Char} {token : Token}
    (hread : scanPlain c rest = (token, left)) :
    QuietUpTo (c :: rest) left ∧ isCompound token ∨
      rest = left ∧ token = separatorToken c := by
  cases scansPlain_of_scanPlain hread with
  | space hc => exact Or.inr ⟨rfl, (if_pos hc).symm⟩
  | word hc =>
      have hloud : c ∉ loud := not_loud_of_class (p := isWordStart) (by decide) hc
      have hquiet := (quietUpTo_cons hloud rest).trans
        (quietUpTo_dropWhile (p := isWordPart) (by decide) rest)
      exact Or.inl ⟨hquiet, rfl⟩
  | number hnumber =>
      have hquiet := quietUpTo_scanNumber (c :: rest)
      have htoken := scanNumber_token (c :: rest)
      rw [hnumber] at hquiet htoken
      refine Or.inl ⟨hquiet, ?_⟩
      rcases htoken with rfl | rfl | ⟨content, rfl⟩ <;> rfl
  | mark hc =>
      have hquiet := (quietUpTo_cons (c := '?') (by decide) rest).trans
        (quietUpTo_dropWhile (p := isNumeric) (by decide +kernel) rest)
      exact Or.inl ⟨hc ▸ hquiet, rfl⟩
  | dollar hc =>
      have hquiet := (quietUpTo_cons (c := '$') (by decide) rest).trans
        (quietUpTo_dropWhile (p := isPlaceholderPart) (by decide +kernel) rest)
      exact Or.inl ⟨hc ▸ hquiet, rfl⟩
  | operator hoperator =>
      refine Or.inl ⟨quietUpTo_scanOperator? hoperator, ?_⟩
      rcases scanOperator?_token hoperator with rfl | rfl <;> rfl
  | punctuation hc => exact Or.inr ⟨rfl, (if_neg hc).symm⟩

/-- A lexeme without quotes that spells a name is a bare word, taken for as long
as it goes on like one. -/
theorem scanPlain_identifier {c : Char} {rest name shownAs : List Char} {token : Token}
    (hread : scanPlain c rest = (token, left))
    (hname : (⟨token, shownAs⟩ : Lexeme).identifier? = some name) :
    isWordStart c ∧ name = c :: rest.takeWhile isWordPart ∧
      left = rest.dropWhile isWordPart := by
  cases scansPlain_of_scanPlain hread with
  | word hc =>
      cases hname
      exact ⟨hc, rfl, rfl⟩
  | number hnumber =>
      have htoken := scanNumber_token (c :: rest)
      rw [hnumber] at htoken
      rcases htoken with rfl | rfl | ⟨content, rfl⟩ <;> cases hname
  | operator hoperator =>
      rcases scanOperator?_token hoperator with rfl | rfl <;> cases hname
  | punctuation =>
      unfold identifier? at hname
      rcases punctuation_cases c with htoken | htoken | htoken | htoken <;>
        simp [htoken] at hname
  | space | mark | dollar => cases hname

end CreateIndex.Lexeme
