import CreateIndex.Lexeme.Scan
import CreateIndex.Statement.Head

/-!
# Openings

How a lexeme is read depends on the character that opens it and on the one after that.
`Scans` lists the cases, and `ScansPlain` those of lexemes without a closing mark.  Reading a
text is reading its first lexeme and then the rest.
-/

namespace CreateIndex.Lexeme

variable {left : List Char}

theorem wordCloser?_eq_some_iff {c closer : Char} :
    wordCloser? c = some closer ↔
      c = '"' ∧ closer = '"' ∨ c = backtick ∧ closer = backtick ∨
        c = '[' ∧ closer = ']' := by
  unfold wordCloser?
  by_cases hdouble : c = '"'
  · subst hdouble
    simp [backtick, eq_comm]
  by_cases hback : c = backtick
  · subst hback
    simp [backtick, eq_comm]
  by_cases hopen : c = '['
  · subst hopen
    simp [backtick, eq_comm]
  · simp [hdouble, hback, hopen]

def quotePairs : List (Char × Char) :=
  [('\'', '\''), ('"', '"'), (backtick, backtick), ('[', ']')]

theorem mem_quotePairs {c closer : Char} (hcloser : Statement.quoteCloser? c = some closer) :
    (c, closer) ∈ quotePairs := by
  unfold Statement.quoteCloser? at hcloser
  split at hcloser
  · rename_i hc
    cases hcloser
    simp [quotePairs, hc]
  · rcases wordCloser?_eq_some_iff.mp hcloser with ⟨rfl, rfl⟩ | ⟨rfl, rfl⟩ | ⟨rfl, rfl⟩ <;> decide

/-- The ways in which a lexeme is read, one for each kind of opening.  Each rule
says when it applies, so that no order among the rules is needed. -/
inductive Scans (c : Char) : List Char → Token → List Char → Prop where
  | national {body content left : List Char} (hc : c = 'N' ∨ c = 'n')
      (hbody : slashedBody body = some (content, left)) :
      Scans c ('\'' :: body) (.national content) left
  | hexadecimal {body content left : List Char} (hc : c = 'X' ∨ c = 'x')
      (hbody : slashedBody body = some (content, left)) :
      Scans c ('\'' :: body) (.hexadecimal content) left
  | escaped {body content left : List Char} (hc : c = 'E' ∨ c = 'e')
      (hbody : escapedBody body = some (content, left)) :
      Scans c ('\'' :: body) (.escaped content) left
  | string {rest content left : List Char} (hc : c = '\'')
      (hbody : quotedBody '\'' rest = some (content, left)) :
      Scans c rest (.string content) left
  | quotedWord {rest content left : List Char} {closer : Char}
      (hcloser : wordCloser? c = some closer)
      (hbody : quotedBody closer rest = some (content, left)) :
      Scans c rest (.word content true) left
  | lineComment {body : List Char} (hc : c = '-') : Scans c ('-' :: body) .comment []
  | blockComment {body left : List Char} (hc : c = '/')
      (hbody : afterComment body = some left) : Scans c ('*' :: body) .comment left
  | plain {rest left : List Char} {token : Token} (hquote : c ≠ '\'')
      (hcloser : wordCloser? c = none)
      (hliteral : rest.head? = some '\'' →
        ¬(c = 'N' ∨ c = 'n') ∧ ¬(c = 'X' ∨ c = 'x') ∧ ¬(c = 'E' ∨ c = 'e'))
      (hline : rest.head? = some '-' → c ≠ '-') (hblock : rest.head? = some '*' → c ≠ '/')
      (hplain : scanPlain c rest = (token, left)) : Scans c rest token left

/-- The ways in which a lexeme without a closing mark is read. -/
inductive ScansPlain (c : Char) (rest : List Char) : Token → List Char → Prop where
  | space (hc : c = ' ') : ScansPlain c rest .blank rest
  | word (hc : isWordStart c) :
      ScansPlain c rest (.word (c :: rest.takeWhile isWordPart) false) (rest.dropWhile isWordPart)
  | number {token : Token} {left : List Char}
      (hread : scanNumber (c :: rest) = (token, left)) : ScansPlain c rest token left
  | mark (hc : c = '?') : ScansPlain c rest .placeholder (rest.dropWhile Text.isNumeric)
  | dollar (hc : c = '$') : ScansPlain c rest .placeholder (rest.dropWhile isPlaceholderPart)
  | operator {token : Token} {left : List Char}
      (hread : scanOperator? (c :: rest) = some (token, left)) : ScansPlain c rest token left
  | punctuation (hc : c ≠ ' ') : ScansPlain c rest (punctuation c) rest

theorem scansPlain_of_scanPlain {c : Char} {rest : List Char} {token : Token}
    (hread : scanPlain c rest = (token, left)) : ScansPlain c rest token left := by
  rw [scanPlain] at hread
  by_cases hspace : c = ' '
  · rw [if_pos hspace] at hread
    cases hread
    exact .space hspace
  rw [if_neg hspace] at hread
  by_cases hword : isWordStart c
  · rw [if_pos hword] at hread
    cases hread
    exact .word hword
  rw [if_neg hword] at hread
  by_cases hnumber : c.isDigit ∨ c = '.'
  · rw [if_pos hnumber] at hread
    exact .number hread
  rw [if_neg hnumber] at hread
  by_cases hmark : c = '?'
  · rw [if_pos hmark] at hread
    cases hread
    exact .mark hmark
  rw [if_neg hmark] at hread
  by_cases hdollar : c = '$'
  · rw [if_pos hdollar] at hread
    cases hread
    exact .dollar hdollar
  rw [if_neg hdollar] at hread
  cases hoperator : scanOperator? (c :: rest) with
  | none =>
      rw [hoperator] at hread
      cases hread
      exact .punctuation hspace
  | some read =>
      rw [hoperator] at hread
      obtain rfl : read = (token, left) := hread
      exact .operator hoperator

/-- A single character is a parenthesis, a comma, or some other symbol. -/
theorem punctuation_cases (c : Char) :
    punctuation c = .leftParen ∨ punctuation c = .rightParen ∨ punctuation c = .comma ∨
      punctuation c = .symbol := by
  unfold punctuation
  split
  · exact Or.inl rfl
  split
  · exact Or.inr (Or.inl rfl)
  split
  · exact Or.inr (Or.inr (Or.inl rfl))
  · exact Or.inr (Or.inr (Or.inr rfl))

theorem scanBody_eq_some_iff {kind : List Char → Token} {token : Token}
    {read : List Char → Option (List Char × List Char)} {body : List Char} :
    scanBody kind read body = some (token, left) ↔
      ∃ content, read body = some (content, left) ∧ kind content = token := by
  simp only [scanBody, Option.map_eq_some_iff, Prod.mk.injEq, Prod.exists]
  constructor
  · rintro ⟨content, _, hread, rfl, rfl⟩
    exact ⟨content, hread, rfl⟩
  · rintro ⟨content, hread, rfl⟩
    exact ⟨content, left, hread, rfl, rfl⟩

/-- What is read at an opening follows one of the ways to read a lexeme; which
of them it is depends on the first character, and at times on the second. -/
theorem scans_of_scan {c : Char} {rest : List Char} {token : Token}
    (hread : scan c rest = some (token, left)) : Scans c rest token left := by
  have htail {d : Char} (hhead : rest.head? = some d) : rest = d :: rest.tail := by
    obtain ⟨rest, rfl⟩ := List.head?_eq_some_iff.mp hhead
    rfl
  simp only [scan] at hread
  split at hread
  · rename_i hstart
    obtain ⟨content, hbody, rfl⟩ := scanBody_eq_some_iff.mp hread
    rw [htail hstart.1]
    exact .national hstart.2 hbody
  rename_i hnational
  split at hread
  · rename_i hstart
    obtain ⟨content, hbody, rfl⟩ := scanBody_eq_some_iff.mp hread
    rw [htail hstart.1]
    exact .hexadecimal hstart.2 hbody
  rename_i hhexadecimal
  split at hread
  · rename_i hstart
    obtain ⟨content, hbody, rfl⟩ := scanBody_eq_some_iff.mp hread
    rw [htail hstart.1]
    exact .escaped hstart.2 hbody
  rename_i hescaped
  split at hread
  · rename_i hc
    obtain ⟨content, hbody, rfl⟩ := scanBody_eq_some_iff.mp hread
    exact .string hc hbody
  rename_i hquote
  split at hread
  · rename_i hcloser
    obtain ⟨content, hbody, rfl⟩ := scanBody_eq_some_iff.mp hread
    exact .quotedWord hcloser hbody
  rename_i hcloser
  split at hread
  · rename_i hstart
    cases hread
    rw [htail hstart.2]
    exact .lineComment hstart.1
  rename_i hline
  split at hread
  · rename_i hstart
    obtain ⟨_, hbody, heq⟩ := Option.map_eq_some_iff.mp hread
    obtain ⟨rfl, rfl⟩ := Prod.mk.inj heq
    rw [htail hstart.2]
    exact .blockComment hstart.1 hbody
  · rename_i hblock
    exact .plain hquote hcloser
      (fun h => ⟨fun hc => hnational ⟨h, hc⟩, fun hc => hhexadecimal ⟨h, hc⟩,
        fun hc => hescaped ⟨h, hc⟩⟩)
      (fun h hc => hline ⟨hc, h⟩) (fun h hc => hblock ⟨hc, h⟩) (Option.some.inj hread)

/-- Each of the ways is the one that is taken at its opening: no two of them
compete for a text. -/
theorem scan_of_scans {c : Char} {rest : List Char} {token : Token}
    (hscans : Scans c rest token left) : scan c rest = some (token, left) := by
  cases hscans with
  | national hc hbody => simp [scan, scanBody, hc, hbody]
  | hexadecimal hc hbody =>
      have hn : ¬(c = 'N' ∨ c = 'n') := by rcases hc with rfl | rfl <;> decide
      simp [scan, scanBody, hc, hn, hbody]
  | escaped hc hbody =>
      have hn : ¬(c = 'N' ∨ c = 'n') := by rcases hc with rfl | rfl <;> decide
      have hx : ¬(c = 'X' ∨ c = 'x') := by rcases hc with rfl | rfl <;> decide
      simp [scan, scanBody, hc, hn, hx, hbody]
  | string hc hbody =>
      subst hc
      simp [scan, scanBody, hbody]
  | quotedWord hcloser hbody =>
      have hc := wordCloser?_eq_some_iff.mp hcloser
      have hn : ¬(c = 'N' ∨ c = 'n') := by
        rcases hc with ⟨rfl, -⟩ | ⟨rfl, -⟩ | ⟨rfl, -⟩ <;> decide
      have hx : ¬(c = 'X' ∨ c = 'x') := by
        rcases hc with ⟨rfl, -⟩ | ⟨rfl, -⟩ | ⟨rfl, -⟩ <;> decide
      have he : ¬(c = 'E' ∨ c = 'e') := by
        rcases hc with ⟨rfl, -⟩ | ⟨rfl, -⟩ | ⟨rfl, -⟩ <;> decide
      have hquote : c ≠ '\'' := by
        rcases hc with ⟨rfl, -⟩ | ⟨rfl, -⟩ | ⟨rfl, -⟩ <;> decide
      simp [scan, scanBody, hn, hx, he, hquote, hcloser, hbody]
  | lineComment hc =>
      subst hc
      simp [scan, wordCloser?, backtick]
  | blockComment hc hbody =>
      subst hc
      simp [scan, wordCloser?, backtick, hbody]
  | plain hquote hcloser hliteral hline hblock hplain =>
      have hn : ¬(rest.head? = some '\'' ∧ (c = 'N' ∨ c = 'n')) :=
        fun h => (hliteral h.1).1 h.2
      have hx : ¬(rest.head? = some '\'' ∧ (c = 'X' ∨ c = 'x')) :=
        fun h => (hliteral h.1).2.1 h.2
      have he : ¬(rest.head? = some '\'' ∧ (c = 'E' ∨ c = 'e')) :=
        fun h => (hliteral h.1).2.2 h.2
      have hdash : ¬(c = '-' ∧ rest.head? = some '-') := fun h => hline h.2 h.1
      have hstar : ¬(c = '/' ∧ rest.head? = some '*') := fun h => hblock h.2 h.1
      simp only [scan, if_neg hn, if_neg hx, if_neg he, if_neg hquote, hcloser,
        if_neg hdash, if_neg hstar, hplain]

theorem scan_eq_some_iff {c : Char} {rest : List Char} {token : Token} :
    scan c rest = some (token, left) ↔ Scans c rest token left :=
  ⟨scans_of_scan, scan_of_scans⟩

/-! ## Reading a text -/

/-- Reading a lexeme and then the rest.  The lexeme keeps the characters that it
was read from. -/
theorem lex_cons {c : Char} {body : List Char} {token : Token}
    (hscan : scan c (body ++ left) = some (token, left)) :
    lex (c :: (body ++ left)) = (lex left).map (⟨token, c :: body⟩ :: ·) := by
  rw [lex]
  split
  · rename_i hnone
    rw [hscan] at hnone
    cases hnone
  · rename_i token' left' hsome
    rw [hscan] at hsome
    cases hsome
    have hlength : (body ++ left).length + 1 - left.length = body.length + 1 := by
      rw [List.length_append]
      omega
    rw [hlength, List.take_succ_cons, List.take_left]

/-- A text with a first lexeme starts with the characters of that lexeme, and
the other lexemes are those of what follows. -/
theorem exists_of_lex_eq_cons {text : List Char} {lexeme : Lexeme} {lexemes : List Lexeme}
    (hread : lex text = some (lexeme :: lexemes)) :
    ∃ c body left, lexeme.text = c :: body ∧ text = c :: (body ++ left) ∧
      scan c (body ++ left) = some (lexeme.token, left) ∧ lex left = some lexemes := by
  cases text with
  | nil => simp [lex] at hread
  | cons c rest =>
      cases hscan : scan c rest with
      | none =>
          rw [lex] at hread
          split at hread <;> simp_all
      | some read =>
          obtain ⟨token, left⟩ := read
          obtain ⟨body, rfl⟩ := scan_suffix hscan
          rw [lex_cons hscan, Option.map_eq_some_iff] at hread
          obtain ⟨following, hfollowing, heq⟩ := hread
          obtain ⟨rfl, rfl⟩ := List.cons.inj heq
          exact ⟨c, body, left, rfl, rfl, hscan, hfollowing⟩

end CreateIndex.Lexeme
