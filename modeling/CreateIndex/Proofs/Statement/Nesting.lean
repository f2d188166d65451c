import CreateIndex.Proofs.Lexeme.Phrases
import CreateIndex.Statement.Head

/-!
# The cut and the lexemes

The cut between head and trailer looks at characters, the rest of the reader at lexemes.
A lexeme agrees with the cut if the cut sees exactly the parenthesis that the lexeme is,
or none.  Ordinary lexemes agree unless a backslash takes a quote with it; what is not
ordinary is a comment, a literal `E'..'`, or a word in brackets with a closing bracket
inside.  Plain lexemes are ordinary, and no literals with a letter before the quote.
-/

namespace CreateIndex

namespace Statement

open Lexeme

def Nesting.outside (depth : Nat) : Nesting := ⟨depth, none⟩

/-- The nesting after a text, or nothing if the outermost parenthesis is closed in it. -/
def Nesting.pass (nesting : Nesting) : List Char → Option Nesting
  | [] => some nesting
  | c :: rest => if nesting.closesAt c then none else (nesting.after c).pass rest

/-- The nesting after a lexeme with the given token, for one that agrees with the cut. -/
def Nesting.afterToken (depth : Nat) (token : Token) : Option Nesting :=
  match token with
  | .leftParen => some (.outside (depth + 1))
  | .rightParen => if depth = 1 then none else some (.outside (depth - 1))
  | _ => some (.outside depth)

namespace Nesting

variable {nesting nesting' : Nesting} {start rest : List Char} {depth : Nat}

/-- The nesting after a text is found piece by piece; once the outermost
parenthesis is closed, no piece changes that. -/
theorem pass_append (nesting : Nesting) (start rest : List Char) :
    nesting.pass (start ++ rest) = (nesting.pass start).bind (·.pass rest) := by
  induction start generalizing nesting with
  | nil => rfl
  | cons c start ih =>
      rw [List.cons_append, pass, pass]
      split
      · rfl
      · exact ih _

theorem pass_append_of_pass (hpass : nesting.pass start = some nesting') :
    nesting.pass (start ++ rest) = nesting'.pass rest := by
  rw [pass_append, hpass]
  rfl

/-- The cut goes on behind a text that it passes, from the nesting that the text
has led to. -/
theorem cutFrom_append (hpass : nesting.pass start = some nesting') :
    cutFrom nesting (start ++ rest) =
      (cutFrom nesting' rest).map fun (head, trailer) => (start ++ head, trailer) := by
  induction start generalizing nesting with
  | nil =>
      cases hpass
      simp
  | cons c start ih =>
      rw [pass] at hpass
      by_cases hcloses : nesting.closesAt c
      · rw [if_pos hcloses] at hpass
        cases hpass
      · rw [if_neg hcloses] at hpass
        rw [List.cons_append, cutFrom, if_neg hcloses, ih hpass, Option.map_map]
        rfl

/-- Nothing is lost by the cut: the head and the trailer make up the text. -/
theorem append_of_cutFrom {text head trailer : List Char}
    (hcut : cutFrom nesting text = some (head, trailer)) : head ++ trailer = text := by
  induction text generalizing nesting head with
  | nil => cases hcut
  | cons c text ih =>
      rw [cutFrom] at hcut
      split at hcut
      · cases hcut
        rfl
      · obtain ⟨⟨head', trailer'⟩, hrest, heq⟩ := Option.map_eq_some_iff.mp hcut
        cases heq
        rw [List.cons_append, ih hrest]

/-- What is written after the cut does not move it, but goes to the trailer. -/
theorem cutFrom_append_of_eq_some {text head trailer : List Char}
    (hcut : cutFrom nesting text = some (head, trailer)) (rest : List Char) :
    cutFrom nesting (text ++ rest) = some (head, trailer ++ rest) := by
  induction text generalizing nesting head with
  | nil => cases hcut
  | cons c text ih =>
      rw [List.cons_append]
      rw [cutFrom] at hcut ⊢
      split at hcut
      · rename_i hcloses
        cases hcut
        rw [if_pos hcloses]
      · rename_i hcloses
        obtain ⟨⟨head', trailer'⟩, hrest, heq⟩ := Option.map_eq_some_iff.mp hcut
        cases heq
        rw [if_neg hcloses, ih hrest]
        rfl

/-! ## Characters outside quotes -/

theorem pass_cons_outside {c : Char} (hquote : quoteCloser? c = none) (hopen : c ≠ '(')
    (hclose : c ≠ ')') (depth : Nat) (rest : List Char) :
    (outside depth).pass (c :: rest) = (outside depth).pass rest := by
  have hcloses : (outside depth).closesAt c = false := by simp [closesAt, hclose]
  have hafter : (outside depth).after c = outside depth := by
    simp [after, outside, hquote, hopen, hclose]
  rw [pass, hcloses, hafter]
  rfl

/-- Outside quotes, quiet characters leave the nesting as it is. -/
theorem pass_quiet (hquiet : ∀ c ∈ start, c ∉ loud) (depth : Nat) :
    (outside depth).pass start = some (outside depth) := by
  induction start with
  | nil => rfl
  | cons c start ih =>
      have hc := hquiet c (by simp)
      simp only [loud, List.mem_cons, List.not_mem_nil, or_false, not_or] at hc
      obtain ⟨-, -, hopen, hclose, hsingle, hdouble, hback, hbracket⟩ := hc
      have hquote : quoteCloser? c = none := by
        simp [quoteCloser?, wordCloser?, hsingle, hdouble, hback, hbracket]
      rw [pass_cons_outside hquote hopen hclose]
      exact ih fun d hd => hquiet d (by simp [hd])

theorem pass_leftParen (depth : Nat) :
    (outside depth).pass ['('] = some (outside (depth + 1)) := by
  simp [pass, closesAt, after, outside, quoteCloser?, wordCloser?, backtick]

theorem pass_rightParen (depth : Nat) :
    (outside depth).pass [')'] = if depth = 1 then none else some (outside (depth - 1)) := by
  simp [pass, closesAt, after, outside, quoteCloser?, wordCloser?, backtick]

theorem pass_opener {c closer : Char} (hcloser : quoteCloser? c = some closer)
    (depth : Nat) (rest : List Char) :
    (outside depth).pass (c :: rest) = pass ⟨depth, some closer⟩ rest := by
  have hc : c ≠ ')' := by
    rintro rfl
    cases hcloser
  simp [pass, closesAt, after, outside, hcloser, hc]

theorem pass_inside {c closer : Char} (hc : c ≠ closer) (depth : Nat) (rest : List Char) :
    pass ⟨depth, some closer⟩ (c :: rest) = pass ⟨depth, some closer⟩ rest := by
  simp [pass, closesAt, after, hc]

theorem pass_closer (closer : Char) (depth : Nat) (rest : List Char) :
    pass ⟨depth, some closer⟩ (closer :: rest) = (outside depth).pass rest := by
  simp [pass, closesAt, after, outside]

/-- The cut sees a doubled quote as an end and a new beginning, so it leaves the
quoted text where the lexer does. -/
theorem pass_quotedBody {closer : Char} {text content left : List Char}
    (hread : quotedBody closer text = some (content, left))
    (hreopen : quoteCloser? closer = some closer ∨ closer ∉ content) :
    ∃ taken, text = taken ++ left ∧
      ∀ depth, pass ⟨depth, some closer⟩ taken = some (outside depth) := by
  fun_induction quotedBody closer text generalizing content with
  | case1 => cases hread
  | case2 =>
      cases hread
      exact ⟨[closer], rfl, fun depth => pass_closer closer depth []⟩
  | case3 => cases hread
  | case4 c d rest hc ih =>
      obtain ⟨content', hbody, rfl⟩ := map_cons_eq_some.mp hread
      have hrest : quoteCloser? closer = some closer ∨ closer ∉ content' :=
        hreopen.imp_right fun h hmem => h (List.mem_cons_of_mem c hmem)
      obtain ⟨taken, htaken, hpass⟩ := ih hbody hrest
      refine ⟨c :: taken, by rw [htaken, List.cons_append], fun depth => ?_⟩
      rw [pass_inside hc]
      exact hpass depth
  | case5 c rest hc ih =>
      obtain ⟨content', hbody, rfl⟩ := map_cons_eq_some.mp hread
      rw [not_not.mp hc] at hreopen ⊢
      have hself : quoteCloser? closer = some closer :=
        hreopen.resolve_right fun h => h (by simp)
      obtain ⟨taken, rfl, hpass⟩ := ih hbody (Or.inl hself)
      refine ⟨closer :: closer :: taken, rfl, fun depth => ?_⟩
      rw [pass_closer, pass_opener hself]
      exact hpass depth
  | case6 c d rest hc hd =>
      cases hread
      rw [not_not.mp hc]
      exact ⟨[closer], rfl, fun depth => pass_closer closer depth []⟩

/-- Whether a backslash takes a quote with it. -/
def takesQuote : List Char → Bool
  | '\\' :: c :: rest => c == '\'' || takesQuote rest
  | _ :: rest => takesQuote rest
  | [] => false

theorem takesQuote_cons {c : Char} (hc : c ≠ '\\') (rest : List Char) :
    takesQuote (c :: rest) = takesQuote rest := by
  rw [takesQuote.eq_2]
  rintro d rest' rfl -
  exact hc rfl

/-- The cut knows no backslashes, so it leaves the literal where the lexer does
if no quote is escaped by one. -/
theorem pass_slashedBody {text content left : List Char}
    (hread : slashedBody text = some (content, left)) :
    ∃ taken, text = taken ++ left ∧ (takesQuote taken = false →
      ∀ depth, pass ⟨depth, some '\''⟩ taken = some (outside depth)) := by
  fun_induction slashedBody text generalizing content with
  | case1 => cases hread
  | case2 rest ih =>
      obtain ⟨content', hbody, -⟩ := map_cons_eq_some.mp hread
      obtain ⟨taken, rfl, hpass⟩ := ih hbody
      refine ⟨'\'' :: '\'' :: taken, rfl, fun hquote depth => ?_⟩
      rw [takesQuote_cons (by decide), takesQuote_cons (by decide)] at hquote
      rw [pass_closer, pass_opener rfl]
      exact hpass hquote depth
  | case3 =>
      cases hread
      exact ⟨['\''], rfl, fun _ depth => pass_closer '\'' depth []⟩
  | case4 c rest ih =>
      obtain ⟨content', hbody, -⟩ := map_cons_eq_some.mp hread
      obtain ⟨taken, rfl, hpass⟩ := ih hbody
      refine ⟨'\\' :: c :: taken, rfl, fun hquote depth => ?_⟩
      rw [takesQuote, Bool.or_eq_false_iff, beq_eq_false_iff_ne] at hquote
      rw [pass_inside (by decide), pass_inside hquote.1]
      exact hpass hquote.2 depth
  | case5 c rest _ hc hslash ih =>
      obtain ⟨content', hbody, -⟩ := map_cons_eq_some.mp hread
      obtain ⟨taken, rfl, hpass⟩ := ih hbody
      have hc' : c ≠ '\\' := by
        rintro rfl
        cases taken with
        | nil => exact @slashedBody_ne_keep left [] content' hbody
        | cons d taken => exact hslash d (taken ++ left) rfl rfl
      refine ⟨c :: taken, rfl, fun hquote depth => ?_⟩
      rw [takesQuote_cons hc'] at hquote
      rw [pass_inside hc]
      exact hpass hquote depth

end Nesting

theorem split_append (text : List Char) : (split text).1 ++ (split text).2 = text := by
  rw [split, cutAfterList?]
  cases hcut : cutFrom {} text with
  | none => exact List.append_nil text
  | some cut => exact Nesting.append_of_cutFrom hcut

end Statement

namespace Lexeme

open Statement

variable {lexeme : Lexeme}

/-- The cut sees of the lexeme the parenthesis that it is, or nothing.  What
stands between quotes it must pass over as a whole. -/
def AgreesWithCut (lexeme : Lexeme) : Prop :=
  ∀ depth, (Nesting.outside depth).pass lexeme.text = Nesting.afterToken depth lexeme.token

/-- A lexeme that the cut and the lexer understand in the same way, whatever
follows it, and that can be written again. -/
structure IsPlain (lexeme : Lexeme) : Prop where
  not_comment : lexeme.token ≠ .comment
  not_national : ∀ content, lexeme.token ≠ .national content
  not_escaped : ∀ content, lexeme.token ≠ .escaped content
  /-- A hexadecimal literal is one without quotes. -/
  not_quoted_hexadecimal : ∀ content, lexeme.token = .hexadecimal content →
    lexeme.text.head? ≠ some 'X' ∧ lexeme.text.head? ≠ some 'x'
  not_doubled_bracket : ∀ content, lexeme.token = .word content true →
    lexeme.text.head? = some '[' → ']' ∉ content

instance (lexeme : Lexeme) : Decidable lexeme.IsPlain :=
  match lexeme with
  | ⟨.comment, _⟩ => isFalse fun hplain => hplain.not_comment rfl
  | ⟨.national _, _⟩ => isFalse fun hplain => hplain.not_national _ rfl
  | ⟨.escaped _, _⟩ => isFalse fun hplain => hplain.not_escaped _ rfl
  | ⟨.hexadecimal _, text⟩ =>
    decidable_of_iff (text.head? ≠ some 'X' ∧ text.head? ≠ some 'x')
      ⟨fun hhead => by constructor <;> simp_all, fun hplain => hplain.not_quoted_hexadecimal _ rfl⟩
  | ⟨.word content true, text⟩ =>
    decidable_of_iff (text.head? = some '[' → ']' ∉ content)
      ⟨fun hhead => by constructor <;> simp_all, fun hplain => hplain.not_doubled_bracket _ rfl⟩
  | ⟨.word _ false, _⟩ | ⟨.blank, _⟩ | ⟨.string _, _⟩ | ⟨.number, _⟩ | ⟨.placeholder, _⟩
  | ⟨.period, _⟩ | ⟨.comma, _⟩ | ⟨.leftParen, _⟩ | ⟨.rightParen, _⟩ | ⟨.unequal, _⟩
  | ⟨.symbol, _⟩ => isTrue (by constructor <;> simp)

theorem IsPlain.isMovable (hplain : lexeme.IsPlain) : lexeme.IsMovable :=
  ⟨hplain.not_comment, hplain.not_escaped⟩

def isSlashed (lexeme : Lexeme) : Bool :=
  match lexeme.token with
  | .national _ => true
  | .hexadecimal _ => lexeme.text.head? == some 'X' || lexeme.text.head? == some 'x'
  | _ => false

/-- Whether the lexeme is a literal in which a backslash takes a quote with it.  The lexer
reads on there, and the cut does not. -/
def escapesQuote (lexeme : Lexeme) : Bool :=
  lexeme.isSlashed && Nesting.takesQuote lexeme.text

/-- A lexeme of a kind that the cut can follow: no comment, no literal `E'..'`, and no word
in brackets with a closing bracket inside. -/
structure IsOrdinary (lexeme : Lexeme) : Prop where
  not_comment : lexeme.token ≠ .comment
  not_escaped : ∀ content, lexeme.token ≠ .escaped content
  not_doubled_bracket : ∀ content, lexeme.token = .word content true →
    lexeme.text.head? = some '[' → ']' ∉ content

instance (lexeme : Lexeme) : Decidable lexeme.IsOrdinary :=
  match lexeme with
  | ⟨.comment, _⟩ => isFalse fun hordinary => hordinary.not_comment rfl
  | ⟨.escaped _, _⟩ => isFalse fun hordinary => hordinary.not_escaped _ rfl
  | ⟨.word content true, text⟩ =>
    decidable_of_iff (text.head? = some '[' → ']' ∉ content)
      ⟨fun hhead => by constructor <;> simp_all,
       fun hordinary => hordinary.not_doubled_bracket _ rfl⟩
  | ⟨.word _ false, _⟩ | ⟨.national _, _⟩ | ⟨.hexadecimal _, _⟩ | ⟨.blank, _⟩ | ⟨.string _, _⟩
  | ⟨.number, _⟩ | ⟨.placeholder, _⟩ | ⟨.period, _⟩ | ⟨.comma, _⟩ | ⟨.leftParen, _⟩
  | ⟨.rightParen, _⟩ | ⟨.unequal, _⟩ | ⟨.symbol, _⟩ => isTrue (by constructor <;> simp)

theorem IsOrdinary.isMovable (hordinary : lexeme.IsOrdinary) : lexeme.IsMovable :=
  ⟨hordinary.not_comment, hordinary.not_escaped⟩

theorem IsPlain.isOrdinary (hplain : lexeme.IsPlain) : lexeme.IsOrdinary :=
  ⟨hplain.not_comment, hplain.not_escaped, hplain.not_doubled_bracket⟩

theorem IsPlain.not_escapesQuote (hplain : lexeme.IsPlain) : ¬lexeme.escapesQuote := by
  have hslashed : lexeme.isSlashed = false := by
    unfold isSlashed
    split
    · exact absurd ‹_› (hplain.not_national _)
    · simpa using hplain.not_quoted_hexadecimal _ ‹_›
    · rfl
  simp [escapesQuote, hslashed]

theorem afterToken_of_isCompound {token : Token} (htoken : isCompound token) (depth : Nat) :
    Nesting.afterToken depth token = some (.outside depth) := by
  cases token <;> first | rfl | cases htoken

theorem afterToken_separatorToken_of_ne {c : Char} (hopen : c ≠ '(') (hclose : c ≠ ')')
    (depth : Nat) : Nesting.afterToken depth (separatorToken c) = some (.outside depth) := by
  simp only [separatorToken, punctuation, if_neg hopen, if_neg hclose]
  split
  · rfl
  · split <;> rfl

/-- A literal without an escaped quote ends for the cut where it does for the
lexer, with the letter in front of it. -/
theorem pass_slashedLiteral {c : Char} {body rest content left : List Char}
    (hc : c ∈ ['N', 'n', 'X', 'x']) (htext : body ++ left = '\'' :: rest)
    (hread : slashedBody rest = some (content, left))
    (hquote : Nesting.takesQuote (c :: body) = false) (depth : Nat) :
    (Nesting.outside depth).pass (c :: body) = some (.outside depth) := by
  obtain ⟨taken, rfl, hpass⟩ := Nesting.pass_slashedBody hread
  rw [← List.cons_append] at htext
  rw [List.append_cancel_right htext] at hquote ⊢
  have hletter : ∀ d ∈ ['N', 'n', 'X', 'x'],
      quoteCloser? d = none ∧ d ≠ '(' ∧ d ≠ ')' ∧ d ≠ '\\' := by
    decide
  obtain ⟨hcloser, hopen, hclose, hslash⟩ := hletter c hc
  rw [Nesting.takesQuote_cons hslash, Nesting.takesQuote_cons (by decide)] at hquote
  rw [Nesting.pass_cons_outside hcloser hopen hclose, Nesting.pass_opener rfl]
  exact hpass hquote depth

/-- The cases are the ways in which a lexeme is read.  Quiet lexemes, marks and
quoted ones each agree with the cut for a reason of their own. -/
theorem agreesWithCut_of_scan {c : Char} {body left : List Char} {token : Token}
    (hscan : scan c (body ++ left) = some (token, left))
    (hordinary : (⟨token, c :: body⟩ : Lexeme).IsOrdinary)
    (hescapes : ¬(⟨token, c :: body⟩ : Lexeme).escapesQuote) :
    (⟨token, c :: body⟩ : Lexeme).AgreesWithCut := by
  intro depth
  have hscans := scan_eq_some_iff.mp hscan
  generalize hbody : body ++ left = rest at hscans
  cases hscans with
  | national hc hread =>
      have htakes : Nesting.takesQuote (c :: body) = false := by
        simpa [escapesQuote, isSlashed] using hescapes
      rcases hc with rfl | rfl <;> exact pass_slashedLiteral (by decide) hbody hread htakes depth
  | hexadecimal hc hread =>
      have htakes : Nesting.takesQuote (c :: body) = false := by
        simpa [escapesQuote, isSlashed, hc] using hescapes
      rcases hc with rfl | rfl <;> exact pass_slashedLiteral (by decide) hbody hread htakes depth
  | escaped => exact absurd rfl (hordinary.not_escaped _)
  | string hc hread =>
      obtain ⟨taken, rfl, hpass⟩ := Nesting.pass_quotedBody hread (Or.inl rfl)
      rw [hc, List.append_cancel_right hbody]
      exact (Nesting.pass_opener rfl depth taken).trans (hpass depth)
  | quotedWord hcloser hread =>
      rename_i content closer
      have hc := wordCloser?_eq_some_iff.mp hcloser
      -- A doubled quote opens again what it has closed, except for a bracket.
      have hreopen : quoteCloser? closer = some closer ∨ closer ∉ content := by
        rcases hc with ⟨-, rfl⟩ | ⟨-, rfl⟩ | ⟨rfl, rfl⟩
        · exact Or.inl rfl
        · exact Or.inl rfl
        · exact Or.inr (hordinary.not_doubled_bracket content rfl rfl)
      have hopener : quoteCloser? c = some closer := by
        rcases hc with ⟨rfl, rfl⟩ | ⟨rfl, rfl⟩ | ⟨rfl, rfl⟩ <;> rfl
      obtain ⟨taken, rfl, hpass⟩ := Nesting.pass_quotedBody hread hreopen
      rw [List.append_cancel_right hbody]
      exact (Nesting.pass_opener hopener depth taken).trans (hpass depth)
  | lineComment => exact absurd rfl hordinary.not_comment
  | blockComment => exact absurd rfl hordinary.not_comment
  | plain hquote hcloser _ _ _ hread =>
      rcases quietUpTo_scanPlain hread with ⟨⟨taken, htaken, hquiet⟩, htoken⟩ | ⟨hleft, rfl⟩
      · rw [← hbody, ← List.cons_append] at htaken
        rw [← List.append_cancel_right htaken] at hquiet
        rw [afterToken_of_isCompound htoken]
        exact Nesting.pass_quiet hquiet depth
      · have hnil : body = [] := by simpa [hleft] using hbody
        rw [hnil]
        by_cases hopen : c = '('
        · rw [hopen]
          exact Nesting.pass_leftParen depth
        by_cases hclose : c = ')'
        · rw [hclose]
          exact Nesting.pass_rightParen depth
        · rw [afterToken_separatorToken_of_ne hopen hclose]
          have hnone : quoteCloser? c = none := by simp [quoteCloser?, hquote, hcloser]
          exact Nesting.pass_cons_outside hnone hopen hclose depth []

/-- The ordinary lexemes of a text agree with the cut if they escape no quote. -/
theorem agreesWithCut_of_isOrdinary {text : List Char} {lexemes : List Lexeme}
    (hread : lex text = some lexemes) (hmem : lexeme ∈ lexemes)
    (hordinary : lexeme.IsOrdinary) (hescapes : ¬lexeme.escapesQuote) : lexeme.AgreesWithCut := by
  obtain ⟨c, body, left, htext, hscan, -⟩ := exists_scan_of_mem hread hmem
  have hlexeme : lexeme = ⟨lexeme.token, c :: body⟩ := by rw [← htext]
  rw [hlexeme] at hordinary hescapes ⊢
  exact agreesWithCut_of_scan hscan hordinary hescapes

/-- The plain lexemes of a text agree with the cut. -/
theorem agreesWithCut_of_mem {text : List Char} {lexemes : List Lexeme}
    (hread : lex text = some lexemes) (hmem : lexeme ∈ lexemes) (hplain : lexeme.IsPlain) :
    lexeme.AgreesWithCut :=
  agreesWithCut_of_isOrdinary hread hmem hplain.isOrdinary hplain.not_escapesQuote

end Lexeme

end CreateIndex
