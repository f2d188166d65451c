import CreateIndex.Lexeme.Body
import CreateIndex.Text.Basic
import CreateIndex.Text.Unicode

/-!
# Lexemes

A lexeme is a piece of statement text together with the token it was read as.  `scan` reads one
lexeme, and `lex` reads a text lexeme by lexeme.  The text is a single line: blanks other than
the space have been squeezed out before.  Every lexeme takes at least one character, and
`flatMap_text_of_lex` says that no character is lost.
-/

namespace CreateIndex

/-! ## Tokens

Comments count as blanks.  A word is an identifier, whether quoted or bare, and so is a string in
single quotes; only a bare word can be a keyword.
-/

inductive Token where
  | blank
  | comment
  | word (name : List Char) (quoted : Bool)
  | string (content : List Char)
  | national (content : List Char)
  | hexadecimal (content : List Char)
  | escaped (content : List Char)
  | number
  | placeholder
  | period
  | comma
  | leftParen
  | rightParen
  | unequal
  | symbol
  deriving DecidableEq

/-- A token and the characters that it was read from. -/
structure Lexeme where
  token : Token
  text : List Char
  deriving DecidableEq

namespace Lexeme

open Text

/-- Blanks and comments, which may stand between any two other lexemes. -/
def isBlank (lexeme : Lexeme) : Bool :=
  match lexeme.token with
  | .blank | .comment => true
  | _ => false

def identifier? (lexeme : Lexeme) : Option (List Char) :=
  match lexeme.token with
  | .word name _ => some name
  | .string content => some content
  | _ => none

/-- Whether the lexeme is the keyword: a bare word whose upper-case form is `spelling`. -/
def isKeyword (spelling : String) (lexeme : Lexeme) : Bool :=
  match lexeme.token with
  | .word name false => Text.upper name == spelling.toList
  | _ => false

/-- The display form.  Literals show their decoded content between single quotes after
the letter of their kind, "unequal" has the one spelling `<>`, and all else is shown as
it was typed. -/
def shown (lexeme : Lexeme) : List Char :=
  match lexeme.token with
  | .national content => 'N' :: '\'' :: content ++ ['\'']
  | .hexadecimal content => 'X' :: '\'' :: content ++ ['\'']
  | .escaped content => 'E' :: '\'' :: content ++ ['\'']
  | .unequal => ['<', '>']
  | _ => lexeme.text

/-- The text from the first of some neighbouring lexemes to the last. -/
def sourceText (lexemes : List Lexeme) : List Char :=
  lexemes.flatMap text

/-! ## From text to lexemes -/

/-- A character that a bare word can start with: an ASCII letter, the underscore, or
any character from U+007F to U+FFFF. -/
def isWordStart (c : Char) : Bool :=
  c.isAlpha || c == '_' || ('\x7f' ≤ c && c ≤ '\uffff')

def isWordPart (c : Char) : Bool :=
  isWordStart c || c.isDigit

def isPlaceholderPart (c : Char) : Bool :=
  isAlphabetic c || isNumeric c || c == '_' || c == '$'

def skipOne (p : Char → Bool) (text : List Char) : List Char :=
  if text.head?.any p then text.tail else text

/-- Skips an exponent: the letter `e`, a sign if there is one, and at least one digit. -/
def skipExponent (text : List Char) : List Char :=
  let digits := skipOne (fun c => c == '+' || c == '-') text.tail
  if text.head?.any (fun c => c == 'e' || c == 'E') && digits.head?.any Char.isDigit then
    digits.dropWhile Char.isDigit
  else text

/-- Reads what starts with a digit or a point.  A point alone is a period, and `0x`
starts a hexadecimal literal. -/
def scanNumber (text : List Char) : Token × List Char :=
  let whole := text.takeWhile Char.isDigit
  let left := text.dropWhile Char.isDigit
  if whole = ['0'] ∧ left.head? = some 'x' then
    (.hexadecimal (left.tail.takeWhile isHexDigit), left.tail.dropWhile isHexDigit)
  else
    let fraction := (skipOne (· == '.') left).takeWhile Char.isDigit
    let left' := (skipOne (· == '.') left).dropWhile Char.isDigit
    if whole = [] ∧ fraction = [] then (.period, left')
    else (.number, skipOne (· == 'L') (skipExponent left'))

/-- Gives what follows the next `*/`, or nothing if the comment is never closed. -/
def afterComment : List Char → Option (List Char)
  | '*' :: '/' :: rest => some rest
  | _ :: rest => afterComment rest
  | [] => none

/-- The operators of more than one character.  No operator comes after one that it
starts with. -/
def operators : List String :=
  ["!~~*", "->>", "||/", "!~*", "!~~", "<=>", "~~*", "#>>", "->", "|/", "||", "=>", "==",
   "!=", "!!", "!~", "<=", "<>", "<<", "<@", ">=", ">>", "::", ":=", "&&", "^@", "~*",
   "~~", "#-", "#>", "@>", "@?", "@@"]

/-- Reads the longest operator at the front of the text. -/
def scanOperator? (text : List Char) : Option (Token × List Char) :=
  operators.findSome? fun operator =>
    (operator.toList.isPrefixOf? text).map fun left =>
      (if operator = "!=" ∨ operator = "<>" then .unequal else .symbol, left)

/-- The token of a character that belongs to no longer lexeme. -/
def punctuation (c : Char) : Token :=
  if c = '(' then .leftParen
  else if c = ')' then .rightParen
  else if c = ',' then .comma
  else .symbol

/-- Reads the part after an opening quote as a token of the given kind.  `read` gives the
content and what follows the closing quote. -/
def scanBody (kind : List Char → Token)
    (read : List Char → Option (List Char × List Char)) (body : List Char) :
    Option (Token × List Char) :=
  (read body).map fun (content, left) => (kind content, left)

def scanPlain (c : Char) (rest : List Char) : Token × List Char :=
  if c = ' ' then (.blank, rest)
  else if isWordStart c then
    (.word (c :: rest.takeWhile isWordPart) false, rest.dropWhile isWordPart)
  else if c.isDigit ∨ c = '.' then scanNumber (c :: rest)
  else if c = '?' then (.placeholder, rest.dropWhile isNumeric)
  else if c = '$' then (.placeholder, rest.dropWhile isPlaceholderPart)
  else (scanOperator? (c :: rest)).getD (punctuation c, rest)

/-- Reads the lexeme at the front of the text `c :: rest` and gives its token and what
follows it, or nothing if a string, a quoted word or a comment is never closed. -/
def scan (c : Char) (rest : List Char) : Option (Token × List Char) :=
  if rest.head? = some '\'' ∧ (c = 'N' ∨ c = 'n') then
    scanBody .national slashedBody rest.tail
  else if rest.head? = some '\'' ∧ (c = 'X' ∨ c = 'x') then
    scanBody .hexadecimal slashedBody rest.tail
  else if rest.head? = some '\'' ∧ (c = 'E' ∨ c = 'e') then
    scanBody .escaped escapedBody rest.tail
  else if c = '\'' then scanBody .string (quotedBody '\'') rest
  else match wordCloser? c with
    | some closer => scanBody (.word · true) (quotedBody closer) rest
    | none =>
      if c = '-' ∧ rest.head? = some '-' then some (.comment, [])
      else if c = '/' ∧ rest.head? = some '*' then
        (afterComment rest.tail).map fun left => (.comment, left)
      else some (scanPlain c rest)

/-! ## Every lexeme takes a character -/

theorem skipOne_suffix (p : Char → Bool) (text : List Char) : skipOne p text <:+ text := by
  simp only [skipOne]
  split
  · exact List.tail_suffix _
  · exact List.suffix_rfl

theorem skipExponent_suffix (text : List Char) : skipExponent text <:+ text := by
  simp only [skipExponent]
  split
  · exact (List.dropWhile_suffix _).trans ((skipOne_suffix _ _).trans (List.tail_suffix _))
  · exact List.suffix_rfl

theorem afterComment_suffix {text left : List Char}
    (hread : afterComment text = some left) : left <:+ text := by
  fun_induction afterComment text with
  | case1 rest =>
      cases hread
      exact (List.suffix_cons _ _).trans (List.suffix_cons _ _)
  | case2 c rest _ ih => exact (ih hread).trans (List.suffix_cons _ _)
  | case3 => simp at hread

theorem append_of_isPrefixOf? {start text left : List Char}
    (hread : start.isPrefixOf? text = some left) : start ++ left = text := by
  induction start generalizing text with
  | nil => exact (Option.some.inj hread).symm
  | cons c start ih =>
      cases text with
      | nil => cases hread
      | cons d rest =>
          change (if c == d then start.isPrefixOf? rest else none) = some left at hread
          split at hread
          · rename_i heq
            rw [List.cons_append, ih hread, beq_iff_eq.mp heq]
          · cases hread

/-- No operator is empty: its first character is gone, and the rest of the text
has lost what else belongs to it. -/
theorem scanOperator?_suffix {c : Char} {rest left : List Char} {token : Token}
    (hread : scanOperator? (c :: rest) = some (token, left)) : left <:+ rest := by
  obtain ⟨before, operator, after, hops, hfound, _⟩ := List.findSome?_eq_some_iff.mp hread
  have hmem : operator ∈ operators := by simp [hops]
  obtain ⟨left', hleft, heq⟩ := Option.map_eq_some_iff.mp hfound
  simp only [Prod.mk.injEq] at heq
  obtain ⟨_, rfl⟩ := heq
  have hne : operator.toList ≠ [] := by
    have : ∀ o ∈ operators, o.toList ≠ [] := by decide
    exact this operator hmem
  have happend : operator.toList ++ left' = c :: rest := append_of_isPrefixOf? hleft
  cases hlist : operator.toList with
  | nil => exact absurd hlist hne
  | cons d ds =>
      rw [hlist, List.cons_append, List.cons.injEq] at happend
      exact ⟨ds, happend.2⟩

theorem scanNumber_suffix {c : Char} {rest : List Char} (hstart : c.isDigit ∨ c = '.') :
    (scanNumber (c :: rest)).2 <:+ rest := by
  have hpoint : skipOne (· == '.') ((c :: rest).dropWhile Char.isDigit) <:+ rest := by
    rcases hstart with hdigit | rfl
    · rw [List.dropWhile_cons_of_pos hdigit]
      exact (skipOne_suffix _ _).trans (List.dropWhile_suffix _)
    · simp [skipOne, Char.isDigit]
  simp only [scanNumber]
  split
  · rename_i hhex
    have hdigit : c.isDigit := by
      cases hc : c.isDigit with
      | true => rfl
      | false => simp [hc] at hhex
    rw [List.dropWhile_cons_of_pos hdigit]
    exact (List.dropWhile_suffix _).trans
      ((List.tail_suffix _).trans (List.dropWhile_suffix _))
  · split
    · exact (List.dropWhile_suffix _).trans hpoint
    · exact (skipOne_suffix _ _).trans
        ((skipExponent_suffix _).trans ((List.dropWhile_suffix _).trans hpoint))

theorem scanPlain_suffix (c : Char) (rest : List Char) : (scanPlain c rest).2 <:+ rest := by
  simp only [scanPlain]
  split
  · exact List.suffix_rfl
  · split
    · exact List.dropWhile_suffix _
    · split
      · exact scanNumber_suffix ‹_›
      · split
        · exact List.dropWhile_suffix _
        · split
          · exact List.dropWhile_suffix _
          · cases hread : scanOperator? (c :: rest) with
            | none => exact List.suffix_rfl
            | some read => exact scanOperator?_suffix hread

theorem scanBody_suffix {kind : List Char → Token}
    {read : List Char → Option (List Char × List Char)} {body left : List Char}
    {token : Token}
    (hsuffix : ∀ {content left}, read body = some (content, left) → left <:+ body)
    (hread : scanBody kind read body = some (token, left)) : left <:+ body := by
  obtain ⟨⟨content, left'⟩, hbody, heq⟩ := Option.map_eq_some_iff.mp hread
  simp only [Prod.mk.injEq] at heq
  obtain ⟨_, rfl⟩ := heq
  exact hsuffix hbody

/-- Every lexeme takes at least the character it starts with, whatever its kind.
This is why reading lexeme by lexeme ends. -/
theorem scan_suffix {c : Char} {rest left : List Char} {token : Token}
    (hread : scan c rest = some (token, left)) : left <:+ rest := by
  simp only [scan] at hread
  split at hread
  · exact (scanBody_suffix slashedBody_suffix hread).trans (List.tail_suffix _)
  split at hread
  · exact (scanBody_suffix slashedBody_suffix hread).trans (List.tail_suffix _)
  split at hread
  · exact (scanBody_suffix escapedBody_suffix hread).trans (List.tail_suffix _)
  split at hread
  · exact scanBody_suffix quotedBody_suffix hread
  split at hread
  · exact scanBody_suffix quotedBody_suffix hread
  split at hread
  · simp only [Option.some.injEq, Prod.mk.injEq] at hread
    obtain ⟨_, rfl⟩ := hread
    exact List.nil_suffix
  split at hread
  · obtain ⟨left', hcomment, heq⟩ := Option.map_eq_some_iff.mp hread
    simp only [Prod.mk.injEq] at heq
    obtain ⟨_, rfl⟩ := heq
    exact (afterComment_suffix hcomment).trans (List.tail_suffix _)
  · simp only [Option.some.injEq] at hread
    have := scanPlain_suffix c rest
    rwa [hread] at this

/-! ## Reading a text -/

/-- Reads a text lexeme by lexeme, or gives nothing if some lexeme is left open. -/
def lex (text : List Char) : Option (List Lexeme) :=
  match text with
  | [] => some []
  | c :: rest =>
    match _hread : scan c rest with
    | none => none
    | some (token, left) =>
      (lex left).map (⟨token, (c :: rest).take (rest.length + 1 - left.length)⟩ :: ·)
termination_by text.length
decreasing_by
  have := (scan_suffix _hread).length_le
  simp only [List.length_cons]
  omega

/-- The texts of the lexemes make up the text that was read: nothing is skipped,
and nothing is read twice. -/
theorem flatMap_text_of_lex {text : List Char} {lexemes : List Lexeme}
    (hread : lex text = some lexemes) : lexemes.flatMap Lexeme.text = text := by
  fun_induction lex text generalizing lexemes with
  | case1 => cases hread; rfl
  | case2 => simp at hread
  | case3 c rest token left hscan ih =>
      obtain ⟨following, hfollowing, rfl⟩ := Option.map_eq_some_iff.mp hread
      obtain ⟨taken, htaken⟩ := scan_suffix hscan
      rw [List.flatMap_cons, ih hfollowing, ← htaken]
      have : taken.length + left.length + 1 - left.length = taken.length + 1 := by omega
      simp [this]

end Lexeme

end CreateIndex
