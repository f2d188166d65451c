import CreateIndex.Text.Basic

/-!
# Bodies of quoted texts

The part of a quoted word or a string after its opening quote.  There are three kinds: text in
which a closing quote is doubled, the strings `N'..'` and `X'..'` with escapes of one character,
and the string `E'..'` with escapes for code points and bytes.
-/

namespace CreateIndex.Lexeme

open Text

/-! ## Doubled quotes

A doubled closing quote stands for one such character; a single one ends the text.
-/

def backtick : Char := '\x60'

/-- The character that closes a quoted word, by the one that opens it. -/
def wordCloser? (opener : Char) : Option Char :=
  if opener = '"' ∨ opener = backtick then some opener
  else if opener = '[' then some ']'
  else none

/-- Reads up to the closing quote and gives the content and the rest, or nothing if the
quote is never closed. -/
def quotedBody (closer : Char) : List Char → Option (List Char × List Char)
  | [] => none
  | [c] => if c = closer then some ([], []) else none
  | c :: d :: rest =>
    if c ≠ closer then
      (quotedBody closer (d :: rest)).map fun (content, left) => (c :: content, left)
    else if d = closer then
      (quotedBody closer rest).map fun (content, left) => (c :: content, left)
    else some ([], d :: rest)

/-- A quoted body is taken from the front of the text, so that reading can go on
with what it leaves. -/
theorem quotedBody_suffix {closer : Char} {text content left : List Char}
    (hread : quotedBody closer text = some (content, left)) : left <:+ text := by
  fun_induction quotedBody closer text generalizing content with
  | case1 => simp at hread
  | case2 => simp_all
  | case3 => simp at hread
  | case4 c d rest hclose ih =>
      obtain ⟨⟨content', left'⟩, hbody, heq⟩ := Option.map_eq_some_iff.mp hread
      simp only [Prod.mk.injEq] at heq
      obtain ⟨_, rfl⟩ := heq
      exact (ih hbody).trans (List.suffix_cons c _)
  | case5 c rest hclose ih =>
      obtain ⟨⟨content', left'⟩, hbody, heq⟩ := Option.map_eq_some_iff.mp hread
      simp only [Prod.mk.injEq] at heq
      obtain ⟨_, rfl⟩ := heq
      exact (ih hbody).trans ((List.suffix_cons _ _).trans (List.suffix_cons c _))
  | case6 c d rest hclose hdouble =>
      simp only [Option.some.injEq, Prod.mk.injEq] at hread
      obtain ⟨_, rfl⟩ := hread
      exact List.suffix_cons c _

/-! ## Escapes of one character

A backslash takes the next character with it, whatever that is, so that a quote after it does not
end the string.
-/

def slashEscapes : List (Char × Char) :=
  [('0', '\x00'), ('a', '\x07'), ('b', '\x08'), ('f', '\x0c'), ('n', '\n'), ('r', '\r'),
   ('t', '\t'), ('Z', '\x1a')]

/-- What a character stands for after a backslash.  Most stand for themselves. -/
def slashed (c : Char) : Char :=
  (slashEscapes.lookup c).getD c

/-- Reads up to the closing quote and gives the decoded content and the rest, or nothing
if the quote is never closed. -/
def slashedBody : List Char → Option (List Char × List Char)
  | [] => none
  | '\'' :: '\'' :: rest =>
    (slashedBody rest).map fun (content, left) => ('\'' :: content, left)
  | '\'' :: rest => some ([], rest)
  | '\\' :: c :: rest =>
    (slashedBody rest).map fun (content, left) => (slashed c :: content, left)
  | c :: rest => (slashedBody rest).map fun (content, left) => (c :: content, left)

theorem slashedBody_suffix {text content left : List Char}
    (hread : slashedBody text = some (content, left)) : left <:+ text := by
  fun_induction slashedBody text generalizing content with
  | case1 => simp at hread
  | case2 rest ih =>
      obtain ⟨⟨content', left'⟩, hbody, heq⟩ := Option.map_eq_some_iff.mp hread
      simp only [Prod.mk.injEq] at heq
      obtain ⟨_, rfl⟩ := heq
      exact (ih hbody).trans ((List.suffix_cons _ _).trans (List.suffix_cons _ _))
  | case3 rest =>
      simp only [Option.some.injEq, Prod.mk.injEq] at hread
      obtain ⟨_, rfl⟩ := hread
      exact List.suffix_cons _ _
  | case4 c rest ih =>
      obtain ⟨⟨content', left'⟩, hbody, heq⟩ := Option.map_eq_some_iff.mp hread
      simp only [Prod.mk.injEq] at heq
      obtain ⟨_, rfl⟩ := heq
      exact (ih hbody).trans ((List.suffix_cons _ _).trans (List.suffix_cons _ _))
  | case5 c rest _ _ _ ih =>
      obtain ⟨⟨content', left'⟩, hbody, heq⟩ := Option.map_eq_some_iff.mp hread
      simp only [Prod.mk.injEq] at heq
      obtain ⟨_, rfl⟩ := heq
      exact (ih hbody).trans (List.suffix_cons _ _)

/-! ## Escapes of several characters

A backslash starts an escape: a letter for a control character, the code point of a character, or
the value of a byte.
-/

def controlEscapes : List (Char × Char) :=
  [('b', '\x08'), ('f', '\x0c'), ('n', '\n'), ('r', '\r'), ('t', '\t')]

/-- The character with the code point written in the next `count` characters, which are
hexadecimal digits after an optional plus sign. -/
def codePointEscape (count : Nat) (text : List Char) : Option (Char × List Char) := do
  let written := text.take count
  if written.length < count then none
  else
    let digits := if written.head? = some '+' then written.tail else written
    let code ← numeral? 16 digits
    let c ← charOfCode? code
    some (c, text.drop count)

/-- The character whose byte is written by the digits at the front of the text, at most
`count` of them.  Of a larger value only the low byte counts, and it has to be ASCII. -/
def byteEscape (base count : Nat) (isDigit : Char → Bool) (text : List Char) :
    Option (Char × List Char) := do
  let digits := (text.take count).takeWhile isDigit
  let value ← numeral? base digits
  if value % 256 ≤ 127 then
    some (Char.ofNat (value % 256), text.drop digits.length)
  else none

/-- Reads what follows a backslash. -/
def escape : List Char → Option (Char × List Char)
  | [] => none
  | c :: rest =>
    match controlEscapes.lookup c with
    | some control => some (control, rest)
    | none =>
      if c = 'u' then codePointEscape 4 rest
      else if c = 'U' then codePointEscape 8 rest
      else if c = 'x' ∧ rest.head?.any isHexDigit then byteEscape 16 2 isHexDigit rest
      else if isOctalDigit c then byteEscape 8 3 isOctalDigit (c :: rest)
      else some (c, rest)

theorem codePointEscape_suffix {count : Nat} {text left : List Char} {c : Char}
    (hread : codePointEscape count text = some (c, left)) : left <:+ text := by
  simp only [codePointEscape] at hread
  split at hread
  · simp at hread
  · simp only [Option.bind_eq_bind, Option.bind_eq_some_iff, Option.some.injEq,
      Prod.mk.injEq] at hread
    obtain ⟨_, _, _, _, _, rfl⟩ := hread
    exact List.drop_suffix _ _

theorem byteEscape_suffix {base count : Nat} {isDigit : Char → Bool}
    {text left : List Char} {c : Char}
    (hread : byteEscape base count isDigit text = some (c, left)) : left <:+ text := by
  simp only [byteEscape, Option.bind_eq_bind, Option.bind_eq_some_iff] at hread
  obtain ⟨_, _, hleft⟩ := hread
  split at hleft
  · simp only [Option.some.injEq, Prod.mk.injEq] at hleft
    obtain ⟨_, rfl⟩ := hleft
    exact List.drop_suffix _ _
  · simp at hleft

theorem escape_suffix {text left : List Char} {c : Char}
    (hread : escape text = some (c, left)) : left <:+ text := by
  cases text with
  | nil => simp [escape] at hread
  | cons d rest =>
      simp only [escape] at hread
      split at hread
      · simp only [Option.some.injEq, Prod.mk.injEq] at hread
        obtain ⟨_, rfl⟩ := hread
        exact List.suffix_cons d _
      · split at hread
        · exact (codePointEscape_suffix hread).trans (List.suffix_cons d _)
        · split at hread
          · exact (codePointEscape_suffix hread).trans (List.suffix_cons d _)
          · split at hread
            · exact (byteEscape_suffix hread).trans (List.suffix_cons d _)
            · split at hread
              · exact byteEscape_suffix hread
              · simp only [Option.some.injEq, Prod.mk.injEq] at hread
                obtain ⟨_, rfl⟩ := hread
                exact List.suffix_cons d _

/-- Reads up to the closing quote and gives the decoded content and the rest.  There is
nothing to read if the quote is never closed, an escape is malformed, or an escape
stands for the character NUL. -/
def escapedBody (text : List Char) : Option (List Char × List Char) :=
  match text with
  | [] => none
  | '\'' :: '\'' :: rest =>
    (escapedBody rest).map fun (content, left) => ('\'' :: content, left)
  | '\'' :: rest => some ([], rest)
  | '\\' :: rest =>
    match _hread : escape rest with
    | none => none
    | some (c, left) =>
      if c = '\x00' then none
      else (escapedBody left).map fun (content, left) => (c :: content, left)
  | c :: rest => (escapedBody rest).map fun (content, left) => (c :: content, left)
termination_by text.length
decreasing_by
  · simp only [List.length_cons]
    omega
  · have := (escape_suffix _hread).length_le
    simp only [List.length_cons]
    omega
  · simp only [List.length_cons]
    omega

/-- A body with escapes of every kind is taken from the front of the text too.
What an escape stands for may be longer or shorter than the escape. -/
theorem escapedBody_suffix {text content left : List Char}
    (hread : escapedBody text = some (content, left)) : left <:+ text := by
  fun_induction escapedBody text generalizing content with
  | case1 => simp at hread
  | case2 rest ih =>
      obtain ⟨⟨content', left'⟩, hbody, heq⟩ := Option.map_eq_some_iff.mp hread
      simp only [Prod.mk.injEq] at heq
      obtain ⟨_, rfl⟩ := heq
      exact (ih hbody).trans ((List.suffix_cons _ _).trans (List.suffix_cons _ _))
  | case3 rest =>
      simp only [Option.some.injEq, Prod.mk.injEq] at hread
      obtain ⟨_, rfl⟩ := hread
      exact List.suffix_cons _ _
  | case4 => simp at hread
  | case5 => simp at hread
  | case6 rest c left' hescape hnull ih =>
      obtain ⟨⟨content', left''⟩, hbody, heq⟩ := Option.map_eq_some_iff.mp hread
      simp only [Prod.mk.injEq] at heq
      obtain ⟨_, rfl⟩ := heq
      exact (ih hbody).trans ((escape_suffix hescape).trans (List.suffix_cons _ _))
  | case7 c rest _ _ _ ih =>
      obtain ⟨⟨content', left'⟩, hbody, heq⟩ := Option.map_eq_some_iff.mp hread
      simp only [Prod.mk.injEq] at heq
      obtain ⟨_, rfl⟩ := heq
      exact (ih hbody).trans (List.suffix_cons _ _)

end CreateIndex.Lexeme
