import CreateIndex.Text.Unicode

/-!
# Texts

The two ways in which a text loses its blanks, the parts of a dotted name, the values of written
numerals, and the pairs of surrogates that stand for one character.
-/

namespace CreateIndex.Text

/-! ## Trimming and squeezing

`trim` removes the blanks at both ends, and `squeeze` also turns every run of blanks inside into
one space.
-/

def dropEndWhile {α : Type} (p : α → Bool) (items : List α) : List α :=
  (items.reverse.dropWhile p).reverse

def trimWhile {α : Type} (p : α → Bool) (items : List α) : List α :=
  dropEndWhile p (items.dropWhile p)

def trim (text : List Char) : List Char :=
  trimWhile isBlank text

/-- Goes on after a word.  `gap` says that blanks have been passed since its end; they
become one space when another word starts, and nothing at the end of the text. -/
def squeezeAfter (gap : Bool) : List Char → List Char
  | [] => []
  | c :: rest =>
    if isBlank c then squeezeAfter true rest
    else if gap then ' ' :: c :: squeezeAfter false rest
    else c :: squeezeAfter false rest

/-- Turns every run of blanks into one space and removes the blanks at both ends. -/
def squeeze (text : List Char) : List Char :=
  squeezeAfter false (text.dropWhile isBlank)

/-! ## Dotted names

A dot always separates the parts of a name, also a dot that was typed between quotes.
-/

/-- The parts of a name, cut at every dot.  There is always at least one. -/
def dottedParts : List Char → List (List Char)
  | [] => [[]]
  | c :: rest =>
    if c = '.' then [] :: dottedParts rest else (dottedParts rest).modifyHead (c :: ·)

def joinDotted (parts : List (List Char)) : List Char :=
  ['.'].intercalate parts

/-- Splits a name at its last dot into a qualifier and the name proper.  Without a dot
the qualifier is empty. -/
def splitQualifier (name : List Char) : List Char × List Char :=
  let parts := dottedParts name
  (joinDotted parts.dropLast, parts.getLastD [])

/-! ## Numerals -/

def hexDigit? (c : Char) : Option Nat :=
  if c.isDigit then some (c.toNat - '0'.toNat)
  else if 'a' ≤ c ∧ c ≤ 'f' then some (c.toNat - 'a'.toNat + 10)
  else if 'A' ≤ c ∧ c ≤ 'F' then some (c.toNat - 'A'.toNat + 10)
  else none

def isHexDigit (c : Char) : Bool :=
  (hexDigit? c).isSome

def isOctalDigit (c : Char) : Bool :=
  '0' ≤ c && c ≤ '7'

/-- The value of a numeral, or nothing if one of its characters is no hexadecimal digit.
The most significant digit comes first. -/
def numeral? (base : Nat) (digits : List Char) : Option Nat :=
  digits.foldlM (fun value c => (hexDigit? c).map (base * value + ·)) 0

def charOfCode? (code : Nat) : Option Char :=
  if code.isValidChar then some (Char.ofNat code) else none

/-! ## Surrogates

A character above U+FFFF is written in UTF-16, and in the escapes of JSON, as a leading
and a trailing surrogate.
-/

def isLeadingSurrogate (unit : Nat) : Bool :=
  0xD800 ≤ unit && unit ≤ 0xDBFF

def isTrailingSurrogate (unit : Nat) : Bool :=
  0xDC00 ≤ unit && unit ≤ 0xDFFF

def joinSurrogates (leading trailing : Nat) : Char :=
  Char.ofNat (0x10000 + (leading - 0xD800) * 0x400 + (trailing - 0xDC00))

end CreateIndex.Text
