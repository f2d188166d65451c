import CreateIndex.Lexeme.Body
import CreateIndex.Text.Basic
import CreateIndex.Text.Unicode

/-!
# Head and trailer

The head of a statement ends with the parenthesis that closes its first parenthesised group; the
trailer is what follows.  The cut looks at parentheses and quotes alone, so it can be made before
the text is read lexeme by lexeme, and an unfinished string or comment in the trailer cannot
spoil the head.
-/

namespace CreateIndex.Statement

open Lexeme Text

/-- How deep in parentheses a position is, and the character that closes the quoted text
it is in. -/
structure Nesting where
  depth : Nat := 0
  closer : Option Char := none

def quoteCloser? (c : Char) : Option Char :=
  if c = '\'' then some c else wordCloser? c

/-- The nesting after one more character.  A parenthesis that closes nothing is passed
over. -/
def Nesting.after (nesting : Nesting) (c : Char) : Nesting :=
  match nesting.closer with
  | some closer => if c = closer then { nesting with closer := none } else nesting
  | none =>
    match quoteCloser? c with
    | some closer => { nesting with closer := some closer }
    | none =>
      if c = '(' then { nesting with depth := nesting.depth + 1 }
      else if c = ')' then { nesting with depth := nesting.depth - 1 }
      else nesting

def Nesting.closesAt (nesting : Nesting) (c : Char) : Bool :=
  nesting.closer.isNone && nesting.depth == 1 && c == ')'

/-- Cuts a text after the parenthesis that closes the outermost one, given the nesting at
its start. -/
def cutFrom (nesting : Nesting) : List Char → Option (List Char × List Char)
  | [] => none
  | c :: rest =>
    if nesting.closesAt c then some ([c], rest)
    else (cutFrom (nesting.after c) rest).map fun (head, trailer) => (c :: head, trailer)

/-- Cuts a text after its first parenthesised group, if that is closed. -/
def cutAfterList? (text : List Char) : Option (List Char × List Char) :=
  cutFrom {} text

/-- The head and the trailer of a statement.  Without a closed group all is head. -/
def split (text : List Char) : List Char × List Char :=
  (cutAfterList? text).getD (text, [])

/-! ## The trailer

It may have a `WHERE` clause, whose predicate is kept as it stands, and semicolons.  A keyword
that is still being typed counts as no clause.
-/

/-- A character that would make a longer word of the keyword before it. -/
def continuesWord (c : Char) : Bool :=
  isAlphabetic c || isNumeric c || c == '_'

def whereKeyword : List Char := "WHERE".toList

/-- The predicate that a trailer gives, empty if it gives none, or nothing if the trailer
is no clause.  The case of ASCII letters in the keyword does not matter. -/
def predicate? (trailer : List Char) : Option (List Char) :=
  let text := dropEndWhile (fun c => c == ';' || c == ' ') (trim trailer)
  let rest := text.drop whereKeyword.length
  if (text.map Char.toUpper).isPrefixOf whereKeyword then some []
  else if (text.take whereKeyword.length).map Char.toUpper = whereKeyword ∧
      ¬ rest.head?.any continuesWord then
    some (trim rest)
  else none

end CreateIndex.Statement
