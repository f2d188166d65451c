import CreateIndex.Descriptor.Basic
import CreateIndex.Lexeme.Scan
import CreateIndex.Text.Basic

/-!
# Reading lexemes

Readers take lexemes from the front of those that are left.  A reader that fails leaves what it
has not taken, so that another one can go on from there; nothing is taken back.  Blanks and
comments before a lexeme are passed over with it.
-/

namespace CreateIndex.Statement

open Text

/-- Gives a result, or nothing on failure, and the lexemes that are left. -/
def Reading (α : Type) : Type :=
  List Lexeme → Option α × List Lexeme

namespace Reading

variable {α β : Type}

instance : Monad Reading where
  pure a := fun lexemes => (some a, lexemes)
  bind read next := fun lexemes =>
    match read lexemes with
    | (some a, left) => next a left
    | (none, left) => (none, left)

/-- Takes the next lexeme if it is accepted, and fails without taking it if not. -/
def one (accept : Lexeme → Option α) : Reading α := fun lexemes =>
  match lexemes.dropWhile Lexeme.isBlank with
  | [] => (none, lexemes)
  | lexeme :: rest =>
    match accept lexeme with
    | some a => (some a, rest)
    | none => (none, lexemes)

/-- A reader that repeats a step which takes a lexeme comes to an end. -/
theorem one_length_lt {accept : Lexeme → Option α} {lexemes left : List Lexeme} {a : α}
    (hread : one accept lexemes = (some a, left)) : left.length < lexemes.length := by
  simp only [one] at hread
  split at hread
  · simp at hread
  · rename_i lexeme rest hnext
    have hle : (lexeme :: rest).length ≤ lexemes.length :=
      hnext ▸ (List.dropWhile_suffix Lexeme.isBlank).length_le
    split at hread
    · simp only [Prod.mk.injEq] at hread
      obtain ⟨_, rfl⟩ := hread
      exact hle
    · simp at hread

def token (expected : Token) : Reading Unit :=
  one fun lexeme => if lexeme.token = expected then some () else none

def keyword (spelling : String) : Reading Unit :=
  one fun lexeme => if lexeme.isKeyword spelling then some () else none

def keyword? (spelling : String) : Reading Bool := fun lexemes =>
  match keyword spelling lexemes with
  | (some _, left) => (some true, left)
  | (none, left) => (some false, left)

def identifier : Reading (List Char) :=
  one Lexeme.identifier?

/-- Takes the parts of a name that follow its first one, each after a period. -/
def furtherParts (lexemes : List Lexeme) : Option (List (List Char)) × List Lexeme :=
  match _hperiod : token .period lexemes with
  | (none, left) => (some [], left)
  | (some _, left) =>
    match _hpart : identifier left with
    | (none, left') => (none, left')
    | (some part, left') =>
      match furtherParts left' with
      | (some parts, left'') => (some (part :: parts), left'')
      | (none, left'') => (none, left'')
termination_by lexemes.length
decreasing_by
  have := one_length_lt _hperiod
  have := one_length_lt _hpart
  omega

def nameParts : Reading (List (List Char)) := do
  let first ← identifier
  let further ← furtherParts
  return first :: further

/-- Fails unless only blanks and comments are left. -/
def ended : Reading Unit := fun lexemes =>
  (if lexemes.all Lexeme.isBlank then some () else none, lexemes)

end Reading

/-! ## Column lists

The lexemes between the parentheses of a column list are cut into entries at the commas
outside inner parentheses.  An entry ends with an optional collation and an optional
sort order, which are peeled off from the right; what is left is its name.  A single
identifier names a column, and anything else is an expression.
-/

def consFirst (lexeme : Lexeme) : List (List Lexeme) → List (List Lexeme)
  | [] => [[lexeme]]
  | entry :: entries => (lexeme :: entry) :: entries

/-- Cuts lexemes into entries, up to the parenthesis that closes the list, and gives the
entries and what follows that parenthesis.  `depth` counts the inner parentheses that are
open.  There is nothing to give if the list is never closed. -/
def cutEntries (depth : Nat) : List Lexeme → Option (List (List Lexeme) × List Lexeme)
  | [] => none
  | lexeme :: rest =>
    if lexeme.token = .rightParen ∧ depth = 0 then some ([[]], rest)
    else if lexeme.token = .comma ∧ depth = 0 then
      (cutEntries 0 rest).map fun (entries, left) => ([] :: entries, left)
    else
      let inner :=
        if lexeme.token = .leftParen then depth + 1
        else if lexeme.token = .rightParen then depth - 1
        else depth
      (cutEntries inner rest).map fun (entries, left) => (consFirst lexeme entries, left)

def trimBlanks (lexemes : List Lexeme) : List Lexeme :=
  trimWhile Lexeme.isBlank lexemes

/-- Splits the sort order from an entry.  A lone `ASC` or `DESC` is a name. -/
def peelSort (entry : List Lexeme) : List Lexeme × List Char :=
  match entry.getLast? with
  | none => (entry, [])
  | some last =>
    let before := trimBlanks entry.dropLast
    if (last.isKeyword "ASC" || last.isKeyword "DESC") && !before.isEmpty then
      (before, upper last.shown)
    else (entry, [])

/-- Splits the collation from an entry that has no sort order.  It has to follow a name
and the keyword `COLLATE`. -/
def peelCollation (entry : List Lexeme) : List Lexeme × List Char :=
  match entry.getLast?.bind Lexeme.identifier? with
  | none => (entry, [])
  | some collation =>
    let before := trimBlanks entry.dropLast
    let named := trimBlanks before.dropLast
    if before.getLast?.any (·.isKeyword "COLLATE") && !named.isEmpty then (named, collation)
    else (entry, [])

/-- The name that some lexemes spell, and whether it is an expression. -/
def entryName (lexemes : List Lexeme) : List Char × Bool :=
  match lexemes with
  | [lexeme] =>
    match lexeme.identifier? with
    | some name => (name, false)
    | none => (lexeme.shown, true)
  | _ => (Lexeme.sourceText lexemes, true)

/-- The column that an entry describes, unless its name is empty. -/
def column? (entry : List Lexeme) : Option Column :=
  let (unsorted, sort) := peelSort (trimBlanks entry)
  let (named, collate) := peelCollation unsorted
  let (name, isExpression) := entryName named
  if name = [] then none
  else some
    { name := String.ofList name
      collate := String.ofList collate
      sort := String.ofList sort
      isExpression }

end CreateIndex.Statement
