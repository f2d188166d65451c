import CreateIndex.Text.Basic

/-!
# Reading JSON

A JSON reader takes a value from the front of a text.  The text is read from left to right, and
the first fault ends the reading.
-/

namespace CreateIndex.Json

open Text

inductive Fault where
  /-- The text breaks the grammar, or has a number that is out of range. -/
  | malformed
  /-- The text ends too early. -/
  | truncated
  /-- A value has not the wanted type, or a field is given twice. -/
  | mistyped
  deriving DecidableEq

/-- Takes a value from the front of a text and leaves the rest. -/
abbrev Reader := StateT (List Char) (Except Fault)

/-- The blanks that may stand between the tokens of JSON. -/
def isGap (c : Char) : Bool :=
  c == ' ' || c == '\t' || c == '\n' || c == '\r'

def skipGap : Reader Unit :=
  modify (·.dropWhile isGap)

/-- The next character, which stays in the text. -/
def peek : Reader (Option Char) := do
  return (← get).head?

/-- Skips blanks and gives the next character, which stays in the text. -/
def peekToken : Reader Char := do
  skipGap
  match ← peek with
  | some c => return c
  | none => throw .truncated

def skip : Reader Unit :=
  modify List.tail

def expect : List Char → Reader Unit
  | [] => return
  | c :: cs => do
    match ← peek with
    | none => throw .truncated
    | some next => if next = c then skip *> expect cs else throw .malformed

/-- Takes a whole text: a value with blanks around it and nothing else. -/
def readAll {α : Type} (read : Reader α) (text : List Char) : Except Fault α := do
  let (value, left) ← read.run text
  if left.all isGap then return value else throw .malformed

/-! ## What is left is a suffix -/

def LeavesSuffix {α : Type} (read : Reader α) : Prop :=
  ∀ text value left, read.run text = .ok (value, left) → left <:+ text

namespace LeavesSuffix

variable {α β : Type}

theorem pure (value : α) : LeavesSuffix (pure value : Reader α) := by
  intro text value' left hread
  cases hread
  exact List.suffix_rfl

theorem throw (fault : Fault) : LeavesSuffix (throw fault : Reader α) := by
  intro text value left hread
  cases hread

theorem get : LeavesSuffix (get : Reader (List Char)) := by
  intro text value left hread
  cases hread
  exact List.suffix_rfl

theorem modify {change : List Char → List Char} (hchange : ∀ text, change text <:+ text) :
    LeavesSuffix (modify change : Reader PUnit) := by
  intro text value left hread
  cases hread
  exact hchange text

/-- Readers in sequence leave a suffix if each of them does, so that a reader
made of such steps needs no argument of its own. -/
theorem bind {read : Reader α} {next : α → Reader β} (hread : LeavesSuffix read)
    (hnext : ∀ value, LeavesSuffix (next value)) : LeavesSuffix (read >>= next) := by
  intro text value left hrun
  cases hfirst : read.run text with
  | error fault =>
      rw [StateT.run_bind, hfirst] at hrun
      cases hrun
  | ok result =>
      rw [StateT.run_bind, hfirst] at hrun
      exact (hnext _ _ _ _ hrun).trans (hread _ _ _ hfirst)

theorem peek : LeavesSuffix peek :=
  get.bind fun _ => pure _

theorem skip : LeavesSuffix skip :=
  modify fun _ => List.tail_suffix _

theorem expect (cs : List Char) : LeavesSuffix (expect cs) := by
  induction cs with
  | nil => exact pure _
  | cons c cs ih =>
      refine peek.bind fun next => ?_
      cases next with
      | none => exact throw _
      | some d =>
          dsimp only
          split
          · exact skip.bind fun _ => ih
          · exact throw _

end LeavesSuffix

/-! ## Strings

The part of a string after its opening quote.  A string that is wanted has to be text; one
that is passed over may also have surrogates outside pairs.
-/

def shortEscapes : List (Char × Char) :=
  [('"', '"'), ('\\', '\\'), ('/', '/'), ('b', '\x08'), ('f', '\x0c'), ('n', '\n'),
   ('r', '\r'), ('t', '\t')]

/-- Takes four hexadecimal digits.  The text counts as ended if it has fewer than four
bytes left in UTF-8. -/
def hexUnit : Reader Nat := do
  let digits := (← get).take 4
  if (String.ofList digits).utf8ByteSize < 4 then throw .truncated
  match numeral? 16 digits with
  | none => throw .malformed
  | some unit =>
    modify (·.drop 4)
    return unit

/-- Takes the character whose code units follow, in one escape or two. -/
def unicodeEscape : Reader Char := do
  let unit ← hexUnit
  if isTrailingSurrogate unit then throw .malformed
  else if isLeadingSurrogate unit then
    expect ['\\', 'u']
    let trailing ← hexUnit
    if isTrailingSurrogate trailing then return joinSurrogates unit trailing
    else throw .malformed
  else return Char.ofNat unit

/-- Takes what follows a backslash.  If the string is not wanted, any code unit will
do. -/
def escape (wanted : Bool) : Reader Char := do
  match ← peek with
  | none => throw .truncated
  | some c =>
    skip
    match shortEscapes.lookup c with
    | some meant => return meant
    | none =>
      if c ≠ 'u' then throw .malformed
      else if wanted then unicodeEscape
      else return Char.ofNat (← hexUnit)

theorem hexUnit_leavesSuffix : LeavesSuffix hexUnit := by
  refine LeavesSuffix.get.bind fun text => ?_
  dsimp only
  split
  · exact (LeavesSuffix.throw _).bind fun _ => by
      split
      · exact .throw _
      · exact (LeavesSuffix.modify fun _ => List.drop_suffix _ _).bind fun _ => .pure _
  · split
    · exact .throw _
    · exact (LeavesSuffix.modify fun _ => List.drop_suffix _ _).bind fun _ => .pure _

theorem unicodeEscape_leavesSuffix : LeavesSuffix unicodeEscape := by
  refine hexUnit_leavesSuffix.bind fun unit => ?_
  split
  · exact .throw _
  · split
    · refine (LeavesSuffix.expect _).bind fun _ => hexUnit_leavesSuffix.bind fun _ => ?_
      split
      · exact .pure _
      · exact .throw _
    · exact .pure _

/-- An escape is taken from the front, wanted or not.  With it every step of a
string shortens the text, which is what its recursion goes down by. -/
theorem escape_leavesSuffix (wanted : Bool) : LeavesSuffix (escape wanted) := by
  refine LeavesSuffix.peek.bind fun next => ?_
  cases next with
  | none => exact .throw _
  | some c =>
      refine LeavesSuffix.skip.bind fun _ => ?_
      split
      · exact .pure _
      · split
        · exact .throw _
        · split
          · exact unicodeEscape_leavesSuffix
          · exact hexUnit_leavesSuffix.bind fun _ => .pure _

/-- Takes the characters up to the closing quote.  Control characters have to be
escaped. -/
def stringChars (wanted : Bool) (text : List Char) :
    Except Fault (List Char × List Char) :=
  match text with
  | [] => .error .truncated
  | c :: rest =>
    if c = '"' then .ok ([], rest)
    else if c = '\\' then
      match _hescape : (escape wanted).run rest with
      | .error fault => .error fault
      | .ok (meant, left) =>
        (stringChars wanted left).map fun (content, left) => (meant :: content, left)
    else if c < ' ' then .error .malformed
    else (stringChars wanted rest).map fun (content, left) => (c :: content, left)
termination_by text.length
decreasing_by
  · have := (escape_leavesSuffix _ _ _ _ _hescape).length_le
    simp only [List.length_cons]
    omega
  · simp only [List.length_cons]
    omega

def stringBody (wanted : Bool) : Reader (List Char) :=
  stringChars wanted

end CreateIndex.Json
