import CreateIndex.Json.Number
import CreateIndex.Json.Reader

/-!
# JSON values

Readers for texts, flags, lists and records, and the layout in which these are written.  The value
of an unknown field is passed over.
-/

namespace CreateIndex.Json

/-! ## Values that are passed over

The value of an unknown field has to keep to the grammar, but it may nest to any depth,
be a number out of range, or hold surrogates outside pairs.
-/

mutual

/-- Passes over a value.  The fuel bounds the number of nested calls; the length of the
text is always enough. -/
def ignoredValue : Nat → Reader Unit
  | 0 => throw .malformed
  | fuel + 1 => do
    let c ← peekToken
    if c = '-' ∨ c.isDigit then
      let _ ← number .malformed
    else
      skip
      match c with
      | 'n' => expect ['u', 'l', 'l']
      | 't' => expect ['r', 'u', 'e']
      | 'f' => expect ['a', 'l', 's', 'e']
      | '"' => let _ ← stringBody false
      | '[' =>
        if (← peekToken) = ']' then skip
        else
          ignoredValue fuel
          ignoredItems fuel
      | '{' =>
        if (← peekToken) = '}' then skip
        else
          ignoredMember fuel
          ignoredMembers fuel
      | _ => throw .malformed

def ignoredItems : Nat → Reader Unit
  | 0 => throw .malformed
  | fuel + 1 => do
    match ← peekToken with
    | ']' => skip
    | ',' =>
      skip
      ignoredValue fuel
      ignoredItems fuel
    | _ => throw .malformed

def ignoredMember : Nat → Reader Unit
  | 0 => throw .malformed
  | fuel + 1 => do
    if (← peekToken) ≠ '"' then throw .malformed
    skip
    let _ ← stringBody false
    if (← peekToken) ≠ ':' then throw .malformed
    skip
    ignoredValue fuel

def ignoredMembers : Nat → Reader Unit
  | 0 => throw .malformed
  | fuel + 1 => do
    match ← peekToken with
    | '}' => skip
    | ',' =>
      skip
      ignoredMember fuel
      ignoredMembers fuel
    | _ => throw .malformed

end

def ignored : Reader Unit := fun text =>
  ignoredValue (text.length + 1) text

/-! ## Values of a wanted type

A record is an object with named fields or a list of its fields in order; a field that is not
given keeps its default.
-/

variable {α ρ : Type}

/-- Refuses a value of another type.  A value that starts wrong, or breaks off, has that
fault instead; lists and objects are not looked into. -/
def refuse : Reader α := do
  let c ← peekToken
  if c = '-' ∨ c.isDigit then
    if (← number .truncated).outOfRange then throw .malformed
  else
    skip
    match c with
    | 'n' => expect ['u', 'l', 'l']
    | 't' => expect ['r', 'u', 'e']
    | 'f' => expect ['a', 'l', 's', 'e']
    | '"' => let _ ← stringBody true
    | '[' | '{' => pure ()
    | _ => throw .malformed
  throw .mistyped

def text : Reader String := do
  if (← peekToken) = '"' then
    skip
    return String.ofList (← stringBody true)
  else refuse

def flag : Reader Bool := do
  match ← peekToken with
  | 't' => expect ['t', 'r', 'u', 'e'] *> return true
  | 'f' => expect ['f', 'a', 'l', 's', 'e'] *> return false
  | _ => refuse

/-- Goes to the next item of a list if there is one, and says whether there is.  `first`
says that no item has been taken yet. -/
def nextItem (first : Bool) : Reader Bool := do
  let c ← peekToken
  if c = ']' then return false
  else if first then return true
  else if c = ',' then
    skip
    if (← peekToken) = ']' then throw .malformed else return true
  else throw .malformed

/-- Takes the items of a list and its closing bracket.  The fuel bounds their number. -/
def items (item : Reader α) : Nat → Bool → Reader (List α)
  | 0, _ => throw .malformed
  | fuel + 1, first => do
    if ← nextItem first then
      let value ← item
      return value :: (← items item fuel false)
    else skip *> return []

def list (item : Reader α) : Reader (List α) := do
  if (← peekToken) = '[' then
    skip
    items item ((← get).length + 1) true
  else refuse

/-- A field of a record: its name, and a reader for the change that its value makes to the
record. -/
structure RecordField (ρ : Type) where
  name : String
  read : Reader (ρ → ρ)

/-- The field with the given name and type of value. -/
def RecordField.of (name : String) (value : Reader α) (put : α → ρ → ρ) : RecordField ρ :=
  ⟨name, put <$> value⟩

/-- Takes the fields of a record as items of a list, and the closing bracket. -/
def positional : List (RecordField ρ) → Bool → ρ → Reader ρ
  | [], _, record => do
    if (← peekToken) = ']' then skip *> return record else throw .malformed
  | field :: fields, first, record => do
    if ← nextItem first then
      let change ← field.read
      positional fields false (change record)
    else skip *> return record

/-- Goes to the next name of an object if there is one, and says whether there is. -/
def nextName (first : Bool) : Reader Bool := do
  let c ← peekToken
  if c = '}' then return false
  else if first then
    if c = '"' then return true else throw .malformed
  else if c = ',' then
    skip
    if (← peekToken) = '"' then return true else throw .malformed
  else throw .malformed

def colon : Reader Unit := do
  if (← peekToken) = ':' then skip else throw .malformed

/-- Takes the fields of a record by their names, and the closing brace.  `seen` holds the
names that have been given; unknown ones are passed over.  The fuel bounds the number of
fields. -/
def members (fields : List (RecordField ρ)) : Nat → Bool → List String → ρ → Reader ρ
  | 0, _, _, _ => throw .malformed
  | fuel + 1, first, seen, record => do
    if ← nextName first then
      skip
      let name := String.ofList (← stringBody true)
      match fields.find? (·.name == name) with
      | none =>
        colon
        ignored
        members fields fuel false seen record
      | some field =>
        if name ∈ seen then throw .mistyped
        colon
        let change ← field.read
        members fields fuel false (name :: seen) (change record)
    else skip *> return record

def record (fields : List (RecordField ρ)) (default : ρ) : Reader ρ := do
  match ← peekToken with
  | '[' =>
    skip
    positional fields true default
  | '{' =>
    skip
    members fields ((← get).length + 1) true [] default
  | _ => refuse

/-! ## Writing

A list or an object has one item a line, indented by two spaces for each bracket around
it; without items it is a pair of brackets.
-/

def hexDigitChar (value : Nat) : Char :=
  Char.ofNat (if value < 10 then '0'.toNat + value else 'a'.toNat + (value - 10))

/-- The characters that a character of a string is written with.  Only quotes, backslashes
and control characters are escaped. -/
def writeChar (c : Char) : List Char :=
  if c = '"' then ['\\', '"']
  else if c = '\\' then ['\\', '\\']
  else if c = '\x08' then ['\\', 'b']
  else if c = '\t' then ['\\', 't']
  else if c = '\n' then ['\\', 'n']
  else if c = '\x0c' then ['\\', 'f']
  else if c = '\r' then ['\\', 'r']
  else if c < ' ' then
    ['\\', 'u', '0', '0', hexDigitChar (c.toNat / 16), hexDigitChar (c.toNat % 16)]
  else [c]

def writeText (text : String) : List Char :=
  '"' :: text.toList.flatMap writeChar ++ ['"']

def writeFlag (flag : Bool) : List Char :=
  (if flag then "true" else "false").toList

/-- The end of a line, and the indentation of the next one. -/
def newLine (depth : Nat) : List Char :=
  '\n' :: List.replicate (2 * depth) ' '

/-- Items between brackets that stand at the given depth. -/
def writeBlock (opener closer : Char) (depth : Nat) (items : List (List Char)) :
    List Char :=
  if items = [] then [opener, closer]
  else
    opener :: [','].intercalate (items.map (newLine (depth + 1) ++ ·)) ++ newLine depth ++
      [closer]

/-- A list; `write` gives the text of an item at its depth. -/
def writeList {α : Type} (write : Nat → α → List Char) (depth : Nat) (values : List α) :
    List Char :=
  writeBlock '[' ']' depth (values.map (write (depth + 1)))

def writeObject (depth : Nat) (members : List (String × List Char)) : List Char :=
  writeBlock '\x7b' '\x7d' depth
    (members.map fun (name, value) => writeText name ++ [':', ' '] ++ value)

end CreateIndex.Json
