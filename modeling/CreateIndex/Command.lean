import CreateIndex.Descriptor.Json
import CreateIndex.Input
import CreateIndex.Session

/-!
# Commands

A command turns an input text into an output text, and leaves notes on what it did for a
reader who asks for them.  In list mode input and output are JSON lists with an item for
each index.
-/

namespace CreateIndex

/-- What to do with the input. -/
inductive Command where
  /-- Statements to descriptors. -/
  | parse
  /-- Descriptors to statements. -/
  | build
  | renameTable (table : String)
  | renameColumn (old new : String)
  /-- Keeps the statements that do not reference the column; always in list mode. -/
  | dropColumn (column : String)

structure Report where
  /-- Notes on the way, in order. -/
  notes : List String
  result : Except Failure String

namespace Json

def decode {α : Type} (expected : Expected) (reader : Reader α) (input : String) :
    Except Failure α :=
  (readAll reader input.toList).mapError (.invalidJson expected)

def decodeStatements (input : String) : Except Failure (List String) :=
  decode .statements (list text) input

def encodeStatements (statements : List String) : String :=
  String.ofList (writeList (fun _ => writeText) 0 statements)

def encodeDescriptor (descriptor : Descriptor) : String :=
  String.ofList (descriptor.toJson 0)

def encodeDescriptors (descriptors : List Descriptor) : String :=
  String.ofList (writeList Descriptor.toJson 0 descriptors)

end Json

namespace Report

def done (notes : List String) (output : String) : Report :=
  ⟨notes, .ok output⟩

/-- Goes on with a value, or reports why there is none. -/
def given {α : Type} (value : Except Failure α) (next : α → Report) : Report :=
  match value with
  | .ok value => next value
  | .error failure => ⟨[], .error failure⟩

end Report

def parseNote (statement : String) : String :=
  let descriptor := Descriptor.ofStatement statement
  if descriptor.isBlank then "Statement did not parse as CREATE INDEX: " ++ statement
  else
    "Parsed index " ++ descriptor.index ++ " on " ++ descriptor.table ++ " (" ++
      toString descriptor.columns.length ++ " columns)"

/-- The number of statements that differ from those in the same places. -/
def countChanged (before after : List String) : Nat :=
  (before.zip after).countP fun (old, new) => old != new

namespace Command

open Json Report

/-- Applies a command to the text of its input. -/
def perform (command : Command) (listMode : Bool) (input : String) : Report :=
  match command with
  | .parse =>
    if listMode then
      given (decodeStatements input) fun statements =>
        done (statements.map parseNote)
          (encodeDescriptors (statements.map Descriptor.ofStatement))
    else done [parseNote input] (encodeDescriptor (Descriptor.ofStatement input))
  | .build =>
    if listMode then
      given (decode .descriptors (list Descriptor.ofJson) input) fun descriptors =>
        done [] (encodeStatements (descriptors.map Descriptor.toStatement))
    else
      given (decode .descriptor Descriptor.ofJson input) fun descriptor =>
        done [] descriptor.toStatement
  | .renameTable table =>
    if listMode then
      given (decodeStatements input) fun statements =>
        done [] (encodeStatements (statements.map (CreateIndex.renameTable table)))
    else done [] (CreateIndex.renameTable table input)
  | .renameColumn old new =>
    if listMode then
      given (decodeStatements input) fun statements =>
        let renamed := statements.map (CreateIndex.renameColumn old new)
        done
          ["Renamed column in " ++ toString (countChanged statements renamed) ++ " of " ++
            toString statements.length ++ " indexes"]
          (encodeStatements renamed)
    else
      let renamed := CreateIndex.renameColumn old new input
      done
        (if renamed = input then
          ["Column " ++ old ++ " is not indexed, statement unchanged"]
        else [])
        renamed
  | .dropColumn column =>
    given (decodeStatements input) fun statements =>
      let kept := CreateIndex.dropColumn column statements
      done
        ["Dropped " ++ toString (statements.length - kept.length) ++
          " indexes referencing column " ++ column]
        (encodeStatements kept)

end Command

/-- The statements that are left when some statements are stored as descriptors in JSON and
built from them again. -/
def throughJson (statements : List String) : Except Failure (List String) := do
  let parsed ← (Command.parse.perform true (Json.encodeStatements statements)).result
  let built ← (Command.build.perform true parsed).result
  Json.decodeStatements built

/-- A command with the place of its input. -/
structure Request where
  command : Command
  source : Source
  listMode : Bool := false
  verbose : Bool := false

def Request.run (environment : Environment) (request : Request) : Report :=
  Report.given (request.source.read environment) fun input =>
    let report := request.command.perform request.listMode input
    { report with
      notes := ("Read " ++ toString input.utf8ByteSize ++ " bytes of input") :: report.notes }

end CreateIndex
