import CreateIndex.Command

/-!
# The command line

A command word is followed by options in any order.  An option stands alone or takes a
value: `--sql X`, `--sql=X`, `-s X`, `-sX` and `-s=X` mean the same, and short options
without a value can be bundled, as in `-lvs X`.  A value that is an argument of its own
must not look like an option.  No option may be given twice.
-/

namespace CreateIndex.CommandLine

inductive Flag where
  | sql
  | file
  | list
  | verbose
  | new
  | old
  | column
  deriving DecidableEq

def Flag.takesValue : Flag → Bool
  | .list | .verbose => false
  | _ => true

inductive Verb where
  | parse
  | build
  | renameTable
  | renameColumn
  | dropColumn

def Verb.ofWord? : String → Option Verb
  | "parse" => some .parse
  | "build" => some .build
  | "rename-table" => some .renameTable
  | "rename-column" => some .renameColumn
  | "drop-column" => some .dropColumn
  | _ => none

/-- The options that a command must have, by their long names. -/
def Verb.ownFlags : Verb → List (String × Flag)
  | .parse | .build => []
  | .renameTable => [("to", .new)]
  | .renameColumn => [("from", .old), ("to", .new)]
  | .dropColumn => [("column", .column)]

def commonFlags : List (String × Flag) :=
  [("sql", .sql), ("file", .file), ("list", .list), ("verbose", .verbose)]

/-- The options that have a short name too. -/
def shortFlags : List (Char × Flag) :=
  [('s', .sql), ('f', .file), ('l', .list), ('v', .verbose)]

/-- An option as it was given, with an empty value if it takes none. -/
abbrev Given := Flag × String

def prepend (given : List Given) (following : Option (List Given)) : Option (List Given) :=
  following.map (given ++ ·)

/-- Whether an argument can be the value of the option before it. -/
def isValue (arg : String) : Bool :=
  arg == "-" || arg.toList.head? != some '-'

def splitAtEquals (text : List Char) : List Char × Option (List Char) :=
  match text.dropWhile (· != '=') with
  | [] => (text, none)
  | _ :: value => (text.takeWhile (· != '='), some value)

/-- Reads a bundle of short options.  The last one may be left waiting for its value. -/
def readBundle : List Char → Option (List Given × Option Flag)
  | [] => some ([], none)
  | c :: rest => do
    let flag ← shortFlags.lookup c
    if flag.takesValue then
      match rest with
      | [] => some ([], some flag)
      | '=' :: value => some ([(flag, String.ofList value)], none)
      | value => some ([(flag, String.ofList value)], none)
    else
      let (given, waiting) ← readBundle rest
      some ((flag, "") :: given, waiting)

/-- Reads a long option after its dashes.  It may be left waiting for its value. -/
def readLong (flags : List (String × Flag)) (text : List Char) :
    Option (List Given × Option Flag) := do
  let (name, value) := splitAtEquals text
  let flag ← flags.lookup (String.ofList name)
  match flag.takesValue, value with
  | true, none => some ([], some flag)
  | true, some value => some ([(flag, String.ofList value)], none)
  | false, none => some ([(flag, "")], none)
  | false, some _ => none

/-- Reads the arguments after the command word.  `waiting` is the option that the first
argument is the value of.  There is nothing to give if an argument cannot be read. -/
def readFlags (flags : List (String × Flag)) (waiting : Option Flag) :
    List String → Option (List Given)
  | [] => if waiting.isNone then some [] else none
  | arg :: args =>
    match waiting with
    | some flag =>
      if isValue arg then prepend [(flag, arg)] (readFlags flags none args) else none
    | none =>
      match arg.toList with
      | ['-', '-'] => if args.isEmpty then some [] else none
      | '-' :: '-' :: name => do
        let (given, waiting) ← readLong flags name
        prepend given (readFlags flags waiting args)
      | '-' :: c :: bundle => do
        let (given, waiting) ← readBundle (c :: bundle)
        prepend given (readFlags flags waiting args)
      | _ => none

/-- The command that a command word and its options name. -/
def Verb.command? (verb : Verb) (given : List Given) : Option Command :=
  match verb with
  | .parse => some .parse
  | .build => some .build
  | .renameTable => (given.lookup .new).map .renameTable
  | .renameColumn => do
    let old ← given.lookup .old
    let new ← given.lookup .new
    some (.renameColumn old new)
  | .dropColumn => (given.lookup .column).map .dropColumn

/-- The place of the input that the options name.  The path of a file is not empty. -/
def source? (given : List Given) : Option Source :=
  match given.lookup .sql, given.lookup .file with
  | some _, some _ => none
  | some text, none => some (.inline text)
  | none, some path => if path.isEmpty then none else some (.file path)
  | none, none => some .stdin

def request? (verb : Verb) (args : List String) : Option Request := do
  let given ← readFlags (verb.ownFlags ++ commonFlags) none args
  if (given.map Prod.fst).Nodup then
    let command ← verb.command? given
    let source ← source? given
    some
      { command, source
        listMode := (given.lookup .list).isSome
        verbose := (given.lookup .verbose).isSome }
  else none

/-- What a command line asks for. -/
inductive Invocation where
  | version
  | work (request : Request)
  /-- The command line cannot be read. -/
  | misuse

def Invocation.ofArgs (args : List String) : Invocation :=
  match args with
  | [] => .misuse
  | first :: rest =>
    if first = "--version" ∨ "-V".toList.isPrefixOf first.toList then .version
    else
      match (Verb.ofWord? first).bind fun verb => request? verb rest with
      | some request => .work request
      | none => .misuse

structure Exit where
  code : UInt32
  stdout : String := ""
  stderr : String := ""

def unlines (lines : List String) : String :=
  String.join (lines.map (· ++ "\n"))

def versionLine : String := "rust-indexdef 0.1.0"

/-- The end of a program that has carried out a request. -/
def exitOf (verbose : Bool) (report : Report) : Exit :=
  let notes := if verbose then report.notes else []
  match report.result with
  | .ok output => { code := 0, stdout := unlines [output], stderr := unlines notes }
  | .error failure =>
    { code := 1, stderr := unlines (notes ++ ["Error: " ++ failure.message]) }

def run (environment : Environment) (args : List String) : Exit :=
  match Invocation.ofArgs args with
  | .version => { code := 0, stdout := unlines [versionLine] }
  | .misuse => { code := 2 }
  | .work request => exitOf request.verbose (request.run environment)

end CreateIndex.CommandLine
