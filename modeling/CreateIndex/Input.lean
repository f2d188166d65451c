import CreateIndex.Json.Reader
import CreateIndex.Text.Basic

/-!
# Input

The text that a command works on is given inline, in a file, or on standard input.  Text from a
file or from standard input loses its last line break, and only that from a file may be in
another encoding than UTF-8.
-/

namespace CreateIndex.Encoding

open Text

/-! ## UTF-16

Texts in UTF-16 of either byte order.  A byte that is left over and a surrogate outside a
pair are errors.
-/

inductive ByteOrder where
  | little
  | big

def ByteOrder.join (order : ByteOrder) (first second : UInt8) : Nat :=
  match order with
  | .little => first.toNat + 0x100 * second.toNat
  | .big => 0x100 * first.toNat + second.toNat

def codeUnits? (order : ByteOrder) : List UInt8 → Option (List Nat)
  | [] => some []
  | [_] => none
  | first :: second :: rest =>
    (codeUnits? order rest).map (order.join first second :: ·)

def ofCodeUnits? : List Nat → Option (List Char)
  | [] => some []
  | [unit] => (charOfCode? unit).map ([·])
  | unit :: next :: rest =>
    if isLeadingSurrogate unit then
      if isTrailingSurrogate next then
        (ofCodeUnits? rest).map (joinSurrogates unit next :: ·)
      else none
    else
      match charOfCode? unit with
      | some c => (ofCodeUnits? (next :: rest)).map (c :: ·)
      | none => none

def decodeUtf16? (order : ByteOrder) (bytes : List UInt8) : Option (List Char) :=
  (codeUnits? order bytes).bind ofCodeUnits?

/-! ## Windows-1252

Every byte is one character: its own code point outside 0x80 to 0x9F, and there a
character of a table.  The five bytes that Windows leaves unassigned are control
characters, so decoding never fails.
-/

/-- The code points of the bytes 0x80 to 0x9F. -/
def windows1252Table : List Nat :=
  [0x20AC, 0x81, 0x201A, 0x192, 0x201E, 0x2026, 0x2020, 0x2021,
   0x2C6, 0x2030, 0x160, 0x2039, 0x152, 0x8D, 0x17D, 0x8F,
   0x90, 0x2018, 0x2019, 0x201C, 0x201D, 0x2022, 0x2013, 0x2014,
   0x2DC, 0x2122, 0x161, 0x203A, 0x153, 0x9D, 0x17E, 0x178]

def windows1252Char (byte : UInt8) : Char :=
  let code := byte.toNat
  if 0x80 ≤ code ∧ code < 0xA0 then Char.ofNat (windows1252Table.getD (code - 0x80) code)
  else Char.ofNat code

def decodeWindows1252 (bytes : List UInt8) : List Char :=
  bytes.map windows1252Char

/-! ## The encoding of a file

A file is read as UTF-8 if it can be.  Otherwise a byte order mark tells its encoding, and
without one it is Windows-1252.
-/

/-- Removes one byte order mark from the front of a text. -/
def dropMark (text : List Char) : List Char :=
  match text with
  | '\ufeff' :: rest => rest
  | _ => text

/-- The text of bytes that are no UTF-8.  There is none if they start with the byte order
mark of UTF-8, or if they break the rules of the encoding that their mark announces. -/
def decodeOther? (bytes : List UInt8) : Option (List Char) :=
  match bytes with
  | 0xEF :: 0xBB :: 0xBF :: _ => none
  | 0xFF :: 0xFE :: rest => decodeUtf16? .little rest
  | 0xFE :: 0xFF :: rest => decodeUtf16? .big rest
  | _ => some (decodeWindows1252 bytes)

/-- The text of the bytes of a file, without a byte order mark. -/
def decodeFile? (bytes : ByteArray) : Option (List Char) :=
  match String.fromUTF8? bytes with
  | some text => some (dropMark text.toList)
  | none => decodeOther? bytes.data.toList

end CreateIndex.Encoding

namespace CreateIndex

/-! ## Failures

Reading and writing statements cannot fail.  What can fail is getting at the input, and reading it
as JSON where it has to be JSON.
-/

inductive FileFault where
  | notFound
  /-- The bytes are no text in the encoding that they seem to have. -/
  | undecodable
  deriving DecidableEq

/-- What an input has to be when it is JSON. -/
inductive Expected where
  | statements
  | descriptors
  | descriptor
  deriving DecidableEq

def Expected.title : Expected → String
  | .statements => "statement list"
  | .descriptors => "index descriptor list"
  | .descriptor => "index descriptor"

/-- Why a command has no output. -/
inductive Failure where
  | unreadableFile (path : String) (fault : FileFault)
  | unreadableStdin
  | invalidJson (expected : Expected) (fault : Json.Fault)
  deriving DecidableEq

def Failure.message : Failure → String
  | .unreadableFile path _ => "Failed to read input file: " ++ path
  | .unreadableStdin => "Failed to read statement from stdin"
  | .invalidJson expected _ => "Invalid " ++ expected.title ++ " JSON input"

/-! ## Sources -/

/-- Where the input of a command comes from. -/
inductive Source where
  | inline (text : String)
  | file (path : String)
  | stdin

structure Environment where
  /-- The bytes of a file, if it is there. -/
  file : String → Option ByteArray := fun _ => none
  /-- The bytes of standard input. -/
  stdin : ByteArray := .empty

/-- Removes one line break from the end of a text. -/
def dropLineBreak (text : List Char) : List Char :=
  match text.reverse with
  | '\n' :: '\r' :: rest => rest.reverse
  | '\n' :: rest => rest.reverse
  | _ => text

/-- The text that a file holds. -/
def fileText (bytes : Option ByteArray) : Except FileFault String :=
  match bytes with
  | none => .error .notFound
  | some bytes =>
    match Encoding.decodeFile? bytes with
    | none => .error .undecodable
    | some text => .ok (String.ofList (dropLineBreak text))

def Source.read (environment : Environment) : Source → Except Failure String
  | .inline text => .ok text
  | .file path => (fileText (environment.file path)).mapError (.unreadableFile path)
  | .stdin =>
    match String.fromUTF8? environment.stdin with
    | some text => .ok (String.ofList (dropLineBreak text.toList))
    | none => .error .unreadableStdin

end CreateIndex
