import CreateIndex.Json.Reader

/-!
# Numbers in JSON

No field is a number, but numbers are read: one where another type is wanted, and one that is
passed over.  They differ in the fault of a number that ends with the text, and only the first
kind has a range.
-/

namespace CreateIndex.Json

/-! ## The range of doubles

A number is out of range if reading it as a double overflows.  It is read as a significand
below 2^64 times a power of ten: both are rounded to the nearest double, and so is their
product.
-/

/-- Rounds to 53 significant bits, and a half to the even neighbour. -/
def roundToDouble (n : Nat) : Nat :=
  let unit := Nat.pow 2 (n.log2 - 52)
  let quotient := n / unit
  let up := 2 * (n % unit) > unit || (2 * (n % unit) == unit && quotient % 2 == 1)
  (if up then quotient + 1 else quotient) * unit

/-- The least number that is rounded to infinity. -/
def overflowBound : Nat :=
  Nat.pow 2 1024 - Nat.pow 2 970

/-- Whether `significand * 10 ^ exponent` overflows.  The powers of ten end at 308. -/
def overflows (significand : Nat) (exponent : Int) : Bool :=
  if significand = 0 ∨ exponent < 0 then false
  else if 308 < exponent then true
  else overflowBound ≤ roundToDouble significand * roundToDouble (Nat.pow 10 exponent.toNat)

/-- Appends decimal digits to a significand as long as it stays below 2^64, and gives it
with the digits that are left. -/
def appendDigits (significand : Nat) : List Char → Nat × List Char
  | [] => (significand, [])
  | digit :: rest =>
    let next := 10 * significand + (digit.toNat - '0'.toNat)
    if next < Nat.pow 2 64 then appendDigits next rest else (significand, digit :: rest)

/-! ## Reading -/

/-- The parts of a written number.  The sign is left out. -/
structure Number where
  whole : List Char
  fraction : List Char
  exponent : Int

def takeDigits : Reader (List Char) := do
  let text ← get
  set (text.dropWhile Char.isDigit)
  return text.takeWhile Char.isDigit

def someDigits (atEnd : Fault) : Reader (List Char) := do
  match ← peek with
  | none => throw atEnd
  | some c => if c.isDigit then takeDigits else throw .malformed

/-- Takes one of the characters if it comes next, and gives it. -/
def takeOneOf (cs : List Char) : Reader (Option Char) := do
  match ← peek with
  | some c => if c ∈ cs then skip *> return some c else return none
  | none => return none

/-- Takes a number.  `atEnd` is the fault if the text ends where a digit is needed. -/
def number (atEnd : Fault) : Reader Number := do
  let _ ← takeOneOf ['-']
  let whole ← someDigits atEnd
  if whole.head? = some '0' ∧ whole ≠ ['0'] then throw .malformed
  let fraction ←
    match ← takeOneOf ['.'] with
    | some _ => someDigits atEnd
    | none => pure []
  match ← takeOneOf ['e', 'E'] with
  | none => return { whole, fraction, exponent := 0 }
  | some _ =>
    let sign ← takeOneOf ['+', '-']
    let digits ← someDigits atEnd
    let size := digits.foldl (fun size digit => 10 * size + (digit.toNat - '0'.toNat)) 0
    return { whole, fraction, exponent := if sign = some '-' then -size else size }

/-- Whether a number has no double.  Digits that the significand has no room for count as
zeros. -/
def Number.outOfRange (number : Number) : Bool :=
  let (significand, moreWhole) := appendDigits 0 number.whole
  let (significand, moreFraction) := appendDigits significand number.fraction
  let places := number.fraction.length - moreFraction.length
  overflows significand (number.exponent + moreWhole.length - places)

end CreateIndex.Json
