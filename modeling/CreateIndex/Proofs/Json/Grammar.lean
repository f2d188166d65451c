import CreateIndex.Proofs.Json.Readers

/-!
# The grammar of JSON

Which texts are JSON, and in which ways a string can be spelled, without a look at any reader.
Strings with a meaning spell characters; in a value that is passed over, an escape may be any
code unit and a number may have any size.
-/

namespace CreateIndex.Json

open Text

inductive FlagText : Bool → List Char → Prop where
  | yes : FlagText true "true".toList
  | no : FlagText false "false".toList

/-! ## Strings -/

structure IsUnit (digits : List Char) (unit : Nat) : Prop where
  length_eq : digits.length = 4
  numeral_eq : numeral? 16 digits = some unit

/-- A character that may stand in a string as it is: no quote, no backslash, and
no control character. -/
structure IsRaw (c : Char) : Prop where
  not_quote : c ≠ '"'
  not_backslash : c ≠ '\\'
  not_control : ¬c < ' '

/-- A way to write a character in a string. -/
inductive CharSpelling : List Char → Char → Prop where
  | raw {c : Char} (hraw : IsRaw c) : CharSpelling [c] c
  | short {letter c : Char} (hmeant : (letter, c) ∈ shortEscapes) : CharSpelling ['\\', letter] c
  | unit {digits : List Char} {c : Char} (hunit : IsUnit digits c.toNat) :
      CharSpelling ('\\' :: 'u' :: digits) c
  | pair {first second : List Char} {leading trailing : Nat} (hfirst : IsUnit first leading)
      (hsecond : IsUnit second trailing) (hleading : isLeadingSurrogate leading)
      (htrailing : isTrailingSurrogate trailing) :
      CharSpelling ('\\' :: 'u' :: (first ++ '\\' :: 'u' :: second))
        (joinSurrogates leading trailing)

/-- A way to write a text between the quotes of a string. -/
inductive Spelling : List Char → List Char → Prop where
  | nil : Spelling [] []
  | cons {spelled more content : List Char} {c : Char} (hfirst : CharSpelling spelled c)
      (hmore : Spelling more content) : Spelling (spelled ++ more) (c :: content)

inductive StringText (text : String) : List Char → Prop where
  | mk {spelled : List Char} (hspelling : Spelling spelled text.toList) :
      StringText text ('"' :: spelled ++ ['"'])

/-- What can stand between the quotes of a string, also of one that means no text. -/
inductive StringInside : List Char → Prop where
  | nil : StringInside []
  | raw {c : Char} {rest : List Char} (hraw : IsRaw c) (hrest : StringInside rest) :
      StringInside (c :: rest)
  | short {letter c : Char} {rest : List Char} (hmeant : (letter, c) ∈ shortEscapes)
      (hrest : StringInside rest) : StringInside ('\\' :: letter :: rest)
  | unit {digits rest : List Char} {unit : Nat} (hunit : IsUnit digits unit)
      (hrest : StringInside rest) : StringInside ('\\' :: 'u' :: (digits ++ rest))

/-! ## Numbers -/

structure IsDigits (digits : List Char) : Prop where
  ne_nil : digits ≠ []
  all_digits : ∀ c ∈ digits, c.isDigit

/-- The part of a number before its point.  It has no zero in front of other digits. -/
structure IsWhole (digits : List Char) : Prop where
  isDigits : IsDigits digits
  eq_zero : digits.head? = some '0' → digits = ['0']

inductive FractionText : List Char → Prop where
  | none : FractionText []
  | some {digits : List Char} (hdigits : IsDigits digits) : FractionText ('.' :: digits)

inductive ExponentText : List Char → Prop where
  | none : ExponentText []
  | some {letter : Char} {sign digits : List Char} (hletter : letter ∈ ['e', 'E'])
      (hsign : sign ∈ [[], ['+'], ['-']]) (hdigits : IsDigits digits) :
      ExponentText (letter :: (sign ++ digits))

inductive NumberText : List Char → Prop where
  | mk {sign whole fraction exponent : List Char} (hsign : sign ∈ [[], ['-']])
      (hwhole : IsWhole whole) (hfraction : FractionText fraction)
      (hexponent : ExponentText exponent) :
      NumberText (sign ++ (whole ++ (fraction ++ exponent)))

/-! ## Lists and objects -/

/-- What stands before an item: a comma, unless it is the first one, and blanks. -/
inductive Lead : Bool → List Char → Prop where
  | first {gap : List Char} (hgap : IsGap gap) : Lead true gap
  | comma {before after : List Char} (hbefore : IsGap before) (hafter : IsGap after) :
      Lead false (before ++ ',' :: after)

/-- What is left of a list: the texts of its items, if the first one is next or others have been
before, and the closing bracket. -/
inductive ItemsText : Bool → List (List Char) → List Char → Prop where
  | close {first : Bool} {gap : List Char} (hgap : IsGap gap) :
      ItemsText first [] (gap ++ [']'])
  | next {first : Bool} {lead written text : List Char} {items : List (List Char)}
      (hlead : Lead first lead) (hrest : ItemsText false items text) :
      ItemsText first (written :: items) (lead ++ (written ++ text))

inductive ListText (items : List (List Char)) : List Char → Prop where
  | mk {text : List Char} (hitems : ItemsText true items text) : ListText items ('[' :: text)

/-- What is left of an object: its members, each a name with the text of its value, and the
closing brace. -/
inductive MembersText : Bool → List (String × List Char) → List Char → Prop where
  | close {first : Bool} {gap : List Char} (hgap : IsGap gap) :
      MembersText first [] (gap ++ ['\x7d'])
  | next {first : Bool} {lead spelled before after written text : List Char} {name : String}
      {members : List (String × List Char)} (hlead : Lead first lead)
      (hname : Spelling spelled name.toList) (hbefore : IsGap before) (hafter : IsGap after)
      (hrest : MembersText false members text) :
      MembersText first ((name, written) :: members)
        (lead ++ '"' :: (spelled ++ '"' :: (before ++ ':' :: (after ++ (written ++ text)))))

inductive ObjectText (members : List (String × List Char)) : List Char → Prop where
  | mk {text : List Char} (hmembers : MembersText true members text) :
      ObjectText members ('\x7b' :: text)

def EachOnce (names : List String) (members : List (String × List Char)) : Prop :=
  ∀ name ∈ names, (members.map Prod.fst).count name ≤ 1

/-! ## Values that may mean anything -/

/-- The kinds of JSON text: a value, and what is left of a list or an object, either all that
follows its opening bracket or what follows one of its items. -/
inductive Kind where
  | value
  | items (first : Bool)
  | members (first : Bool)

/-- The texts of each kind. -/
inductive IsJson : Kind → List Char → Prop where
  | null : IsJson .value "null".toList
  | flag {value : Bool} {written : List Char} (hflag : FlagText value written) :
      IsJson .value written
  | number {written : List Char} (hnumber : NumberText written) : IsJson .value written
  | string {inside : List Char} (hinside : StringInside inside) :
      IsJson .value ('"' :: inside ++ ['"'])
  | list {text : List Char} (hitems : IsJson (.items true) text) : IsJson .value ('[' :: text)
  | object {text : List Char} (hmembers : IsJson (.members true) text) :
      IsJson .value ('\x7b' :: text)
  | closeList {first : Bool} {gap : List Char} (hgap : IsGap gap) :
      IsJson (.items first) (gap ++ [']'])
  | item {first : Bool} {lead written text : List Char} (hlead : Lead first lead)
      (hvalue : IsJson .value written) (hrest : IsJson (.items false) text) :
      IsJson (.items first) (lead ++ (written ++ text))
  | closeObject {first : Bool} {gap : List Char} (hgap : IsGap gap) :
      IsJson (.members first) (gap ++ ['\x7d'])
  | member {first : Bool} {lead name before after written text : List Char}
      (hlead : Lead first lead) (hname : StringInside name) (hbefore : IsGap before)
      (hafter : IsGap after) (hvalue : IsJson .value written)
      (hrest : IsJson (.members false) text) :
      IsJson (.members first)
        (lead ++ '"' :: (name ++ '"' :: (before ++ ':' :: (after ++ (written ++ text)))))

def IsValue (written : List Char) : Prop :=
  IsJson .value written

end CreateIndex.Json
