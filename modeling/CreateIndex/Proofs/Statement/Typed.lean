import CreateIndex.Proofs.Statement.Assembly
import CreateIndex.Proofs.Statement.Spaced
import CreateIndex.Proofs.Text.Dotted

/-!
# Statements as they are typed

`Typed` is a well-formed statement with the choices of one who types it: the case of each
keyword, the quotes of each name, and what is left out.  `IsTypedAs` adds the blanks.  The
descriptor of the statement depends on neither.
-/

namespace CreateIndex.Statement

open Text Lexeme

/-! ## Words -/

structure Keyword (spelling : String) where
  word : List Char
  writes : Writes word spelling

def Keyword.piece {spelling : String} (keyword : Keyword spelling) : Lexeme :=
  bare keyword.word

/-- A name as a bare word, or between quotes of any kind.  Its content is free of the
closing quote, and each of its blanks is a single space. -/
inductive TypedName where
  | bare (word : List Char) (hword : IsBareWord word)
  | quoted (opener closer : Char) (content : List Char)
      (hcloser : wordCloser? opener = some closer) (hcontent : closer ∉ content)
      (heven : EvenlySpaced content)
  | string (content : List Char) (hcontent : '\'' ∉ content) (heven : EvenlySpaced content)

namespace TypedName

def piece : TypedName → Lexeme
  | .bare word _ => Lexeme.bare word
  | .quoted opener closer content _ _ _ => ⟨.word content true, opener :: content ++ [closer]⟩
  | .string content _ _ => ⟨.string content, '\'' :: content ++ ['\'']⟩

def content : TypedName → List Char
  | .bare word _ => word
  | .quoted _ _ content _ _ _ => content
  | .string content _ _ => content

/-- A typed name is read as its content, with quotes or without. -/
theorem names (name : TypedName) : Names name.piece name.content := by
  cases name with
  | bare word hword => exact .bare hword
  | quoted opener closer content hcloser hcontent _ => exact .quoted hcloser hcontent
  | string content hcontent _ => exact .string hcontent

theorem isPhrase (name : TypedName) : IsPhrase name.piece.text := by
  cases name with
  | bare word hword => exact hword.isPhrase
  | quoted opener closer content hcloser _ heven =>
      have hopener : ¬Text.isBlank opener := by
        rcases wordCloser?_eq_some_iff.mp hcloser with ⟨rfl, -⟩ | ⟨rfl, -⟩ | ⟨rfl, -⟩ <;> decide
      exact heven.isPhrase_enclose hopener (isBlank_wordCloser hcloser)
  | string content _ heven => exact heven.isPhrase_enclose (by decide) (by decide)

end TypedName

/-- One or more names with dots between them. -/
structure DottedName where
  first : TypedName
  further : List TypedName

namespace DottedName

def pieces (name : DottedName) : List Lexeme :=
  name.first.piece :: Reading.furtherPieces (name.further.map TypedName.piece)

def parts (name : DottedName) : List (List Char) :=
  name.first.content :: name.further.map TypedName.content

/-- A dotted name spells its parts, in their order. -/
theorem spellsName (name : DottedName) : SpellsName name.pieces name.parts := by
  refine .mk name.first.names.identifier? ?_
  induction name.further with
  | nil => exact .nil
  | cons next further ih => exact .cons next.names.identifier? ih

end DottedName

/-! ## Entries -/

structure Collation where
  keyword : Keyword "COLLATE"
  word : List Char
  isBareWord : IsBareWord word

inductive Order where
  | ascending (keyword : Keyword "ASC")
  | descending (keyword : Keyword "DESC")

def Order.piece : Order → Lexeme
  | .ascending keyword => keyword.piece
  | .descending keyword => keyword.piece

def Order.upper : Order → String
  | .ascending _ => "ASC"
  | .descending _ => "DESC"

theorem Order.isSort (order : Order) : IsSort order.piece := by
  cases order with
  | ascending keyword => exact Or.inl keyword.writes.isKeyword
  | descending keyword => exact Or.inr keyword.writes.isKeyword

theorem Order.upper_shown (order : Order) :
    Text.upper order.piece.shown = order.upper.toList := by
  cases order with
  | ascending keyword => exact keyword.writes.upper_eq
  | descending keyword => exact keyword.writes.upper_eq

/-- An entry of the column list.  Without a sort order its collation must not look like
one. -/
structure Item where
  name : TypedName
  collation : Option Collation
  order : Option Order
  name_ne : name.content ≠ []
  collation_ne : order = none → ∀ given ∈ collation,
    upper given.word ≠ "ASC".toList ∧ upper given.word ≠ "DESC".toList

namespace Item

def collationPieces (item : Item) : List Lexeme :=
  match item.collation with
  | none => []
  | some given => [given.keyword.piece, bare given.word]

def orderPieces (item : Item) : List Lexeme :=
  match item.order with
  | none => []
  | some order => [order.piece]

def pieces (item : Item) : List Lexeme :=
  item.name.piece :: (item.collationPieces ++ item.orderPieces)

def column (item : Item) : Column :=
  { name := String.ofList item.name.content
    collate := (item.collation.map fun given => String.ofList given.word).getD ""
    sort := (item.order.map Order.upper).getD "" }

end Item

/-! ## Statements -/

/-- A condition with a predicate that does not end with a semicolon. -/
structure Condition where
  keyword : Keyword "WHERE"
  predicate : List Char
  ne_nil : squeeze predicate ≠ []
  last_ne : (squeeze predicate).getLast? ≠ some ';'

/-- A well-formed statement.  Without `IF NOT EXISTS` the name of the index must not look
like the start of it. -/
structure Typed where
  create : Keyword "CREATE"
  unique : Option (Keyword "UNIQUE")
  index : Keyword "INDEX"
  optional : Option (Keyword "IF" × Keyword "NOT" × Keyword "EXISTS")
  name : DottedName
  on : Keyword "ON"
  table : DottedName
  items : List Item
  condition : Option Condition
  first_ne : optional = none → ∀ word hword, name.first = .bare word hword →
    upper word ≠ "IF".toList

namespace Typed

def uniquePieces (typed : Typed) : List Lexeme :=
  match typed.unique with
  | none => []
  | some keyword => [keyword.piece]

def optionalPieces (typed : Typed) : List Lexeme :=
  match typed.optional with
  | none => []
  | some (first, second, third) => [first.piece, second.piece, third.piece]

def front (typed : Typed) : List Lexeme :=
  [typed.create.piece] ++ (typed.uniquePieces ++ ([typed.index.piece] ++
    (typed.optionalPieces ++ (typed.name.pieces ++ ([typed.on.piece] ++ typed.table.pieces)))))

def pieces (typed : Typed) : List Lexeme :=
  assemble typed.front (typed.items.map Item.pieces)

def descriptor (typed : Typed) : Descriptor :=
  let (schema, index) := splitQualifier (joinDotted typed.name.parts)
  { unique := typed.unique.isSome
    optional := typed.optional.isSome
    schema := String.ofList schema
    index := String.ofList index
    table := String.ofList (joinDotted typed.table.parts)
    columns := typed.items.map Item.column
    predicate := (typed.condition.map fun condition =>
      String.ofList (squeeze condition.predicate)).getD "" }

end Typed

def IsTypedEnd (tail : List Char) : Prop :=
  ∀ c ∈ tail, c = ';' ∨ Text.isBlank c

/-- What is typed after the column list. -/
inductive IsTypedTrailer : Option Condition → List Char → Prop where
  | without {tail : List Char} (htail : IsTypedEnd tail) : IsTypedTrailer none tail
  | within {condition : Condition} {before after tail : List Char}
      (hbefore : ∀ c ∈ before, Text.isBlank c) (hafter : ∀ c ∈ after, Text.isBlank c)
      (hne : after ≠ []) (htail : IsTypedEnd tail) :
      IsTypedTrailer (some condition)
        (before ++ condition.keyword.word ++ after ++ condition.predicate ++ tail)

/-- A text in which the statement is typed, with blanks wherever they may stand. -/
def Typed.IsTypedAs (typed : Typed) (text : List Char) : Prop :=
  ∃ placed trailer, placed.map Placed.piece = typed.pieces ∧ WellPlaced placed ∧
    IsTypedTrailer typed.condition trailer ∧ text = typedText placed ++ trailer

end CreateIndex.Statement
