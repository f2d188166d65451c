import CreateIndex.Proofs.Statement.Cursors
import CreateIndex.Text.Basic
import Mathlib.Data.String.Basic

/-!
# Slices of the source

The scanner keeps the columns of a lexeme and the cut keeps a byte offset, and both are used to
cut pieces out of the squeezed statement.  All these offsets are character boundaries, in order,
and what they cut out is what the reader takes: the head and the trailer, and the text of any run
of neighbouring lexemes.
-/

namespace CreateIndex.Text

/-! ## Byte offsets

A place in a text is given by its column, which counts characters from one, but a piece is cut
out of the text by byte offsets.  `slice?` gives nothing where cutting would fail: at an offset
in the middle of a character or past the end, or if the end of the piece is before its start.
-/

open String

/-- The byte offsets at which the characters of a text start, if the text itself starts at
`offset`. -/
def charOffsets (offset : Nat) : List Char → List Nat
  | [] => []
  | c :: rest => offset :: charOffsets (offset + c.utf8Size) rest

/-- The byte offset of a column.  Past the last character it is the end of the text. -/
def byteOffset (source : String) (column : Nat) : Nat :=
  ((charOffsets 0 source.toList)[column - 1]?).getD source.utf8ByteSize

/-- A character starts at the offset, or the text ends there. -/
def IsBoundary (source : String) (offset : Nat) : Prop :=
  (⟨offset⟩ : Pos.Raw).IsValid source

instance (source : String) (offset : Nat) : Decidable (IsBoundary source offset) :=
  inferInstanceAs (Decidable (Pos.Raw.IsValid source ⟨offset⟩))

def slice? (source : String) (start stop : Nat) : Option String :=
  if IsBoundary source start ∧ IsBoundary source stop ∧ start ≤ stop then
    some (Pos.Raw.extract source ⟨start⟩ ⟨stop⟩)
  else none

structure CutsOut (source : String) (start stop : Nat) (piece : List Char) : Prop where
  isBoundary_start : IsBoundary source start
  isBoundary_stop : IsBoundary source stop
  start_le_stop : start ≤ stop
  stop_le_size : stop ≤ source.utf8ByteSize
  slice?_eq : slice? source start stop = some (String.ofList piece)

/-! ### Columns -/

/-- The offset of a character is the number of bytes before it, and past the
last one the offset is the end of the text. -/
theorem getElem?_charOffsets (offset : Nat) (start rest : List Char) :
    (charOffsets offset (start ++ rest))[start.length]?.getD (offset + utf8Len (start ++ rest)) =
      offset + utf8Len start := by
  induction start generalizing offset with
  | nil =>
      cases rest with
      | nil => rfl
      | cons c rest => simp [charOffsets]
  | cons c start ih =>
      have hsize (chars : List Char) :
          offset + utf8Len (c :: chars) = offset + c.utf8Size + utf8Len chars := by
        rw [utf8Len_cons]
        omega
      rw [List.cons_append, hsize, hsize]
      exact ih (offset + c.utf8Size)

/-- The offset of a column is the number of bytes before it.  Columns count from
one. -/
theorem byteOffset_append (start rest : List Char) :
    byteOffset (String.ofList (start ++ rest)) (1 + start.length) = utf8Len start := by
  have hoffset := getElem?_charOffsets 0 start rest
  rw [Nat.zero_add, Nat.zero_add] at hoffset
  rwa [byteOffset, String.toList_ofList, utf8ByteSize_ofList, Nat.add_sub_cancel_left]

/-! ### Pieces -/

theorem isBoundary_append (start rest : List Char) :
    IsBoundary (String.ofList (start ++ rest)) (utf8Len start) := by
  refine Pos.Raw.isValid_iff_exists_append.mpr ⟨String.ofList start, String.ofList rest, ?_, ?_⟩
  · exact String.ofList_append
  · rw [rawEndPos_ofList]

/-- What stands between two pieces of a text is cut out at the offsets of its
ends. -/
theorem cutsOut_append (before piece after : List Char) :
    CutsOut (String.ofList (before ++ piece ++ after)) (utf8Len before)
      (utf8Len (before ++ piece)) piece := by
  have hstart : IsBoundary (String.ofList (before ++ piece ++ after)) (utf8Len before) := by
    rw [List.append_assoc]
    exact isBoundary_append before (piece ++ after)
  have hstop := isBoundary_append (before ++ piece) after
  have hle : utf8Len before ≤ utf8Len (before ++ piece) := by
    rw [utf8Len_append]
    exact Nat.le_add_right _ _
  refine ⟨hstart, hstop, hle, ?_, ?_⟩
  · rw [utf8ByteSize_ofList, utf8Len_append (before ++ piece)]
    exact Nat.le_add_right _ _
  · rw [slice?, if_pos ⟨hstart, hstop, hle⟩, utf8Len_append, extract_of_valid]

end CreateIndex.Text

namespace CreateIndex.Statement

open Lexeme Text

/-! ## The end of the list -/

/-- The byte offset after the parenthesis that closes the outermost one, given the nesting and
the offset at the start of the text. -/
def listEndFrom (nesting : Nesting) (offset : Nat) : List Char → Option Nat
  | [] => none
  | c :: rest =>
    if nesting.closesAt c then some (offset + 1)
    else listEndFrom (nesting.after c) (offset + c.utf8Size) rest

/-- The byte offset after the first parenthesised group, if that is closed. -/
def listEnd? (statement : String) : Option Nat :=
  listEndFrom {} 0 statement.toList

/-- The head and the trailer, cut out at the offset.  Without a closed group all is head. -/
def sliceHead? (statement : String) : Option (String × String) :=
  match listEnd? statement with
  | none => some (statement, "")
  | some stop => do
    let head ← slice? statement 0 stop
    let trailer ← slice? statement stop statement.utf8ByteSize
    return (head, trailer)

/-- The offset is the number of bytes in the head. -/
theorem listEndFrom_eq (nesting : Nesting) (offset : Nat) (text : List Char) :
    listEndFrom nesting offset text =
      (cutFrom nesting text).map fun cut => offset + String.utf8Len cut.1 := by
  induction text generalizing nesting offset with
  | nil => rfl
  | cons c rest ih =>
      rw [listEndFrom, cutFrom]
      by_cases hcloses : nesting.closesAt c
      · have hparen : c = ')' := by
          simp only [Nesting.closesAt, Bool.and_eq_true, beq_iff_eq] at hcloses
          exact hcloses.2
        rw [if_pos hcloses, if_pos hcloses, hparen]
        rfl
      · rw [if_neg hcloses, if_neg hcloses, ih, Option.map_map]
        congr 1
        funext cut
        simp only [Function.comp_apply, String.utf8Len_cons]
        omega

theorem listEnd?_eq (text : List Char) :
    listEnd? (String.ofList text) =
      (cutAfterList? text).map fun cut => String.utf8Len cut.1 := by
  rw [listEnd?, listEndFrom_eq, String.toList_ofList]
  simp only [Nat.zero_add]
  rfl

theorem isBoundary_of_listEnd? {statement : String} {stop : Nat}
    (hstop : listEnd? statement = some stop) : IsBoundary statement stop := by
  rw [← String.ofList_toList (s := statement)] at hstop ⊢
  rw [listEnd?_eq] at hstop
  obtain ⟨⟨head, trailer⟩, hcut, rfl⟩ := Option.map_eq_some_iff.mp hstop
  rw [← Nesting.append_of_cutFrom hcut]
  exact isBoundary_append head trailer

/-- Cutting at the offset is cutting the characters, so the byte offset that the
cut keeps never falls inside a character. -/
theorem sliceHead?_eq (text : List Char) :
    sliceHead? (String.ofList text) =
      some (String.ofList (split text).1, String.ofList (split text).2) := by
  rw [sliceHead?, listEnd?_eq, split]
  cases hcut : cutAfterList? text with
  | none => rfl
  | some cut =>
      obtain ⟨head, trailer⟩ := cut
      obtain rfl := Nesting.append_of_cutFrom hcut
      have hhead : slice? (String.ofList (head ++ trailer)) 0 (String.utf8Len head) =
          some (String.ofList head) :=
        (cutsOut_append [] head trailer).slice?_eq
      have htrailer : slice? (String.ofList (head ++ trailer)) (String.utf8Len head)
          (String.ofList (head ++ trailer)).utf8ByteSize = some (String.ofList trailer) := by
        have hslice := (cutsOut_append head trailer []).slice?_eq
        rwa [List.append_nil, ← String.utf8ByteSize_ofList (head ++ trailer)] at hslice
      simp only [Option.map_some, hhead, htrailer]
      rfl

/-! ## The text of lexemes -/

structure Located where
  lexeme : Lexeme
  start : Nat
  stop : Nat

/-- Places lexemes one after the other, from a column on. -/
def locate (column : Nat) : List Lexeme → List Located
  | [] => []
  | lexeme :: rest =>
    ⟨lexeme, column, column + lexeme.text.length⟩ :: locate (column + lexeme.text.length) rest

/-- The piece of the source from where the first lexeme starts to where the last one stops. -/
def sliceText? (source : String) (range : List Located) : Option String :=
  match range.head?, range.getLast? with
  | some first, some last =>
    slice? source (byteOffset source first.start) (byteOffset source last.stop)
  | _, _ => some ""

/-- The characters that some located lexemes were read from. -/
def writtenText (range : List Located) : List Char :=
  sourceText (range.map Located.lexeme)

variable {lexemes : List Lexeme} {before range left right after : List Located} {column : Nat}

theorem writtenText_append (left right : List Located) :
    writtenText (left ++ right) = writtenText left ++ writtenText right := by
  rw [writtenText, List.map_append, sourceText_append]
  rfl

theorem map_lexeme_locate (column : Nat) (lexemes : List Lexeme) :
    (locate column lexemes).map Located.lexeme = lexemes := by
  induction lexemes generalizing column with
  | nil => rfl
  | cons lexeme rest ih => rw [locate, List.map_cons, ih]

theorem writtenText_locate (column : Nat) (lexemes : List Lexeme) :
    writtenText (locate column lexemes) = sourceText lexemes := by
  rw [writtenText, map_lexeme_locate]

theorem locate_append (column : Nat) (start rest : List Lexeme) :
    locate column (start ++ rest) =
      locate column start ++ locate (column + (sourceText start).length) rest := by
  induction start generalizing column with
  | nil => rfl
  | cons lexeme start ih =>
      rw [List.cons_append, locate, locate, ih, sourceText_cons, List.length_append,
        ← Nat.add_assoc]
      rfl

/-- A run of located lexemes is located after the text before it. -/
theorem eq_locate_of_append (hlocate : locate column lexemes = left ++ right) :
    left = locate column (left.map Located.lexeme) ∧
      right = locate (column + (writtenText left).length) (right.map Located.lexeme) := by
  have hlexemes : lexemes = left.map Located.lexeme ++ right.map Located.lexeme := by
    rw [← List.map_append, ← hlocate, map_lexeme_locate]
  rw [hlexemes, locate_append] at hlocate
  have hlength : (locate column (left.map Located.lexeme)).length = left.length := by
    rw [← List.length_map (f := Located.lexeme), map_lexeme_locate, List.length_map]
  obtain ⟨hleft, hright⟩ := List.append_inj hlocate hlength
  exact ⟨hleft.symm, hright.symm⟩

theorem start_of_head?_locate {first : Located} (hfirst : first ∈ (locate column lexemes).head?) :
    first.start = column := by
  cases lexemes with
  | nil => cases hfirst
  | cons lexeme rest =>
      cases hfirst
      rfl

theorem stop_of_getLast?_locate {last : Located}
    (hlast : last ∈ (locate column lexemes).getLast?) :
    last.stop = column + (sourceText lexemes).length := by
  rcases List.eq_nil_or_concat' lexemes with rfl | ⟨init, lexeme, rfl⟩
  · cases hlast
  · rw [locate_append, locate, locate, List.getLast?_concat] at hlast
    cases hlast
    rw [sourceText_append, List.length_append, sourceText_singleton, Nat.add_assoc]

theorem sourceText_of_locate (hlocate : locate column lexemes = before ++ range ++ after) :
    sourceText lexemes = writtenText before ++ writtenText range ++ writtenText after := by
  rw [← writtenText_locate column lexemes, hlocate, writtenText_append, writtenText_append]

/-- The columns of a run of lexemes cut out its text, from where the first one
starts to where the last one stops. -/
theorem cutsOut_of_locate (hlocate : locate 1 lexemes = before ++ range ++ after)
    {first last : Located} (hfirst : first ∈ range.head?) (hlast : last ∈ range.getLast?) :
    let source := String.ofList (sourceText lexemes)
    CutsOut source (byteOffset source first.start) (byteOffset source last.stop)
      (writtenText range) := by
  have hsource := sourceText_of_locate hlocate
  obtain ⟨hfront, -⟩ := eq_locate_of_append hlocate
  obtain ⟨-, hrange⟩ := eq_locate_of_append hfront.symm
  have hstart : first.start = 1 + (writtenText before).length :=
    start_of_head?_locate (hrange ▸ hfirst)
  have hstop : last.stop = 1 + (writtenText (before ++ range)).length := by
    apply stop_of_getLast?_locate
    rw [← hfront, List.getLast?_append, Option.mem_def.mp hlast]
    rfl
  have hfirstOffset : byteOffset (String.ofList (sourceText lexemes)) first.start =
      String.utf8Len (writtenText before) := by
    rw [hsource, List.append_assoc, hstart, byteOffset_append]
  have hlastOffset : byteOffset (String.ofList (sourceText lexemes)) last.stop =
      String.utf8Len (writtenText before ++ writtenText range) := by
    rw [hsource, hstop, writtenText_append, byteOffset_append]
  dsimp only
  rw [hfirstOffset, hlastOffset, hsource]
  exact cutsOut_append _ _ _

/-- The slice of a run of lexemes is what they were read from, with the blanks
and comments among them. -/
theorem sliceText?_of_locate (hlocate : locate 1 lexemes = before ++ range ++ after) :
    sliceText? (String.ofList (sourceText lexemes)) range =
      some (String.ofList (writtenText range)) := by
  rcases range.eq_nil_or_concat' with rfl | ⟨init, last, hconcat⟩
  · rfl
  · obtain ⟨first, rest, hcons⟩ := List.exists_cons_of_ne_nil (l := range) (by simp [hconcat])
    have hfirst : range.head? = some first := by rw [hcons, List.head?_cons]
    have hlast : range.getLast? = some last := by rw [hconcat, List.getLast?_concat]
    rw [sliceText?, hfirst, hlast]
    exact (cutsOut_of_locate hlocate hfirst hlast).slice?_eq

/-! ## The slices of a statement -/

variable {text : String} {cursor : Cursor}

/-- Offsets cut out of a statement, and out of its head, what the reader takes. -/
structure SlicesExactly (statement source trailer : String) (lexemes : List Lexeme) : Prop where
  sliceHead?_eq : sliceHead? statement = some (source, trailer)
  isBoundary_listEnd : ∀ stop ∈ listEnd? statement, IsBoundary statement stop
  append_eq : source ++ trailer = statement
  /-- What was read before, in and after a run of lexemes makes up the source. -/
  toList_eq : ∀ before range after, locate 1 lexemes = before ++ range ++ after →
    source.toList = writtenText before ++ writtenText range ++ writtenText after
  cutsOut : ∀ before range after, locate 1 lexemes = before ++ range ++ after →
    ∀ first ∈ range.head?, ∀ last ∈ range.getLast?,
      CutsOut source (byteOffset source first.start) (byteOffset source last.stop)
        (writtenText range)
  sliceText?_eq : ∀ before range after, locate 1 lexemes = before ++ range ++ after →
    sliceText? source range = some (String.ofList (writtenText range))
  sliceText?_append : ∀ before left right after,
    locate 1 lexemes = before ++ (left ++ right) ++ after →
    ∃ leftText rightText, sliceText? source left = some leftText ∧
      sliceText? source right = some rightText ∧
      sliceText? source (left ++ right) = some (leftText ++ rightText)
  sliceText?_whole : sliceText? source (locate 1 lexemes) = some source

/-- Head and trailer of a squeezed statement are cut out of it at a character boundary, and
nothing is lost.  From the head any run of lexemes is cut out at character boundaries, in order
and within the head, as the characters that it was read from; neighbouring runs give
neighbouring pieces, and all lexemes give the whole head. -/
theorem Cursor.exists_slicesExactly (hcursor : Cursor.ofText? text = some cursor) :
    ∃ source, lex source.toList = some cursor.pending ∧
      SlicesExactly (String.ofList (squeeze text.toList)) source (String.ofList cursor.trailer)
        cursor.pending := by
  refine ⟨String.ofList (sourceText cursor.pending), ?_, ?_⟩
  · rw [String.toList_ofList]
    exact lex_of_ofText? hcursor
  constructor
  case sliceHead?_eq => rw [sliceHead?_eq, split_of_ofText? hcursor]
  case isBoundary_listEnd => exact fun stop hstop => isBoundary_of_listEnd? hstop
  case append_eq => rw [squeeze_of_ofText? hcursor, String.ofList_append]
  case toList_eq =>
    intro before range after hlocate
    rw [String.toList_ofList, sourceText_of_locate hlocate]
  case cutsOut =>
    intro before range after hlocate first hfirst last hlast
    exact cutsOut_of_locate hlocate hfirst hlast
  case sliceText?_eq =>
    intro before range after hlocate
    exact sliceText?_of_locate hlocate
  case sliceText?_append =>
    intro before left right after hlocate
    have hleft : locate 1 cursor.pending = before ++ left ++ (right ++ after) := by
      rw [hlocate, List.append_assoc, List.append_assoc, List.append_assoc]
    have hright : locate 1 cursor.pending = before ++ left ++ right ++ after := by
      rw [hlocate, List.append_assoc before left right]
    refine ⟨_, _, sliceText?_of_locate hleft, sliceText?_of_locate hright, ?_⟩
    rw [sliceText?_of_locate hlocate, writtenText_append, String.ofList_append]
  case sliceText?_whole =>
    have hwhole : locate 1 cursor.pending = [] ++ locate 1 cursor.pending ++ [] := by simp
    rw [sliceText?_of_locate hwhole, writtenText_locate]

def wideText : String :=
  "create  index ï on t (日, lower(x) || '😀' desc)\n where ß > 1;"

theorem Cursor.exists_slicesExactly_wide :
    ∃ cursor, Cursor.ofText? wideText = some cursor ∧
      ∃ source, lex source.toList = some cursor.pending ∧
        SlicesExactly (String.ofList (squeeze wideText.toList)) source
          (String.ofList cursor.trailer) cursor.pending := by
  have hread : (Cursor.ofText? wideText).isSome := by decide +kernel
  obtain ⟨cursor, hcursor⟩ := Option.isSome_iff_exists.mp hread
  exact ⟨cursor, hcursor, Cursor.exists_slicesExactly hcursor⟩

example : ((Cursor.ofText? wideText).bind fun cursor =>
    sliceText? (String.ofList (sourceText cursor.pending))
      (((locate 1 cursor.pending).drop 14).take 8)) = some "lower(x) || '😀'" := by
  decide +kernel

end CreateIndex.Statement
