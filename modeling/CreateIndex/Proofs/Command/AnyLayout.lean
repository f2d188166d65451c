import CreateIndex.Proofs.Command.ListMode

/-!
# Descriptors in any layout

An index is built from every JSON text that gives its descriptor.  Neither the order of the
fields nor blanks, escapes, fields with their defaults or unknown fields make a difference.
-/

namespace CreateIndex

open Json

/-- The text is an object that gives the descriptor, with blanks around it: in
any order, with unknown members, and without those fields that have their
default. -/
inductive Descriptor.GivenBy (descriptor : Descriptor) (text : String) : Prop where
  | mk {before object after : List Char} (hbefore : IsGap before)
      (hobject : RecordText Descriptor.fieldTexts descriptor object) (hafter : IsGap after)
      (htext : text.toList = before ++ (object ++ after)) : Descriptor.GivenBy descriptor text

variable {descriptor : Descriptor} {text : String}

theorem Descriptor.asNames_eq_self
    (hnames : ∀ column ∈ descriptor.columns, column.isExpression = false) :
    descriptor.asNames = descriptor := by
  have hcolumns : descriptor.columns.map Column.asName = descriptor.columns := by
    refine (List.map_congr_left fun column hcolumn => ?_).trans (List.map_id _)
    simp [Column.asName, ← hnames column hcolumn]
  rw [asNames, hcolumns]

/-- A text that gives a descriptor is read as the descriptor, with names in
place of its expressions: the object cannot say which they are. -/
theorem Descriptor.GivenBy.decode_eq (htext : descriptor.GivenBy text) :
    decode .descriptor Descriptor.ofJson text = .ok descriptor.asNames := by
  obtain ⟨hbefore, hobject, hafter, htext⟩ := htext
  have hread := (Descriptor.reads_of_recordText hobject).readAll_between hbefore hafter
  rw [decode, htext, hread]
  rfl

/-- Whatever text gives a descriptor, the statement of the descriptor is built
from it. -/
theorem Request.run_build_givenBy (environment : Environment) (source : Source) (verbose : Bool)
    (htext : descriptor.GivenBy text) (hsource : source.read environment = .ok text)
    (hnames : ∀ column ∈ descriptor.columns, column.isExpression = false) :
    (Request.run environment ⟨.build, source, false, verbose⟩).result =
      .ok descriptor.toStatement := by
  have hperform : (Command.build.perform false text).result = .ok descriptor.toStatement := by
    rw [Command.perform, if_neg (by decide), htext.decode_eq, descriptor.asNames_eq_self hnames]
    rfl
  rw [Request.run, hsource]
  exact hperform

def oddNotes : List Char :=
  "[-1.5E+400,\"\\ud800\",\x7b\x7d]".toList

/-- An entry with an escape in a name, and with a field that is never read. -/
def oddColumn : List Char :=
  "\x7b\"is_expression\":true,\"sort\":\"DESC\",\"n\\u0061me\":\"title\"\x7d".toList

/-- Some fields of a descriptor in no usual order, and an unknown one. -/
def oddMembers : List (String × List Char) :=
  [("notes", oddNotes), ("tableName", "\"p\\u006fsts\"".toList),
   ("columns", '[' :: (oddColumn ++ [']'])), ("indexName", writeText "newest")]

def oddText : String :=
  " \x7b\"notes\":[-1.5E+400,\"\\ud800\",\x7b\x7d], \"tableName\" :\"p\\u006fsts\",\"columns\":[" ++
    "\x7b\"is_expression\":true,\"sort\":\"DESC\",\"n\\u0061me\":\"title\"\x7d]," ++
    "\n\"indexName\":\"newest\"\x7d\n"

def oddDescriptor : Descriptor where
  index := "newest"
  table := "posts"
  columns := [{ name := "title", sort := "DESC" }]

theorem isValue_oddNotes : IsValue oddNotes := by
  have hdigits : ∀ digits ∈ [['1'], ['5'], ['4', '0', '0']], IsDigits digits := by
    intro digits hdigits
    constructor
    · rintro rfl
      simp at hdigits
    · revert digits
      decide
  have hfraction : FractionText ['.', '5'] := .some (hdigits _ (by simp))
  have hexponent : ExponentText ('E' :: (['+'] ++ ['4', '0', '0'])) :=
    .some (by simp) (by simp) (hdigits _ (by simp))
  have hnumber : NumberText ('-' :: '1' :: '.' :: '5' :: 'E' :: '+' :: ['4', '0', '0']) :=
    .mk (show ['-'] ∈ _ by simp) ⟨hdigits ['1'] (by simp), by simp⟩ hfraction hexponent
  have hunit : IsUnit "d800".toList 0xd800 := ⟨rfl, by decide⟩
  have hstring : StringInside ('\\' :: 'u' :: ("d800".toList ++ [])) := .unit hunit .nil
  have hobject : IsJson .value ('\x7b' :: ([] ++ ['\x7d'])) := .object (.closeObject isGap_nil)
  have hcomma : Lead false ([] ++ ',' :: []) := .comma isGap_nil isGap_nil
  exact .list (.item (.first isGap_nil) (.number hnumber)
    (.item hcomma (.string hstring) (.item hcomma hobject (.closeList isGap_nil))))

theorem recordText_oddColumn :
    RecordText Column.fieldTexts { name := "title", sort := "DESC" } oddColumn := by
  have hcomma : Lead false ([] ++ ',' :: []) := .comma isGap_nil isGap_nil
  have hletter : IsUnit "0061".toList 'a'.toNat := ⟨rfl, by decide⟩
  have hname : Spelling _ "name".toList :=
    .cons (.raw ⟨by decide, by decide, by decide⟩)
      (.cons (.unit hletter) (spelling_flatMap_writeChar "me".toList))
  have hobject : ObjectText [("is_expression", "true".toList), ("sort", writeText "DESC"),
      ("name", writeText "title")] oddColumn :=
    .mk (.next (.first isGap_nil) (spelling_flatMap_writeChar _) isGap_nil isGap_nil
      (.next hcomma (spelling_flatMap_writeChar _) isGap_nil isGap_nil
        (.next hcomma hname isGap_nil isGap_nil (.close isGap_nil))))
  have hsort := List.getElem_mem (show 2 < Column.fieldTexts.length by decide)
  have hname := List.getElem_mem (show 0 < Column.fieldTexts.length by decide)
  refine .mk hobject ?_ (eachOnce_of_nodup (by decide)) ?_
  · simp only [List.forall_mem_cons]
    exact ⟨.unknown (by decide) (.flag .yes), .field hsort (stringText_writeText "DESC"),
      .field hname (stringText_writeText "title"), by simp⟩
  · simp [Column.fieldTexts, FieldText.of]

theorem oddDescriptor_givenBy : oddDescriptor.GivenBy oddText := by
  have hspace : IsGap [' '] := by decide
  have hline : IsGap ['\n'] := by decide
  have hcomma : Lead false ([] ++ ',' :: []) := .comma isGap_nil isGap_nil
  have hletter : IsUnit "006f".toList 'o'.toNat := ⟨rfl, by decide⟩
  have hobject : ObjectText oddMembers _ :=
    .mk (.next (.first isGap_nil) (spelling_flatMap_writeChar _) isGap_nil isGap_nil
      (.next (.comma isGap_nil hspace) (spelling_flatMap_writeChar _) hspace isGap_nil
        (.next hcomma (spelling_flatMap_writeChar _) isGap_nil isGap_nil
          (.next (.comma isGap_nil hline) (spelling_flatMap_writeChar _) isGap_nil isGap_nil
            (.close isGap_nil)))))
  have hposts : Spelling _ "posts".toList :=
    .cons (.raw ⟨by decide, by decide, by decide⟩)
      (.cons (.unit hletter) (spelling_flatMap_writeChar "sts".toList))
  have hlist : ListText [oddColumn] ('[' :: ([] ++ (oddColumn ++ ([] ++ [']'])))) :=
    .mk (.next (.first isGap_nil) (.close isGap_nil))
  have hindex := List.getElem_mem (show 3 < Descriptor.fieldTexts.length by decide)
  have htable := List.getElem_mem (show 4 < Descriptor.fieldTexts.length by decide)
  have hcolumns := List.getElem_mem (show 5 < Descriptor.fieldTexts.length by decide)
  refine .mk hspace (.mk hobject ?_ (eachOnce_of_nodup (by decide)) ?_) hline ?_
  · simp only [oddMembers, List.forall_mem_cons]
    exact ⟨.unknown (by decide) isValue_oddNotes, .field htable (.mk hposts),
      .field hcolumns (.mk hlist (.cons recordText_oddColumn .nil)),
      .field hindex (stringText_writeText "newest"), by simp⟩
  · simp [Descriptor.fieldTexts, FieldText.of, oddMembers, oddDescriptor]
  · decide +kernel

theorem run_build_oddText :
    oddDescriptor.GivenBy oddText ∧
      (Request.run {} ⟨.build, .inline oddText, false, false⟩).result =
        .ok "CREATE INDEX `newest` ON `posts` (`title` DESC)" := by
  refine ⟨oddDescriptor_givenBy, ?_⟩
  rw [Request.run_build_givenBy {} (.inline oddText) false oddDescriptor_givenBy rfl (by decide)]
  decide

end CreateIndex
