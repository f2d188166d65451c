import CreateIndex.Command

/-!
# Ways to give a text

The same text can be given inline, in a file, or on standard input.  Files and standard
input come from editors and shells, which add a line break at the end; a file may also start
with a byte order mark.  None of this reaches the command, so it makes no difference which
way a text was given.
-/

namespace CreateIndex

open Encoding

/-! ## Marks and line breaks -/

/-- What may follow a saved text. -/
inductive IsLineBreak : List Char → Prop where
  | none : IsLineBreak []
  | feed : IsLineBreak ['\n']
  | returnFeed : IsLineBreak ['\r', '\n']

/-- What may stand in front of a text in a file. -/
inductive IsOrderMark : List Char → Prop where
  | none : IsOrderMark []
  | byteOrder : IsOrderMark ['\ufeff']

/-- A text that cannot be taken for one with a mark or a line break added. -/
structure IsUnadorned (text : List Char) : Prop where
  head_ne : text.head? ≠ some '\ufeff'
  last_ne_return : text.getLast? ≠ some '\r'
  last_ne_feed : text.getLast? ≠ some '\n'

section Adornments

variable {text mark ending : List Char}

theorem dropLineBreak_of_last (hfeed : text.getLast? ≠ some '\n') :
    dropLineBreak text = text := by
  rcases List.eq_nil_or_concat text with rfl | ⟨start, c, rfl⟩
  · rfl
  · have hc : c ≠ '\n' := by simpa using hfeed
    simp [dropLineBreak, hc]

theorem dropLineBreak_feed (hreturn : text.getLast? ≠ some '\r') :
    dropLineBreak (text ++ ['\n']) = text := by
  rcases List.eq_nil_or_concat text with rfl | ⟨start, c, rfl⟩
  · rfl
  · have hc : c ≠ '\r' := by simpa using hreturn
    simp [dropLineBreak, hc]

theorem dropLineBreak_returnFeed (text : List Char) :
    dropLineBreak (text ++ ['\r', '\n']) = text := by
  simp [dropLineBreak]

/-- A line break that was added is the one that is dropped, whichever of its
forms it has. -/
theorem IsUnadorned.dropLineBreak_append (htext : IsUnadorned text)
    (hending : IsLineBreak ending) : dropLineBreak (text ++ ending) = text := by
  cases hending with
  | none =>
      rw [List.append_nil]
      exact dropLineBreak_of_last htext.last_ne_feed
  | feed => exact dropLineBreak_feed htext.last_ne_return
  | returnFeed => exact dropLineBreak_returnFeed text

theorem dropMark_of_head (hhead : text.head? ≠ some '\ufeff') : dropMark text = text := by
  cases text with
  | nil => rfl
  | cons c text =>
      have hc : c ≠ '\ufeff' := by simpa using hhead
      simp [dropMark, hc]

/-- A line break at the end does not look like a mark either, so only a mark in
front is dropped. -/
theorem IsUnadorned.dropMark_append (htext : IsUnadorned text) (hmark : IsOrderMark mark)
    (hending : IsLineBreak ending) : dropMark (mark ++ (text ++ ending)) = text ++ ending := by
  cases hmark with
  | byteOrder => rfl
  | none =>
      apply dropMark_of_head
      cases text with
      | nil => cases hending <;> decide
      | cons c text => exact htext.head_ne

end Adornments

/-! ## Decoding -/

theorem fromUTF8?_toUTF8 (text : String) : String.fromUTF8? text.toUTF8 = some text := by
  rw [String.fromUTF8?, String.toUTF8_eq_toByteArray, dif_pos text.isValidUTF8]
  rfl

theorem decodeFile?_toUTF8 (text : String) :
    decodeFile? text.toUTF8 = some (dropMark text.toList) := by
  rw [decodeFile?, fromUTF8?_toUTF8]

/-! ## Sources -/

/-- The source gives the text, as it stands inline or with what a file or standard input may
add to it. -/
inductive Gives (environment : Environment) (text : String) : Source → Prop where
  | inline : Gives environment text (.inline text)
  | file {path : String} {mark ending : List Char} (hmark : IsOrderMark mark)
      (hending : IsLineBreak ending)
      (hfile : environment.file path =
        some (String.ofList (mark ++ (text.toList ++ ending))).toUTF8) :
      Gives environment text (.file path)
  | stdin {ending : List Char} (hending : IsLineBreak ending)
      (hstdin : environment.stdin = (String.ofList (text.toList ++ ending)).toUTF8) :
      Gives environment text .stdin

variable {environment other : Environment} {text : String} {source source' : Source}

/-- What is read from a source is the text that it gives, for every kind of
source and whatever was added to the text there. -/
theorem Gives.read_eq (hgives : Gives environment text source)
    (htext : IsUnadorned text.toList) : source.read environment = .ok text := by
  cases hgives with
  | inline => rfl
  | file hmark hending hfile =>
      simp only [Source.read, fileText, hfile, decodeFile?_toUTF8, String.toList_ofList,
        htext.dropMark_append hmark hending, htext.dropLineBreak_append hending,
        String.ofList_toList]
      rfl
  | stdin hending hstdin =>
      simp only [Source.read, hstdin, fromUTF8?_toUTF8, String.toList_ofList,
        htext.dropLineBreak_append hending, String.ofList_toList]

/-! ## Failures -/

/-- A report whose failure, if it has one, is that the input is not the JSON it
has to be. -/
def Report.FailsAtJson (report : Report) : Prop :=
  ∀ failure, report.result = .error failure →
    ∃ expected fault, failure = .invalidJson expected fault

theorem Report.failsAtJson_done (notes : List String) (output : String) :
    (Report.done notes output).FailsAtJson := by
  intro failure hfailure
  cases hfailure

theorem Report.failsAtJson_decode {α : Type} {expected : Expected} {reader : Json.Reader α}
    {input : String} {next : α → Report} (hnext : ∀ value, (next value).FailsAtJson) :
    (Report.given (Json.decode expected reader input) next).FailsAtJson := by
  rw [Json.decode]
  cases Json.readAll reader input.toList with
  | error fault =>
      intro failure hfailure
      cases hfailure
      exact ⟨expected, fault, rfl⟩
  | ok value => exact hnext value

/-- A command that has its text can only fail at JSON: every other step that it
takes has a result. -/
theorem Command.failsAtJson_perform (command : Command) (listMode : Bool) (input : String) :
    (command.perform listMode input).FailsAtJson := by
  have hdecode {α : Type} {expected : Expected} {reader : Json.Reader α}
      (notes : α → List String) (output : α → String) :
      (Report.given (Json.decode expected reader input) fun value =>
        Report.done (notes value) (output value)).FailsAtJson :=
    Report.failsAtJson_decode fun value => Report.failsAtJson_done _ _
  cases command with
  | dropColumn column => exact hdecode _ _
  | parse | build | renameTable | renameColumn =>
      cases listMode <;> first | exact hdecode _ _ | exact Report.failsAtJson_done _ _

/-- Whichever way a text is given, a command makes the same of it: the same output, or the
same complaint that the text is not the JSON it has to be. -/
theorem Gives.run_eq_run (hgives : Gives environment text source)
    (hgives' : Gives other text source') (htext : IsUnadorned text.toList)
    (command : Command) (listMode verbose : Bool) :
    Request.run environment ⟨command, source, listMode, verbose⟩ =
        Request.run other ⟨command, source', listMode, verbose⟩ ∧
      (Request.run environment ⟨command, source, listMode, verbose⟩).FailsAtJson := by
  have hread : source.read environment = .ok text := hgives.read_eq htext
  have hread' : source'.read other = .ok text := hgives'.read_eq htext
  constructor
  · simp only [Request.run, hread, hread']
  · simp only [Request.run, hread]
    exact command.failsAtJson_perform listMode text

/-- A list of descriptors with a name outside ASCII, on a line of its own. -/
def sampleInput : String := "\n[\x7b\"indexName\": \"\u00e9\"\x7d]"

def sampleEnvironment : Environment where
  file _ := some (String.ofList ('\ufeff' :: sampleInput.toList ++ ['\r', '\n'])).toUTF8
  stdin := (String.ofList (sampleInput.toList ++ ['\n'])).toUTF8

theorem run_eq_run_sample :
    (Gives sampleEnvironment sampleInput (.file "indexes.json") ∧
      Gives sampleEnvironment sampleInput .stdin ∧ IsUnadorned sampleInput.toList) ∧
    Request.run sampleEnvironment ⟨.build, .file "indexes.json", true, false⟩ =
        Request.run sampleEnvironment ⟨.build, .stdin, true, false⟩ ∧
      (Request.run sampleEnvironment ⟨.build, .file "indexes.json", true, false⟩).FailsAtJson := by
  have hfile : Gives sampleEnvironment sampleInput (.file "indexes.json") :=
    .file .byteOrder .returnFeed rfl
  have hstdin : Gives sampleEnvironment sampleInput .stdin := .stdin .feed rfl
  have htext : IsUnadorned sampleInput.toList := ⟨by decide, by decide, by decide⟩
  exact ⟨⟨hfile, hstdin, htext⟩, hfile.run_eq_run hstdin htext .build true false⟩

end CreateIndex
