import CreateIndex.Command
import CreateIndex.Proofs.Descriptor.Exchange

/-!
# List mode

In list mode the input and the output of a command are JSON lists, and each item is treated as it
is alone.  The next command reads the output as what was written, so parsing and building agree
on every list of statements, up to the expressions.
-/

namespace CreateIndex

open Json

/-! ## Commands one after the other -/

namespace Json

/-- A value that a reader takes is decoded from a text with nothing else in it. -/
theorem decode_of_reads {α : Type} {read : Reader α} {written : List Char} {value : α}
    (hread : Reads read written value) (expected : Expected) :
    decode expected read (String.ofList written) = .ok value := by
  rw [decode, String.toList_ofList, hread.readAll_eq]
  rfl

/-- Statements are stored in JSON without loss, whatever characters they have. -/
theorem decodeStatements_encodeStatements (statements : List String) :
    decodeStatements (encodeStatements statements) = .ok statements := by
  have hread : Reads (list text) (writeList (fun _ => writeText) 0 statements)
      (statements.map id) :=
    reads_writeList fun statement _ => reads_writeText statement
  rw [List.map_id] at hread
  exact decode_of_reads hread .statements

theorem decode_encodeDescriptors (descriptors : List Descriptor) :
    decode .descriptors (list Descriptor.ofJson) (encodeDescriptors descriptors) =
      .ok (descriptors.map Descriptor.asNames) :=
  decode_of_reads (reads_writeList fun descriptor _ => descriptor.reads_toJson _) .descriptors

end Json

namespace Command

theorem perform_parse_encodeStatements (statements : List String) :
    (parse.perform true (encodeStatements statements)).result =
      .ok (encodeDescriptors (statements.map Descriptor.ofStatement)) := by
  rw [perform, if_pos rfl, decodeStatements_encodeStatements]
  rfl

theorem perform_build_encodeDescriptors (descriptors : List Descriptor) :
    (build.perform true (encodeDescriptors descriptors)).result =
      .ok (encodeStatements
        (descriptors.map fun descriptor => descriptor.asNames.toStatement)) := by
  rw [perform, if_pos rfl, decode_encodeDescriptors]
  change Except.ok (encodeStatements _) = _
  rw [List.map_map]
  rfl

end Command

/-- Statements come through JSON with names in place of their expressions, and
each is then written in its canonical form. -/
theorem throughJson_eq (statements : List String) :
    throughJson statements =
      .ok (statements.map fun statement =>
        (Descriptor.ofStatement statement).asNames.toStatement) := by
  rw [throughJson, Command.perform_parse_encodeStatements]
  change (Command.build.perform true _).result.bind _ = _
  rw [Command.perform_build_encodeDescriptors, List.map_map]
  exact decodeStatements_encodeStatements _

/-- Whatever the statements are, they can be parsed in list mode and built from what that
gives, and each is then what its descriptor without expressions is written as. -/
theorem Request.run_build_of_parse (environment environment' : Environment)
    (verbose verbose' : Bool) (statements : List String) :
    ∃ parsed,
      (Request.run environment
        { command := .parse, source := .inline (encodeStatements statements),
          listMode := true, verbose }).result = .ok parsed ∧
      (Request.run environment'
        { command := .build, source := .inline parsed, listMode := true,
          verbose := verbose' }).result =
        .ok (encodeStatements (statements.map fun statement =>
          (Descriptor.ofStatement statement).asNames.toStatement)) := by
  refine ⟨_, Command.perform_parse_encodeStatements statements, ?_⟩
  refine (Command.perform_build_encodeDescriptors _).trans ?_
  rw [List.map_map]
  rfl

/-! ## Item by item

The statements that are kept when a column is dropped can be told from what each is parsed into,
although the JSON form of a descriptor does not say which entries are expressions.
-/

variable {command : Command} {input : String} {items outputs : List String}
  {descriptor : Descriptor} {column : String}

theorem Request.result_run_inline (environment : Environment) (command : Command)
    (input : String) (listMode verbose : Bool) :
    (Request.run environment ⟨command, .inline input, listMode, verbose⟩).result =
      (command.perform listMode input).result :=
  rfl

/-- In list mode the command has an output for the input, and what it is read as are the outputs
for the items, each given inline on its own. -/
def WorksItemwise (command : Command) (input : String) (items : List String) : Prop :=
  ∀ environment environment' verbose verbose', ∃ output outputs,
    (Request.run environment ⟨command, .inline input, true, verbose⟩).result = .ok output ∧
      decodeStatements output = .ok outputs ∧
      List.Forall₂ (fun item single =>
        (Request.run environment' ⟨command, .inline item, false, verbose'⟩).result = .ok single)
        items outputs

/-- To work item by item is to give in list mode what is given for each item
alone.  The place of the input has no part in it. -/
theorem worksItemwise_of_perform
    (hlist : (command.perform true input).result = .ok (encodeStatements outputs))
    (hitems : List.Forall₂ (fun item single =>
      (command.perform false item).result = .ok single) items outputs) :
    WorksItemwise command input items := by
  intro environment environment' verbose verbose'
  exact ⟨_, outputs, hlist, decodeStatements_encodeStatements outputs, hitems⟩

/-- A command on statements that writes a list of what it makes of each. -/
theorem worksItemwise_map (change : String → String) (statements : List String)
    (hlist : (command.perform true (encodeStatements statements)).result =
      .ok (encodeStatements (statements.map change)))
    (hsingle : ∀ statement, (command.perform false statement).result = .ok (change statement)) :
    WorksItemwise command (encodeStatements statements) statements := by
  apply worksItemwise_of_perform hlist
  rw [List.forall₂_map_right_iff]
  exact List.forall₂_same.mpr fun statement _ => hsingle statement

theorem worksItemwise_renameTable (table : String) (statements : List String) :
    WorksItemwise (.renameTable table) (encodeStatements statements) statements := by
  apply worksItemwise_map (renameTable table) statements
  · rw [Command.perform, if_pos rfl, decodeStatements_encodeStatements]
    rfl
  · intro statement
    rfl

theorem worksItemwise_renameColumn (old new : String) (statements : List String) :
    WorksItemwise (.renameColumn old new) (encodeStatements statements) statements := by
  apply worksItemwise_map (renameColumn old new) statements
  · rw [Command.perform, if_pos rfl, decodeStatements_encodeStatements]
    rfl
  · intro statement
    rfl

theorem decode_encodeDescriptor (descriptor : Descriptor) :
    decode .descriptor Descriptor.ofJson (encodeDescriptor descriptor) =
      .ok descriptor.asNames :=
  decode_of_reads (descriptor.reads_toJson 0) .descriptor

theorem worksItemwise_build (descriptors : List Descriptor) :
    WorksItemwise .build (encodeDescriptors descriptors) (descriptors.map encodeDescriptor) := by
  apply worksItemwise_of_perform (Command.perform_build_encodeDescriptors descriptors)
  rw [List.forall₂_map_left_iff, List.forall₂_map_right_iff]
  refine List.forall₂_same.mpr fun descriptor _ => ?_
  rw [Command.perform, if_neg (by decide), decode_encodeDescriptor]
  rfl

/-! ## Dropped columns -/

/-- The descriptor that another program reads from what a statement is parsed into on its own. -/
def parsedAlone (environment : Environment) (verbose : Bool) (statement : String) :
    Except Failure Descriptor := do
  let output ← (Request.run environment ⟨.parse, .inline statement, false, verbose⟩).result
  decode .descriptor Descriptor.ofJson output

theorem parsedAlone_eq (environment : Environment) (verbose : Bool) (statement : String) :
    parsedAlone environment verbose statement =
      .ok (Descriptor.ofStatement statement).asNames := by
  have hparsed : (Command.parse.perform false statement).result =
      .ok (encodeDescriptor (Descriptor.ofStatement statement)) := rfl
  rw [parsedAlone, Request.result_run_inline, hparsed]
  simp only [bind, Except.bind, decode_encodeDescriptor]

/-- An expression keeps its text in JSON, so the same names are referenced. -/
theorem references_eq_columnNames_asNames :
    descriptor.references column = decide (column ∈ descriptor.asNames.columnNames) := by
  rw [Bool.eq_iff_iff]
  simp [Descriptor.references, Descriptor.columnNames, Descriptor.asNames, Column.asName]

/-- Which statements are dropped can be told from their descriptors as they come
back from JSON. -/
theorem dropColumn_eq_filter_columnNames (column : String) (statements : List String) :
    dropColumn column statements = statements.filter fun statement =>
      column ∉ (Descriptor.ofStatement statement).asNames.columnNames := by
  apply List.filter_congr
  intro statement _
  rw [references, references_eq_columnNames_asNames, decide_not]

/-- In list mode tables and columns are renamed and descriptors are built as they are one by
one, and the statements that are left after a column was dropped are those whose descriptors,
parsed one by one, do not name it. -/
theorem Request.run_list_itemwise :
    (∀ table statements,
      WorksItemwise (.renameTable table) (encodeStatements statements) statements) ∧
    (∀ old new statements,
      WorksItemwise (.renameColumn old new) (encodeStatements statements) statements) ∧
    (∀ descriptors,
      WorksItemwise .build (encodeDescriptors descriptors) (descriptors.map encodeDescriptor)) ∧
    ∀ environment environment' listMode verbose verbose' column statements,
      ∃ output, ∃ parsed : String → Descriptor,
      (Request.run environment
          ⟨.dropColumn column, .inline (encodeStatements statements), listMode, verbose⟩).result =
        .ok output ∧
      (∀ statement, parsedAlone environment' verbose' statement = .ok (parsed statement)) ∧
      decodeStatements output =
        .ok (statements.filter fun statement => column ∉ (parsed statement).columnNames) := by
  refine ⟨worksItemwise_renameTable, worksItemwise_renameColumn, worksItemwise_build, ?_⟩
  intro environment environment' listMode verbose verbose' column statements
  refine ⟨encodeStatements (dropColumn column statements), _, ?_,
    parsedAlone_eq environment' verbose', ?_⟩
  · rw [Request.result_run_inline, Command.perform, decodeStatements_encodeStatements]
    rfl
  · rw [decodeStatements_encodeStatements, dropColumn_eq_filter_columnNames]

end CreateIndex
