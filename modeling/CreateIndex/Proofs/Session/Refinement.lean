import CreateIndex.Proofs.Descriptor.Cascade
import CreateIndex.Session

/-!
# Sessions and their meaning

The changes of a session are defined on texts, and each reads what earlier ones wrote.
`Change.onDescriptors` gives the same changes on descriptors alone.  As long as the
statements stay settled, which every admissible change preserves, the two agree after every
step, and a text differs from the one that was added only if it is canonical.
-/

namespace CreateIndex

open Text

variable {statements origins : List String} {changes : List Change} {change : Change}

/-! ## Sessions of descriptors -/

/-- The descriptors after a change, without a look at any statement but an added
one. -/
def Change.onDescriptors (descriptors : List Descriptor) : Change → List Descriptor
  | .renameTable table => descriptors.map (Descriptor.onTable table)
  | .renameColumn old new => descriptors.map (Descriptor.renameColumn old new)
  | .dropColumn column => descriptors.filter fun descriptor => !descriptor.references column
  | .canonicalize => descriptors
  | .add statement => descriptors ++ [Descriptor.ofStatement statement]

def replayDescriptors (descriptors : List Descriptor) (changes : List Change) :
    List Descriptor :=
  changes.foldl Change.onDescriptors descriptors

/-! ## Admissible changes -/

/-- A change whose new names can be quoted and whose added statement is tame.  The column
that is renamed is not the text of an expression. -/
def Change.Admissible (statements : List String) : Change → Prop
  | .renameTable table => IsQuotable table.toList
  | .renameColumn old new => IsQuotable new.toList ∧ new ≠ "" ∧
      ∀ statement ∈ statements, ∀ column ∈ (Descriptor.ofStatement statement).columns,
        column.isExpression = true → column.name ≠ old
  | .dropColumn _ => True
  | .canonicalize => True
  | .add statement => Tame statement

/-- Each change is admissible for the statements that it meets. -/
def Admissible (statements : List String) : List Change → Prop
  | [] => True
  | change :: changes =>
    change.Admissible statements ∧ Admissible (change.apply statements) changes

/-- A session that breaks off was admissible as far as it went. -/
theorem Admissible.of_isPrefix {done : List Change}
    (hadmissible : Admissible statements changes) (hdone : done <+: changes) :
    Admissible statements done := by
  induction done generalizing statements changes with
  | nil => trivial
  | cons change done ih =>
      obtain ⟨rest, rfl⟩ := hdone
      exact ⟨hadmissible.1, ih hadmissible.2 (List.prefix_append done rest)⟩

/-! ## One step -/

/-- What every change needs to find: each statement is read as a descriptor that
survives being written. -/
def AllSettled (statements : List String) : Prop :=
  ∀ statement ∈ statements, (Descriptor.ofStatement statement).Settled

/-- A change to the statements means the same change to their descriptors. -/
theorem Change.map_ofStatement_apply (hsettled : AllSettled statements)
    (hadmissible : change.Admissible statements) :
    (change.apply statements).map Descriptor.ofStatement =
      change.onDescriptors (statements.map Descriptor.ofStatement) := by
  cases change with
  | renameTable table =>
      simp only [apply, onDescriptors, List.map_map]
      apply List.map_congr_left
      intro statement hstatement
      rw [Function.comp_apply, Function.comp_apply]
      exact ofStatement_renameTable (hsettled statement hstatement) hadmissible
  | renameColumn old new =>
      obtain ⟨hnew, hne, hplain⟩ := hadmissible
      simp only [apply, onDescriptors, List.map_map]
      apply List.map_congr_left
      intro statement hstatement
      rw [Function.comp_apply, Function.comp_apply]
      exact ofStatement_renameColumn (hsettled statement hstatement) hnew hne
        (hplain statement hstatement)
  | dropColumn column =>
      simp only [apply, onDescriptors, List.filter_map]
      rfl
  | canonicalize =>
      simp only [apply, onDescriptors, List.map_map]
      apply List.map_congr_left
      intro statement hstatement
      rw [Function.comp_apply]
      exact (hsettled statement hstatement).ofStatement_toStatement
  | add statement => simp [apply, onDescriptors]

/-- Admissible changes keep the statements settled, so the next change finds
what it needs. -/
theorem Change.allSettled_apply (hsettled : AllSettled statements)
    (hadmissible : change.Admissible statements) : AllSettled (change.apply statements) := by
  cases change with
  | renameTable table =>
      intro written hwritten
      obtain ⟨statement, hstatement, rfl⟩ := List.mem_map.mp hwritten
      rw [ofStatement_renameTable (hsettled statement hstatement) hadmissible]
      exact (hsettled statement hstatement).onTable hadmissible
  | renameColumn old new =>
      obtain ⟨hnew, hne, hplain⟩ := hadmissible
      intro written hwritten
      obtain ⟨statement, hstatement, rfl⟩ := List.mem_map.mp hwritten
      rw [ofStatement_renameColumn (hsettled statement hstatement) hnew hne
        (hplain statement hstatement)]
      exact (hsettled statement hstatement).renameColumn hnew hne (hplain statement hstatement)
  | dropColumn column =>
      intro statement hstatement
      exact hsettled statement (List.mem_of_mem_filter hstatement)
  | canonicalize =>
      intro written hwritten
      obtain ⟨statement, hstatement, rfl⟩ := List.mem_map.mp hwritten
      rw [CreateIndex.canonicalize, (hsettled statement hstatement).ofStatement_toStatement]
      exact hsettled statement hstatement
  | add added =>
      intro statement hstatement
      rcases List.mem_append.mp hstatement with hstatement | hstatement
      · exact hsettled statement hstatement
      · rw [List.mem_singleton.mp hstatement]
        exact Tame.settled hadmissible

/-! ## Texts -/

def addedBy (changes : List Change) : List String :=
  changes.filterMap fun change =>
    match change with
    | .add statement => some statement
    | _ => none

/-- The current text of a statement is the one that was added, or it is
canonical: no change leaves it half rewritten. -/
def KeptOrWritten (origin current : String) : Prop :=
  current = origin ∨ current = canonicalize current

theorem keptOrWritten_toStatement {descriptor : Descriptor} (hsettled : descriptor.Settled)
    (origin : String) : KeptOrWritten origin descriptor.toStatement := by
  right
  rw [canonicalize, hsettled.ofStatement_toStatement]

/-- What is left of a list that followed another followed part of it. -/
theorem exists_sublist_filter (horigins : List.Forall₂ KeptOrWritten origins statements)
    (p : String → Bool) :
    ∃ kept, kept.Sublist origins ∧ List.Forall₂ KeptOrWritten kept (statements.filter p) := by
  induction horigins with
  | nil => exact ⟨[], .slnil, .nil⟩
  | @cons origin current origins statements hfirst _ ih =>
      obtain ⟨kept, hsublist, hkept⟩ := ih
      by_cases hp : p current
      · rw [List.filter_cons_of_pos hp]
        exact ⟨origin :: kept, hsublist.cons_cons origin, .cons hfirst hkept⟩
      · rw [List.filter_cons_of_neg hp]
        exact ⟨kept, hsublist.cons origin, hkept⟩

/-- Each text may be written anew, as long as what is written is canonical or
what was there before. -/
theorem keptOrWritten_map {write : String → String}
    (horigins : List.Forall₂ KeptOrWritten origins statements)
    (hwrite : ∀ statement ∈ statements, ∀ origin, KeptOrWritten origin statement →
      KeptOrWritten origin (write statement)) :
    List.Forall₂ KeptOrWritten origins (statements.map write) := by
  induction horigins with
  | nil => exact .nil
  | cons hfirst _ ih =>
      exact .cons (hwrite _ (by simp) _ hfirst)
        (ih fun statement hstatement => hwrite statement (by simp [hstatement]))

/-- After a change each text still goes back to one that was added, and the
order of the texts is kept. -/
theorem Change.exists_origins_apply (hsettled : AllSettled statements)
    (hadmissible : change.Admissible statements)
    (horigins : List.Forall₂ KeptOrWritten origins statements) :
    ∃ kept, kept.Sublist (origins ++ addedBy [change]) ∧
      List.Forall₂ KeptOrWritten kept (change.apply statements) := by
  cases change with
  | renameTable table =>
      refine ⟨origins, List.sublist_append_left _ _, keptOrWritten_map horigins ?_⟩
      intro statement hstatement origin _
      exact keptOrWritten_toStatement ((hsettled statement hstatement).onTable hadmissible) _
  | renameColumn old new =>
      obtain ⟨hnew, hne, hplain⟩ := hadmissible
      refine ⟨origins, List.sublist_append_left _ _, keptOrWritten_map horigins ?_⟩
      intro statement hstatement origin hkept
      rw [CreateIndex.renameColumn]
      split
      · exact keptOrWritten_toStatement ((hsettled statement hstatement).renameColumn hnew hne
          (hplain statement hstatement)) _
      · exact hkept
  | dropColumn column =>
      obtain ⟨kept, hsublist, hkept⟩ := exists_sublist_filter horigins _
      exact ⟨kept, hsublist.trans (List.sublist_append_left _ _), hkept⟩
  | canonicalize =>
      refine ⟨origins, List.sublist_append_left _ _, keptOrWritten_map horigins ?_⟩
      intro statement hstatement origin _
      exact keptOrWritten_toStatement (hsettled statement hstatement) _
  | add statement =>
      exact ⟨origins ++ [statement], List.Sublist.refl _,
        List.rel_append horigins (.cons (Or.inl rfl) .nil)⟩

/-! ## Whole sessions -/

/-- The statements of a session mean what the session means on descriptors, by
induction on the changes. -/
theorem map_ofStatement_replay (hsettled : AllSettled statements)
    (hadmissible : Admissible statements changes) :
    (replay statements changes).map Descriptor.ofStatement =
      replayDescriptors (statements.map Descriptor.ofStatement) changes := by
  induction changes generalizing statements with
  | nil => rfl
  | cons change changes ih =>
      obtain ⟨hfirst, hrest⟩ := hadmissible
      calc
        (replay statements (change :: changes)).map Descriptor.ofStatement
          = replayDescriptors ((change.apply statements).map Descriptor.ofStatement)
              changes := ih (Change.allSettled_apply hsettled hfirst) hrest
        _ = replayDescriptors (statements.map Descriptor.ofStatement) (change :: changes) := by
          rw [Change.map_ofStatement_apply hsettled hfirst]
          rfl

/-- Every text of a session goes back to one that was there at first or was
added. -/
theorem exists_origins_replay (hsettled : AllSettled statements)
    (hadmissible : Admissible statements changes)
    (horigins : List.Forall₂ KeptOrWritten origins statements) :
    ∃ kept, kept.Sublist (origins ++ addedBy changes) ∧
      List.Forall₂ KeptOrWritten kept (replay statements changes) := by
  induction changes generalizing statements origins with
  | nil => exact ⟨origins, List.sublist_append_left _ _, horigins⟩
  | cons change changes ih =>
      obtain ⟨hfirst, hrest⟩ := hadmissible
      obtain ⟨kept, hkept, hstep⟩ := Change.exists_origins_apply hsettled hfirst horigins
      obtain ⟨last, hlast, hrun⟩ := ih (Change.allSettled_apply hsettled hfirst) hrest hstep
      refine ⟨last, hlast.trans ?_, hrun⟩
      have hadded : addedBy (change :: changes) = addedBy [change] ++ addedBy changes := by
        rw [addedBy, addedBy, addedBy, ← List.filterMap_append, List.singleton_append]
      rw [hadded, ← List.append_assoc]
      exact hkept.append_right _

theorem allSettled_of_tame (htame : ∀ statement ∈ statements, Tame statement) :
    AllSettled statements :=
  fun statement hstatement => (htame statement hstatement).settled

/-- After every step of a session that starts with tame statements, the statements mean what
the same steps give on descriptors, and each is the text that was added or canonical. -/
theorem replay_refines (htame : ∀ statement ∈ statements, Tame statement)
    (hadmissible : Admissible statements changes) :
    ∀ done, done <+: changes →
      (replay statements done).map Descriptor.ofStatement =
          replayDescriptors (statements.map Descriptor.ofStatement) done ∧
        ∃ kept, kept.Sublist (statements ++ addedBy done) ∧
          List.Forall₂ KeptOrWritten kept (replay statements done) := by
  intro done hdone
  have hsettled : AllSettled statements := allSettled_of_tame htame
  have hbefore : Admissible statements done := hadmissible.of_isPrefix hdone
  have horigins : List.Forall₂ KeptOrWritten statements statements :=
    List.forall₂_same.mpr fun statement _ => Or.inl rfl
  exact ⟨map_ofStatement_replay hsettled hbefore,
    exists_origins_replay hsettled hbefore horigins⟩

def exampleChanges : List Change :=
  [.renameColumn "b" "c d", .add "create  index j on u ((a) desc) WHERE b > 1;",
   .renameTable "s.t", .dropColumn "c d", .canonicalize]

def exampleStatements : List String :=
  ["CREATE INDEX i ON t (lower(b), b)", "no statement", "create index k on t(lower( b ))"]

theorem replay_refines_example :
    ((∀ statement ∈ exampleStatements, Tame statement) ∧
      Admissible exampleStatements exampleChanges) ∧
    ((replay exampleStatements exampleChanges).map Descriptor.ofStatement =
        replayDescriptors (exampleStatements.map Descriptor.ofStatement) exampleChanges ∧
      ∃ kept : List String, kept.Sublist (exampleStatements ++ addedBy exampleChanges) ∧
        List.Forall₂ KeptOrWritten kept (replay exampleStatements exampleChanges)) := by
  have htame : ∀ statement ∈ exampleStatements, Tame statement := by decide +kernel
  have hadmissible : Admissible exampleStatements exampleChanges := by
    refine ⟨⟨⟨by decide, by decide, by decide⟩, by decide, by decide +kernel⟩, ?_,
      ⟨by decide, by decide, by decide⟩, trivial, trivial, trivial⟩
    change Tame _
    decide +kernel
  exact ⟨⟨htame, hadmissible⟩, replay_refines htame hadmissible _ List.prefix_rfl⟩

end CreateIndex
