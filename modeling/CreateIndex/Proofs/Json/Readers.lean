import CreateIndex.Json.Value

/-!
# What JSON readers take

`Reads` says that a reader takes a written value for what it is, whatever blanks stand before
it and whatever follows it.  Readers are run one step after the other: a step that succeeds
hands the rest of the text to the next one.
-/

namespace CreateIndex.Json

variable {α β : Type} {read : Reader α} {next : α → Reader β} {value : α}
  {gap before after written first second text left rest : List Char} {c : Char}

def IsGap (gap : List Char) : Prop :=
  ∀ c ∈ gap, isGap c

instance decidableIsGap (gap : List Char) : Decidable (IsGap gap) :=
  List.decidableBAll (isGap ·) gap

theorem isGap_nil : IsGap [] := by
  intro c hc
  cases hc

/-- The reader takes the written value from the front of a text, after any
blanks.  No value starts with a blank or a closing bracket, which would end a
list. -/
structure Reads (read : Reader α) (written : List Char) (value : α) : Prop where
  starts : ∃ c ∈ written.head?, ¬isGap c ∧ c ≠ ']'
  run_eq : ∀ gap rest, IsGap gap → read.run (gap ++ (written ++ rest)) = .ok (value, rest)

/-! ## Steps -/

/-- A step that succeeds hands on what it leaves. -/
theorem run_bind_of_ok (hread : read.run text = .ok (value, left)) :
    (read >>= next).run text = (next value).run left := by
  rw [StateT.run_bind, hread]
  rfl

theorem peekToken_run (hgap : IsGap gap) (hc : ¬isGap c) (rest : List Char) :
    peekToken.run (gap ++ c :: rest) = .ok (c, c :: rest) := by
  have hdrop : (gap ++ c :: rest).dropWhile isGap = c :: rest := by
    rw [List.dropWhile_append_of_pos hgap, List.dropWhile_cons_of_neg hc]
  have hskip : skipGap.run (gap ++ c :: rest) = .ok ((), c :: rest) :=
    congrArg (fun left => Except.ok ((), left)) hdrop
  rw [peekToken, run_bind_of_ok hskip]
  rfl

theorem get_run (text : List Char) :
    (get : Reader (List Char)).run text = .ok (text, text) :=
  rfl

theorem peek_run (c : Char) (rest : List Char) :
    peek.run (c :: rest) = .ok (some c, c :: rest) :=
  rfl

theorem skip_run (c : Char) (rest : List Char) : skip.run (c :: rest) = .ok ((), rest) :=
  rfl

theorem expect_run (cs rest : List Char) : (expect cs).run (cs ++ rest) = .ok ((), rest) := by
  induction cs with
  | nil => rfl
  | cons c cs ih =>
      rw [List.cons_append, expect, run_bind_of_ok (peek_run c _)]
      dsimp only
      rw [if_pos rfl]
      exact ih

/-- Changing what is read does not change what is taken. -/
theorem Reads.map (hread : Reads read written value) (change : α → β) :
    Reads (change <$> read) written (change value) where
  starts := hread.starts
  run_eq gap rest hgap := by
    rw [StateT.run_map, hread.run_eq gap rest hgap]
    rfl

/-- A value with blanks around it makes a whole text: nothing but blanks may be
left once it has been taken. -/
theorem Reads.readAll_between (hread : Reads read written value) (hbefore : IsGap before)
    (hafter : IsGap after) : readAll read (before ++ (written ++ after)) = .ok value := by
  have hall : after.all isGap := List.all_eq_true.mpr hafter
  rw [readAll, hread.run_eq before after hbefore]
  exact if_pos hall

theorem Reads.readAll_eq (hread : Reads read written value) :
    readAll read written = .ok value := by
  simpa using hread.readAll_between isGap_nil isGap_nil

/-! ## Values of no interest -/

/-- The reader takes the written value if the rest follows it, whatever the
value is.  A number needs this, since it ends only where it does not go on. -/
def Takes (read : Reader α) (written rest : List Char) : Prop :=
  ∃ value, read.run (written ++ rest) = .ok (value, rest)

theorem takes_pure (value : α) (rest : List Char) : Takes (pure value) [] rest :=
  ⟨value, rfl⟩

theorem takes_bind_of_ok (hread : read.run (written ++ rest) = .ok (value, left ++ rest))
    (hnext : Takes (next value) left rest) : Takes (read >>= next) written rest := by
  obtain ⟨taken, hnext⟩ := hnext
  exact ⟨taken, (run_bind_of_ok hread).trans hnext⟩

/-- Two readers in sequence take two pieces in sequence, where the first has to
know that it ends before the second. -/
theorem Takes.bind (hread : Takes read first (second ++ rest))
    (hnext : ∀ value, Takes (next value) second rest) :
    Takes (read >>= next) (first ++ second) rest := by
  obtain ⟨value, hread⟩ := hread
  rw [← List.append_assoc] at hread
  exact takes_bind_of_ok hread (hnext value)

/-! ## Flags -/

theorem reads_flag (value : Bool) : Reads flag (writeFlag value) value where
  starts := by cases value <;> exact ⟨_, rfl, by decide⟩
  run_eq gap rest hgap := by
    -- The word is looked at before it is taken, so its first letter is split off.
    cases value with
    | false =>
        have hpeek := peekToken_run hgap (show ¬isGap 'f' by decide) ("alse".toList ++ rest)
        refine (run_bind_of_ok hpeek).trans ?_
        exact run_bind_of_ok (expect_run "false".toList rest)
    | true =>
        have hpeek := peekToken_run hgap (show ¬isGap 't' by decide) ("rue".toList ++ rest)
        refine (run_bind_of_ok hpeek).trans ?_
        exact run_bind_of_ok (expect_run "true".toList rest)

end CreateIndex.Json
