import CreateIndex.Proofs.Statement.Taken
import CreateIndex.Statement.Cursor
import Mathlib.Data.List.DropRight

/-!
# Calls one after the other

A cursor can be asked for a statement again and again.  Each call goes on from where the one
before it stopped, and a call that fails may stop anywhere in the head.  Still a run of calls
gives one descriptor at most, since a call that succeeds leaves nothing but blanks.  And a call
that fails where it stands has decided all later ones: what is read depends on the lexemes
ahead, not on the blanks before them.
-/

namespace CreateIndex.Statement

open Lexeme

namespace Reading

variable {α β : Type} {read : Reading α} {next : α → Reading β} {accept : Lexeme → Option α}
  {lexemes lexemes' left : List Lexeme}

/-! ## What readers leave -/

/-- What the reader leaves is the end of what it was given, also where it fails:
a failed step has still moved the cursor. -/
def LeavesSuffix (read : Reading α) : Prop :=
  ∀ lexemes, (read lexemes).2 <:+ lexemes

namespace LeavesSuffix

theorem suffix {taken : Option α} (hread : LeavesSuffix read)
    (htook : read lexemes = (taken, left)) : left <:+ lexemes := by
  have hleft := hread lexemes
  rwa [htook] at hleft

theorem pure (a : α) : LeavesSuffix (pure a : Reading α) :=
  fun _ => List.suffix_rfl

/-- Steps that each leave a suffix leave one together.  A step that fails leaves
what the steps before it have left. -/
theorem bind (hread : LeavesSuffix read) (hnext : ∀ a, LeavesSuffix (next a)) :
    LeavesSuffix (read >>= next) := by
  intro lexemes
  simp only [Bind.bind]
  cases hfirst : read lexemes with
  | mk taken left =>
      cases taken with
      | none => exact hread.suffix hfirst
      | some a => exact (hnext a left).trans (hread.suffix hfirst)

theorem one (accept : Lexeme → Option α) : LeavesSuffix (one accept) := by
  intro lexemes
  cases hread : Reading.one accept lexemes with
  | mk taken left =>
      cases taken with
      | none => exact left_of_one_eq_none hread ▸ List.suffix_rfl
      | some a =>
          obtain ⟨piece, -, htook⟩ := took_of_one hread
          exact htook.suffix

theorem keyword (spelling : String) : LeavesSuffix (keyword spelling) :=
  one _

theorem keyword? (spelling : String) : LeavesSuffix (keyword? spelling) := by
  intro lexemes
  rw [Reading.keyword?]
  cases hfound : Reading.keyword spelling lexemes with
  | mk found left => cases found <;> exact (keyword spelling).suffix hfound

theorem token (expected : Token) : LeavesSuffix (token expected) :=
  one _

theorem identifier : LeavesSuffix identifier :=
  one _

theorem furtherParts : LeavesSuffix furtherParts := by
  intro lexemes
  fun_induction Reading.furtherParts lexemes with
  | case1 lexemes left hperiod => exact (token _).suffix hperiod
  | case2 lexemes _ left hperiod left' hpart =>
      exact (identifier.suffix hpart).trans ((token _).suffix hperiod)
  | case3 lexemes _ left hperiod _ left' hpart _ left'' hfurther ih =>
      rw [hfurther] at ih
      exact ih.trans ((identifier.suffix hpart).trans ((token _).suffix hperiod))
  | case4 lexemes _ left hperiod _ left' hpart left'' hfurther ih =>
      rw [hfurther] at ih
      exact ih.trans ((identifier.suffix hpart).trans ((token _).suffix hperiod))

theorem nameParts : LeavesSuffix nameParts :=
  bind identifier fun _ => bind furtherParts fun _ => pure _

theorem ifNotExists : LeavesSuffix ifNotExists := by
  refine bind (keyword? "IF") fun optional => ?_
  cases optional with
  | false => exact pure false
  | true => exact bind (keyword _) fun _ => bind (keyword _) fun _ => pure true

theorem columnList : LeavesSuffix columnList := by
  refine bind (token _) fun _ lexemes => ?_
  cases hcut : cutEntries 0 lexemes with
  | none => exact List.nil_suffix
  | some cut =>
      obtain ⟨body, close, rfl, -, -⟩ := exists_body_of_cutEntries hcut
      exact (List.suffix_cons close _).trans (List.suffix_append body _)

theorem ended : LeavesSuffix ended :=
  fun _ => List.suffix_rfl

theorem front : LeavesSuffix front :=
  bind (keyword _) fun _ => bind (keyword? _) fun _ => bind (keyword _) fun _ =>
    bind ifNotExists fun _ => bind nameParts fun _ => bind (keyword _) fun _ =>
      bind nameParts fun _ => pure _

/-- A call never goes back: whatever it gives, it leaves the end of the lexemes
that it started with. -/
theorem outline : LeavesSuffix outline := by
  rw [outline_eq]
  exact bind front fun _ => bind columnList fun _ => bind ended fun _ => pure _

end LeavesSuffix

end Reading

/-! ## Lexemes ahead -/

variable {α β : Type} {andThen : α → Reading β} {accept : Lexeme → Option α}
  {lexemes lexemes' left : List Lexeme} {outlined : Outline}

def ahead (lexemes : List Lexeme) : List Lexeme :=
  lexemes.dropWhile Lexeme.isBlank

theorem ahead_suffix (lexemes : List Lexeme) : ahead lexemes <:+ lexemes :=
  List.dropWhile_suffix _

theorem ahead_ahead (lexemes : List Lexeme) : ahead (ahead lexemes) = ahead lexemes :=
  List.dropWhile_idempotent _ lexemes

theorem exists_gap (lexemes : List Lexeme) : ∃ gap, AllBlank gap ∧ lexemes = gap ++ ahead lexemes :=
  ⟨lexemes.takeWhile Lexeme.isBlank, fun _ => List.mem_takeWhile_imp,
    List.takeWhile_append_dropWhile.symm⟩

theorem ahead_eq_nil_iff : ahead lexemes = [] ↔ AllBlank lexemes :=
  List.dropWhile_eq_nil_iff

theorem ahead_suffix_of_suffix (hsuffix : left <:+ lexemes) : ahead left <:+ ahead lexemes := by
  obtain ⟨taken, rfl⟩ := hsuffix
  rw [ahead, ahead, List.dropWhile_append]
  split
  · exact List.suffix_rfl
  · exact (ahead_suffix left).trans (List.suffix_append _ left)

/-- A reader that starts with one lexeme either fails where it stands or reads
the same from any lexemes with the same ones ahead. -/
theorem one_bind_cases (hahead : ahead lexemes = ahead lexemes') :
    (Reading.one accept >>= andThen) lexemes = (Reading.one accept >>= andThen) lexemes' ∨
      (Reading.one accept >>= andThen) lexemes = (none, lexemes) ∧
        (Reading.one accept >>= andThen) lexemes' = (none, lexemes') := by
  rw [ahead, ahead] at hahead
  simp only [Bind.bind, Reading.one, hahead]
  cases hdrop : lexemes'.dropWhile Lexeme.isBlank with
  | nil => exact .inr ⟨rfl, rfl⟩
  | cons lexeme rest => cases haccept : accept lexeme <;> simp [haccept]

/-- The outline depends on the lexemes ahead alone, and so does the place where
reading it stops, up to blanks. -/
theorem outline_eq_of_ahead_eq (hahead : ahead lexemes = ahead lexemes') :
    (outline lexemes).1 = (outline lexemes').1 ∧
      ahead (outline lexemes).2 = ahead (outline lexemes').2 := by
  rcases one_bind_cases hahead with hsame | ⟨hnone, hnone'⟩
  · exact ⟨congrArg Prod.fst hsame, congrArg (ahead ·.2) hsame⟩
  · rw [show outline lexemes = (none, lexemes) from hnone,
      show outline lexemes' = (none, lexemes') from hnone']
    exact ⟨rfl, hahead⟩

/-- Nothing is taken from blanks, and nothing is read from them. -/
theorem outline_of_allBlank (hblank : AllBlank lexemes) : outline lexemes = (none, lexemes) := by
  have hahead := ahead_eq_nil_iff.mpr hblank
  rw [ahead] at hahead
  simp only [outline, Bind.bind, Reading.keyword, Reading.one, hahead]

/-- What has an outline leaves only blanks, because the end of the head is part
of what is read. -/
theorem allBlank_of_outline (hread : outline lexemes = (some outlined, left)) :
    AllBlank left := by
  rw [outline_eq] at hread
  obtain ⟨_, _, -, hread⟩ := eq_some_of_bind hread
  obtain ⟨_, _, -, hread⟩ := eq_some_of_bind hread
  obtain ⟨_, _, hended, hread⟩ := eq_some_of_bind hread
  cases hread
  exact (allBlank_of_ended hended).2

namespace Cursor

variable {cursor : Cursor} {descriptor : Descriptor} {call later : Nat}

/-! ## One call -/

theorem next_fst (cursor : Cursor) :
    cursor.next.1 = (outline cursor.pending).1.bind fun outlined =>
      (predicate? cursor.trailer).map outlined.descriptor :=
  rfl

theorem next_pending (cursor : Cursor) : cursor.next.2.pending = (outline cursor.pending).2 :=
  rfl

theorem next_trailer (cursor : Cursor) : cursor.next.2.trailer = cursor.trailer :=
  rfl

theorem next_suffix (cursor : Cursor) : cursor.next.2.pending <:+ cursor.pending :=
  Reading.LeavesSuffix.outline cursor.pending

/-- The next call fails, and stops where it started but for blanks, so that no
later call finds anything else. -/
def IsStuck (cursor : Cursor) : Prop :=
  cursor.next.1 = none ∧ ahead cursor.next.2.pending = ahead cursor.pending

/-- A cursor that is stuck stays so, since the next call finds the same lexemes
ahead. -/
theorem IsStuck.next (hstuck : cursor.IsStuck) : cursor.next.2.IsStuck := by
  obtain ⟨hnone, hahead⟩ := hstuck
  obtain ⟨hread, hleft⟩ := outline_eq_of_ahead_eq hahead
  rw [next_fst] at hnone
  refine ⟨?_, hleft⟩
  rw [next_fst, hread, next_trailer]
  exact hnone

theorem isStuck_of_allBlank (hblank : AllBlank cursor.pending) : cursor.IsStuck := by
  have hread := outline_of_allBlank hblank
  constructor
  · rw [next_fst, hread]
    rfl
  · rw [next_pending, hread]

/-- A call that gives a descriptor leaves nothing to be read, so the cursor is
stuck after it. -/
theorem isStuck_next_of_some (hsome : cursor.next.1 = some descriptor) :
    cursor.next.2.IsStuck := by
  rw [next_fst] at hsome
  obtain ⟨outlined, hread, -⟩ := Option.bind_eq_some_iff.mp hsome
  exact isStuck_of_allBlank (allBlank_of_outline (Prod.ext hread rfl))

/-! ## Runs of calls -/

def after (cursor : Cursor) : Nat → Cursor
  | 0 => cursor
  | calls + 1 => (cursor.after calls).next.2

/-- What a call gives, where calls are counted from zero. -/
def answer (cursor : Cursor) (call : Nat) : Option Descriptor :=
  (cursor.after call).next.1

/-- The lexemes from the place where so many calls stopped.  A call goes on over the blanks
where it stops. -/
def remaining (cursor : Cursor) : Nat → List Lexeme
  | 0 => cursor.pending
  | calls + 1 => ahead (cursor.after (calls + 1)).pending

def passed (cursor : Cursor) (calls : Nat) : Nat :=
  cursor.pending.length - (cursor.remaining calls).length

theorem after_trailer (cursor : Cursor) (calls : Nat) :
    (cursor.after calls).trailer = cursor.trailer := by
  induction calls with
  | zero => rfl
  | succ calls ih => exact ih

theorem ahead_remaining (cursor : Cursor) (calls : Nat) :
    ahead (cursor.remaining calls) = ahead (cursor.after calls).pending := by
  cases calls with
  | zero => rfl
  | succ calls => exact ahead_ahead _

/-- What a run leaves before its place is blank: a call may stop before blanks
that the next one passes over first. -/
theorem exists_gap_remaining (cursor : Cursor) (calls : Nat) :
    ∃ gap, AllBlank gap ∧ (cursor.after calls).pending = gap ++ cursor.remaining calls := by
  cases calls with
  | zero => exact ⟨[], allBlank_nil, rfl⟩
  | succ calls => exact exists_gap _

/-- One more call goes on from the place of the calls before, and never to a
place before that. -/
theorem remaining_succ_suffix (cursor : Cursor) (calls : Nat) :
    cursor.remaining (calls + 1) <:+ cursor.remaining calls := by
  have hahead : cursor.remaining (calls + 1) <:+ ahead (cursor.after calls).pending :=
    ahead_suffix_of_suffix (next_suffix _)
  rw [← ahead_remaining] at hahead
  exact hahead.trans (ahead_suffix _)

theorem remaining_suffix (cursor : Cursor) (calls : Nat) :
    cursor.remaining calls <:+ cursor.pending := by
  induction calls with
  | zero => exact List.suffix_rfl
  | succ calls ih => exact (remaining_succ_suffix cursor calls).trans ih

theorem remaining_eq_drop (cursor : Cursor) (calls : Nat) :
    cursor.remaining calls = cursor.pending.drop (cursor.passed calls) :=
  List.suffix_iff_eq_drop.mp (remaining_suffix cursor calls)

theorem passed_le_succ (cursor : Cursor) (calls : Nat) :
    cursor.passed calls ≤ cursor.passed (calls + 1) := by
  have hlength := (remaining_succ_suffix cursor calls).length_le
  simp only [passed]
  omega

/-- Stuck once, stuck for the rest of the run, by induction on the calls in
between. -/
theorem isStuck_after_of_le (hstuck : (cursor.after call).IsStuck) (hle : call ≤ later) :
    (cursor.after later).IsStuck := by
  induction later, hle using Nat.le_induction with
  | base => exact hstuck
  | succ later _ ih => exact ih.next

/-- A call that fails and goes over nothing has found the cursor stuck: it
stopped at the lexeme that it started from. -/
theorem isStuck_after_of_passed_eq (hnone : cursor.answer call = none)
    (hsame : cursor.passed (call + 1) = cursor.passed call) : (cursor.after call).IsStuck := by
  have hremaining : cursor.remaining (call + 1) = cursor.remaining call := by
    rw [remaining_eq_drop, hsame, ← remaining_eq_drop]
  refine ⟨hnone, ?_⟩
  calc
    ahead (cursor.after (call + 1)).pending
      = ahead (cursor.remaining (call + 1)) := (ahead_remaining cursor (call + 1)).symm
    _ = ahead (cursor.remaining call) := by rw [hremaining]
    _ = ahead (cursor.after call).pending := ahead_remaining cursor call

theorem answer_eq_none_of_some (hsome : cursor.answer call = some descriptor)
    (hlater : call < later) : cursor.answer later = none := by
  have hstuck : (cursor.after (call + 1)).IsStuck := isStuck_next_of_some hsome
  exact (isStuck_after_of_le hstuck hlater).1

/-- A run of calls only goes forward, through the lexemes it started with; one of its calls
at most gives a descriptor; and once a call fails and goes over nothing, all later ones
fail. -/
theorem one_descriptor_of_calls (cursor : Cursor) :
    (∀ calls,
      cursor.passed calls ≤ cursor.passed (calls + 1) ∧
      cursor.passed calls ≤ cursor.pending.length ∧
      (cursor.after calls).trailer = cursor.trailer ∧
      ∃ gap, AllBlank gap ∧
        (cursor.after calls).pending = gap ++ cursor.pending.drop (cursor.passed calls)) ∧
    (∀ call descriptor, cursor.answer call = some descriptor →
      ∀ other, other ≠ call → cursor.answer other = none) ∧
    ∀ call, cursor.answer call = none → cursor.passed (call + 1) = cursor.passed call →
      ∀ later, call < later → cursor.answer later = none := by
  refine ⟨fun calls => ?_, fun call descriptor hsome other hother => ?_,
    fun call hnone hsame later hlater => ?_⟩
  · rw [← remaining_eq_drop]
    exact ⟨passed_le_succ cursor calls, Nat.sub_le _ _, after_trailer cursor calls,
      exists_gap_remaining cursor calls⟩
  · rcases Nat.lt_or_gt_of_ne hother with hbefore | hafter
    · cases hanswer : cursor.answer other with
      | none => rfl
      | some =>
          have hnone := answer_eq_none_of_some hanswer hbefore
          rw [hsome] at hnone
          cases hnone
    · exact answer_eq_none_of_some hsome hafter
  · exact (isStuck_after_of_le (isStuck_after_of_passed_eq hnone hsame) hlater.le).1

-- The first call stops before the second `CREATE`, and the second one goes on from there.
example :
    (Cursor.ofText? "CREATE INDEX x CREATE INDEX i ON t (a)").map
        (fun cursor => (List.range 3).map fun call => (cursor.answer call).isSome) =
      some [false, true, false] := by
  decide +kernel

end Cursor

end CreateIndex.Statement
