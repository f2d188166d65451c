import CreateIndex.Proofs.Json.Grammar
import CreateIndex.Proofs.Text.Spacing

/-!
# Numbers in JSON are taken

A number of whatever size is taken up to its end, which is where no character follows that could
go on with it.
-/

namespace CreateIndex.Json

open Text

variable {cs sign digits fraction exponent written rest text : List Char} {c : Char}

/-- No number goes on with the rest. -/
def EndsNumber (rest : List Char) : Prop :=
  ∀ c ∈ rest.head?, ¬c.isDigit ∧ c ∉ ['.', 'e', 'E']

/-! ## Characters -/

theorem takeOneOf_run_of_mem (hc : c ∈ cs) (rest : List Char) :
    (takeOneOf cs).run (c :: rest) = .ok (some c, rest) := by
  rw [takeOneOf, run_bind_of_ok (peek_run c rest)]
  dsimp only
  rw [if_pos hc]
  rfl

theorem takeOneOf_run_of_head (hhead : ∀ c ∈ text.head?, c ∉ cs) :
    (takeOneOf cs).run text = .ok (none, text) := by
  cases text with
  | nil => rfl
  | cons c rest =>
      rw [takeOneOf, run_bind_of_ok (peek_run c rest)]
      dsimp only
      rw [if_neg (hhead c rfl)]
      rfl

/-- A sign is taken if it is there, and left out without harm if it is not. -/
theorem takes_sign (hsign : sign ∈ [] :: cs.map fun c => [c]) (hhead : ∀ c ∈ rest.head?, c ∉ cs) :
    Takes (takeOneOf cs) sign rest := by
  rcases List.mem_cons.mp hsign with rfl | hsign
  · exact ⟨none, takeOneOf_run_of_head hhead⟩
  · obtain ⟨c, hc, rfl⟩ := List.mem_map.mp hsign
    exact ⟨some c, takeOneOf_run_of_mem hc rest⟩

/-! ## Digits -/

theorem IsDigits.head_isDigit (hdigits : IsDigits digits) (rest : List Char) :
    ∀ c ∈ (digits ++ rest).head?, c.isDigit := by
  obtain ⟨d, more, rfl⟩ := List.exists_cons_of_ne_nil hdigits.ne_nil
  intro c hc
  cases hc
  exact hdigits.all_digits d (by simp)

theorem not_isDigit_of_mem_signs : ∀ c ∈ ['+', '-'], ¬c.isDigit := by
  decide

/-- Digits are taken up to the first character that is none, and there has to be
at least one. -/
theorem someDigits_run (hdigits : IsDigits digits) (hrest : ∀ c ∈ rest.head?, ¬c.isDigit)
    (atEnd : Fault) : (someDigits atEnd).run (digits ++ rest) = .ok (digits, rest) := by
  have htake := takeWhile_append_of_head hdigits.all_digits hrest
  have hdrop := dropWhile_append_of_head hdigits.all_digits hrest
  have htaken : takeDigits.run (digits ++ rest) = .ok (digits, rest) := by
    change Except.ok (_, _) = _
    rw [htake, hdrop]
  obtain ⟨c, more, rfl⟩ := List.exists_cons_of_ne_nil hdigits.ne_nil
  rw [List.cons_append, someDigits, run_bind_of_ok (peek_run c _)]
  dsimp only
  rw [if_pos (hdigits.all_digits c (by simp))]
  exact htaken

/-! ## Parts of a number -/

/-- Neither the whole part of a number nor its fraction goes on with its
exponent. -/
theorem ExponentText.head_append (hexponent : ExponentText exponent) (hrest : EndsNumber rest) :
    ∀ c ∈ (exponent ++ rest).head?, ¬c.isDigit ∧ c ∉ ['.'] := by
  cases hexponent with
  | none =>
      intro c hc
      obtain ⟨hdigit, hothers⟩ := hrest c hc
      exact ⟨hdigit, fun hpoint => hothers (List.mem_append_left ['e', 'E'] hpoint)⟩
  | @some letter sign digits hletter =>
      have hletters : ∀ letter ∈ ['e', 'E'], ¬letter.isDigit ∧ letter ∉ ['.'] := by decide
      intro c hc
      cases hc
      exact hletters letter hletter

theorem FractionText.head_append (hfraction : FractionText fraction)
    (htext : ∀ c ∈ text.head?, ¬c.isDigit) : ∀ c ∈ (fraction ++ text).head?, ¬c.isDigit := by
  cases hfraction with
  | none => exact htext
  | some =>
      intro c hc
      cases hc
      decide

/-- Takes the exponent of a number whose other parts have been taken. -/
def numberEnd (atEnd : Fault) (whole fraction : List Char) : Reader Number := do
  match ← takeOneOf ['e', 'E'] with
  | none => return { whole, fraction, exponent := 0 }
  | some _ =>
    let sign ← takeOneOf ['+', '-']
    let digits ← someDigits atEnd
    let size := digits.foldl (fun size digit => 10 * size + (digit.toNat - '0'.toNat)) 0
    return { whole, fraction, exponent := if sign = some '-' then -size else size }

/-- A number may end with its exponent or without one.  What follows must not
look like more of it. -/
theorem takes_numberEnd (hexponent : ExponentText exponent) (hrest : EndsNumber rest)
    (atEnd : Fault) (whole fraction : List Char) :
    Takes (numberEnd atEnd whole fraction) exponent rest := by
  cases hexponent with
  | none =>
      have hhead : ∀ c ∈ rest.head?, c ∉ ['e', 'E'] := by
        intro c hc hletter
        exact (hrest c hc).2 (List.mem_cons_of_mem '.' hletter)
      have hnone : (takeOneOf ['e', 'E']).run ([] ++ rest) = .ok (none, [] ++ rest) :=
        takeOneOf_run_of_head hhead
      exact takes_bind_of_ok hnone (takes_pure _ rest)
  | @some letter sign digits hletter hsign hdigits =>
      have hsign : Takes (takeOneOf ['+', '-']) sign (digits ++ rest) := by
        refine takes_sign hsign fun c hc => ?_
        exact fun hmem => not_isDigit_of_mem_signs c hmem (hdigits.head_isDigit rest c hc)
      have hdigits := someDigits_run hdigits (fun c hc => (hrest c hc).1) atEnd
      refine takes_bind_of_ok (takeOneOf_run_of_mem hletter (sign ++ digits ++ rest)) ?_
      refine hsign.bind fun taken => ?_
      rw [← List.nil_append rest] at hdigits
      exact takes_bind_of_ok hdigits (takes_pure _ rest)

/-- Every number is taken to its end, however many digits it has and whether or
not a double can hold it. -/
theorem takes_number (hnumber : NumberText written) (hrest : EndsNumber rest) (atEnd : Fault) :
    Takes (number atEnd) written rest := by
  cases hnumber with
  | @mk sign whole fraction exponent hsign hwhole hfraction hexponent =>
      have hexponentHead := hexponent.head_append hrest
      have hfractionHead := hfraction.head_append fun c hc => (hexponentHead c hc).1
      rw [← List.append_assoc] at hfractionHead
      have hsign : Takes (takeOneOf ['-']) sign (whole ++ (fraction ++ exponent) ++ rest) := by
        refine takes_sign hsign fun c hc hminus => ?_
        rw [List.append_assoc] at hc
        exact not_isDigit_of_mem_signs c (List.mem_cons_of_mem '+' hminus)
          (hwhole.isDigits.head_isDigit _ c hc)
      have hdigits := someDigits_run hwhole.isDigits hfractionHead atEnd
      rw [← List.append_assoc] at hdigits
      have hcanonical : ¬(whole.head? = some '0' ∧ whole ≠ ['0']) := fun ⟨hzero, hne⟩ =>
        hne (hwhole.eq_zero hzero)
      refine hsign.bind fun _ => takes_bind_of_ok hdigits ?_
      dsimp only
      rw [if_neg hcanonical]
      cases hfraction with
      | none =>
          have hnone := takeOneOf_run_of_head fun c hc => (hexponentHead c hc).2
          exact takes_bind_of_ok hnone (takes_numberEnd hexponent hrest atEnd whole [])
      | @some digits hfraction =>
          have hpoint : (takeOneOf ['.']).run ('.' :: digits ++ exponent ++ rest) =
              .ok (some '.', digits ++ exponent ++ rest) :=
            takeOneOf_run_of_mem (by simp) _
          have hdigits := someDigits_run hfraction (fun c hc => (hexponentHead c hc).1) atEnd
          rw [← List.append_assoc] at hdigits
          refine takes_bind_of_ok hpoint (takes_bind_of_ok hdigits ?_)
          exact takes_numberEnd hexponent hrest atEnd whole digits

end CreateIndex.Json
