import CreateIndex.Lexeme.Scan
import CreateIndex.Proofs.Text.Spacing

/-!
# Separators

A separator is a character that goes on no lexeme.  A run of characters of one class, or a
number, that was read from a text is read again when what follows its neighbourhood is
replaced by a text that starts with a separator.  The replacement may be longer, shorter
or empty.
-/

namespace CreateIndex.Lexeme

open Text

/-- A character that ends the lexeme before it, whatever that is, and takes no
part in the one after it. -/
def isSeparator (c : Char) : Bool :=
  c == ' ' || c == ',' || c == '(' || c == ')'

def Separated (text : List Char) : Prop :=
  ∀ c ∈ text.head?, isSeparator c

theorem isSeparator_iff {c : Char} :
    isSeparator c ↔ c = ' ' ∨ c = ',' ∨ c = '(' ∨ c = ')' := by
  simp [isSeparator, or_assoc]

theorem separated_nil : Separated [] := by
  intro c hc
  cases hc

theorem separated_cons {c : Char} (hc : isSeparator c) (text : List Char) :
    Separated (c :: text) := by
  intro d hd
  cases hd
  exact hc

/-- A class of characters that holds no separator does not go on where a
separated text starts. -/
theorem Separated.not_head {p : Char → Bool} {text : List Char} (hsep : Separated text)
    (hspace : p ' ' = false) (hcomma : p ',' = false) (hopen : p '(' = false)
    (hclose : p ')' = false) : ∀ c ∈ text.head?, ¬p c := by
  intro c hc
  rcases isSeparator_iff.mp (hsep c hc) with rfl | rfl | rfl | rfl <;> simp [*]

theorem Separated.head_ne {c : Char} {text : List Char} (hsep : Separated text)
    (hc : isSeparator c = false) : text.head? ≠ some c := by
  intro hhead
  simp [hsep c hhead] at hc

/-! ## Runs of one class -/

section Runs

variable {p : Char → Bool} {before after after' left : List Char}

theorem exists_append_of_suffix {text : List Char} (hsuffix : left ++ after <:+ text) :
    ∃ kept, text = kept ++ after := by
  obtain ⟨start, rfl⟩ := hsuffix
  exact ⟨start ++ left, by simp⟩

theorem not_head_rejoin (hold : ∀ c ∈ (left ++ after).head?, ¬p c)
    (hnew : ∀ c ∈ after'.head?, ¬p c) : ∀ c ∈ (left ++ after').head?, ¬p c := by
  cases left with
  | nil => exact hnew
  | cons c left => exact hold

theorem takeWhile_append_left (hread : (before ++ after).dropWhile p = left ++ after) :
    (before ++ after).takeWhile p ++ left = before := by
  have := List.takeWhile_append_dropWhile (p := p) (l := before ++ after)
  rw [hread, ← List.append_assoc] at this
  exact List.append_cancel_right this

/-- A run of one class takes the same characters if what follows its
neighbourhood is replaced by a text that does not go on with it. -/
theorem run_rejoin (hread : (before ++ after).dropWhile p = left ++ after)
    (hnew : ∀ c ∈ after'.head?, ¬p c) :
    (before ++ after').dropWhile p = left ++ after' ∧
      (before ++ after').takeWhile p = (before ++ after).takeWhile p := by
  have hbefore := takeWhile_append_left hread
  have hold : ∀ c ∈ (left ++ after).head?, ¬p c := by
    rw [← hread]
    exact head?_dropWhile_not p _
  have hhead := not_head_rejoin hold hnew
  have hall : ∀ c ∈ (before ++ after).takeWhile p, p c := fun c hc =>
    List.all_eq_true.mp List.all_takeWhile c hc
  have hsplit : before ++ after' =
      (before ++ after).takeWhile p ++ (left ++ after') := by
    rw [← List.append_assoc, hbefore]
  rw [hsplit]
  exact ⟨dropWhile_append_of_head hall hhead, takeWhile_append_of_head hall hhead⟩

theorem skipOne_cons (p : Char → Bool) (c : Char) (text : List Char) :
    skipOne p (c :: text) = if p c then text else c :: text := rfl

theorem skipOne_of_head {text : List Char} (hhead : ∀ c ∈ text.head?, ¬p c) :
    skipOne p text = text := by
  cases text with
  | nil => rfl
  | cons c text => rw [skipOne_cons, if_neg (hhead c rfl)]

/-- A single character that may or may not be there is skipped or left as
before. -/
theorem skipOne_rejoin (hread : skipOne p (before ++ after) = left ++ after)
    (hnew : ∀ c ∈ after'.head?, ¬p c) : skipOne p (before ++ after') = left ++ after' := by
  cases before with
  | cons c before =>
      rw [List.cons_append, skipOne_cons] at hread ⊢
      by_cases hc : p c
      · rw [if_pos hc] at hread ⊢
        rw [List.append_cancel_right hread]
      · rw [if_neg hc, ← List.cons_append] at hread ⊢
        rw [List.append_cancel_right hread]
  | nil =>
      have hleft : left = [] := by
        have := (skipOne_suffix p ([] ++ after)).length_le
        rw [hread, List.length_append, List.nil_append] at this
        exact List.eq_nil_of_length_eq_zero (by omega)
      rw [hleft]
      exact skipOne_of_head hnew

end Runs

/-! ## Numbers -/

section Numbers

variable {before after after' left : List Char}

def isExponent (c : Char) : Bool :=
  c == 'e' || c == 'E'

def isSign (c : Char) : Bool :=
  c == '+' || c == '-'

theorem skipExponent_cons (c : Char) (text : List Char) :
    skipExponent (c :: text) =
      if isExponent c ∧ (skipOne isSign text).head?.any Char.isDigit then
        (skipOne isSign text).dropWhile Char.isDigit
      else c :: text := by
  simp only [skipExponent, List.head?_cons, Option.any_some, List.tail_cons,
    Bool.and_eq_true]
  rfl

private theorem skipExponent_of_head {text : List Char}
    (hhead : ∀ c ∈ text.head?, ¬isExponent c) : skipExponent text = text := by
  cases text with
  | nil => rfl
  | cons c text => rw [skipExponent_cons, if_neg fun h => hhead c rfl h.1]

private theorem not_digit_of_any {text : List Char}
    (hany : ¬text.head?.any Char.isDigit) : ∀ c ∈ text.head?, ¬c.isDigit := by
  intro c hc hdigit
  exact hany (by rw [Option.mem_def.mp hc]; exact hdigit)

/-- A sign or its absence is the same before the new text, and no digit follows
it there if none did before. -/
private theorem not_digit_rejoin (hold : ∀ c ∈ (skipOne isSign (before ++ after)).head?,
      ¬c.isDigit) (hsep : Separated after') :
    ∀ c ∈ (skipOne isSign (before ++ after')).head?, ¬c.isDigit := by
  have hdigit : ∀ c ∈ after'.head?, ¬c.isDigit := hsep.not_head rfl rfl rfl rfl
  cases before with
  | nil =>
      have hsign : ∀ c ∈ after'.head?, ¬isSign c := hsep.not_head rfl rfl rfl rfl
      rw [List.nil_append, skipOne_of_head hsign]
      exact hdigit
  | cons c before =>
      rw [List.cons_append, skipOne_cons] at hold ⊢
      by_cases hc : isSign c
      · rw [if_pos hc] at hold ⊢
        exact not_head_rejoin hold hdigit
      · rw [if_neg hc] at hold ⊢
        exact hold

/-- An exponent is taken or left as before.  The hard case is a letter without
digits: the new text may not provide them. -/
private theorem skipExponent_rejoin (hread : skipExponent (before ++ after) = left ++ after)
    (hsep : Separated after') : skipExponent (before ++ after') = left ++ after' := by
  have hdigit : ∀ c ∈ after'.head?, ¬c.isDigit := hsep.not_head rfl rfl rfl rfl
  cases before with
  | nil =>
      have hleft : left = [] := by
        have := (skipExponent_suffix ([] ++ after)).length_le
        rw [hread, List.length_append, List.nil_append] at this
        exact List.eq_nil_of_length_eq_zero (by omega)
      rw [hleft]
      exact skipExponent_of_head (hsep.not_head rfl rfl rfl rfl)
  | cons c before =>
      rw [List.cons_append, skipExponent_cons] at hread ⊢
      by_cases htaken : isExponent c ∧
          (skipOne isSign (before ++ after)).head?.any Char.isDigit
      · rw [if_pos htaken] at hread
        obtain ⟨kept, hkept⟩ : ∃ kept, skipOne isSign (before ++ after) = kept ++ after :=
          exists_append_of_suffix (hread ▸ List.dropWhile_suffix _)
        have hkept' := skipOne_rejoin hkept (hsep.not_head rfl rfl rfl rfl)
        rw [hkept] at hread htaken
        cases kept with
        | nil =>
            exfalso
            obtain ⟨d, after, rfl⟩ : ∃ d rest, after = d :: rest := by
              cases after with
              | nil => simp at htaken
              | cons d rest => exact ⟨d, rest, rfl⟩
            have hd : d.isDigit := htaken.2
            rw [List.nil_append, List.dropWhile_cons_of_pos hd] at hread
            have := (List.dropWhile_suffix Char.isDigit (l := after)).length_le
            rw [hread, List.length_append, List.length_cons] at this
            omega
        | cons d kept =>
            rw [hkept', if_pos ⟨htaken.1, htaken.2⟩]
            exact (run_rejoin hread hdigit).1
      · rw [if_neg htaken, ← List.cons_append] at hread
        rw [if_neg, ← List.append_cancel_right hread, List.cons_append]
        rintro ⟨hexp, hany⟩
        have hold := not_digit_of_any fun h => htaken ⟨hexp, h⟩
        obtain ⟨d, hd, hdigit⟩ := Option.any_eq_true .. |>.mp hany
        exact not_digit_rejoin hold hsep d hd hdigit

/-- What follows the digits before the point of a number, if it is decimal. -/
private def afterFraction (text : List Char) : List Char :=
  (skipOne (· == '.') text).dropWhile Char.isDigit

private theorem scanNumber_decimal {text : List Char}
    (hdecimal : ¬(text.takeWhile Char.isDigit = ['0'] ∧
      (text.dropWhile Char.isDigit).head? = some 'x')) :
    scanNumber text =
      if text.takeWhile Char.isDigit = [] ∧
          (skipOne (· == '.') (text.dropWhile Char.isDigit)).takeWhile Char.isDigit = []
      then (.period, afterFraction (text.dropWhile Char.isDigit))
      else (.number, skipOne (· == 'L')
        (skipExponent (afterFraction (text.dropWhile Char.isDigit)))) := by
  rw [scanNumber]
  exact if_neg hdecimal

private theorem scanNumber_hexadecimal {text : List Char}
    (hhex : text.takeWhile Char.isDigit = ['0'] ∧
      (text.dropWhile Char.isDigit).head? = some 'x') :
    scanNumber text =
      (.hexadecimal ((text.dropWhile Char.isDigit).tail.takeWhile isHexDigit),
        (text.dropWhile Char.isDigit).tail.dropWhile isHexDigit) := by
  rw [scanNumber]
  exact if_pos hhex

private theorem numberEnd_suffix (text : List Char) :
    skipOne (· == 'L') (skipExponent (afterFraction text)) <:+ afterFraction text :=
  (skipOne_suffix _ _).trans (skipExponent_suffix _)

private theorem scanNumber_suffix_dropWhile (text : List Char) :
    (scanNumber text).2 <:+ text.dropWhile Char.isDigit := by
  have hfraction (text : List Char) : afterFraction text <:+ text :=
    (List.dropWhile_suffix _).trans (skipOne_suffix _ _)
  by_cases hhex : text.takeWhile Char.isDigit = ['0'] ∧
      (text.dropWhile Char.isDigit).head? = some 'x'
  · rw [scanNumber_hexadecimal hhex]
    exact (List.dropWhile_suffix _).trans (List.tail_suffix _)
  · rw [scanNumber_decimal hhex]
    split
    · exact hfraction _
    · exact (numberEnd_suffix _).trans (hfraction _)

private theorem afterFraction_rejoin {kept : List Char}
    (hread : afterFraction (before ++ after) = kept ++ after) (hsep : Separated after') :
    afterFraction (before ++ after') = kept ++ after' ∧
      (skipOne (· == '.') (before ++ after')).takeWhile Char.isDigit =
        (skipOne (· == '.') (before ++ after)).takeWhile Char.isDigit := by
  obtain ⟨point, hpoint⟩ :
      ∃ point, skipOne (· == '.') (before ++ after) = point ++ after := by
    have : kept ++ after <:+ skipOne (· == '.') (before ++ after) := by
      rw [← hread]
      exact List.dropWhile_suffix _
    exact exists_append_of_suffix this
  have hpoint' := skipOne_rejoin hpoint (hsep.not_head rfl rfl rfl rfl)
  rw [afterFraction, hpoint] at hread
  rw [afterFraction, hpoint, hpoint']
  exact run_rejoin hread (hsep.not_head rfl rfl rfl rfl)

/-- A number is read again before another text: its digits, its point, its
exponent and its last letter are each taken or left as before. -/
theorem scanNumber_rejoin {token : Token}
    (hread : scanNumber (before ++ after) = (token, left ++ after))
    (hsep : Separated after') : scanNumber (before ++ after') = (token, left ++ after') := by
  have hdigit : ∀ c ∈ after'.head?, ¬c.isDigit := hsep.not_head rfl rfl rfl rfl
  -- However the number goes on, it does so behind its digits, so these end within `before`.
  obtain ⟨digits, hdigits⟩ :
      ∃ digits, (before ++ after).dropWhile Char.isDigit = digits ++ after := by
    have := scanNumber_suffix_dropWhile (before ++ after)
    rw [hread] at this
    exact exists_append_of_suffix this
  obtain ⟨hdigits', hwhole⟩ := run_rejoin hdigits hdigit
  by_cases hhex : (before ++ after).takeWhile Char.isDigit = ['0'] ∧
      ((before ++ after).dropWhile Char.isDigit).head? = some 'x'
  · rw [scanNumber_hexadecimal hhex, hdigits] at hread
    rw [hdigits] at hhex
    obtain ⟨hzero, hx⟩ := hhex
    obtain ⟨rfl, hend⟩ := Prod.mk.inj hread
    cases digits with
    | nil =>
        -- The `x` itself was read, so it cannot be the start of what is left.
        exfalso
        have hshort := (List.dropWhile_suffix isHexDigit (l := after.tail)).length_le
        rw [List.nil_append] at hend hx
        rw [hend, List.length_append, List.length_tail] at hshort
        have : after ≠ [] := by
          rintro rfl
          cases hx
        have := List.length_pos_iff.mpr this
        omega
    | cons c digits =>
        rw [List.cons_append, List.tail_cons] at hend
        obtain ⟨hend', htaken⟩ := run_rejoin hend (hsep.not_head rfl rfl rfl rfl)
        rw [scanNumber_hexadecimal ⟨hwhole.trans hzero, hdigits' ▸ hx⟩, hdigits',
          List.cons_append, List.tail_cons, hend', htaken, List.cons_append, List.tail_cons]
  · have hhex' : ¬((before ++ after').takeWhile Char.isDigit = ['0'] ∧
        ((before ++ after').dropWhile Char.isDigit).head? = some 'x') := by
      rintro ⟨hzero, hx⟩
      refine hhex ⟨hwhole ▸ hzero, ?_⟩
      rw [hdigits'] at hx
      rw [hdigits]
      cases digits with
      | nil => exact absurd hx (hsep.head_ne rfl)
      | cons c digits => exact hx
    rw [scanNumber_decimal hhex, hdigits] at hread
    rw [scanNumber_decimal hhex', hdigits', hwhole]
    split at hread
    · rename_i hperiod
      obtain ⟨rfl, hend⟩ := Prod.mk.inj hread
      obtain ⟨hend', htaken⟩ := afterFraction_rejoin hend hsep
      rw [htaken, if_pos hperiod, hend']
    · rename_i hperiod
      obtain ⟨rfl, hend⟩ := Prod.mk.inj hread
      obtain ⟨fraction, hfraction⟩ :
          ∃ fraction, afterFraction (digits ++ after) = fraction ++ after :=
        exists_append_of_suffix (hend ▸ numberEnd_suffix _)
      obtain ⟨hfraction', htaken⟩ := afterFraction_rejoin hfraction hsep
      rw [hfraction] at hend
      obtain ⟨exponent, hexponent⟩ :
          ∃ exponent, skipExponent (fraction ++ after) = exponent ++ after :=
        exists_append_of_suffix (hend ▸ skipOne_suffix _ _)
      have hexponent' := skipExponent_rejoin hexponent hsep
      rw [hexponent] at hend
      have hend' := skipOne_rejoin hend (hsep.not_head rfl rfl rfl rfl)
      rw [htaken, if_neg hperiod, hfraction', hexponent', hend']

end Numbers

end CreateIndex.Lexeme
