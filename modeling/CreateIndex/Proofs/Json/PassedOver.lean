import CreateIndex.Proofs.Json.Numbers
import CreateIndex.Proofs.Json.Strings

/-!
# Values that are passed over

The value of an unknown field is passed over, whatever JSON it is: however deep it nests, however
big its numbers are, and also if its strings mean no text.
-/

namespace CreateIndex.Json

variable {β : Type} {next : Char → Reader β} {kind : Kind} {first : Bool}
  {gap lead inside name before after written text rest : List Char} {c : Char} {fuel : Nat}

/-! ## Blanks -/

def blanks : List Char :=
  [' ', '\t', '\n', '\r']

theorem mem_blanks_of_isGap (hc : isGap c) : c ∈ blanks := by
  simpa [isGap, or_assoc, blanks] using hc

/-- A reader that looks for a token first does not see the blanks before it. -/
theorem run_peekToken_bind (hgap : IsGap gap) (text : List Char) :
    (peekToken >>= next).run (gap ++ text) = (peekToken >>= next).run text := by
  have hskip : skipGap.run (gap ++ text) = skipGap.run text := by
    have hdrop : (gap ++ text).dropWhile isGap = text.dropWhile isGap :=
      List.dropWhile_append_of_pos hgap
    exact congrArg (fun left => Except.ok ((), left)) hdrop
  have hpeek : peekToken.run (gap ++ text) = peekToken.run text := by
    rw [peekToken, StateT.run_bind, StateT.run_bind, hskip]
  rw [StateT.run_bind, StateT.run_bind, hpeek]

theorem run_peekToken_cons (hc : ¬isGap c) (rest : List Char) :
    (peekToken >>= next).run (c :: rest) = (next c).run (c :: rest) :=
  run_bind_of_ok (peekToken_run isGap_nil hc rest)

/-! ## Numbers -/

theorem NumberText.starts (hnumber : NumberText written) :
    ∃ c ∈ written.head?, c = '-' ∨ c.isDigit := by
  cases hnumber with
  | @mk sign whole fraction exponent hsign hwhole =>
      rcases List.mem_cons.mp hsign with rfl | hsign
      · obtain ⟨c, digits, rfl⟩ := List.exists_cons_of_ne_nil hwhole.isDigits.ne_nil
        exact ⟨c, rfl, .inr (hwhole.isDigits.all_digits c (by simp))⟩
      · rw [List.mem_singleton.mp hsign]
        exact ⟨'-', rfl, .inl rfl⟩

theorem not_isGap_of_startsNumber (hc : c = '-' ∨ c.isDigit) : ¬isGap c ∧ c ≠ ']' := by
  have hothers : ∀ c ∈ blanks ++ [']'], ¬(c = '-' ∨ c.isDigit) := by decide
  refine ⟨fun hgap => ?_, fun hclose => ?_⟩
  · exact hothers c (List.mem_append_left [']'] (mem_blanks_of_isGap hgap)) hc
  · exact hothers c (by simp [hclose]) hc

theorem endsNumber_cons (hc : ¬c.isDigit ∧ c ∉ ['.', 'e', 'E']) (rest : List Char) :
    EndsNumber (c :: rest) := by
  intro d hd
  cases hd
  exact hc

theorem EndsNumber.gap_append (hends : EndsNumber rest) (hgap : IsGap gap) :
    EndsNumber (gap ++ rest) := by
  cases gap with
  | nil => exact hends
  | cons c gap =>
      have hblanks : ∀ c ∈ blanks, ¬c.isDigit ∧ c ∉ ['.', 'e', 'E'] := by decide
      exact endsNumber_cons (hblanks c (mem_blanks_of_isGap (hgap c (by simp)))) _

/-! ## Strings -/

/-- A string is passed over up to its closing quote, also when its escapes are
halves of pairs that mean no character. -/
theorem StringInside.exists_run (hinside : StringInside inside) (rest : List Char) :
    ∃ content, (stringBody false).run (inside ++ '"' :: rest) = .ok (content, rest) := by
  induction hinside with
  | nil => exact ⟨[], by rw [List.nil_append]; exact (stringChars.eq_2 ..).trans (if_pos rfl)⟩
  | @raw c inside hraw _ ih =>
      obtain ⟨content, ih⟩ := ih
      exact ⟨c :: content, (stringChars_raw hraw false _).trans (congrArg (Except.map _) ih)⟩
  | @short letter c inside hmeant _ ih =>
      obtain ⟨content, ih⟩ := ih
      have hescape := escape_run_short (lookup_shortEscapes _ hmeant) false (inside ++ '"' :: rest)
      exact ⟨c :: content, (stringChars_escape hescape).trans (congrArg (Except.map _) ih)⟩
  | @unit digits inside unit hunit _ ih =>
      obtain ⟨content, ih⟩ := ih
      have hescape : (escape false).run ('u' :: (digits ++ (inside ++ '"' :: rest))) =
          .ok (Char.ofNat unit, inside ++ '"' :: rest) := by
        rw [escape_run_unit, if_neg (by decide), StateT.run_map, hunit.hexUnit_run]
        rfl
      refine ⟨Char.ofNat unit :: content, ?_⟩
      rw [List.cons_append, List.cons_append, List.append_assoc]
      exact (stringChars_escape hescape).trans (congrArg (Except.map _) ih)

/-! ## Scalars -/

theorem ignoredValue_null (fuel : Nat) (rest : List Char) :
    (ignoredValue (fuel + 1)).run ("null".toList ++ rest) = .ok ((), rest) := by
  rw [ignoredValue]
  exact (run_peekToken_cons (by decide) _).trans (expect_run "ull".toList rest)

theorem ignoredValue_flag {value : Bool} (hflag : FlagText value written) (fuel : Nat)
    (rest : List Char) : (ignoredValue (fuel + 1)).run (written ++ rest) = .ok ((), rest) := by
  rw [ignoredValue]
  cases hflag with
  | yes => exact (run_peekToken_cons (by decide) _).trans (expect_run "rue".toList rest)
  | no => exact (run_peekToken_cons (by decide) _).trans (expect_run "alse".toList rest)

theorem ignoredValue_number (hnumber : NumberText written) (hends : EndsNumber rest) (fuel : Nat) :
    (ignoredValue (fuel + 1)).run (written ++ rest) = .ok ((), rest) := by
  obtain ⟨c, hc, hstart⟩ := hnumber.starts
  obtain ⟨number, hnumber⟩ := takes_number hnumber hends .malformed
  obtain ⟨more, rfl⟩ := List.head?_eq_some_iff.mp hc
  have hblank := (not_isGap_of_startsNumber hstart).1
  rw [List.cons_append] at hnumber ⊢
  rw [ignoredValue, run_peekToken_cons hblank, if_pos hstart, run_bind_of_ok hnumber]
  rfl

theorem ignoredValue_string (hinside : StringInside inside) (fuel : Nat) (rest : List Char) :
    (ignoredValue (fuel + 1)).run ('"' :: inside ++ ['"'] ++ rest) = .ok ((), rest) := by
  obtain ⟨content, hbody⟩ := hinside.exists_run rest
  have htext : '"' :: inside ++ ['"'] ++ rest = '"' :: (inside ++ '"' :: rest) := by simp
  have hdone : (stringBody false >>= fun _ => pure ()).run (inside ++ '"' :: rest) =
      .ok ((), rest) :=
    run_bind_of_ok hbody
  rw [htext, ignoredValue]
  exact (run_peekToken_cons (by decide) _).trans hdone

/-! ## Lists and objects -/

/-- A value starts neither with a blank nor with a closing bracket, so a list
with a value in it is not taken for an empty one. -/
theorem IsJson.starts (hvalue : IsJson .value written) :
    ∃ c ∈ written.head?, ¬isGap c ∧ c ≠ ']' := by
  cases hvalue with
  | null => exact ⟨'n', rfl, by decide⟩
  | flag hflag =>
      cases hflag with
      | yes => exact ⟨'t', rfl, by decide⟩
      | no => exact ⟨'f', rfl, by decide⟩
  | number hnumber =>
      obtain ⟨c, hc, hstart⟩ := hnumber.starts
      exact ⟨c, hc, not_isGap_of_startsNumber hstart⟩
  | string => exact ⟨'"', rfl, by decide⟩
  | list => exact ⟨'[', rfl, by decide⟩
  | object => exact ⟨'\x7b', rfl, by decide⟩

/-! After an item comes a gap, a comma or a closing bracket, so a number has ended. -/

theorem endsNumber_close {closer : Char} (hgap : IsGap gap) (hcloser : closer ∈ [']', '\x7d'])
    (rest : List Char) : EndsNumber (gap ++ [closer] ++ rest) := by
  have hclosers : ∀ c ∈ [']', '\x7d'], ¬c.isDigit ∧ c ∉ ['.', 'e', 'E'] := by decide
  rw [List.append_assoc]
  exact (endsNumber_cons (hclosers closer hcloser) rest).gap_append hgap

theorem Lead.endsNumber (hlead : Lead false lead) (rest : List Char) :
    EndsNumber (lead ++ rest) := by
  cases hlead with
  | comma hbefore hafter =>
      rw [List.append_assoc]
      exact (endsNumber_cons (by decide) _).gap_append hbefore

/-- What follows a number in a list is no more of the number. -/
theorem IsJson.endsNumber_items (hitems : IsJson (.items false) text) (rest : List Char) :
    EndsNumber (text ++ rest) := by
  cases hitems with
  | closeList hgap => exact endsNumber_close hgap (by decide) rest
  | item hlead =>
      rw [List.append_assoc]
      exact hlead.endsNumber _

theorem IsJson.endsNumber_members (hmembers : IsJson (.members false) text) (rest : List Char) :
    EndsNumber (text ++ rest) := by
  cases hmembers with
  | closeObject hgap => exact endsNumber_close hgap (by decide) rest
  | member hlead =>
      rw [List.append_assoc]
      exact hlead.endsNumber _

/-- Passes over a text of the kind. -/
def passOver (fuel : Nat) : Kind → Reader Unit
  | .value => ignoredValue fuel
  | .items true => do
    if (← peekToken) = ']' then skip
    else
      ignoredValue fuel
      ignoredItems fuel
  | .items false => ignoredItems fuel
  | .members true => do
    if (← peekToken) = '\x7d' then skip
    else
      ignoredMember fuel
      ignoredMembers fuel
  | .members false => ignoredMembers fuel

theorem ignoredValue_gap (hgap : IsGap gap) (fuel : Nat) (text : List Char) :
    (ignoredValue fuel).run (gap ++ text) = (ignoredValue fuel).run text := by
  cases fuel with
  | zero => rfl
  | succ fuel => exact run_peekToken_bind hgap text

theorem ignoredValue_list (fuel : Nat) (text : List Char) :
    (ignoredValue (fuel + 1)).run ('[' :: text) = (passOver fuel (.items true)).run text := by
  rw [ignoredValue]
  exact run_peekToken_cons (by decide) _

theorem ignoredValue_object (fuel : Nat) (text : List Char) :
    (ignoredValue (fuel + 1)).run ('\x7b' :: text) = (passOver fuel (.members true)).run text := by
  rw [ignoredValue]
  exact run_peekToken_cons (by decide) _

theorem passOver_close_items (hgap : IsGap gap) (fuel : Nat) (first : Bool) (rest : List Char) :
    (passOver (fuel + 1) (.items first)).run (gap ++ ']' :: rest) = .ok ((), rest) := by
  have hpeek := peekToken_run hgap (show ¬isGap ']' by decide) rest
  cases first with
  | true => exact run_bind_of_ok hpeek
  | false =>
      rw [passOver, ignoredItems]
      exact run_bind_of_ok hpeek

theorem passOver_close_members (hgap : IsGap gap) (fuel : Nat) (first : Bool) (rest : List Char) :
    (passOver (fuel + 1) (.members first)).run (gap ++ '\x7d' :: rest) = .ok ((), rest) := by
  have hpeek := peekToken_run hgap (show ¬isGap '\x7d' by decide) rest
  cases first with
  | true => exact run_bind_of_ok hpeek
  | false =>
      rw [passOver, ignoredMembers]
      exact run_bind_of_ok hpeek

/-- One item of a list is passed over, given that its value and the rest of the
list are.  An item costs at least one character, and so one unit of fuel is
enough for it. -/
theorem passOver_item (hlead : Lead first lead)
    (hstarts : ∃ c ∈ written.head?, ¬isGap c ∧ c ≠ ']')
    (hvalue : ∀ fuel, written.length ≤ fuel →
      (ignoredValue (fuel + 1)).run (written ++ (text ++ rest)) = .ok ((), text ++ rest))
    (hrest : ∀ fuel, text.length ≤ fuel →
      (ignoredItems (fuel + 1)).run (text ++ rest) = .ok ((), rest))
    (hfuel : (lead ++ (written ++ text)).length ≤ fuel) :
    (passOver (fuel + 1) (.items first)).run (lead ++ (written ++ (text ++ rest))) =
      .ok ((), rest) := by
  simp only [List.length_append] at hfuel
  cases hlead with
  | first hgap =>
      obtain ⟨c, hc, hblank, hclose⟩ := hstarts
      obtain ⟨more, hmore⟩ := List.head?_eq_some_iff.mp hc
      have hpeek := peekToken_run hgap hblank (more ++ (text ++ rest))
      rw [← List.cons_append, ← hmore] at hpeek
      rw [passOver, run_bind_of_ok hpeek, if_neg hclose,
        run_bind_of_ok (hvalue fuel (by omega))]
      exact hrest fuel (by omega)
  | @comma before after hbefore hafter =>
      simp only [List.length_append, List.length_cons] at hfuel
      obtain ⟨spare, rfl⟩ := Nat.exists_eq_add_one_of_ne_zero (show fuel ≠ 0 by omega)
      have hpeek := peekToken_run hbefore (show ¬isGap ',' by decide)
        (after ++ (written ++ (text ++ rest)))
      have hvalue := hvalue spare (by omega)
      rw [← ignoredValue_gap hafter] at hvalue
      rw [passOver, ignoredItems, List.append_assoc, List.cons_append, run_bind_of_ok hpeek]
      refine (run_bind_of_ok (skip_run _ _)).trans ?_
      rw [run_bind_of_ok hvalue]
      exact hrest spare (by omega)

theorem ignoredMember_run (hgap : IsGap gap) (hname : StringInside name) (hbefore : IsGap before)
    (hafter : IsGap after)
    (hvalue : (ignoredValue fuel).run (written ++ rest) = .ok ((), rest)) :
    (ignoredMember (fuel + 1)).run
        (gap ++ '"' :: (name ++ '"' :: (before ++ ':' :: (after ++ (written ++ rest))))) =
      .ok ((), rest) := by
  obtain ⟨content, hbody⟩ := hname.exists_run (before ++ ':' :: (after ++ (written ++ rest)))
  have hquote := peekToken_run hgap (show ¬isGap '"' by decide)
    (name ++ '"' :: (before ++ ':' :: (after ++ (written ++ rest))))
  have hcolon := peekToken_run hbefore (show ¬isGap ':' by decide) (after ++ (written ++ rest))
  rw [ignoredMember, run_bind_of_ok hquote, if_neg (by decide), run_bind_of_ok (skip_run _ _),
    run_bind_of_ok hbody, run_bind_of_ok hcolon, if_neg (by decide),
    run_bind_of_ok (skip_run _ _), ignoredValue_gap hafter]
  exact hvalue

/-- One member of an object is passed over likewise, and its name like any
string. -/
theorem passOver_member (hlead : Lead first lead) (hname : StringInside name)
    (hbefore : IsGap before) (hafter : IsGap after)
    (hvalue : ∀ fuel, written.length ≤ fuel →
      (ignoredValue (fuel + 1)).run (written ++ (text ++ rest)) = .ok ((), text ++ rest))
    (hrest : ∀ fuel, text.length ≤ fuel →
      (ignoredMembers (fuel + 1)).run (text ++ rest) = .ok ((), rest))
    (hfuel : (lead ++ '"' :: (name ++ '"' ::
      (before ++ ':' :: (after ++ (written ++ text))))).length ≤ fuel) :
    (passOver (fuel + 1) (.members first)).run
        (lead ++ '"' :: (name ++ '"' ::
          (before ++ ':' :: (after ++ (written ++ (text ++ rest)))))) =
      .ok ((), rest) := by
  simp only [List.length_append, List.length_cons] at hfuel
  obtain ⟨spare, rfl⟩ := Nat.exists_eq_add_one_of_ne_zero (show fuel ≠ 0 by omega)
  cases hlead with
  | first hgap =>
      have hpeek := peekToken_run hgap (show ¬isGap '"' by decide)
        (name ++ '"' :: (before ++ ':' :: (after ++ (written ++ (text ++ rest)))))
      have hmember := ignoredMember_run isGap_nil hname hbefore hafter (hvalue spare (by omega))
      rw [List.nil_append] at hmember
      rw [passOver, run_bind_of_ok hpeek, if_neg (by decide), run_bind_of_ok hmember]
      exact hrest (spare + 1) (by omega)
  | @comma start stop hstart hstop =>
      simp only [List.length_append, List.length_cons] at hfuel
      obtain ⟨spare, rfl⟩ := Nat.exists_eq_add_one_of_ne_zero (show spare ≠ 0 by omega)
      have hpeek := peekToken_run hstart (show ¬isGap ',' by decide)
        (stop ++ '"' :: (name ++ '"' ::
          (before ++ ':' :: (after ++ (written ++ (text ++ rest))))))
      have hmember := ignoredMember_run hstop hname hbefore hafter (hvalue spare (by omega))
      rw [passOver, ignoredMembers, List.append_assoc, List.cons_append, run_bind_of_ok hpeek]
      refine (run_bind_of_ok (skip_run _ _)).trans ?_
      rw [run_bind_of_ok hmember]
      exact hrest (spare + 1) (by omega)

/-- A text is passed over up to its end if it has enough fuel, by induction on
the grammar.  Every level of nesting takes at least one character. -/
theorem IsJson.passOver_run (hjson : IsJson kind written) (hends : EndsNumber rest)
    (hfuel : written.length ≤ fuel) :
    (passOver (fuel + 1) kind).run (written ++ rest) = .ok ((), rest) := by
  induction hjson generalizing fuel rest with
  | null => exact ignoredValue_null fuel rest
  | flag hflag => exact ignoredValue_flag hflag fuel rest
  | number hnumber => exact ignoredValue_number hnumber hends fuel
  | string hinside => exact ignoredValue_string hinside fuel rest
  | list _ ih =>
      obtain ⟨spare, rfl⟩ := Nat.exists_eq_add_one_of_ne_zero (Nat.ne_zero_of_lt hfuel)
      exact (ignoredValue_list _ _).trans (ih hends (Nat.le_of_succ_le_succ hfuel))
  | object _ ih =>
      obtain ⟨spare, rfl⟩ := Nat.exists_eq_add_one_of_ne_zero (Nat.ne_zero_of_lt hfuel)
      exact (ignoredValue_object _ _).trans (ih hends (Nat.le_of_succ_le_succ hfuel))
  | closeList hgap =>
      rw [List.append_assoc]
      exact passOver_close_items hgap fuel _ rest
  | item hlead hvalue hrest ihvalue ihrest =>
      simp only [List.append_assoc]
      refine passOver_item hlead hvalue.starts ?_ ?_ hfuel
      · exact fun fuel => ihvalue (hrest.endsNumber_items rest)
      · exact fun fuel => ihrest hends
  | closeObject hgap =>
      rw [List.append_assoc]
      exact passOver_close_members hgap fuel _ rest
  | member hlead hname hbefore hafter _ hrest ihvalue ihrest =>
      simp only [List.append_assoc, List.cons_append]
      refine passOver_member hlead hname hbefore hafter ?_ ?_ hfuel
      · exact fun fuel => ihvalue (hrest.endsNumber_members rest)
      · exact fun fuel => ihrest hends

/-- A value is passed over, whatever blanks stand before it.  Its own length is
the fuel, so nothing is too deep. -/
theorem IsValue.ignored_run (hvalue : IsValue written) (hgap : IsGap gap)
    (hends : EndsNumber rest) :
    ignored.run (gap ++ (written ++ rest)) = .ok ((), rest) := by
  have hfuel : written.length ≤ (gap ++ (written ++ rest)).length := by simp; omega
  refine (ignoredValue_gap hgap _ _).trans ?_
  exact hvalue.passOver_run hends hfuel

end CreateIndex.Json
