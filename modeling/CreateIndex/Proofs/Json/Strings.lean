import CreateIndex.Proofs.Json.Grammar
import Mathlib.Tactic.SplitIfs

/-!
# Strings in JSON

Every character of a string stands for itself or is escaped, and either way it is read as
itself.  So a string is read as the text that it was written for, whatever the characters
of the text are.
-/

namespace CreateIndex.Json

open Text

variable {c : Char} {spelled spelled' content content' digits first second : List Char}
  {unit leading trailing : Nat}

/-- In a string the spelled characters stand for the content, whatever comes
after them. -/
def Spells (spelled content : List Char) : Prop :=
  ∀ rest, stringChars true (spelled ++ rest) =
    (stringChars true rest).map fun (more, left) => (content ++ more, left)

theorem spells_nil : Spells [] [] := by
  intro rest
  rw [List.nil_append]
  cases stringChars true rest <;> rfl

/-- A string can be spelled piece by piece, because no spelling reaches into the
next one. -/
theorem Spells.append (hfirst : Spells spelled content) (hsecond : Spells spelled' content') :
    Spells (spelled ++ spelled') (content ++ content') := by
  intro rest
  rw [List.append_assoc, hfirst, hsecond]
  cases stringChars true rest with
  | error => rfl
  | ok result => simp [Except.map]

/-! ## Characters -/

theorem stringChars_raw (hraw : IsRaw c) (wanted : Bool) (text : List Char) :
    stringChars wanted (c :: text) =
      (stringChars wanted text).map fun (more, left) => (c :: more, left) := by
  rw [stringChars, if_neg hraw.not_quote, if_neg hraw.not_backslash, if_neg hraw.not_control]

theorem spells_self (hraw : IsRaw c) : Spells [c] [c] := fun rest =>
  stringChars_raw hraw true rest

theorem stringChars_escape {wanted : Bool} {text left : List Char}
    (hescape : (escape wanted).run text = .ok (c, left)) :
    stringChars wanted ('\\' :: text) =
      (stringChars wanted left).map fun (more, left) => (c :: more, left) := by
  rw [stringChars, if_neg (by decide), if_pos rfl]
  split
  · rename_i hread
    rw [hescape] at hread
    cases hread
  · rename_i hread
    rw [hescape] at hread
    cases hread
    rfl

/-- A backslash and what an escape takes spell what the escape stands for. -/
theorem spells_escape (hescape : ∀ rest, (escape true).run (spelled ++ rest) = .ok (c, rest)) :
    Spells ('\\' :: spelled) [c] := by
  intro rest
  rw [List.cons_append, stringChars_escape (hescape rest)]
  rfl

theorem escape_run_short {letter : Char} (hlookup : shortEscapes.lookup letter = some c)
    (wanted : Bool) (rest : List Char) :
    (escape wanted).run (letter :: rest) = .ok (c, rest) := by
  rw [escape, run_bind_of_ok (peek_run letter rest)]
  dsimp only
  rw [run_bind_of_ok (skip_run letter rest), hlookup]
  rfl

theorem escape_run_unit (wanted : Bool) (rest : List Char) :
    (escape wanted).run ('u' :: rest) =
      (if wanted then unicodeEscape else Char.ofNat <$> hexUnit).run rest := by
  have hlookup : shortEscapes.lookup 'u' = none := rfl
  rw [escape, run_bind_of_ok (peek_run 'u' rest)]
  dsimp only
  rw [run_bind_of_ok (skip_run 'u' rest), hlookup]
  cases wanted <;> rfl

theorem spells_short {letter : Char} (hlookup : shortEscapes.lookup letter = some c) :
    Spells ['\\', letter] [c] :=
  spells_escape fun rest => escape_run_short hlookup true rest

/-! ## Escaped code units -/

theorem length_le_utf8ByteSize (digits : List Char) :
    digits.length ≤ (String.ofList digits).utf8ByteSize := by
  induction digits with
  | nil => exact Nat.zero_le _
  | cons c digits ih =>
      have hcons : String.ofList (c :: digits) = String.singleton c ++ String.ofList digits := by
        rw [← String.toList_inj]
        simp
      rw [hcons, String.utf8ByteSize_append, String.utf8ByteSize_singleton, List.length_cons]
      have := c.utf8Size_pos
      omega

/-- A code unit is read from four digits of either case. -/
theorem IsUnit.hexUnit_run (hunit : IsUnit digits unit) (rest : List Char) :
    hexUnit.run (digits ++ rest) = .ok (unit, rest) := by
  obtain ⟨hlength, hnumeral⟩ := hunit
  have hsize := length_le_utf8ByteSize digits
  rw [hexUnit, run_bind_of_ok (get_run _)]
  dsimp only
  rw [List.take_left' hlength, if_neg (by omega), hnumeral]
  change Except.ok (unit, (digits ++ rest).drop 4) = _
  rw [List.drop_left' hlength]

theorem not_isSurrogate_toNat (c : Char) :
    ¬isLeadingSurrogate c.toNat ∧ ¬isTrailingSurrogate c.toNat := by
  have hvalid : c.toNat < 0xD800 ∨ 0xDFFF < c.toNat ∧ c.toNat < 0x110000 := c.valid
  simp only [isLeadingSurrogate, isTrailingSurrogate, Bool.and_eq_true, decide_eq_true_eq]
  omega

/-- A character up to U+FFFF may be escaped as its code unit.  It is not the half
of a pair, as no character has a surrogate for its code point. -/
theorem spells_unit (hunit : IsUnit digits c.toNat) : Spells ('\\' :: 'u' :: digits) [c] := by
  obtain ⟨hleading, htrailing⟩ := not_isSurrogate_toNat c
  apply spells_escape
  intro rest
  rw [List.cons_append, escape_run_unit, if_pos rfl, unicodeEscape,
    run_bind_of_ok (hunit.hexUnit_run rest), if_neg htrailing, if_neg hleading, Char.ofNat_toNat]
  rfl

/-- A character above U+FFFF may be escaped as its two code units, leading one
first. -/
theorem spells_pair (hfirst : IsUnit first leading) (hsecond : IsUnit second trailing)
    (hleading : isLeadingSurrogate leading) (htrailing : isTrailingSurrogate trailing) :
    Spells ('\\' :: 'u' :: (first ++ '\\' :: 'u' :: second))
      [joinSurrogates leading trailing] := by
  apply spells_escape
  intro rest
  have hnot : ¬isTrailingSurrogate leading := by
    simp only [isLeadingSurrogate, isTrailingSurrogate, Bool.and_eq_true, decide_eq_true_eq]
      at hleading ⊢
    omega
  have htext : 'u' :: (first ++ '\\' :: 'u' :: second) ++ rest =
      'u' :: (first ++ (['\\', 'u'] ++ (second ++ rest))) := by
    simp
  rw [htext, escape_run_unit, if_pos rfl, unicodeEscape,
    run_bind_of_ok (hfirst.hexUnit_run _), if_neg hnot,
    if_pos hleading, run_bind_of_ok (expect_run _ _),
    run_bind_of_ok (hsecond.hexUnit_run rest), if_pos htrailing]
  rfl

/-! ## Strings -/

theorem lookup_shortEscapes :
    ∀ escape ∈ shortEscapes, shortEscapes.lookup escape.1 = some escape.2 := by
  decide

/-- Each way to write a character, raw or escaped, is read as that character. -/
theorem CharSpelling.spells (hspelling : CharSpelling spelled c) : Spells spelled [c] := by
  cases hspelling with
  | raw hraw => exact spells_self hraw
  | short hmeant => exact spells_short (lookup_shortEscapes _ hmeant)
  | unit hunit => exact spells_unit hunit
  | pair hfirst hsecond hleading htrailing =>
      exact spells_pair hfirst hsecond hleading htrailing

theorem Spelling.spells (hspelling : Spelling spelled content) : Spells spelled content := by
  induction hspelling with
  | nil => exact spells_nil
  | cons hfirst _ ih => exact hfirst.spells.append ih

/-- A string in quotes is read as the content that it spells. -/
theorem Spelling.stringBody_run (hspelling : Spelling spelled content) (rest : List Char) :
    (stringBody true).run (spelled ++ '"' :: rest) = .ok (content, rest) := by
  have hclose : stringChars true ('"' :: rest) = .ok ([], rest) := by
    rw [stringChars, if_pos rfl]
  refine (hspelling.spells _).trans ?_
  rw [hclose]
  simp [Except.map]

theorem StringText.reads_text {meant : String} (htext : StringText meant spelled) :
    Reads text spelled meant := by
  cases htext with
  | @mk spelled hspelling =>
  refine ⟨⟨'"', rfl, by decide, by decide⟩, fun gap rest hgap => ?_⟩
  have hpeek := peekToken_run hgap (show ¬isGap '"' by decide) (spelled ++ '"' :: rest)
  have htext : '"' :: spelled ++ ['"'] ++ rest = '"' :: (spelled ++ '"' :: rest) := by simp
  rw [htext, text, run_bind_of_ok hpeek, if_pos rfl, run_bind_of_ok (skip_run _ _),
    run_bind_of_ok (hspelling.stringBody_run rest), String.ofList_toList]
  rfl

/-! ## Written strings -/

theorem hexDigit?_hexDigitChar : ∀ value < 16, hexDigit? (hexDigitChar value) = some value := by
  decide

theorem isUnit_control (hcontrol : c < ' ') :
    IsUnit ['0', '0', hexDigitChar (c.toNat / 16), hexDigitChar (c.toNat % 16)] c.toNat where
  length_eq := rfl
  numeral_eq := by
    have hlt : c.toNat < 32 := hcontrol
    have hzero : hexDigit? '0' = some 0 := rfl
    have hhigh := hexDigit?_hexDigitChar (c.toNat / 16) (by omega)
    have hlow := hexDigit?_hexDigitChar (c.toNat % 16) (by omega)
    have hvalue := Nat.div_add_mod c.toNat 16
    simp [numeral?, hzero, hhigh, hlow, hvalue]

/-- The writer spells every character in one of the ways that are read; for a
control character without a short escape that is its code unit. -/
theorem charSpelling_writeChar (c : Char) : CharSpelling (writeChar c) c := by
  unfold writeChar
  split_ifs with hquote hescape hbackspace htab hline hpage hreturn hcontrol
  · rw [hquote]
    exact .short (by decide)
  · rw [hescape]
    exact .short (by decide)
  · rw [hbackspace]
    exact .short (by decide)
  · rw [htab]
    exact .short (by decide)
  · rw [hline]
    exact .short (by decide)
  · rw [hpage]
    exact .short (by decide)
  · rw [hreturn]
    exact .short (by decide)
  · exact .unit (isUnit_control hcontrol)
  · exact .raw ⟨hquote, hescape, hcontrol⟩

theorem spelling_flatMap_writeChar (content : List Char) :
    Spelling (content.flatMap writeChar) content := by
  induction content with
  | nil => exact .nil
  | cons c content ih => exact .cons (charSpelling_writeChar c) ih

theorem stringText_writeText (content : String) : StringText content (writeText content) :=
  .mk (spelling_flatMap_writeChar content.toList)

/-- A string that is written is read as itself. -/
theorem reads_writeText (content : String) : Reads text (writeText content) content :=
  (stringText_writeText content).reads_text

end CreateIndex.Json
