import CreateIndex.Descriptor.Basic
import CreateIndex.Proofs.Lexeme.Rejoin
import CreateIndex.Proofs.Text.Spacing

/-!
# Words, keywords and comments

How the lexemes that statements are made of are read: bare words, quoted words, strings, spaces,
punctuation and comments.  The converse is that the name of a word in an evenly spaced text is
evenly spaced.
-/

namespace CreateIndex.Lexeme

open Text

variable {after left content word body : List Char} {spelling : String}

/-- A bare word.  It holds no blank: blanks are squeezed out before words are read. -/
structure IsBareWord (word : List Char) : Prop where
  ne_nil : word ≠ []
  start : ∀ c ∈ word.head?, isWordStart c
  part : ∀ c ∈ word, isWordPart c
  not_blank : ∀ c ∈ word, ¬Text.isBlank c

theorem IsBareWord.isPhrase (hword : IsBareWord word) : IsPhrase word :=
  isPhrase_of_not_blank hword.ne_nil hword.not_blank

def bare (word : List Char) : Lexeme := ⟨.word word false, word⟩

def backticked (name : List Char) : Lexeme := ⟨.word name true, quoteName name⟩

def space : Lexeme := ⟨.blank, [' ']⟩

def comma : Lexeme := ⟨.comma, [',']⟩

def period : Lexeme := ⟨.period, ['.']⟩

def leftParen : Lexeme := ⟨.leftParen, ['(']⟩

def rightParen : Lexeme := ⟨.rightParen, [')']⟩

/-- A character that can follow a bare word or a quoted name. -/
def EndsName (text : List Char) : Prop :=
  ∀ c ∈ text.head?, isSeparator c ∨ c = '.'

theorem EndsName.not_wordPart (hends : EndsName after) :
    ∀ c ∈ after.head?, ¬isWordPart c := by
  intro c hc
  rcases hends c hc with hsep | rfl
  · rcases isSeparator_iff.mp hsep with rfl | rfl | rfl | rfl <;> decide
  · decide

theorem EndsName.head_ne {c : Char} (hends : EndsName after)
    (hc : isSeparator c = false) (hperiod : c ≠ '.') : after.head? ≠ some c := by
  intro hhead
  rcases hends c hhead with hsep | heq
  · simp [hc] at hsep
  · exact hperiod heq

/-! ## Reading -/

/-- A bare word is read up to its end and no further, if what follows it can
follow a name. -/
theorem lex_bare (hword : IsBareWord word) (hends : EndsName after) :
    lex (word ++ after) = (lex after).map (bare word :: ·) := by
  obtain ⟨c, body, rfl⟩ := List.exists_cons_of_ne_nil hword.ne_nil
  have hstart : isWordStart c := hword.start c rfl
  have hbody : ∀ d ∈ body, isWordPart d := fun d hd => hword.part d (by simp [hd])
  have hnot {d : Char} (hd : isWordStart d = false) : c ≠ d := by
    rintro rfl
    rw [hstart] at hd
    cases hd
  have hquote : (body ++ after).head? ≠ some '\'' := by
    cases body with
    | nil => exact hends.head_ne rfl (by decide)
    | cons d body =>
        intro hd
        obtain rfl : d = '\'' := by simpa using hd
        exact absurd (hbody '\'' (by simp)) (by decide)
  have hcloser : wordCloser? c = none := by
    rw [wordCloser?, if_neg, if_neg (hnot rfl)]
    rintro (hc | hc)
    · exact hnot rfl hc
    · exact hnot rfl hc
  have hplain : scanPlain c (body ++ after) = (.word (c :: body) false, after) := by
    rw [scanPlain, if_neg (hnot rfl), if_pos hstart,
      takeWhile_append_of_head hbody hends.not_wordPart,
      dropWhile_append_of_head hbody hends.not_wordPart]
  exact lex_cons (scan_of_scans (.plain (hnot rfl) hcloser (fun h => absurd h hquote)
    (fun _ => hnot rfl) (fun _ => hnot rfl) hplain))

theorem quotedBody_append {closer : Char} (hcontent : closer ∉ content)
    (hnext : after.head? ≠ some closer) :
    quotedBody closer (content ++ closer :: after) = some (content, after) := by
  induction content with
  | nil => exact quotedBody_close hnext
  | cons c content ih =>
      have hc : c ≠ closer := fun hc => hcontent (by simp [hc])
      have hrest : closer ∉ content := fun hrest => hcontent (by simp [hrest])
      rw [List.cons_append, quotedBody_of_ne hc, ih hrest]
      rfl

/-- A name in quotes is read up to its closing quote.  What follows must not
double that quote. -/
theorem lex_quoted {c closer : Char} (hcloser : wordCloser? c = some closer)
    (hcontent : closer ∉ content) (hnext : after.head? ≠ some closer) :
    lex (c :: content ++ closer :: after) =
      (lex after).map (⟨.word content true, c :: content ++ [closer]⟩ :: ·) := by
  have hscan : scan c (content ++ [closer] ++ after) = some (.word content true, after) :=
    scan_of_scans (.quotedWord hcloser (by simpa using quotedBody_append hcontent hnext))
  simpa using lex_cons hscan

theorem lex_string (hcontent : '\'' ∉ content) (hnext : after.head? ≠ some '\'') :
    lex ('\'' :: content ++ '\'' :: after) =
      (lex after).map (⟨.string content, '\'' :: content ++ ['\'']⟩ :: ·) := by
  have hscan : scan '\'' (content ++ ['\''] ++ after) = some (.string content, after) :=
    scan_of_scans (.string rfl (by simpa using quotedBody_append hcontent hnext))
  simpa using lex_cons hscan

def separatorToken (c : Char) : Token :=
  if c = ' ' then .blank else punctuation c

/-- A separator is a lexeme of its own, whatever follows it.  This is what lets
lexemes be moved to another place. -/
theorem lex_separator {c : Char} (hc : isSeparator c) (text : List Char) :
    lex (c :: text) = (lex text).map (⟨separatorToken c, [c]⟩ :: ·) := by
  have hnot {d : Char} (hd : isSeparator d = false) : c ≠ d := by
    rintro rfl
    rw [hc] at hd
    cases hd
  have hoperator : scanOperator? (c :: text) = none :=
    @scanOperator?_append [] _ (separated_cons hc text)
  have hword : isWordStart c = false := by
    rcases isSeparator_iff.mp hc with rfl | rfl | rfl | rfl <;> rfl
  have hdigit : ¬(c.isDigit ∨ c = '.') := by
    rcases isSeparator_iff.mp hc with rfl | rfl | rfl | rfl <;> decide
  have hplain : scanPlain c text = (separatorToken c, text) := by
    rw [scanPlain, separatorToken]
    by_cases hspace : c = ' '
    · rw [if_pos hspace, if_pos hspace]
    · rw [if_neg hspace, if_neg hspace, if_neg (by simp [hword]), if_neg hdigit,
        if_neg (hnot rfl), if_neg (hnot rfl), hoperator]
      rfl
  have hcloser : wordCloser? c = none := by
    rcases isSeparator_iff.mp hc with rfl | rfl | rfl | rfl <;> rfl
  exact @lex_cons _ _ [] _ (scan_of_scans (.plain (hnot rfl) hcloser
    (fun _ => ⟨not_or.mpr ⟨hnot rfl, hnot rfl⟩, not_or.mpr ⟨hnot rfl, hnot rfl⟩,
      not_or.mpr ⟨hnot rfl, hnot rfl⟩⟩)
    (fun _ => hnot rfl) (fun _ => hnot rfl) hplain))

theorem lex_space (text : List Char) : lex (' ' :: text) = (lex text).map (space :: ·) :=
  lex_separator rfl text

theorem lex_comma (text : List Char) : lex (',' :: text) = (lex text).map (comma :: ·) :=
  lex_separator rfl text

theorem lex_leftParen (text : List Char) :
    lex ('(' :: text) = (lex text).map (leftParen :: ·) :=
  lex_separator rfl text

theorem lex_rightParen (text : List Char) :
    lex (')' :: text) = (lex text).map (rightParen :: ·) :=
  lex_separator rfl text

/-- A period is a lexeme of its own before anything but a digit, with which it
would start a number. -/
theorem lex_period {text : List Char} (hdigit : ∀ c ∈ text.head?, ¬c.isDigit) :
    lex ('.' :: text) = (lex text).map (period :: ·) := by
  have hnumber : scanNumber ('.' :: text) = (.period, text) := by
    have hpoint : ¬('.').isDigit := by decide
    have htake : ([] ++ text).takeWhile Char.isDigit = [] :=
      takeWhile_append_of_head (by simp) hdigit
    have hdrop : ([] ++ text).dropWhile Char.isDigit = text :=
      dropWhile_append_of_head (by simp) hdigit
    rw [List.nil_append] at htake hdrop
    simp [scanNumber, skipOne_cons, htake, hdrop, List.takeWhile_cons_of_neg hpoint,
      List.dropWhile_cons_of_neg hpoint]
  exact @lex_cons _ _ [] _ (scan_of_scans (.plain (by decide) rfl
    (fun _ => by decide) (fun _ => by decide) (fun _ => by decide) hnumber))

/-! ## Keywords in letters of any case

A keyword is recognised by its upper-case form under the full Unicode mapping.  For ASCII letters
that is the ordinary upper case, so a keyword may be typed in ASCII letters of any case.
-/

/-- The word is the keyword in ASCII letters of any case. -/
structure Writes (word : List Char) (spelling : String) : Prop where
  map_toUpper : word.map Char.toUpper = spelling.toList
  isUpper : spelling.toList.all Char.isUpper
  ne_nil : spelling.toList ≠ []

/-- What holds of every ASCII code holds of every ASCII character, so facts
about letters can be decided code by code. -/
theorem forall_ascii {p : Char → Prop} (hall : ∀ code < 128, p (Char.ofNat code)) (c : Char)
    (hc : c.toNat < 128) : p c := by
  have hcode := hall c.toNat hc
  rwa [Char.ofNat_toNat] at hcode

theorem isAlpha_of_isUpper_toUpper {c : Char} (hc : c.toUpper.isUpper) : c.isAlpha := by
  apply Bool.or_eq_true_iff.mpr
  unfold Char.toUpper at hc
  split at hc
  · rename_i hlower
    right
    exact Bool.and_eq_true_iff.mpr ⟨decide_eq_true hlower.1, decide_eq_true hlower.2⟩
  · exact Or.inl hc

theorem toNat_lt_of_isAlpha {c : Char} (hc : c.isAlpha) : c.toNat < 128 := by
  have hle : c.val ≤ 'z'.val := by
    rcases Bool.or_eq_true_iff.mp hc with hupper | hlower
    · have hZ : c.val ≤ 'Z'.val := (of_decide_eq_true hupper).2
      exact UInt32.le_trans hZ (by decide)
    · exact of_decide_eq_true (Bool.and_eq_true_iff.mp hlower).2
  have : c.toNat ≤ 122 := hle
  omega

theorem toUpper_of_isUpper {c : Char} (hc : c.isUpper) : c.toUpper = c := by
  have hle : c.val ≤ 'Z'.val := (of_decide_eq_true hc).2
  apply dif_neg
  intro hlower
  exact absurd (UInt32.le_trans hlower.1 hle) (by decide)

/-- A keyword can be typed as it is spelled, in upper case. -/
theorem writes_self (spelling : String) (hupper : spelling.toList.all Char.isUpper := by decide)
    (hne : spelling.toList ≠ [] := by decide) : Writes spelling.toList spelling where
  map_toUpper := by
    have hself : ∀ c ∈ spelling.toList, c.toUpper = id c :=
      fun c hc => toUpper_of_isUpper (List.all_eq_true.mp hupper c hc)
    rw [List.map_congr_left hself, List.map_id]
  isUpper := hupper
  ne_nil := hne

theorem letter_of_isAlpha {c : Char} (hc : c.isAlpha) :
    upperChar c = [c.toUpper] ∧ isWordStart c ∧ ¬Text.isBlank c := by
  have hall := forall_ascii (p := fun c => c.isAlpha →
    upperChar c = [c.toUpper] ∧ isWordStart c ∧ ¬Text.isBlank c) (by decide +kernel)
  exact hall c (toNat_lt_of_isAlpha hc) hc

theorem Writes.isAlpha (hword : Writes word spelling) : ∀ c ∈ word, c.isAlpha := by
  intro c hc
  apply isAlpha_of_isUpper_toUpper
  apply List.all_eq_true.mp hword.isUpper
  rw [← hword.map_toUpper]
  exact List.mem_map_of_mem hc

theorem Writes.upper_eq (hword : Writes word spelling) : upper word = spelling.toList := by
  have hupper : ∀ c ∈ word, upperChar c = [c.toUpper] :=
    fun c hc => (letter_of_isAlpha (hword.isAlpha c hc)).1
  rw [upper, List.flatMap_congr hupper, ← hword.map_toUpper, List.map_eq_flatMap]

/-- A keyword is a bare word in any case of its letters. -/
theorem Writes.isBareWord (hword : Writes word spelling) : IsBareWord word where
  ne_nil := by
    rintro rfl
    exact hword.ne_nil hword.map_toUpper.symm
  start c hc := (letter_of_isAlpha (hword.isAlpha c (List.mem_of_head? hc))).2.1
  part c hc := by
    have hstart := (letter_of_isAlpha (hword.isAlpha c hc)).2.1
    simp [isWordPart, hstart]
  not_blank c hc := (letter_of_isAlpha (hword.isAlpha c hc)).2.2

/-- A keyword is recognised in any case of its letters. -/
theorem Writes.isKeyword (hword : Writes word spelling) :
    (bare word).isKeyword spelling := by
  change (upper word == spelling.toList) = true
  rw [hword.upper_eq]
  exact beq_self_eq_true _

/-! ## Comments

A comment is read as one lexeme from `/*` to the first `*/`, and a comment that is never closed
spoils the whole text.
-/

def commentEnd : List Char := ['*', '/']

def blockComment (body : List Char) : Lexeme :=
  ⟨.comment, '/' :: '*' :: (body ++ commentEnd)⟩

theorem afterComment_cons {c : Char} {rest : List Char} (hend : ¬commentEnd <+: c :: rest) :
    afterComment (c :: rest) = afterComment rest := by
  rw [afterComment.eq_2]
  rintro left rfl rfl
  exact hend ⟨left, rfl⟩

/-- A comment goes on to the first `*/`; its own opening has been taken already
and cannot close it. -/
theorem afterComment_append (hbody : ¬commentEnd <:+: body) (left : List Char) :
    afterComment (body ++ (commentEnd ++ left)) = some left := by
  induction body with
  | nil => rfl
  | cons c body ih =>
      have hend : ¬commentEnd <+: c :: (body ++ (commentEnd ++ left)) := by
        intro hprefix
        obtain ⟨rfl, hslash⟩ := List.cons_prefix_cons.mp hprefix
        cases body with
        | nil => cases (List.cons_prefix_cons.mp hslash).1
        | cons d body =>
            obtain ⟨rfl, -⟩ := List.cons_prefix_cons.mp hslash
            exact hbody (List.prefix_append commentEnd body).isInfix
      rw [List.cons_append, afterComment_cons hend]
      exact ih fun hwithin => hbody (List.infix_cons hwithin)

theorem afterComment_eq_none (hbody : ¬commentEnd <:+: body) : afterComment body = none := by
  induction body with
  | nil => rfl
  | cons c body ih =>
      rw [afterComment_cons fun hprefix => hbody hprefix.isInfix]
      exact ih fun hwithin => hbody (List.infix_cons hwithin)

/-- A comment is read as one lexeme, whatever comes after it. -/
theorem lex_blockComment (hbody : ¬commentEnd <:+: body) (left : List Char) :
    lex ((blockComment body).text ++ left) = (lex left).map (blockComment body :: ·) := by
  have hread := afterComment_append hbody left
  rw [← List.append_assoc] at hread
  have hscan : scan '/' ('*' :: (body ++ commentEnd) ++ left) = some (.comment, left) :=
    scan_of_scans (.blockComment rfl hread)
  exact lex_cons hscan

/-- Nothing is read from an open comment, and so nothing from a text that ends
in one. -/
theorem lex_openComment (hbody : ¬commentEnd <:+: body) : lex ('/' :: '*' :: body) = none := by
  have hscan : scan '/' ('*' :: body) = none := by
    simp [scan, wordCloser?, backtick, afterComment_eq_none hbody]
  rw [lex]
  split
  · rfl
  · rename_i hsome
    rw [hscan] at hsome
    cases hsome

end CreateIndex.Lexeme
