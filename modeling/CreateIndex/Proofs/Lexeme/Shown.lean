import CreateIndex.Proofs.Lexeme.Readable
import CreateIndex.Proofs.Lexeme.Phrases
import Mathlib.Data.List.Infix

/-!
# Display forms

A lone lexeme is written in its display form.  That may differ from what was typed, but it
is read as a lexeme with the same token, so its display form stays the same from then on.
-/

namespace CreateIndex.Lexeme

open Text Statement

variable {text content left : List Char} {lexemes : List Lexeme} {lexeme : Lexeme}

theorem shown_congr {other : Lexeme} (htoken : other.token = lexeme.token)
    (htext : other.text = lexeme.shown) : other.shown = lexeme.shown := by
  unfold shown at htext ⊢
  rw [htoken]
  split <;> simp_all

/-! ## Hexadecimal literals -/

theorem not_isBlank_of_isHexDigit {c : Char} (hc : isHexDigit c) : ¬Text.isBlank c := by
  have hlt : c.toNat < 128 := by
    by_contra hge
    have hdigit : c.isDigit = false := by
      simp only [Char.isDigit, Bool.and_eq_false_iff, decide_eq_false_iff_not, ge_iff_le,
        UInt32.le_iff_toNat_le]
      change ¬48 ≤ c.toNat ∨ ¬c.toNat ≤ 57
      omega
    have hlower : ¬c ≤ 'f' := by
      intro hle
      have : c.toNat ≤ 102 := hle
      omega
    have hupper : ¬c ≤ 'F' := by
      intro hle
      have : c.toNat ≤ 70 := hle
      omega
    simp [isHexDigit, hexDigit?, hdigit, hlower, hupper] at hc
  have hall := forall_ascii (p := fun c => isHexDigit c → ¬Text.isBlank c) (by decide +kernel)
  exact hall c hlt hc

theorem isHexDigit_of_scanNumber (hread : scanNumber text = (.hexadecimal content, left)) :
    ∀ d ∈ content, isHexDigit d := by
  simp only [scanNumber] at hread
  split at hread
  · cases hread
    exact List.all_eq_true.mp List.all_takeWhile
  · split at hread <;> cases hread

theorem isHexDigit_of_scanPlain {c : Char} {rest : List Char}
    (hread : scanPlain c rest = (.hexadecimal content, left)) :
    ∀ d ∈ content, isHexDigit d := by
  generalize htoken : Token.hexadecimal content = token at hread
  cases scansPlain_of_scanPlain hread with
  | number hnumber =>
      rw [← htoken] at hnumber
      exact isHexDigit_of_scanNumber hnumber
  | operator hoperator =>
      rcases scanOperator?_token hoperator with rfl | rfl <;> cases htoken
  | punctuation =>
      rcases punctuation_cases c with h | h | h | h <;> rw [h] at htoken <;> cases htoken
  | space | word | mark | dollar => cases htoken

/-- The content of a hexadecimal literal without quotes is digits, which is why
it can be shown between quotes and be read again. -/
theorem isHexDigit_of_scan {c : Char} {body : List Char}
    (hscan : scan c (body ++ left) = some (.hexadecimal content, left))
    (hplain : (⟨.hexadecimal content, c :: body⟩ : Lexeme).IsPlain) :
    ∀ d ∈ content, isHexDigit d := by
  have hscans := scan_eq_some_iff.mp hscan
  generalize hbody : body ++ left = rest at hscans
  cases hscans with
  | hexadecimal hc =>
      obtain ⟨hupper, hlower⟩ := hplain.not_quoted_hexadecimal _ rfl
      rcases hc with rfl | rfl
      · exact absurd rfl hupper
      · exact absurd rfl hlower
  | plain _ _ _ _ _ hread => exact isHexDigit_of_scanPlain hread

theorem slashedBody_hexDigits (hcontent : ∀ c ∈ content, isHexDigit c) :
    slashedBody (content ++ ['\'']) = some (content, []) := by
  induction content with
  | nil => exact slashedBody_close (by simp)
  | cons c content ih =>
      have hc : isHexDigit c := hcontent c (by simp)
      have hquote : c ≠ '\'' := by
        rintro rfl
        cases hc
      have hslash : c ≠ '\\' := by
        rintro rfl
        cases hc
      rw [List.cons_append, slashedBody_of_ne hquote hslash,
        ih fun d hd => hcontent d (by simp [hd])]
      rfl

def hexadecimal (content : List Char) : Lexeme :=
  ⟨.hexadecimal content, 'X' :: '\'' :: content ++ ['\'']⟩

/-- A hexadecimal literal is readable in its display form, although that is not
how it was typed. -/
theorem readable_hexadecimal (hcontent : ∀ c ∈ content, isHexDigit c) :
    Readable [hexadecimal content] := by
  have hquote : '\'' ∉ content := by
    intro hmem
    cases hcontent '\'' hmem
  have hscan : scan 'X' ('\'' :: content ++ ['\''] ++ []) = some (.hexadecimal content, []) := by
    apply scan_of_scans
    rw [List.append_nil]
    exact .hexadecimal (Or.inl rfl) (slashedBody_hexDigits hcontent)
  refine ⟨?_, ?_, ?_⟩
  · have hread := lex_cons hscan
    simpa [sourceText, hexadecimal, lex] using hread
  · intro lexeme hlexeme
    rw [List.mem_singleton.mp hlexeme]
    exact ⟨by simp [hexadecimal], by simp [hexadecimal]⟩
  · intro lexeme hlexeme depth
    rw [List.mem_singleton.mp hlexeme]
    have hbody : quotedBody '\'' (content ++ '\'' :: []) = some (content, []) :=
      quotedBody_append hquote (by simp)
    obtain ⟨taken, htaken, hpass⟩ := Nesting.pass_quotedBody hbody (Or.inl rfl)
    rw [List.append_nil] at htaken
    change (Nesting.outside depth).pass ('X' :: '\'' :: (content ++ ['\''])) =
      some (.outside depth)
    rw [Nesting.pass_cons_outside rfl (by decide) (by decide), Nesting.pass_opener rfl, htaken]
    exact hpass depth

theorem isPhrase_hexadecimal (hcontent : ∀ c ∈ content, isHexDigit c) :
    IsPhrase (hexadecimal content).text := by
  apply isPhrase_of_not_blank (by simp [hexadecimal])
  simp only [hexadecimal, List.mem_append, List.mem_cons, List.not_mem_nil, or_false]
  rintro c ((rfl | rfl | hc) | rfl)
  · decide
  · decide
  · exact not_isBlank_of_isHexDigit (hcontent c hc)
  · decide

def unequal : Lexeme := ⟨.unequal, ['<', '>']⟩

theorem readable_unequal : Readable [unequal] := by
  apply readable_of_plain
  · decide +kernel
  · intro lexeme hlexeme
    rw [List.mem_singleton.mp hlexeme]
    constructor <;> simp [unequal]

/-! ## All display forms -/

/-- Any run of plain lexemes is readable, wherever it stands in the lexemes of a
text. -/
theorem readable_of_isInfix (hread : lex text = some lexemes) {part : List Lexeme}
    (hwithin : part <:+: lexemes) (hplain : ∀ lexeme ∈ part, lexeme.IsPlain) :
    Readable part := by
  obtain ⟨start, following, hlexemes⟩ := hwithin
  rw [← hlexemes] at hread
  exact readable_of_plain (lex_sourceText hread fun lexeme hlexeme =>
    (hplain lexeme hlexeme).isMovable) hplain

theorem isInfix_sourceText (hread : lex text = some lexemes) {part : List Lexeme}
    (hwithin : part <:+: lexemes) : sourceText part <:+: text := by
  obtain ⟨start, following, hlexemes⟩ := hwithin
  refine ⟨sourceText start, sourceText following, ?_⟩
  rw [← sourceText_append, ← sourceText_append, hlexemes]
  exact flatMap_text_of_lex hread

/-- The text of such a run is a phrase, as long as the run neither starts nor
ends with a blank. -/
theorem isPhrase_of_isInfix (hread : lex text = some lexemes) (heven : EvenlySpaced text)
    {part : List Lexeme} (hwithin : part <:+: lexemes)
    (hplain : ∀ lexeme ∈ part, lexeme.IsPlain) (hne : part ≠ [])
    (hhead : ∀ lexeme ∈ part.head?, ¬lexeme.isBlank)
    (hlast : ∀ lexeme ∈ part.getLast?, ¬lexeme.isBlank) : IsPhrase (sourceText part) :=
  isPhrase_of_lex (readable_of_isInfix hread hwithin hplain).read
    (heven.of_isInfix (isInfix_sourceText hread hwithin))
    (fun lexeme hlexeme => (hplain lexeme hlexeme).isMovable) hne hhead hlast

/-- The display form of a plain lexeme is read as a lexeme with the same token,
so that a name built from it survives being written. -/
theorem exists_shown (hread : lex text = some lexemes) (heven : EvenlySpaced text)
    (hmem : lexeme ∈ lexemes) (hplain : lexeme.IsPlain) (hblank : ¬lexeme.isBlank) :
    ∃ other, other.token = lexeme.token ∧ other.text = lexeme.shown ∧ Readable [other] ∧
      IsPhrase other.text := by
  have hwithin : [lexeme] <:+: lexemes := (List.singleton_infix_iff _ _).mpr hmem
  have hsingle : ∀ other ∈ [lexeme], other.IsPlain := by simpa using hplain
  by_cases htext : lexeme.shown = lexeme.text
  · refine ⟨lexeme, rfl, htext.symm, readable_of_isInfix hread hwithin hsingle, ?_⟩
    have hphrase := isPhrase_of_isInfix hread heven hwithin hsingle (by simp)
      (by simpa using hblank) (by simpa using hblank)
    simpa [sourceText] using hphrase
  · unfold shown at htext
    split at htext
    · exact absurd ‹_› (hplain.not_national _)
    · rename_i content htoken
      obtain ⟨c, body, left, hlexeme, hscan, hsuffix⟩ := exists_scan_of_mem hread hmem
      rw [htoken] at hscan
      have hcontent := isHexDigit_of_scan hscan (by rwa [← hlexeme, ← htoken])
      exact ⟨hexadecimal content, htoken.symm, by simp [shown, htoken, hexadecimal],
        readable_hexadecimal hcontent, isPhrase_hexadecimal hcontent⟩
    · exact absurd ‹_› (hplain.not_escaped _)
    · rename_i htoken
      exact ⟨unequal, htoken.symm, by simp [shown, htoken, unequal], readable_unequal,
        isPhrase_of_not_blank (by simp [unequal]) (by simp [unequal]; decide)⟩
    · exact absurd rfl htext

/-! ## Spacing -/

/-- A literal in single quotes whose display form need not be spaced like the text, since an
escape in it was decoded. -/
def IsDecoded (lexeme : Lexeme) : Prop :=
  (∃ content, lexeme.token = .escaped content) ∨
    '\\' ∈ lexeme.text ∧
      ∃ content, lexeme.token = .national content ∨ lexeme.token = .hexadecimal content

theorem scanPlain_ne_national {c : Char} {rest : List Char} :
    scanPlain c rest ≠ (.national content, left) := by
  intro hread
  generalize htoken : Token.national content = token at hread
  cases scansPlain_of_scanPlain hread with
  | number hnumber =>
      have hnumber := congrArg Prod.fst hnumber
      rcases scanNumber_token (c :: rest) with h | h | ⟨_, h⟩ <;>
        rw [h, ← htoken] at hnumber <;> cases hnumber
  | operator hoperator =>
      rcases scanOperator?_token hoperator with rfl | rfl <;> cases htoken
  | punctuation =>
      rcases punctuation_cases c with h | h | h | h <;> rw [h] at htoken <;> cases htoken
  | space | word | mark | dollar => cases htoken

theorem evenlySpaced_of_slashedBody {body rest : List Char}
    (hread : slashedBody rest = some (content, left)) (hbody : body ++ left = '\'' :: rest)
    (heven : EvenlySpaced (body ++ left)) (hslash : '\\' ∉ body) : EvenlySpaced content := by
  obtain ⟨taken, rfl, hquoted⟩ := quotedBody_of_slashedBody hread
  obtain rfl : body = '\'' :: taken := List.append_cancel_right hbody
  refine quotedBody_evenlySpaced (by decide)
    (hquoted fun hmem => hslash (List.mem_cons_of_mem _ hmem)) ?_
  exact heven.of_isInfix (List.suffix_cons '\'' _).isInfix

/-- Without a backslash a literal says what was typed, up to doubled quotes, so
its content is spaced like the text. -/
theorem evenlySpaced_literal {c : Char} {body : List Char} {token : Token}
    (hscan : scan c (body ++ left) = some (token, left))
    (heven : EvenlySpaced (body ++ left)) (hslash : '\\' ∉ body)
    (htoken : token = .national content ∨ token = .hexadecimal content) :
    EvenlySpaced content := by
  have hscans := scan_eq_some_iff.mp hscan
  generalize hbody : body ++ left = rest at hscans
  cases hscans with
  | national _ hread =>
      obtain rfl : _ = content := by simpa using htoken
      exact evenlySpaced_of_slashedBody hread hbody heven hslash
  | hexadecimal _ hread =>
      obtain rfl : _ = content := by simpa using htoken
      exact evenlySpaced_of_slashedBody hread hbody heven hslash
  | plain _ _ _ _ _ hread =>
      rcases htoken with rfl | rfl
      · exact absurd hread scanPlain_ne_national
      · by_cases hnil : content = []
        · rw [hnil]
          exact evenlySpaced_nil
        · have hdigits := isHexDigit_of_scanPlain hread
          exact (isPhrase_of_not_blank hnil fun d hd =>
            not_isBlank_of_isHexDigit (hdigits d hd)).evenlySpaced
  | escaped | string | quotedWord | lineComment | blockComment => simp at htoken

/-- A lexeme is shown with the spacing of the text, unless an escape in it was
decoded. -/
theorem evenlySpaced_shown (hread : lex text = some lexemes) (heven : EvenlySpaced text)
    (hmem : lexeme ∈ lexemes) : EvenlySpaced lexeme.shown ∨ lexeme.IsDecoded := by
  obtain ⟨c, body, left, htext, hscan, hsuffix⟩ := exists_scan_of_mem hread hmem
  have hquoted {letter : Char} {content : List Char} (hletter : ¬Text.isBlank letter)
      (htoken : lexeme.token = .national content ∨ lexeme.token = .hexadecimal content) :
      EvenlySpaced (letter :: '\'' :: content ++ ['\'']) ∨ lexeme.IsDecoded := by
    by_cases hslash : '\\' ∈ lexeme.text
    · exact .inr (.inr ⟨hslash, content, htoken⟩)
    · have hbody : '\\' ∉ body := fun h => hslash (by simp [htext, h])
      have hrest : EvenlySpaced (body ++ left) :=
        heven.of_isInfix ((List.suffix_cons c _).trans hsuffix).isInfix
      have hcontent := evenlySpaced_literal hscan hrest hbody htoken
      exact .inl ((hcontent.isPhrase_enclose (by decide) (by decide)).evenlySpaced.cons hletter)
  unfold shown
  split
  · exact hquoted (by decide) (.inl ‹_›)
  · exact hquoted (by decide) (.inr ‹_›)
  · exact .inr (.inl ⟨_, ‹_›⟩)
  · exact .inl (isPhrase_of_not_blank (by simp) (by decide)).evenlySpaced
  · have hwithin := isInfix_sourceText hread ((List.singleton_infix_iff _ _).mpr hmem)
    rw [sourceText_singleton] at hwithin
    exact .inl (heven.of_isInfix hwithin)

end CreateIndex.Lexeme
