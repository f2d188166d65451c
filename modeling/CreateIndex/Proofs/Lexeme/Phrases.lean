import CreateIndex.Proofs.Lexeme.Quiet

/-!
# Lexemes of evenly spaced texts

The head of a statement is evenly spaced, and so are the names that its lexemes spell.  A
run of lexemes with no blank at either end has a phrase as its text.
-/

namespace CreateIndex.Lexeme

open Text

variable {text left content : List Char}

/-! ## Contents -/

theorem quotedBody_head {closer : Char} (hread : quotedBody closer text = some (content, left)) :
    ∀ c ∈ content.head?, c = closer ∨ c ∈ text.head? := by
  intro c hc
  fun_cases quotedBody closer text with
  | case1 => cases hread
  | case2 =>
      simp only [quotedBody, if_true, Option.some.injEq, Prod.mk.injEq] at hread
      rw [← hread.1] at hc
      cases hc
  | case3 d hd => simp [quotedBody, hd] at hread
  | case4 d e rest hd =>
      rw [quotedBody_of_ne hd] at hread
      obtain ⟨content', -, rfl⟩ := map_cons_eq_some.mp hread
      exact Or.inr hc
  | case5 d rest hd =>
      rw [not_not.mp hd, quotedBody_doubled] at hread
      obtain ⟨content', -, rfl⟩ := map_cons_eq_some.mp hread
      cases hc
      exact Or.inl rfl
  | case6 d e rest hd he =>
      rw [not_not.mp hd, quotedBody_close (by simpa using he)] at hread
      cases hread
      cases hc

/-- The content between quotes is spaced as it was typed.  Only doubled quotes
change, and they are no blanks. -/
theorem quotedBody_evenlySpaced {closer : Char} (hcloser : ¬Text.isBlank closer)
    (hread : quotedBody closer text = some (content, left)) (heven : EvenlySpaced text) :
    EvenlySpaced content := by
  fun_induction quotedBody closer text generalizing content with
  | case1 => cases hread
  | case2 =>
      cases hread
      exact evenlySpaced_nil
  | case3 => cases hread
  | case4 c d rest hc ih =>
      obtain ⟨content', hbody, rfl⟩ := map_cons_eq_some.mp hread
      have hrest := ih hbody (heven.of_isInfix (List.suffix_cons c _).isInfix)
      refine ⟨?_, List.isChain_cons.mpr ⟨?_, hrest.isChain⟩⟩
      · intro e he hblank
        rcases List.mem_cons.mp he with rfl | he
        · exact heven.eq_space e (by simp) hblank
        · exact hrest.eq_space e he hblank
      · intro e he hblank
        rcases quotedBody_head hbody e he with rfl | hhead
        · exact hcloser hblank.2
        · exact (List.isChain_cons.mp heven.isChain).1 e hhead hblank
  | case5 c rest hc ih =>
      have hc := not_not.mp hc
      subst hc
      obtain ⟨content', hbody, rfl⟩ := map_cons_eq_some.mp hread
      have hsuffix : rest <:+ c :: c :: rest := ⟨[c, c], rfl⟩
      have hrest := ih hbody (heven.of_isInfix hsuffix.isInfix)
      refine ⟨?_, List.isChain_cons.mpr ⟨fun e _ h => hcloser h.1, hrest.isChain⟩⟩
      intro e he hblank
      rcases List.mem_cons.mp he with rfl | he
      · exact absurd hblank hcloser
      · exact hrest.eq_space e he hblank
  | case6 =>
      cases hread
      exact evenlySpaced_nil

/-- Where no backslash was taken, a backslash has no meaning of its own, and
both ways to read a body agree. -/
theorem quotedBody_of_slashedBody (hread : slashedBody text = some (content, left)) :
    ∃ taken, text = taken ++ left ∧
      ('\\' ∉ taken → quotedBody '\'' text = some (content, left)) := by
  fun_induction slashedBody text generalizing content with
  | case1 => cases hread
  | case2 rest ih =>
      obtain ⟨content', hbody, rfl⟩ := map_cons_eq_some.mp hread
      obtain ⟨taken, hrest, hquoted⟩ := ih hbody
      refine ⟨'\'' :: '\'' :: taken, by rw [hrest]; rfl, fun hslash => ?_⟩
      rw [quotedBody_doubled, hquoted fun hmem => hslash (by simp [hmem])]
      rfl
  | case3 rest hnext =>
      cases hread
      refine ⟨['\''], rfl, fun _ => quotedBody_close ?_⟩
      intro hhead
      obtain ⟨rest', rfl⟩ := List.head?_eq_some_iff.mp hhead
      exact hnext rest' rfl
  | case4 c rest ih =>
      obtain ⟨content', hbody, -⟩ := map_cons_eq_some.mp hread
      obtain ⟨taken, rfl, -⟩ := ih hbody
      exact ⟨'\\' :: c :: taken, rfl, fun hslash => absurd (by simp) hslash⟩
  | case5 c rest _ hquote _ ih =>
      obtain ⟨content', hbody, rfl⟩ := map_cons_eq_some.mp hread
      obtain ⟨taken, hrest, hquoted⟩ := ih hbody
      refine ⟨c :: taken, by rw [hrest]; rfl, fun hslash => ?_⟩
      rw [quotedBody_of_ne hquote, hquoted fun hmem => hslash (by simp [hmem])]
      rfl

theorem isBlank_wordCloser {c closer : Char} (hcloser : wordCloser? c = some closer) :
    ¬Text.isBlank closer := by
  rcases wordCloser?_eq_some_iff.mp hcloser with ⟨-, rfl⟩ | ⟨-, rfl⟩ | ⟨-, rfl⟩ <;> decide

/-- A name is as evenly spaced as the text that it was read from, with quotes or
without. -/
theorem evenlySpaced_of_scan {c : Char} {body name : List Char} {token : Token}
    (hscan : scan c (body ++ left) = some (token, left))
    (heven : EvenlySpaced (c :: (body ++ left)))
    (hname : (⟨token, c :: body⟩ : Lexeme).identifier? = some name) :
    EvenlySpaced name := by
  have hrest : EvenlySpaced (body ++ left) :=
    heven.of_isInfix (List.suffix_cons c _).isInfix
  have hscans := scan_eq_some_iff.mp hscan
  generalize hbody : body ++ left = rest at hscans hrest
  cases hscans with
  | string hc hread =>
      cases hname
      exact quotedBody_evenlySpaced (by decide) hread hrest
  | quotedWord hcloser hread =>
      cases hname
      exact quotedBody_evenlySpaced (isBlank_wordCloser hcloser) hread hrest
  | plain _ _ _ _ _ hplain =>
      obtain ⟨-, rfl, rfl⟩ := scanPlain_identifier hplain hname
      have hstarts : c :: rest.takeWhile isWordPart <+: c :: rest :=
        List.cons_prefix_cons.mpr ⟨rfl, List.takeWhile_prefix _⟩
      rw [hbody] at heven
      exact heven.of_isInfix hstarts.isInfix
  | national => cases hname
  | hexadecimal => cases hname
  | escaped => cases hname
  | lineComment => cases hname
  | blockComment => cases hname

/-- Every lexeme was read from some place of the text, so that a fact about one
scan holds for all lexemes of the text. -/
theorem exists_scan_of_mem {lexemes : List Lexeme} {lexeme : Lexeme}
    (hread : lex text = some lexemes) (hmem : lexeme ∈ lexemes) :
    ∃ c body left, lexeme.text = c :: body ∧
      scan c (body ++ left) = some (lexeme.token, left) ∧ c :: (body ++ left) <:+ text := by
  induction lexemes generalizing text with
  | nil => cases hmem
  | cons first lexemes ih =>
      obtain ⟨c, body, left, htext, rfl, hscan, hleft⟩ := exists_of_lex_eq_cons hread
      rcases List.mem_cons.mp hmem with rfl | hmem
      · exact ⟨c, body, left, htext, hscan, List.suffix_rfl⟩
      · obtain ⟨c', body', left', htext', hscan', hsuffix⟩ := ih hleft hmem
        refine ⟨c', body', left', htext', hscan', hsuffix.trans ?_⟩
        exact (List.suffix_append body left).trans (List.suffix_cons c _)

/-- Some lexemes of a text have some text. -/
theorem sourceText_ne_nil {part lexemes : List Lexeme} (hread : lex text = some lexemes)
    (hpart : part ⊆ lexemes) (hne : part ≠ []) : sourceText part ≠ [] := by
  obtain ⟨lexeme, part, rfl⟩ := List.exists_cons_of_ne_nil hne
  have hmem : lexeme ∈ lexemes := hpart (by simp)
  obtain ⟨c, body, left, htext, -, -⟩ := exists_scan_of_mem hread hmem
  simp [sourceText, htext]

theorem evenlySpaced_identifier {lexemes : List Lexeme} {lexeme : Lexeme} {name : List Char}
    (hread : lex text = some lexemes) (heven : EvenlySpaced text) (hmem : lexeme ∈ lexemes)
    (hname : lexeme.identifier? = some name) : EvenlySpaced name := by
  obtain ⟨c, body, left, htext, hscan, hsuffix⟩ := exists_scan_of_mem hread hmem
  refine evenlySpaced_of_scan hscan (heven.of_isInfix hsuffix.isInfix) ?_
  rw [← htext]
  exact hname

/-- What goes on like a word is a bare word up to its end.  In an evenly spaced
text no blank other than a space could have been taken along. -/
theorem isBareWord_takeWhile {c : Char} {rest : List Char} (hstart : isWordStart c)
    (heven : EvenlySpaced (c :: rest)) : IsBareWord (c :: rest.takeWhile isWordPart) := by
  have hpart : ∀ d ∈ c :: rest.takeWhile isWordPart, isWordPart d := by
    intro d hd
    rcases List.mem_cons.mp hd with rfl | hd
    · simp [isWordPart, hstart]
    · exact List.all_eq_true.mp List.all_takeWhile d hd
  refine ⟨by simp, ?_, hpart, ?_⟩
  · intro d hd
    cases hd
    exact hstart
  · intro d hd hblank
    have hmem : d ∈ c :: rest :=
      (List.cons_prefix_cons.mpr ⟨rfl, List.takeWhile_prefix _⟩).subset hd
    have hspace := hpart d hd
    rw [heven.eq_space d hmem hblank] at hspace
    cases hspace

/-- A lexeme that is read as an identifier without quotes is a bare word, and it
spells itself. -/
theorem isBareWord_of_scanPlain {c : Char} {body name : List Char} {token : Token}
    (hread : scanPlain c (body ++ left) = (token, left))
    (heven : EvenlySpaced (c :: (body ++ left)))
    (hname : (⟨token, c :: body⟩ : Lexeme).identifier? = some name) :
    IsBareWord name ∧ name = c :: body := by
  obtain ⟨hstart, rfl, hleft⟩ := scanPlain_identifier hread hname
  have htaken : (body ++ left).takeWhile isWordPart = body := by
    have happend := List.takeWhile_append_dropWhile (p := isWordPart) (l := body ++ left)
    rw [← hleft] at happend
    exact List.append_cancel_right happend
  exact ⟨isBareWord_takeWhile hstart heven, by rw [htaken]⟩

/-- A bare word that was read is one wherever it stands. -/
theorem isBareWord_of_scan {c : Char} {body word : List Char}
    (hscan : scan c (body ++ left) = some (.word word false, left))
    (heven : EvenlySpaced (c :: (body ++ left))) : IsBareWord word ∧ word = c :: body := by
  have hscans := scan_eq_some_iff.mp hscan
  generalize hbody : body ++ left = rest at hscans
  cases hscans with
  | plain _ _ _ _ _ hplain =>
      rw [← hbody] at hplain
      exact isBareWord_of_scanPlain hplain heven rfl

/-- The bare words of an evenly spaced text are what they spell, so that writing
one gives back its lexeme. -/
theorem eq_bare_of_mem {lexemes : List Lexeme} {lexeme : Lexeme} {word : List Char}
    (hread : lex text = some lexemes) (heven : EvenlySpaced text) (hmem : lexeme ∈ lexemes)
    (htoken : lexeme.token = .word word false) : lexeme = bare word ∧ IsBareWord word := by
  obtain ⟨c, body, left, htext, hscan, hsuffix⟩ := exists_scan_of_mem hread hmem
  rw [htoken] at hscan
  obtain ⟨hword, rfl⟩ := isBareWord_of_scan hscan (heven.of_isInfix hsuffix.isInfix)
  have hbare : bare (c :: body) = ⟨lexeme.token, lexeme.text⟩ := by rw [htoken, htext, bare]
  exact ⟨hbare.symm, hword⟩

/-- Bare words are the texts that are read as one bare word: the conditions on
their characters are no more than reading asks for. -/
theorem isBareWord_iff {word : List Char} :
    IsBareWord word ↔ lex (squeeze word) = some [bare word] := by
  constructor
  · intro hword
    have hread : lex (word ++ []) = (lex []).map (bare word :: ·) :=
      lex_bare hword (fun c hc => by cases hc)
    rw [List.append_nil] at hread
    rw [squeeze_phrase hword.isPhrase, hread]
    simp [lex]
  · intro hread
    exact (eq_bare_of_mem hread (evenlySpaced_squeeze word) (List.mem_singleton_self _) rfl).2

/-! ## Ends -/

theorem quotedBody_ends {closer : Char}
    (hread : quotedBody closer text = some (content, left)) :
    ∃ taken, text = taken ++ closer :: left := by
  fun_induction quotedBody closer text generalizing content with
  | case1 => cases hread
  | case2 =>
      cases hread
      exact ⟨[], rfl⟩
  | case3 => cases hread
  | case4 c d rest _ ih =>
      obtain ⟨content', hbody, -⟩ := map_cons_eq_some.mp hread
      obtain ⟨taken, htaken⟩ := ih hbody
      exact ⟨c :: taken, by rw [htaken, List.cons_append]⟩
  | case5 c rest _ ih =>
      obtain ⟨content', hbody, -⟩ := map_cons_eq_some.mp hread
      obtain ⟨taken, rfl⟩ := ih hbody
      exact ⟨c :: closer :: taken, rfl⟩
  | case6 c d rest hc _ =>
      cases hread
      exact ⟨[], by rw [not_not.mp hc, List.nil_append]⟩

theorem slashedBody_ends (hread : slashedBody text = some (content, left)) :
    ∃ taken, text = taken ++ '\'' :: left := by
  fun_induction slashedBody text generalizing content with
  | case1 => cases hread
  | case2 rest ih =>
      obtain ⟨content', hbody, -⟩ := map_cons_eq_some.mp hread
      obtain ⟨taken, rfl⟩ := ih hbody
      exact ⟨'\'' :: '\'' :: taken, rfl⟩
  | case3 rest =>
      cases hread
      exact ⟨[], rfl⟩
  | case4 c rest ih =>
      obtain ⟨content', hbody, -⟩ := map_cons_eq_some.mp hread
      obtain ⟨taken, rfl⟩ := ih hbody
      exact ⟨'\\' :: c :: taken, rfl⟩
  | case5 c rest _ _ _ ih =>
      obtain ⟨content', hbody, -⟩ := map_cons_eq_some.mp hread
      obtain ⟨taken, rfl⟩ := ih hbody
      exact ⟨c :: taken, rfl⟩

private theorem ends_of_taken {c closer : Char} {body taken : List Char}
    (htext : body ++ left = taken ++ closer :: left) (hc : c ≠ ' ') (hcloser : closer ≠ ' ') :
    c ≠ ' ' ∧ ∀ d ∈ (c :: body).getLast?, d ≠ ' ' := by
  rw [List.append_cons] at htext
  rw [List.append_cancel_right htext, ← List.cons_append, List.getLast?_concat]
  refine ⟨hc, fun d hd => ?_⟩
  cases hd
  exact hcloser

/-- A lexeme that is no blank neither starts nor ends with a space.  Comments and
strings `E'..'` may end in any way, and are left out. -/
theorem ends_of_scan {c : Char} {body : List Char} {token : Token}
    (hscan : scan c (body ++ left) = some (token, left)) (hblank : token ≠ .blank)
    (hcomment : token ≠ .comment) (hescaped : ∀ content, token ≠ .escaped content) :
    c ≠ ' ' ∧ ∀ d ∈ (c :: body).getLast?, d ≠ ' ' := by
  have hscans := scan_eq_some_iff.mp hscan
  generalize hbody : body ++ left = rest at hscans
  have hletter {a b : Char} (hc : c = a ∨ c = b) (ha : a ≠ ' ') (hb : b ≠ ' ') : c ≠ ' ' := by
    rcases hc with rfl | rfl
    · exact ha
    · exact hb
  cases hscans with
  | national hc hread =>
      obtain ⟨taken, rfl⟩ := slashedBody_ends hread
      rw [← List.cons_append] at hbody
      exact ends_of_taken hbody (hletter hc (by decide) (by decide)) (by decide)
  | hexadecimal hc hread =>
      obtain ⟨taken, rfl⟩ := slashedBody_ends hread
      rw [← List.cons_append] at hbody
      exact ends_of_taken hbody (hletter hc (by decide) (by decide)) (by decide)
  | escaped => exact absurd rfl (hescaped _)
  | string hc hread =>
      obtain ⟨taken, rfl⟩ := quotedBody_ends hread
      exact ends_of_taken hbody (by rw [hc]; decide) (by decide)
  | quotedWord hcloser hread =>
      obtain ⟨taken, rfl⟩ := quotedBody_ends hread
      refine ends_of_taken hbody ?_ ?_
      · rcases wordCloser?_eq_some_iff.mp hcloser with ⟨rfl, -⟩ | ⟨rfl, -⟩ | ⟨rfl, -⟩ <;> decide
      · rcases wordCloser?_eq_some_iff.mp hcloser with ⟨-, rfl⟩ | ⟨-, rfl⟩ | ⟨-, rfl⟩ <;> decide
  | lineComment => exact absurd rfl hcomment
  | blockComment => exact absurd rfl hcomment
  | plain _ _ _ _ _ hplain =>
      -- Quiet lexemes have no space in them; the others are one character.
      rcases quietUpTo_scanPlain hplain with ⟨⟨taken, htaken, hquiet⟩, -⟩ | ⟨hleft, htoken⟩
      · rw [← hbody, ← List.cons_append] at htaken
        rw [← List.append_cancel_right htaken] at hquiet
        have hspace {d : Char} (hd : d ∈ c :: body) : d ≠ ' ' := by
          rintro rfl
          exact hquiet ' ' hd (by decide)
        exact ⟨hspace (by simp), fun d hd => hspace (List.mem_of_getLast? hd)⟩
      · have hc : c ≠ ' ' := by
          rintro rfl
          exact hblank htoken
        have hnil : body = [] := by simpa [hleft] using hbody
        rw [hnil]
        exact ⟨hc, fun d hd => by cases hd; exact hc⟩

/-- The text of movable lexemes is a phrase if there is no blank at either end,
so it can be moved to a statement that is squeezed again. -/
theorem isPhrase_of_lex {lexemes : List Lexeme} (hread : lex text = some lexemes)
    (heven : EvenlySpaced text) (hmovable : ∀ lexeme ∈ lexemes, lexeme.IsMovable)
    (hne : lexemes ≠ []) (hhead : ∀ lexeme ∈ lexemes.head?, ¬lexeme.isBlank)
    (hlast : ∀ lexeme ∈ lexemes.getLast?, ¬lexeme.isBlank) : IsPhrase text := by
  have hends {lexeme : Lexeme} {c : Char} {body left : List Char} (hmem : lexeme ∈ lexemes)
      (hnot : ¬lexeme.isBlank) (hscan : scan c (body ++ left) = some (lexeme.token, left)) :
      c ≠ ' ' ∧ ∀ d ∈ (c :: body).getLast?, d ≠ ' ' := by
    refine ends_of_scan hscan ?_ (hmovable lexeme hmem).1 (hmovable lexeme hmem).2
    intro hblank
    exact hnot (by simp [isBlank, hblank])
  have hnot_blank {d : Char} (hd : d ∈ text) (hspace : d ≠ ' ') : ¬Text.isBlank d :=
    fun hblank => hspace (heven.eq_space d hd hblank)
  have htext := flatMap_text_of_lex hread
  constructor
  · exact heven
  · rintro rfl
    simp only [lex, Option.some.injEq] at hread
    exact hne hread.symm
  · intro d hd
    obtain ⟨first, lexemes, rfl⟩ := List.exists_cons_of_ne_nil hne
    obtain ⟨c, body, left, -, rfl, hscan, -⟩ := exists_of_lex_eq_cons hread
    cases hd
    exact hnot_blank (by simp) (hends (by simp) (hhead first rfl) hscan).1
  · intro d hd
    obtain ⟨lexemes, last, rfl⟩ : ∃ start last, lexemes = start ++ [last] :=
      ⟨lexemes.dropLast, lexemes.getLast hne, (List.dropLast_append_getLast hne).symm⟩
    have hmem : last ∈ lexemes ++ [last] := by simp
    obtain ⟨c, body, left, hlexeme, hscan, -⟩ := exists_scan_of_mem hread hmem
    have hnot : ¬last.isBlank := hlast last (by simp)
    have hd' : d ∈ (c :: body).getLast? := by
      rw [← htext, List.flatMap_append, List.flatMap_singleton, hlexeme,
        List.getLast?_append_of_ne_nil _ (by simp)] at hd
      exact hd
    exact hnot_blank (List.mem_of_getLast? hd) ((hends hmem hnot hscan).2 d hd')

end CreateIndex.Lexeme
