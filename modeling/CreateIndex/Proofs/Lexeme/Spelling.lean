import CreateIndex.Proofs.Lexeme.Phrases
import CreateIndex.Proofs.Text.Collapse
import CreateIndex.Statement.Head

/-!
# How identifiers are typed

Blanks are squeezed before a text is read, those in quotes too.  So an identifier in quotes is
typed as its content with every closing quote doubled, and its name is that content with every
run of blanks collapsed; an identifier without quotes is typed as it is named.
-/

namespace CreateIndex.Lexeme

open Text Statement

variable {opener closer : Char} {typed text content name left : List Char}

/-- A content as it is typed before its closing quote: each such quote in it stands twice. -/
def doubled (closer : Char) (content : List Char) : List Char :=
  content.flatMap fun c => if c = closer then [c, c] else [c]

theorem doubled_cons_self (closer : Char) (content : List Char) :
    doubled closer (closer :: content) = closer :: closer :: doubled closer content := by
  simp [doubled]

theorem doubled_cons_of_ne {c : Char} (hc : c ≠ closer) (content : List Char) :
    doubled closer (c :: content) = c :: doubled closer content := by
  simp [doubled, hc]

/-- What is read up to the closing quote was the doubled content: reading
between quotes can be undone. -/
theorem eq_doubled_of_quotedBody (hread : quotedBody closer text = some (content, left)) :
    text = doubled closer content ++ closer :: left := by
  fun_induction quotedBody closer text generalizing content with
  | case1 => cases hread
  | case2 =>
      cases hread
      rfl
  | case3 => cases hread
  | case4 c d rest hc ih =>
      obtain ⟨content', hbody, rfl⟩ := map_cons_eq_some.mp hread
      rw [ih hbody, doubled_cons_of_ne hc, List.cons_append]
  | case5 c rest hc ih =>
      obtain ⟨content', hbody, rfl⟩ := map_cons_eq_some.mp hread
      rw [ih hbody, not_not.mp hc, doubled_cons_self]
      rfl
  | case6 c d rest hc hd =>
      cases hread
      rw [not_not.mp hc]
      rfl

theorem doubled_append (closer : Char) (start rest : List Char) :
    doubled closer (start ++ rest) = doubled closer start ++ doubled closer rest :=
  List.flatMap_append

theorem doubled_of_not_mem (hcloser : closer ∉ content) : doubled closer content = content := by
  induction content with
  | nil => rfl
  | cons c content ih =>
      rw [List.mem_cons, not_or] at hcloser
      rw [doubled_cons_of_ne (Ne.symm hcloser.1), ih hcloser.2]

theorem head?_doubled (closer : Char) (content : List Char) :
    (doubled closer content).head? = content.head? := by
  cases content with
  | nil => rfl
  | cons c content =>
      by_cases hc : c = closer
      · rw [hc, doubled_cons_self]
        rfl
      · rw [doubled_cons_of_ne hc]
        rfl

/-- What collapses to a doubled content was typed as one.  A doubled quote is no
blank, so no space gets between its halves. -/
theorem exists_doubled_of_collapse (hcloser : ¬Text.isBlank closer)
    (hcollapse : collapse typed = doubled closer name) :
    ∃ content, typed = doubled closer content ∧ collapse content = name := by
  induction name generalizing typed with
  | nil => exact ⟨[], collapse_eq_nil_iff.mp hcollapse, rfl⟩
  | cons c name ih =>
      by_cases hc : c = closer
      · have hpieces : collapse typed = [closer, closer] ++ doubled closer name := by
          rw [hcollapse, hc, doubled_cons_self]
          rfl
        obtain ⟨first, left, rfl, hfirst, hleft, -⟩ := exists_append_of_collapse hpieces
        obtain ⟨content, rfl, hcontent⟩ := ih hleft
        have hquotes : first = [closer, closer] :=
          eq_of_collapse_eq_word (by simpa using hcloser) hfirst
        refine ⟨closer :: content, ?_, ?_⟩
        · rw [hquotes, doubled_cons_self]
          rfl
        · rw [collapse_cons_of_not_blank hcloser, hcontent, hc]
      · have hpieces : collapse typed = [c] ++ doubled closer name := by
          rw [hcollapse, doubled_cons_of_ne hc]
          rfl
        obtain ⟨first, left, rfl, hfirst, hleft, hcut⟩ := exists_append_of_collapse hpieces
        obtain ⟨content, rfl, hcontent⟩ := ih hleft
        have hnot : closer ∉ first := by
          intro hmem
          have hshown := mem_collapse_of_not_blank hcloser hmem
          rw [hfirst, List.mem_singleton] at hshown
          exact hc hshown.symm
        rw [head?_doubled] at hcut
        refine ⟨first ++ content, ?_, ?_⟩
        · rw [doubled_append, doubled_of_not_mem hnot]
        · rw [collapse_append hcut, hfirst, hcontent]
          rfl

/-! ## Names -/

/-- How a name may be typed: as a bare word, or in any quotes as a content that collapses to
the name. -/
inductive TypedAs : List Char → List Char → Prop where
  | bare {word : List Char} (hword : IsBareWord word) : TypedAs word word
  | quoted {opener closer : Char} (hcloser : quoteCloser? opener = some closer)
      (content : List Char) :
      TypedAs (collapse content) (opener :: doubled closer content ++ [closer])

theorem quoteCloser?_of_wordCloser? (hcloser : wordCloser? opener = some closer) :
    quoteCloser? opener = some closer := by
  rcases wordCloser?_eq_some_iff.mp hcloser with ⟨rfl, rfl⟩ | ⟨rfl, rfl⟩ | ⟨rfl, rfl⟩ <;> rfl

theorem not_isBlank_of_quoteCloser? (hcloser : quoteCloser? opener = some closer) :
    ¬Text.isBlank opener ∧ ¬Text.isBlank closer := by
  have hpairs : ∀ pair ∈ quotePairs, ¬Text.isBlank pair.1 ∧ ¬Text.isBlank pair.2 := by decide
  exact hpairs _ (mem_quotePairs hcloser)

/-- A name in quotes was typed with the quotes that it is read with, and its
blanks may have been any. -/
theorem typedAs_of_quotedBody {body : List Char} (hcloser : quoteCloser? opener = some closer)
    (hread : quotedBody closer (body ++ left) = some (name, left))
    (hcollapse : collapse typed = opener :: body) : TypedAs name typed := by
  obtain ⟨hopenerBlank, hcloserBlank⟩ := not_isBlank_of_quoteCloser? hcloser
  have hbody : body = doubled closer name ++ [closer] := by
    have htext := eq_doubled_of_quotedBody hread
    rw [List.append_cons] at htext
    exact List.append_cancel_right htext
  rw [hbody] at hcollapse
  obtain ⟨inner, rfl, hinner⟩ := exists_of_collapse_enclose hopenerBlank hcloserBlank hcollapse
  obtain ⟨content, rfl, rfl⟩ := exists_doubled_of_collapse hcloserBlank hinner
  exact .quoted hcloser content

/-- What is read as an identifier was typed as its name may be: as a bare word,
or in quotes of some kind. -/
theorem typedAs_of_mem {lexemes : List Lexeme} {lexeme : Lexeme}
    (hread : lex text = some lexemes) (heven : EvenlySpaced text) (hmem : lexeme ∈ lexemes)
    (hname : lexeme.identifier? = some name) (hcollapse : collapse typed = lexeme.text) :
    TypedAs name typed := by
  obtain ⟨c, body, left, htext, hscan, hsuffix⟩ := exists_scan_of_mem hread hmem
  rw [htext] at hcollapse
  have heven' : EvenlySpaced (c :: (body ++ left)) := heven.of_isInfix hsuffix.isInfix
  have hscans := scan_eq_some_iff.mp hscan
  unfold identifier? at hname
  generalize lexeme.token = token at hname hscans
  generalize hrest : body ++ left = rest at hscans
  cases hscans with
  | string hc hbody =>
      cases hname
      rw [← hrest] at hbody
      exact typedAs_of_quotedBody (if_pos hc) (hc ▸ hbody) hcollapse
  | quotedWord hcloser hbody =>
      cases hname
      rw [← hrest] at hbody
      exact typedAs_of_quotedBody (quoteCloser?_of_wordCloser? hcloser) hbody hcollapse
  | plain _ _ _ _ _ hplain =>
      rw [← hrest] at hplain
      obtain ⟨hword, rfl⟩ := isBareWord_of_scanPlain hplain heven' hname
      rw [eq_of_collapse_eq_word hword.not_blank hcollapse]
      exact .bare hword
  | national => cases hname
  | hexadecimal => cases hname
  | escaped => cases hname
  | lineComment => cases hname
  | blockComment => cases hname

end CreateIndex.Lexeme
