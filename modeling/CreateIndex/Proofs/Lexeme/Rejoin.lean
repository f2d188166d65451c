import CreateIndex.Proofs.Lexeme.Bodies
import CreateIndex.Proofs.Lexeme.Scans
import CreateIndex.Proofs.Lexeme.Separator

/-!
# Lexemes in another place

`lex_rejoin` takes lexemes to another place: those that were read from the front of a text
are read again when what follows them is replaced by a text that starts with a separator.
Comments are left out, since one of them may run to the end of the text, and so are
strings `E'..'`.
-/

namespace CreateIndex.Lexeme

open Text

variable {before after after' left content : List Char}

/-! ## Operators -/

theorem isPrefixOf?_append_self (start rest : List Char) :
    start.isPrefixOf? (start ++ rest) = some rest := by
  induction start with
  | nil => rfl
  | cons c start ih =>
      change (if c == c then start.isPrefixOf? (start ++ rest) else none) = some rest
      rw [if_pos (beq_self_eq_true c), ih]

/-- Whether an operator comes next does not depend on what follows the next
separator. -/
theorem isPrefixOf?_append_separated {start : List Char}
    (hstart : ∀ c ∈ start, isSeparator c = false) (hsep : Separated after') :
    start.isPrefixOf? (before ++ after') =
      (start.isPrefixOf? before).map (· ++ after') := by
  induction start generalizing before with
  | nil => rfl
  | cons c start ih =>
      cases before with
      | cons d before =>
          change (if c == d then start.isPrefixOf? (before ++ after') else none) =
            (if c == d then start.isPrefixOf? before else none).map (· ++ after')
          rw [ih fun e he => hstart e (List.mem_cons_of_mem c he)]
          split <;> rfl
      | nil =>
          cases after' with
          | nil => rfl
          | cons d after' =>
              change (if c == d then start.isPrefixOf? after' else none) = none
              rw [if_neg]
              intro hcd
              have hd : isSeparator d := hsep d rfl
              rw [← beq_iff_eq.mp hcd, hstart c (by simp)] at hd
              cases hd

theorem isPrefixOf?_cancel {start : List Char}
    (hread : start.isPrefixOf? (before ++ after) = some (left ++ after)) :
    start.isPrefixOf? before = some left := by
  have happend := append_of_isPrefixOf? hread
  rw [← List.append_assoc] at happend
  rw [← List.append_cancel_right happend]
  exact isPrefixOf?_append_self start left

theorem isPrefixOf?_eq_none_of_append {start : List Char}
    (hread : start.isPrefixOf? (before ++ after) = none) :
    start.isPrefixOf? before = none := by
  cases hbefore : start.isPrefixOf? before with
  | none => rfl
  | some rest =>
      rw [← append_of_isPrefixOf? hbefore, List.append_assoc,
        isPrefixOf?_append_self] at hread
      cases hread

theorem isSeparator_of_mem_operators :
    ∀ operator ∈ operators, ∀ c ∈ operator.toList, isSeparator c = false := by
  decide

private theorem findSome?_congr {α β : Type} {f g : α → Option β} {items : List α}
    (heq : ∀ a ∈ items, f a = g a) : items.findSome? f = items.findSome? g := by
  induction items with
  | nil => rfl
  | cons a items ih =>
      rw [List.findSome?_cons, List.findSome?_cons, heq a (by simp),
        ih fun b hb => heq b (by simp [hb])]

/-- No operator goes on over a separator, so the longest one is the same before
any separated text. -/
theorem scanOperator?_append (hsep : Separated after') :
    scanOperator? (before ++ after') =
      (scanOperator? before).map fun (token, left) => (token, left ++ after') := by
  rw [scanOperator?, scanOperator?, List.map_findSome?]
  apply findSome?_congr
  intro operator hmem
  rw [isPrefixOf?_append_separated (isSeparator_of_mem_operators operator hmem) hsep]
  simp [Function.comp_def]

theorem scanOperator?_cancel {token : Token}
    (hread : scanOperator? (before ++ after) = some (token, left ++ after)) :
    scanOperator? before = some (token, left) := by
  obtain ⟨start, operator, rest, hops, hfound, hnone⟩ :=
    List.findSome?_eq_some_iff.mp hread
  obtain ⟨left', hleft, heq⟩ := Option.map_eq_some_iff.mp hfound
  obtain ⟨rfl, rfl⟩ := Prod.mk.inj heq
  refine List.findSome?_eq_some_iff.mpr ⟨start, operator, rest, hops, ?_, ?_⟩
  · rw [isPrefixOf?_cancel hleft]
    rfl
  · intro earlier hmem
    rw [isPrefixOf?_eq_none_of_append (Option.map_eq_none_iff.mp (hnone earlier hmem))]
    rfl

theorem scanOperator?_eq_none_of_append (hread : scanOperator? (before ++ after) = none) :
    scanOperator? before = none := by
  rw [scanOperator?, List.findSome?_eq_none_iff] at hread ⊢
  intro operator hmem
  rw [isPrefixOf?_eq_none_of_append (Option.map_eq_none_iff.mp (hread operator hmem))]
  rfl

theorem scanOperator?_rejoin {c : Char} {token : Token}
    (hread : (scanOperator? (c :: before ++ after)).getD (punctuation c, before ++ after) =
      (token, left ++ after)) (hsep : Separated after') :
    (scanOperator? (c :: before ++ after')).getD (punctuation c, before ++ after') =
      (token, left ++ after') := by
  rw [scanOperator?_append hsep]
  cases hfound : scanOperator? (c :: before ++ after) with
  | none =>
      rw [hfound] at hread
      obtain ⟨rfl, hleft⟩ := Prod.mk.inj hread
      rw [scanOperator?_eq_none_of_append hfound, List.append_cancel_right hleft]
      rfl
  | some read =>
      rw [hfound] at hread
      change read = _ at hread
      rw [scanOperator?_cancel (hread ▸ hfound)]
      rfl

/-! ## Lexemes -/

theorem Separated.head_not_numeric (hsep : Separated after) :
    ∀ c ∈ after.head?, ¬isNumeric c :=
  hsep.not_head (by decide +kernel) (by decide +kernel) (by decide +kernel)
    (by decide +kernel)

theorem Separated.head_not_placeholderPart (hsep : Separated after) :
    ∀ c ∈ after.head?, ¬isPlaceholderPart c :=
  hsep.not_head (by decide +kernel) (by decide +kernel) (by decide +kernel)
    (by decide +kernel)

/-- A lexeme without quotes is read again before another text, class by class:
none of its runs of characters takes a separator in. -/
theorem scanPlain_rejoin {c : Char} {token : Token}
    (hread : scanPlain c (before ++ after) = (token, left ++ after))
    (hsep : Separated after') : scanPlain c (before ++ after') = (token, left ++ after') := by
  simp only [scanPlain] at hread ⊢
  split
  · rename_i hspace
    rw [if_pos hspace] at hread
    obtain ⟨rfl, hleft⟩ := Prod.mk.inj hread
    rw [List.append_cancel_right hleft]
  rename_i hspace
  rw [if_neg hspace] at hread
  split
  · rename_i hword
    rw [if_pos hword] at hread
    obtain ⟨rfl, hleft⟩ := Prod.mk.inj hread
    obtain ⟨hleft', htaken⟩ := run_rejoin hleft (hsep.not_head rfl rfl rfl rfl)
    rw [hleft', htaken]
  rename_i hword
  rw [if_neg hword] at hread
  split
  · rename_i hnumber
    rw [if_pos hnumber] at hread
    exact @scanNumber_rejoin (c :: before) _ _ _ _ hread hsep
  rename_i hnumber
  rw [if_neg hnumber] at hread
  split
  · rename_i hmark
    rw [if_pos hmark] at hread
    obtain ⟨rfl, hleft⟩ := Prod.mk.inj hread
    rw [(run_rejoin hleft hsep.head_not_numeric).1]
  rename_i hmark
  rw [if_neg hmark] at hread
  split
  · rename_i hdollar
    rw [if_pos hdollar] at hread
    obtain ⟨rfl, hleft⟩ := Prod.mk.inj hread
    rw [(run_rejoin hleft hsep.head_not_placeholderPart).1]
  · rename_i hdollar
    rw [if_neg hdollar] at hread
    exact scanOperator?_rejoin hread hsep

theorem isSeparator_wordCloser {c closer : Char} (hcloser : wordCloser? c = some closer) :
    isSeparator closer = false := by
  rcases wordCloser?_eq_some_iff.mp hcloser with ⟨-, rfl⟩ | ⟨-, rfl⟩ | ⟨-, rfl⟩ <;> rfl

/-- The next character stays, or a separator takes its place. -/
private theorem head?_rejoin {c : Char} (hsep : Separated after')
    (hc : isSeparator c = false) (hhead : (before ++ after').head? = some c) :
    (before ++ after).head? = some c := by
  cases before with
  | nil => exact absurd hhead (hsep.head_ne hc)
  | cons d before => exact hhead

/-- What stands after an opening was read from it, so it stood there before. -/
private theorem exists_body_of_cons {c : Char} {body : List Char}
    (htext : c :: body = before ++ after) (hshort : left ++ after <:+ body) :
    ∃ before', before = c :: before' ∧ body = before' ++ after := by
  cases before with
  | nil =>
      exfalso
      have := hshort.length_le
      rw [List.nil_append] at htext
      rw [← htext, List.length_append, List.length_cons] at this
      omega
  | cons d before =>
      obtain ⟨rfl, rfl⟩ := List.cons.inj htext
      exact ⟨before, rfl, rfl⟩

/-- A lexeme is read again before another text.  A comment may want all of the
text, and a string `E'..'` may take characters after its quote, so they are left
out. -/
theorem scan_rejoin {c : Char} {token : Token}
    (hread : scan c (before ++ after) = some (token, left ++ after))
    (hcomment : token ≠ .comment) (hescaped : ∀ content, token ≠ .escaped content)
    (hsep : Separated after') :
    scan c (before ++ after') = some (token, left ++ after') := by
  rw [scan_eq_some_iff] at hread ⊢
  generalize hrest : before ++ after = rest at hread
  generalize hleft : left ++ after = rest' at hread
  cases hread with
  | national hc hbody =>
      subst hleft
      obtain ⟨before', rfl, rfl⟩ :=
        exists_body_of_cons hrest.symm (slashedBody_suffix hbody)
      exact .national hc (slashedBody_rejoin hbody (hsep.head_ne rfl))
  | hexadecimal hc hbody =>
      subst hleft
      obtain ⟨before', rfl, rfl⟩ :=
        exists_body_of_cons hrest.symm (slashedBody_suffix hbody)
      exact .hexadecimal hc (slashedBody_rejoin hbody (hsep.head_ne rfl))
  | escaped => exact absurd rfl (hescaped _)
  | string hc hbody =>
      subst hrest hleft
      exact .string hc (quotedBody_rejoin hbody (hsep.head_ne rfl))
  | quotedWord hcloser hbody =>
      subst hrest hleft
      exact .quotedWord hcloser
        (quotedBody_rejoin hbody (hsep.head_ne (isSeparator_wordCloser hcloser)))
  | lineComment => exact absurd rfl hcomment
  | blockComment => exact absurd rfl hcomment
  | plain hquote hcloser hliteral hline hblock hplain =>
      subst hrest hleft
      exact .plain hquote hcloser (fun h => hliteral (head?_rejoin hsep rfl h))
        (fun h => hline (head?_rejoin hsep rfl h))
        (fun h => hblock (head?_rejoin hsep rfl h)) (scanPlain_rejoin hplain hsep)

/-! ## Texts -/

/-- A lexeme that is read the same wherever it stands: a comment may run to the end of
the text, and an escape may take the characters after it. -/
def IsMovable (lexeme : Lexeme) : Prop :=
  lexeme.token ≠ .comment ∧ ∀ content, lexeme.token ≠ .escaped content

/-- Movable lexemes are read again before another text, and the rest of it is
read as if it stood alone. -/
theorem lex_rejoin {lexemes following : List Lexeme} {text : List Char}
    (hread : lex text = some (lexemes ++ following))
    (hmovable : ∀ lexeme ∈ lexemes, lexeme.IsMovable) (hsep : Separated after') :
    lex (sourceText lexemes ++ after') = (lex after').map (lexemes ++ ·) := by
  induction lexemes generalizing text with
  | nil => simp [sourceText]
  | cons lexeme lexemes ih =>
      obtain ⟨c, body, left, htext, rfl, hscan, hleft⟩ := exists_of_lex_eq_cons hread
      have hsource : left = sourceText lexemes ++ sourceText following := by
        rw [← flatMap_text_of_lex hleft]
        exact List.flatMap_append
      rw [hsource, ← List.append_assoc] at hscan
      obtain ⟨hcomment, hescaped⟩ := hmovable lexeme (by simp)
      have hscan' := scan_rejoin hscan hcomment hescaped hsep
      have hlexemes := ih hleft fun other hother => hmovable other (by simp [hother])
      rw [List.append_assoc] at hscan'
      calc
        lex (sourceText (lexeme :: lexemes) ++ after') =
            lex (c :: (body ++ (sourceText lexemes ++ after'))) := by
          simp [sourceText, htext]
        _ = (lex (sourceText lexemes ++ after')).map (lexeme :: ·) := by
          rw [lex_cons hscan', ← htext]
        _ = (lex after').map (lexeme :: lexemes ++ ·) := by
          rw [hlexemes, Option.map_map]
          rfl

/-- Movable lexemes that make up a text are read again from its start, whatever
separated text comes after them. -/
theorem lex_append {lexemes : List Lexeme} {text : List Char}
    (hread : lex text = some lexemes) (hmovable : ∀ lexeme ∈ lexemes, lexeme.IsMovable)
    (hsep : Separated after') : lex (text ++ after') = (lex after').map (lexemes ++ ·) := by
  have hsource : sourceText lexemes = text := flatMap_text_of_lex hread
  rw [← hsource]
  exact lex_rejoin (hread.trans (by rw [List.append_nil])) hmovable hsep

/-- The last lexemes of a text are what their own text is read as.  What was read
before them leaves no trace. -/
theorem lex_of_append {start lexemes : List Lexeme} {text : List Char}
    (hread : lex text = some (start ++ lexemes)) : lex (sourceText lexemes) = some lexemes := by
  induction start generalizing text with
  | nil =>
      have hsource : sourceText lexemes = text := flatMap_text_of_lex hread
      rwa [hsource]
  | cons lexeme start ih =>
      obtain ⟨c, body, left, -, -, -, hleft⟩ := exists_of_lex_eq_cons hread
      exact ih hleft

/-- A run of movable lexemes is what its own text is read as, wherever it stood
in the text it comes from. -/
theorem lex_sourceText {start lexemes following : List Lexeme} {text : List Char}
    (hread : lex text = some (start ++ lexemes ++ following))
    (hmovable : ∀ lexeme ∈ lexemes, lexeme.IsMovable) :
    lex (sourceText lexemes) = some lexemes := by
  rw [List.append_assoc] at hread
  have := lex_rejoin (lex_of_append hread) hmovable separated_nil
  simpa [lex] using this

end CreateIndex.Lexeme
