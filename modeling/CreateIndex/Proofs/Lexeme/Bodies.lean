import CreateIndex.Lexeme.Body

/-!
# Bodies of quoted text

The readers of quoted text, one step at a time: an ordinary character, a doubled quote, an
escape, the closing quote.  A body that was read from a text is read again before any text
that does not start with its closing quote.
-/

namespace CreateIndex.Lexeme

variable {before after after' left content : List Char}

theorem map_cons_eq_some {c : Char} {read : Option (List Char × List Char)} :
    (read.map fun (content, left) => (c :: content, left)) = some (content, left) ↔
      ∃ content', read = some (content', left) ∧ content = c :: content' := by
  rcases read with - | ⟨content', left'⟩
  · simp
  · simp only [Option.map_some, Option.some.injEq, Prod.mk.injEq]
    constructor
    · rintro ⟨rfl, rfl⟩
      exact ⟨content', ⟨rfl, rfl⟩, rfl⟩
    · rintro ⟨content', ⟨rfl, rfl⟩, rfl⟩
      exact ⟨rfl, rfl⟩

/-! ## Words and strings -/

theorem quotedBody_of_ne {closer c : Char} (hc : c ≠ closer) (text : List Char) :
    quotedBody closer (c :: text) =
      (quotedBody closer text).map fun (content, left) => (c :: content, left) := by
  cases text with
  | nil => simp [quotedBody, hc]
  | cons d text => simp [quotedBody, hc]

/-- A doubled quote stands for one quote and does not close the body. -/
theorem quotedBody_doubled (closer : Char) (text : List Char) :
    quotedBody closer (closer :: closer :: text) =
      (quotedBody closer text).map fun (content, left) => (closer :: content, left) := by
  simp [quotedBody]

theorem quotedBody_close {closer : Char} {text : List Char}
    (hnext : text.head? ≠ some closer) :
    quotedBody closer (closer :: text) = some ([], text) := by
  cases text with
  | nil => simp [quotedBody]
  | cons d text =>
      have hd : d ≠ closer := fun hd => hnext (by simp [hd])
      simp [quotedBody, hd]

/-- A body is never closed by what is left after it: the closing quote has to be
read before the rest can be left. -/
theorem quotedBody_ne_keep {closer : Char} :
    quotedBody closer after ≠ some (content, left ++ after) := by
  intro hread
  fun_induction quotedBody closer after generalizing content left with
  | case1 => cases hread
  | case2 => simp at hread
  | case3 => cases hread
  | case4 c d rest hc ih =>
      obtain ⟨content', hbody, -⟩ := map_cons_eq_some.mp hread
      rw [List.append_cons] at hbody
      exact ih hbody
  | case5 c rest hc ih =>
      obtain ⟨content', hbody, -⟩ := map_cons_eq_some.mp hread
      rw [List.append_cons, List.append_cons] at hbody
      exact ih hbody
  | case6 c d rest hc hd =>
      have := congrArg (fun read => (read.map (·.2.length)).getD 0) hread
      simp at this
      omega

/-- A closed body is closed by the same quote before another text.  The quote is
not the first half of a doubled one there, since that text starts otherwise. -/
theorem quotedBody_rejoin {closer : Char} {before after after' left content : List Char}
    (hread : quotedBody closer (before ++ after) = some (content, left ++ after))
    (hnew : after'.head? ≠ some closer) :
    quotedBody closer (before ++ after') = some (content, left ++ after') := by
  match before with
  | [] => exact absurd hread quotedBody_ne_keep
  | c :: before =>
      by_cases hc : c = closer
      · subst hc
        by_cases hnext : (before ++ after).head? = some c
        · cases before with
          | nil =>
              exfalso
              obtain ⟨rest, rfl⟩ : ∃ rest, after = c :: rest := by
                cases after with
                | nil => cases hnext
                | cons d rest => exact ⟨rest, by simpa using hnext⟩
              rw [List.singleton_append, quotedBody_doubled] at hread
              obtain ⟨content', hbody, -⟩ := map_cons_eq_some.mp hread
              rw [List.append_cons] at hbody
              exact quotedBody_ne_keep hbody
          | cons d before =>
              obtain rfl : d = c := by simpa using hnext
              rw [List.cons_append, List.cons_append, quotedBody_doubled] at hread ⊢
              obtain ⟨content', hbody, rfl⟩ := map_cons_eq_some.mp hread
              exact map_cons_eq_some.mpr ⟨content', quotedBody_rejoin hbody hnew, rfl⟩
        · rw [List.cons_append, quotedBody_close hnext] at hread
          simp only [Option.some.injEq, Prod.mk.injEq] at hread
          obtain ⟨rfl, hleft⟩ := hread
          obtain rfl := List.append_cancel_right hleft
          refine quotedBody_close ?_
          cases before with
          | nil => exact hnew
          | cons d before => exact hnext
      · rw [List.cons_append, quotedBody_of_ne hc] at hread ⊢
        obtain ⟨content', hbody, rfl⟩ := map_cons_eq_some.mp hread
        exact map_cons_eq_some.mpr ⟨content', quotedBody_rejoin hbody hnew, rfl⟩
termination_by before.length

/-! ## Strings with one-character escapes -/

theorem slashedBody_of_ne {c : Char} (hquote : c ≠ '\'') (hslash : c ≠ '\\')
    (text : List Char) :
    slashedBody (c :: text) =
      (slashedBody text).map fun (content, left) => (c :: content, left) := by
  rw [slashedBody.eq_5] <;> simp_all

theorem slashedBody_doubled (text : List Char) :
    slashedBody ('\'' :: '\'' :: text) =
      (slashedBody text).map fun (content, left) => ('\'' :: content, left) := by
  rw [slashedBody]

/-- A backslash takes the next character with it, so an escaped quote does not
close the body. -/
theorem slashedBody_escape (c : Char) (text : List Char) :
    slashedBody ('\\' :: c :: text) =
      (slashedBody text).map fun (content, left) => (slashed c :: content, left) := by
  rw [slashedBody]

theorem slashedBody_close {text : List Char} (hnext : text.head? ≠ some '\'') :
    slashedBody ('\'' :: text) = some ([], text) := by
  rw [slashedBody.eq_3]
  rintro rest rfl
  exact hnext rfl

theorem slashedBody_ne_keep : slashedBody after ≠ some (content, left ++ after) := by
  intro hread
  fun_induction slashedBody after generalizing content left with
  | case1 => cases hread
  | case2 rest ih =>
      obtain ⟨content', hbody, -⟩ := map_cons_eq_some.mp hread
      rw [List.append_cons, List.append_cons] at hbody
      exact ih hbody
  | case3 rest =>
      have := congrArg (fun read => (read.map (·.2.length)).getD 0) hread
      simp at this
      omega
  | case4 c rest ih =>
      obtain ⟨content', hbody, -⟩ := map_cons_eq_some.mp hread
      rw [List.append_cons, List.append_cons] at hbody
      exact ih hbody
  | case5 c rest _ _ _ ih =>
      obtain ⟨content', hbody, -⟩ := map_cons_eq_some.mp hread
      rw [List.append_cons] at hbody
      exact ih hbody

/-- A body with backslashes is closed by the same quote before another text too:
none of them can reach past that quote. -/
theorem slashedBody_rejoin {before after after' left content : List Char}
    (hread : slashedBody (before ++ after) = some (content, left ++ after))
    (hnew : after'.head? ≠ some '\'') :
    slashedBody (before ++ after') = some (content, left ++ after') := by
  match before with
  | [] => exact absurd hread slashedBody_ne_keep
  | c :: before =>
      by_cases hquote : c = '\''
      · subst hquote
        by_cases hnext : (before ++ after).head? = some '\''
        · cases before with
          | nil =>
              exfalso
              -- The doubled quote would lie across the cut, and then nothing could be left.
              obtain ⟨rest, rfl⟩ : ∃ rest, after = '\'' :: rest := by
                cases after with
                | nil => cases hnext
                | cons d rest => exact ⟨rest, by simpa using hnext⟩
              rw [List.singleton_append, slashedBody_doubled] at hread
              obtain ⟨content', hbody, -⟩ := map_cons_eq_some.mp hread
              rw [List.append_cons] at hbody
              exact slashedBody_ne_keep hbody
          | cons d before =>
              obtain rfl : d = '\'' := by simpa using hnext
              rw [List.cons_append, List.cons_append, slashedBody_doubled] at hread ⊢
              obtain ⟨content', hbody, rfl⟩ := map_cons_eq_some.mp hread
              exact map_cons_eq_some.mpr ⟨content', slashedBody_rejoin hbody hnew, rfl⟩
        · rw [List.cons_append, slashedBody_close hnext] at hread
          simp only [Option.some.injEq, Prod.mk.injEq] at hread
          obtain ⟨rfl, hleft⟩ := hread
          obtain rfl := List.append_cancel_right hleft
          refine slashedBody_close ?_
          cases before with
          | nil => exact hnew
          | cons d before => exact hnext
      by_cases hslash : c = '\\'
      · subst hslash
        cases before with
        | nil =>
            exfalso
            cases after with
            | nil => simp [slashedBody] at hread
            | cons d after =>
                rw [List.singleton_append, slashedBody_escape] at hread
                obtain ⟨content', hbody, -⟩ := map_cons_eq_some.mp hread
                rw [List.append_cons] at hbody
                exact slashedBody_ne_keep hbody
        | cons d before =>
            rw [List.cons_append, List.cons_append, slashedBody_escape] at hread ⊢
            obtain ⟨content', hbody, rfl⟩ := map_cons_eq_some.mp hread
            exact map_cons_eq_some.mpr ⟨content', slashedBody_rejoin hbody hnew, rfl⟩
      · rw [List.cons_append, slashedBody_of_ne hquote hslash] at hread ⊢
        obtain ⟨content', hbody, rfl⟩ := map_cons_eq_some.mp hread
        exact map_cons_eq_some.mpr ⟨content', slashedBody_rejoin hbody hnew, rfl⟩
termination_by before.length

end CreateIndex.Lexeme
