import CreateIndex.Proofs.Lexeme.Words
import CreateIndex.Statement.Head

/-!
# Predicates of trailers

A `WHERE` clause gives back the predicate it was written with, if that is a phrase and
does not end with a semicolon; every predicate that is ever read is of this kind.
-/

namespace CreateIndex.Statement

open Text Lexeme

variable {gap word predicate tail trailer text : List Char}

/-- A predicate that stays what it is when it is written into a statement and
read: a phrase that does not end in a semicolon. -/
structure IsPredicate (predicate : List Char) : Prop where
  isPhrase : IsPhrase predicate
  last_ne : predicate.getLast? ≠ some ';'

def IsEnd (tail : List Char) : Prop :=
  ∀ c ∈ tail, (c == ';' || c == ' ') = true

/-! ## Reading a clause -/

theorem IsEnd.of_isInfix {part : List Char} (htail : IsEnd tail) (hwithin : part <:+: tail) :
    IsEnd part :=
  fun c hc => htail c (hwithin.subset hc)

/-- Without a clause there is no predicate, however many semicolons end the
statement. -/
theorem predicate?_end (htail : IsEnd tail) : predicate? tail = some [] := by
  have hdrop : dropEndWhile (fun c => c == ';' || c == ' ') (trim tail) = [] :=
    dropEndWhile_of_all (htail.of_isInfix (infix_trimWhile _ tail))
  rw [predicate?, hdrop]
  rfl

/-- The predicate of a clause is what follows the keyword, in any case of its
letters, up to the spaces and semicolons at the end. -/
theorem predicate?_where (hgap : ∀ c ∈ gap, Text.isBlank c) (hword : Writes word "WHERE")
    (hpredicate : IsPredicate predicate) (htail : IsEnd tail) :
    predicate? (gap ++ (word ++ ' ' :: predicate) ++ tail) = some predicate := by
  have hlength : word.length = whereKeyword.length := by
    have := congrArg List.length hword.map_toUpper
    rwa [List.length_map] at this
  obtain ⟨c, rest, hcons⟩ := List.exists_cons_of_ne_nil hword.isBareWord.ne_nil
  have hhead : ∀ d ∈ (word ++ ' ' :: predicate ++ tail).head?, ¬Text.isBlank d := by
    intro d hd
    apply hword.isBareWord.not_blank d
    rw [hcons] at hd ⊢
    cases hd
    exact List.mem_cons_self
  have hend : (word ++ ' ' :: predicate).getLast? = predicate.getLast? := by
    obtain ⟨d, predicate, rfl⟩ := List.exists_cons_of_ne_nil hpredicate.isPhrase.ne_nil
    simp [List.getLast?_append, List.getLast?_cons]
  have hlast : ∀ d ∈ (word ++ ' ' :: predicate).getLast?, ¬Text.isBlank d := by
    rw [hend]
    exact hpredicate.isPhrase.last_not_blank
  have htrim : trim (gap ++ (word ++ ' ' :: predicate) ++ tail) =
      word ++ ' ' :: predicate ++ dropEndWhile Text.isBlank tail := by
    rw [trim, trimWhile, List.append_assoc, dropWhile_append_of_head hgap hhead,
      dropEndWhile_append hlast]
  have hdrop : dropEndWhile (fun c => c == ';' || c == ' ')
      (word ++ ' ' :: predicate ++ dropEndWhile Text.isBlank tail) =
      word ++ ' ' :: predicate := by
    apply dropEndWhile_append_of_last
    · exact htail.of_isInfix (prefix_dropEndWhile _ tail).isInfix
    · intro d hd
      have hblank := hlast d hd
      rw [hend] at hd
      have hsemicolon : d ≠ ';' := fun h => hpredicate.last_ne (h ▸ hd)
      have hspace : d ≠ ' ' := by
        rintro rfl
        exact hblank isBlank_space
      simp [hsemicolon, hspace]
  have htake : (word ++ ' ' :: predicate).take whereKeyword.length = word := by
    rw [← hlength, List.take_left]
  have hrest : (word ++ ' ' :: predicate).drop whereKeyword.length = ' ' :: predicate := by
    rw [← hlength, List.drop_left]
  -- A keyword that is still being typed would be shorter.
  have hlong : ¬((word ++ ' ' :: predicate).map Char.toUpper).isPrefixOf whereKeyword := by
    intro hstarts
    have := (List.isPrefixOf_iff_prefix.mp hstarts).length_le
    simp only [List.length_map, List.length_append, List.length_cons, hlength] at this
    omega
  have hkeyword : word.map Char.toUpper = whereKeyword := hword.map_toUpper
  have hpredicateTrim : trim (' ' :: predicate) = predicate := by
    have htrim : trimWhile Text.isBlank ([' '] ++ predicate ++ []) = predicate :=
      trimWhile_append (by simp [isBlank_space]) hpredicate.isPhrase.head_not_blank
        hpredicate.isPhrase.last_not_blank (by simp) hpredicate.isPhrase.ne_nil
    rwa [List.append_nil] at htrim
  rw [predicate?, htrim, hdrop]
  simp only [htake, hrest, hpredicateTrim]
  have hcontinues : continuesWord ' ' = false := by decide +kernel
  have hspace : ¬(' ' :: predicate).head?.any continuesWord := by
    simp [hcontinues]
  rw [if_neg hlong, if_pos ⟨hkeyword, hspace⟩]

/-! ## What is read -/

/-- Any predicate that is read from an evenly spaced trailer is written and read
again. -/
theorem isPredicate_of_predicate? (hread : predicate? trailer = some predicate)
    (heven : EvenlySpaced trailer) : predicate = [] ∨ IsPredicate predicate := by
  by_cases hnil : predicate = []
  · exact Or.inl hnil
  right
  let text := dropEndWhile (fun c => c == ';' || c == ' ') (trim trailer)
  let rest := text.drop whereKeyword.length
  have htrim : trim rest = predicate := by
    rw [predicate?] at hread
    split at hread
    · exact absurd (Option.some.inj hread).symm hnil
    split at hread
    · exact Option.some.inj hread
    · cases hread
  have hrestInfix : rest <:+: trailer :=
    (List.drop_suffix _ text).isInfix.trans
      ((prefix_dropEndWhile _ _).isInfix.trans (infix_trimWhile _ trailer))
  -- What follows the keyword has lost its semicolons, and spaces are its only blanks.
  have hrestLast : ∀ c ∈ rest.getLast?, c ≠ ';' ∧ ¬Text.isBlank c := by
    intro c hc
    have hmem : c ∈ text.getLast? := by
      rw [List.getLast?_drop] at hc
      split at hc
      · cases hc
      · exact hc
    have hlast := getLast?_dropEndWhile_not _ _ c hmem
    simp only [Bool.or_eq_true, beq_iff_eq, not_or] at hlast
    refine ⟨hlast.1, fun hblank => hlast.2 ?_⟩
    exact (heven.of_isInfix hrestInfix).eq_space c (List.mem_of_getLast? hc) hblank
  have hlast : ∀ c ∈ predicate.getLast?, c ≠ ';' := by
    intro c hc
    obtain ⟨start, hstart⟩ := List.dropWhile_suffix Text.isBlank (l := rest)
    have hinner : ∀ d ∈ (rest.dropWhile Text.isBlank).getLast?, d ∈ rest.getLast? := by
      intro d hd
      rw [← hstart, List.getLast?_append, Option.mem_def.mp hd]
      rfl
    have hkeep := dropEndWhile_append (fun d hd => (hrestLast d (hinner d hd)).2) []
    rw [List.append_nil] at hkeep
    rw [← htrim, trim, trimWhile, hkeep] at hc
    exact (hrestLast c (hinner c (by simpa [dropEndWhile] using hc))).1
  have hphrase : IsPhrase predicate := by
    rw [← htrim] at hnil ⊢
    exact ⟨heven.of_isInfix ((infix_trimWhile _ rest).trans hrestInfix), hnil,
      head?_trimWhile_not _ rest, getLast?_trimWhile_not _ rest⟩
  exact ⟨hphrase, fun h => hlast ';' h rfl⟩

end CreateIndex.Statement
