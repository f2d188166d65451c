import CreateIndex.Proofs.Text.Collapse

/-!
# The words of a text

A text is made of words with blanks around them.  `words` cuts it at every blank; `HasWords`
says of a list that it is what a reader would call the words: the longest runs of characters
that are no blanks, in their order.  There is exactly one such list, and squeezing leaves it
with single spaces in between.
-/

namespace CreateIndex.Text

variable {text gap word rest : List Char} {runs : List (List Char)} {c : Char}

def words (text : List Char) : List (List Char) :=
  (text.splitOnP isBlank).filter (· ≠ [])

/-- The text is the given words in their order, each of them as long as it can be, with
blanks around them. -/
inductive HasWords : List Char → List (List Char) → Prop where
  | blank {gap : List Char} (hgap : ∀ c ∈ gap, isBlank c) : HasWords gap []
  | word {gap word rest : List Char} {runs : List (List Char)} (hgap : ∀ c ∈ gap, isBlank c)
      (hne : word ≠ []) (hword : ∀ c ∈ word, ¬isBlank c)
      (hends : ∀ c ∈ rest.head?, isBlank c) (hrest : HasWords rest runs) :
      HasWords (gap ++ word ++ rest) (word :: runs)

/-! ## Cutting -/

theorem words_cons_of_blank (hc : isBlank c) (rest : List Char) :
    words (c :: rest) = words rest := by
  rw [words, List.splitOnP_cons_eq_if_modifyHead, if_pos hc]
  rfl

theorem words_blanks_append (hgap : ∀ c ∈ gap, isBlank c) (rest : List Char) :
    words (gap ++ rest) = words rest := by
  induction gap with
  | nil => rfl
  | cons c gap ih =>
      rw [List.cons_append, words_cons_of_blank (hgap c (by simp))]
      exact ih fun d hd => hgap d (by simp [hd])

/-- A word ends where a blank follows it, and the words after it do not depend
on it. -/
theorem words_word_append (hne : word ≠ []) (hword : ∀ c ∈ word, ¬isBlank c)
    (hends : ∀ c ∈ rest.head?, isBlank c) : words (word ++ rest) = word :: words rest := by
  have hinside : ∀ c ∈ word, isBlank c = false := fun c hc => by simpa using hword c hc
  cases rest with
  | nil => simp [words, List.splitOnP_eq_singleton hinside, hne]
  | cons c rest =>
      have hc : isBlank c := hends c rfl
      rw [words_cons_of_blank hc, words,
        List.splitOnP_append_cons_of_forall_mem hinside c hc,
        List.filter_cons_of_pos (by simpa using hne)]
      rfl

theorem HasWords.words_eq (hwords : HasWords text runs) : words text = runs := by
  induction hwords with
  | blank hgap =>
      have hcut := words_blanks_append hgap []
      rwa [List.append_nil] at hcut
  | word hgap hne hword hends _ ih =>
      rw [List.append_assoc, words_blanks_append hgap, words_word_append hne hword hends, ih]

/-- A blank in front of a text belongs to the gap before its first word. -/
theorem HasWords.cons_of_blank (hwords : HasWords text runs) (hc : isBlank c) :
    HasWords (c :: text) runs := by
  cases hwords with
  | blank hgap => exact .blank (List.forall_mem_cons.mpr ⟨hc, hgap⟩)
  | word hgap hne hword hends hrest =>
      exact .word (List.forall_mem_cons.mpr ⟨hc, hgap⟩) hne hword hends hrest

/-- Every text has words, by induction from its front: a character that is no
blank either starts a word or makes the first one longer. -/
theorem exists_hasWords (text : List Char) : ∃ runs, HasWords text runs := by
  induction text with
  | nil => exact ⟨[], .blank (by simp)⟩
  | cons c text ih =>
      obtain ⟨runs, hruns⟩ := ih
      by_cases hc : isBlank c
      · exact ⟨runs, hruns.cons_of_blank hc⟩
      · have hnew : ∀ d ∈ [c], ¬isBlank d := by simpa using hc
        have hnone : ∀ d ∈ ([] : List Char), isBlank d := by simp
        cases hruns with
        | blank hgap =>
            have hends : ∀ d ∈ text.head?, isBlank d := fun d hd =>
              hgap d (List.mem_of_mem_head? hd)
            exact ⟨[[c]], .word hnone (by simp) hnew hends (.blank hgap)⟩
        | @word gap word rest runs hgap hne hword hends hrest =>
            -- The character makes the first word longer, unless a gap is in between.
            cases gap with
            | nil =>
                have hlonger : ∀ d ∈ c :: word, ¬isBlank d :=
                  List.forall_mem_cons.mpr ⟨hc, hword⟩
                exact ⟨(c :: word) :: runs, .word hnone (by simp) hlonger hends hrest⟩
            | cons d gap =>
                have hstarts : ∀ e ∈ (d :: gap ++ word ++ rest).head?, isBlank e := by
                  simpa using hgap d (by simp)
                exact ⟨[c] :: word :: runs, .word hnone (by simp) hnew hstarts
                  (.word hgap hne hword hends hrest)⟩

/-- The runs of a text are unique, and cutting at every blank finds them. -/
theorem hasWords_iff : HasWords text runs ↔ runs = words text := by
  constructor
  · exact fun hwords => hwords.words_eq.symm
  · rintro rfl
    obtain ⟨runs, hruns⟩ := exists_hasWords text
    rwa [hruns.words_eq]

/-! ## Squeezing -/

theorem squeeze_word_append (hgap : ∀ c ∈ gap, isBlank c) (hne : word ≠ [])
    (hword : ∀ c ∈ word, ¬isBlank c) (rest : List Char) :
    squeeze (gap ++ word ++ rest) = word ++ squeezeAfter false rest := by
  have hphrase : IsPhrase word := isPhrase_of_not_blank hne hword
  have hhead : ∀ c ∈ (word ++ rest).head?, ¬isBlank c := by
    rw [List.head?_append_of_ne_nil _ hne]
    exact hphrase.head_not_blank
  rw [squeeze, List.append_assoc, dropWhile_append_of_head hgap hhead,
    squeezeAfter_phrase hphrase]
  rfl

theorem HasWords.squeeze_ne_nil (hwords : HasWords text (word :: runs)) : squeeze text ≠ [] := by
  cases hwords with
  | word hgap hne hword _ _ =>
      rw [squeeze_word_append hgap hne hword]
      simp [hne]

/-- The gap after a word leaves one space if another word follows. -/
theorem squeezeAfter_gap (hstarts : ∀ c ∈ text.head?, isBlank c) (hne : squeeze text ≠ []) :
    squeezeAfter false text = ' ' :: squeeze text := by
  rw [← squeezeAfter_true hne]
  cases text with
  | nil => exact absurd rfl hne
  | cons c rest =>
      have hc : isBlank c := hstarts c rfl
      simp [squeezeAfter, hc]

/-- Squeezing leaves the words, with one space between each and the next.  How
many blanks there were, and of which kind, is lost. -/
theorem HasWords.squeeze_eq (hwords : HasWords text runs) :
    squeeze text = [' '].intercalate runs := by
  induction hwords with
  | blank hgap =>
      rw [squeeze, List.dropWhile_eq_nil_iff.mpr hgap]
      rfl
  | @word gap word rest runs hgap hne hword hends hrest ih =>
      rw [squeeze_word_append hgap hne hword]
      cases runs with
      | nil =>
          cases hrest with
          | blank hrest =>
              rw [squeezeAfter_of_blank hrest, List.append_nil, List.intercalate_singleton]
      | cons next runs =>
          calc
            word ++ squeezeAfter false rest = word ++ [' '] ++ squeeze rest := by
              rw [squeezeAfter_gap hends hrest.squeeze_ne_nil, List.append_assoc]
              rfl
            _ = [' '].intercalate (word :: next :: runs) := by
              rw [ih, List.intercalate_cons_cons]

/-- The squeezed text depends on the words of the text alone, and not on how
they are spaced. -/
theorem squeeze_eq_intercalate (text : List Char) :
    squeeze text = [' '].intercalate (words text) := by
  have hwords : HasWords text (words text) := hasWords_iff.mpr rfl
  exact hwords.squeeze_eq

end CreateIndex.Text
