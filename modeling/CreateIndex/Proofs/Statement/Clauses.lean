import CreateIndex.Proofs.Text.Spacing
import CreateIndex.Statement.Head

/-!
# Prefixes, and the clause of a trailer

`IsClause` is the grammar of what may follow the column list.  A trailer has a predicate exactly
if it keeps to the grammar, once the blanks around it and the semicolons after it are off.  As
far as it has been typed, a clause is a clause too.
-/

namespace CreateIndex.Text

/-! ## Prefixes and blanks

A text that is still being typed is a prefix of the finished one.  Dropping runs at either end and
squeezing blanks keep prefixes: what is lost at the end of the prefix may come back in the longer
text, but nothing that was kept is ever lost.
-/

section Trim

variable {α : Type} {start items : List α}

theorem dropWhile_isPrefix (p : α → Bool) (hbegins : start <+: items) :
    start.dropWhile p <+: items.dropWhile p := by
  obtain ⟨rest, rfl⟩ := hbegins
  rw [List.dropWhile_append]
  by_cases hempty : (start.dropWhile p).isEmpty
  · rw [List.isEmpty_iff.mp hempty]
    exact List.nil_prefix
  · rw [if_neg hempty]
    exact List.prefix_append _ _

theorem dropEndWhile_isPrefix (p : α → Bool) (hbegins : start <+: items) :
    dropEndWhile p start <+: dropEndWhile p items := by
  obtain ⟨dropped, hdropped⟩ := prefix_dropEndWhile p start
  obtain ⟨rest, hrest⟩ := hbegins
  have hitems : items = dropEndWhile p start ++ (dropped ++ rest) := by
    rw [← List.append_assoc, hdropped, hrest]
  -- What is kept of the prefix ends with an element that stays, so nothing of it is dropped.
  rw [hitems, dropEndWhile_append (getLast?_dropEndWhile_not p start)]
  exact List.prefix_append _ _

theorem trimWhile_isPrefix (p : α → Bool) (hbegins : start <+: items) :
    trimWhile p start <+: trimWhile p items :=
  dropEndWhile_isPrefix p (dropWhile_isPrefix p hbegins)

end Trim

variable {typed text : List Char}

theorem trim_isPrefix (hbegins : typed <+: text) : trim typed <+: trim text :=
  trimWhile_isPrefix isBlank hbegins

theorem squeezeAfter_isPrefix (gap : Bool) (hbegins : typed <+: text) :
    squeezeAfter gap typed <+: squeezeAfter gap text := by
  obtain ⟨rest, rfl⟩ := hbegins
  rw [squeezeAfter_append]
  exact List.prefix_append _ _

/-- While a text is typed its squeezed form only grows.  A blank at the end is
held back until a word follows it. -/
theorem squeeze_isPrefix (hbegins : typed <+: text) : squeeze typed <+: squeeze text :=
  squeezeAfter_isPrefix false (dropWhile_isPrefix isBlank hbegins)

/-- What comes after a text that is not blank throughout is squeezed on its own,
and may have to start with a space. -/
theorem exists_squeeze_append (hne : squeeze typed ≠ []) (rest : List Char) :
    ∃ gap, squeeze (typed ++ rest) = squeeze typed ++ squeezeAfter gap rest := by
  have hword : ¬(typed.dropWhile isBlank).isEmpty := by
    intro hempty
    rw [squeeze, List.isEmpty_iff.mp hempty] at hne
    exact hne rfl
  refine ⟨gapAfter false (typed.dropWhile isBlank), ?_⟩
  rw [squeeze, List.dropWhile_append, if_neg hword, squeezeAfter_append]
  rfl

end CreateIndex.Text

namespace CreateIndex.Statement

open Text

variable {trailer typed text predicate : List Char}

/-- A trailer without the blanks around it, and without the semicolons and spaces that are
then at its end. -/
def clauseText (trailer : List Char) : List Char :=
  dropEndWhile (fun c => c == ';' || c == ' ') (trim trailer)

/-- The text is a clause with the given predicate.  Letters of the keyword may be of any
case, and a keyword that is still being typed counts as no clause. -/
inductive IsClause : List Char → List Char → Prop where
  | begun {text : List Char} (hbegun : text.map Char.toUpper <+: whereKeyword) :
      IsClause text []
  | whole {word rest : List Char} (hword : word.map Char.toUpper = whereKeyword)
      (hends : ∀ c ∈ rest.head?, ¬continuesWord c) : IsClause (word ++ rest) (trim rest)

theorem not_any_continuesWord_iff {rest : List Char} :
    ¬rest.head?.any continuesWord ↔ ∀ c ∈ rest.head?, ¬continuesWord c := by
  cases rest <;> simp

theorem predicate?_eq (trailer : List Char) :
    predicate? trailer =
      let text := clauseText trailer
      let rest := text.drop whereKeyword.length
      if (text.map Char.toUpper).isPrefixOf whereKeyword then some []
      else if (text.take whereKeyword.length).map Char.toUpper = whereKeyword ∧
          ¬rest.head?.any continuesWord then
        some (trim rest)
      else none :=
  rfl

/-- Each way to read a trailer is a rule of the grammar, one for no clause, one
for a keyword that is being typed, and one for a predicate. -/
theorem isClause_of_predicate? (hread : predicate? trailer = some predicate) :
    IsClause (clauseText trailer) predicate := by
  rw [predicate?_eq] at hread
  dsimp only at hread
  split at hread
  · rename_i hbegun
    cases hread
    exact .begun (List.isPrefixOf_iff_prefix.mp hbegun)
  split at hread
  · rename_i hwhole
    cases hread
    have hclause := IsClause.whole hwhole.1 (not_any_continuesWord_iff.mp hwhole.2)
    rwa [List.take_append_drop] at hclause
  · cases hread

theorem predicate?_of_isClause (hclause : IsClause (clauseText trailer) predicate) :
    predicate? trailer = some predicate := by
  rw [predicate?_eq]
  generalize clauseText trailer = text at hclause ⊢
  dsimp only
  cases hclause with
  | begun hbegun => rw [if_pos (List.isPrefixOf_iff_prefix.mpr hbegun)]
  | @whole word rest hword hends =>
      have hlength : word.length = whereKeyword.length := by
        rw [← hword, List.length_map]
      rw [← hlength, List.take_left, List.drop_left]
      split
      · -- The whole text is the keyword, so both readings give no predicate.
        rename_i hbegun
        have hle := (List.isPrefixOf_iff_prefix.mp hbegun).length_le
        rw [List.length_map, List.length_append, hlength] at hle
        have hnil : rest = [] := List.eq_nil_of_length_eq_zero (by omega)
        rw [hnil]
        rfl
      · rw [if_pos ⟨hword, not_any_continuesWord_iff.mpr hends⟩]

/-- A trailer is read exactly if it keeps to the grammar of clauses, and its
predicate is the one that the grammar gives. -/
theorem predicate?_eq_some_iff :
    predicate? trailer = some predicate ↔ IsClause (clauseText trailer) predicate :=
  ⟨isClause_of_predicate?, predicate?_of_isClause⟩

/-! ## Clauses that are being typed -/

theorem clauseText_isPrefix (hbegins : typed <+: trailer) :
    clauseText typed <+: clauseText trailer :=
  dropEndWhile_isPrefix _ (trim_isPrefix hbegins)

/-- A clause that breaks off is a clause too, with as much of the predicate as
has been typed.  This is why an unfinished keyword counts as no clause. -/
theorem IsClause.of_isPrefix (hclause : IsClause text predicate) (hbegins : typed <+: text) :
    ∃ begun, IsClause typed begun ∧ begun <+: predicate := by
  cases hclause with
  | begun hbegun => exact ⟨[], .begun ((hbegins.map _).trans hbegun), List.nil_prefix⟩
  | @whole word rest hword hends =>
      rcases List.prefix_or_prefix_of_prefix hbegins (List.prefix_append word rest) with
        hwithin | ⟨begun, rfl⟩
      · refine ⟨[], .begun ?_, List.nil_prefix⟩
        rw [← hword]
        exact hwithin.map _
      · have hrest : begun <+: rest := (List.prefix_append_right_inj word).mp hbegins
        refine ⟨trim begun, .whole hword fun c hc => hends c ?_, trim_isPrefix hrest⟩
        obtain ⟨after, rfl⟩ := hrest
        rw [List.head?_append, Option.mem_def.mp hc]
        rfl

/-- While a trailer is typed, its predicate only grows. -/
theorem predicate?_of_isPrefix (hread : predicate? trailer = some predicate)
    (hbegins : typed <+: trailer) :
    ∃ begun, predicate? typed = some begun ∧ begun <+: predicate := by
  obtain ⟨begun, hclause, hbegun⟩ :=
    (isClause_of_predicate? hread).of_isPrefix (clauseText_isPrefix hbegins)
  exact ⟨begun, predicate?_of_isClause hclause, hbegun⟩

end CreateIndex.Statement
