import CreateIndex.Proofs.Lexeme.Readable
import CreateIndex.Proofs.Statement.Readers

/-!
# Pieces with blanks between them

A statement is typed piece by piece, with blanks in front of each.  Squeezing leaves one
space where blanks were, and the pieces as they are.  If no two names touch, what is left
is readable.
-/

namespace CreateIndex.Statement

open Text Lexeme

/-- A piece of a statement and the blanks that are typed in front of it. -/
structure Placed where
  gap : List Char
  piece : Lexeme

def typedText (placed : List Placed) : List Char :=
  placed.flatMap fun place => place.gap ++ place.piece.text

/-- Names and marks with only blanks between them, and some blank between two
names. -/
structure WellPlaced (placed : List Placed) : Prop where
  blank : ∀ place ∈ placed, ∀ c ∈ place.gap, Text.isBlank c
  apart : placed.IsChain fun first second =>
    IsMark first.piece ∨ IsMark second.piece ∨ second.gap ≠ []

/-- The pieces with one space for the blanks in front of each. -/
def spaced (placed : List Placed) : List Lexeme :=
  placed.flatMap fun place => (if place.gap = [] then [] else [space]) ++ [place.piece]

variable {place : Placed} {placed : List Placed} {rest : List Char}

theorem WellPlaced.tail (hplaced : WellPlaced (place :: placed)) : WellPlaced placed where
  blank other hother := hplaced.blank other (by simp [hother])
  apart := (List.isChain_cons.mp hplaced.apart).2

/-- Squeezing goes through the pieces one by one and leaves one space for the
blanks before each, if there are any. -/
theorem squeezeAfter_typedText (hplaced : WellPlaced placed)
    (hphrase : ∀ place ∈ placed, IsPhrase place.piece.text) (rest : List Char) :
    squeezeAfter false (typedText placed ++ rest) =
      sourceText (spaced placed) ++ squeezeAfter false rest := by
  induction placed with
  | nil => rfl
  | cons place placed ih =>
      have htail := ih hplaced.tail fun other hother => hphrase other (by simp [hother])
      have hpiece : IsPhrase place.piece.text := hphrase place (by simp)
      have hgap : ∀ c ∈ place.gap, Text.isBlank c := hplaced.blank place (by simp)
      calc
        squeezeAfter false (typedText (place :: placed) ++ rest)
          = squeezeAfter false
              (place.gap ++ (place.piece.text ++ (typedText placed ++ rest))) := by
              simp [typedText]
        _ = squeezeAfter (!place.gap.isEmpty)
              (place.piece.text ++ (typedText placed ++ rest)) := squeezeAfter_blanks hgap _ _
        _ = (if !place.gap.isEmpty then [' '] else []) ++ place.piece.text ++
              squeezeAfter false (typedText placed ++ rest) := squeezeAfter_phrase hpiece _ _
        _ = sourceText (spaced (place :: placed)) ++ squeezeAfter false rest := by
              rw [htail]
              by_cases hnil : place.gap = [] <;> simp [spaced, sourceText, hnil, space]

/-- The squeezed text of pieces starts with the first piece. -/
theorem squeeze_typedText (hplaced : WellPlaced (place :: placed))
    (hphrase : ∀ other ∈ place :: placed, IsPhrase other.piece.text) (rest : List Char) :
    squeeze (typedText (place :: placed) ++ rest) =
      sourceText (place.piece :: spaced placed) ++ squeezeAfter false rest := by
  have hpiece : IsPhrase place.piece.text := hphrase place (by simp)
  have hdrop : (typedText (place :: placed) ++ rest).dropWhile Text.isBlank =
      place.piece.text ++ (typedText placed ++ rest) := by
    have htext : typedText (place :: placed) ++ rest =
        place.gap ++ (place.piece.text ++ (typedText placed ++ rest)) := by
      simp [typedText]
    obtain ⟨c, text, hcons⟩ := List.exists_cons_of_ne_nil hpiece.ne_nil
    have hc : ¬Text.isBlank c := hpiece.head_not_blank c (by simp [hcons])
    rw [htext, List.dropWhile_append_of_pos (hplaced.blank place (by simp)), hcons,
      List.cons_append, List.dropWhile_cons_of_neg hc]
  have htail := squeezeAfter_typedText hplaced.tail
    (fun other hother => hphrase other (by simp [hother])) rest
  rw [squeeze, hdrop, squeezeAfter_phrase hpiece, htail, sourceText_cons]
  simp

theorem solid_spaced (hblank : ∀ place ∈ placed, ¬place.piece.isBlank) :
    solid (spaced placed) = placed.map Placed.piece := by
  induction placed with
  | nil => rfl
  | cons place placed ih =>
      have hpiece : ¬place.piece.isBlank := hblank place (by simp)
      have hgap : solid (if place.gap = [] then [] else [space]) = [] := by
        split <;> rfl
      have htail := ih fun other hother => hblank other (by simp [hother])
      change solid ((if place.gap = [] then [] else [space]) ++ [place.piece] ++ spaced placed) = _
      rw [solid_append, solid_append, hgap, htail, solid_cons hpiece]
      rfl

theorem isMark_space : IsMark space := by simp [IsMark]

/-- No two names touch in what is left, since the blanks between two names leave
a space. -/
theorem WellPlaced.isChain (hplaced : WellPlaced (place :: placed)) :
    (place.piece :: spaced placed).IsChain fun x y => IsMark x ∨ IsMark y := by
  induction placed generalizing place with
  | nil => exact List.isChain_singleton _
  | cons next placed ih =>
      obtain ⟨hapart, -⟩ := List.isChain_cons.mp hplaced.apart
      have htail := ih hplaced.tail
      by_cases hnil : next.gap = []
      · have hspaced : spaced (next :: placed) = next.piece :: spaced placed := by
          simp [spaced, hnil]
        rw [hspaced]
        refine .cons_cons ?_ htail
        rcases hapart next rfl with hmark | hmark | hgap
        · exact Or.inl hmark
        · exact Or.inr hmark
        · exact absurd hnil hgap
      · have hspaced : spaced (next :: placed) = space :: next.piece :: spaced placed := by
          simp [spaced, hnil]
        rw [hspaced]
        exact .cons_cons (Or.inr isMark_space) (.cons_cons (Or.inl isMark_space) htail)

/-- What is left does not end with a space. -/
theorem last_spaced_not_blank (hblank : ∀ other ∈ place :: placed, ¬other.piece.isBlank) :
    ∀ last ∈ (place.piece :: spaced placed).getLast?, ¬last.isBlank := by
  induction placed generalizing place with
  | nil =>
      intro last hlast
      cases hlast
      exact hblank place (by simp)
  | cons next placed ih =>
      have hend := ih fun other hother => hblank other (List.mem_cons_of_mem place hother)
      have hspaced : spaced (next :: placed) =
          (if next.gap = [] then [] else [space]) ++ next.piece :: spaced placed := by
        simp [spaced]
      rw [hspaced, ← List.cons_append, List.getLast?_append_of_ne_nil _ (by simp)]
      exact hend

/-- Any run of what is left is readable, and so each entry of a typed list is. -/
theorem WellPlaced.readable (hplaced : WellPlaced (place :: placed))
    (hbasic : ∀ other ∈ place :: placed, IsBasic other.piece)
    {part : List Lexeme} (hwithin : part <:+: place.piece :: spaced placed) :
    Readable part := by
  apply readable_of_isChain
  · intro lexeme hlexeme
    rcases List.mem_cons.mp (hwithin.subset hlexeme) with rfl | hlexeme
    · exact hbasic place (by simp)
    · obtain ⟨other, hother, hlexeme⟩ := List.mem_flatMap.mp hlexeme
      rcases List.mem_append.mp hlexeme with hlexeme | hlexeme
      · split at hlexeme
        · cases hlexeme
        · rw [List.mem_singleton.mp hlexeme]
          exact Or.inl isMark_space
      · rw [List.mem_singleton.mp hlexeme]
        exact hbasic other (by simp [hother])
  · exact hplaced.isChain.infix hwithin

end CreateIndex.Statement
