import CreateIndex.Text.Basic
import Mathlib.Data.List.Chain

/-!
# Evenly spaced texts

What squeezing leaves is evenly spaced: its blanks are single spaces.  A phrase is such
a text with no blank at either end.  Squeezing goes through a text from left to right and
remembers only whether the last character was a blank, so it can be computed piece by
piece.
-/

namespace CreateIndex.Text

section Decidable

variable {p : Char → Prop} [DecidablePred p]

/-- What is said of all characters of a text is decided along the text. -/
instance decidableForallMemText (text : List Char) : Decidable (∀ c ∈ text, p c) :=
  List.decidableBAll p text

instance decidableForallMemChar? (c? : Option Char) : Decidable (∀ c ∈ c?, p c) :=
  Option.decidableForallMem c?

end Decidable

/-- The blanks of the text are spaces, and no two of them are neighbours. -/
structure EvenlySpaced (text : List Char) : Prop where
  eq_space : ∀ c ∈ text, isBlank c → c = ' '
  isChain : text.IsChain fun c d => ¬(isBlank c ∧ isBlank d)

/-- A text that starts and ends with a word, and is evenly spaced in between:
squeezing leaves it as it is. -/
structure IsPhrase (text : List Char) : Prop where
  evenlySpaced : EvenlySpaced text
  ne_nil : text ≠ []
  head_not_blank : ∀ c ∈ text.head?, ¬isBlank c
  last_not_blank : ∀ c ∈ text.getLast?, ¬isBlank c

theorem isBlank_space : isBlank ' ' = true := by decide

theorem EvenlySpaced.of_isInfix {text part : List Char} (heven : EvenlySpaced text)
    (hwithin : part <:+: text) : EvenlySpaced part :=
  ⟨fun c hc => heven.eq_space c (hwithin.subset hc), heven.isChain.infix hwithin⟩

theorem evenlySpaced_nil : EvenlySpaced [] :=
  ⟨by simp, by simp⟩

/-- Evenly spaced texts may be put together, unless one ends with a blank and
the other starts with one. -/
theorem EvenlySpaced.append {start rest : List Char} (hstart : EvenlySpaced start)
    (hrest : EvenlySpaced rest)
    (hends : ∀ c ∈ start.getLast?, ∀ d ∈ rest.head?, ¬(isBlank c ∧ isBlank d)) :
    EvenlySpaced (start ++ rest) := by
  refine ⟨?_, hstart.isChain.append hrest.isChain hends⟩
  intro c hc hblank
  rcases List.mem_append.mp hc with hc | hc
  · exact hstart.eq_space c hc hblank
  · exact hrest.eq_space c hc hblank

theorem EvenlySpaced.cons {c : Char} {text : List Char} (heven : EvenlySpaced text)
    (hc : ¬isBlank c) : EvenlySpaced (c :: text) := by
  refine ⟨?_, List.isChain_cons.mpr ⟨fun d _ hblank => hc hblank.1, heven.isChain⟩⟩
  intro d hd hblank
  rcases List.mem_cons.mp hd with rfl | hd
  · exact absurd hblank hc
  · exact heven.eq_space d hd hblank

/-- A word without blanks is a phrase. -/
theorem isPhrase_of_not_blank {text : List Char} (hne : text ≠ [])
    (hblank : ∀ c ∈ text, ¬isBlank c) : IsPhrase text where
  evenlySpaced := by
    clear hne
    induction text with
    | nil => exact evenlySpaced_nil
    | cons c text ih =>
        have hrest : EvenlySpaced text := ih fun d hd => hblank d (by simp [hd])
        exact hrest.cons (hblank c (by simp))
  ne_nil := hne
  head_not_blank c hc := hblank c (List.mem_of_head? hc)
  last_not_blank c hc := hblank c (List.mem_of_getLast? hc)

theorem IsPhrase.append {start rest : List Char} (hstart : IsPhrase start)
    (hrest : IsPhrase rest) : IsPhrase (start ++ rest) where
  evenlySpaced := hstart.evenlySpaced.append hrest.evenlySpaced
    fun c hc _ _ hblank => hstart.last_not_blank c hc hblank.1
  ne_nil := by simp [hstart.ne_nil]
  head_not_blank c hc := by
    obtain ⟨d, start, rfl⟩ := List.exists_cons_of_ne_nil hstart.ne_nil
    exact hstart.head_not_blank c (by simpa using hc)
  last_not_blank c hc := by
    rw [List.getLast?_append_of_ne_nil _ hrest.ne_nil] at hc
    exact hrest.last_not_blank c hc

/-- Two phrases with a space between them are one phrase, which is how a
statement is written word by word. -/
theorem IsPhrase.append_space {start rest : List Char} (hstart : IsPhrase start)
    (hrest : IsPhrase rest) : IsPhrase (start ++ ' ' :: rest) where
  evenlySpaced := by
    have hspaced : EvenlySpaced (' ' :: rest) := by
      refine ⟨?_, List.isChain_cons.mpr ⟨?_, hrest.evenlySpaced.isChain⟩⟩
      · intro c hc hblank
        rcases List.mem_cons.mp hc with rfl | hc
        · rfl
        · exact hrest.evenlySpaced.eq_space c hc hblank
      · exact fun c hc hblank => hrest.head_not_blank c hc hblank.2
    exact hstart.evenlySpaced.append hspaced
      fun c hc _ _ hblank => hstart.last_not_blank c hc hblank.1
  ne_nil := by simp
  head_not_blank c hc := by
    obtain ⟨d, start, rfl⟩ := List.exists_cons_of_ne_nil hstart.ne_nil
    exact hstart.head_not_blank c (by simpa using hc)
  last_not_blank c hc := by
    rw [List.getLast?_append_of_ne_nil _ (by simp), List.getLast?_cons] at hc
    obtain ⟨d, hd⟩ := Option.isSome_iff_exists.mp
      (List.getLast?_isSome.mpr hrest.ne_nil)
    rw [hd] at hc
    cases hc
    exact hrest.last_not_blank _ hd

/-- Any evenly spaced text is a phrase between two characters that are no
blanks, such as quotes or parentheses. -/
theorem EvenlySpaced.isPhrase_enclose {text : List Char} (heven : EvenlySpaced text)
    {opener closer : Char} (hopener : ¬isBlank opener) (hcloser : ¬isBlank closer) :
    IsPhrase (opener :: text ++ [closer]) where
  evenlySpaced := by
    refine (heven.cons hopener).append (evenlySpaced_nil.cons hcloser) ?_
    intro _ _ d hd hblank
    cases hd
    exact hcloser hblank.2
  ne_nil := by simp
  head_not_blank c hc := by
    cases hc
    exact hopener
  last_not_blank c hc := by
    rw [List.getLast?_concat] at hc
    cases hc
    exact hcloser

/-! ## Runs at the ends of a list -/

section Trim

variable {α : Type} {p : α → Bool}

theorem dropWhile_append_of_head {items rest : List α} (hall : ∀ a ∈ items, p a)
    (hhead : ∀ a ∈ rest.head?, ¬p a) : (items ++ rest).dropWhile p = rest := by
  rw [List.dropWhile_append_of_pos hall]
  cases rest with
  | nil => rfl
  | cons a rest => exact List.dropWhile_cons_of_neg (hhead a rfl)

theorem takeWhile_append_of_head {items rest : List α} (hall : ∀ a ∈ items, p a)
    (hhead : ∀ a ∈ rest.head?, ¬p a) : (items ++ rest).takeWhile p = items := by
  rw [List.takeWhile_append_of_pos hall]
  cases rest with
  | nil => simp
  | cons a rest => simp [hhead a rfl]

theorem dropEndWhile_append {items : List α} (hlast : ∀ a ∈ items.getLast?, ¬p a)
    (rest : List α) : dropEndWhile p (items ++ rest) = items ++ dropEndWhile p rest := by
  have hitems : ([] ++ items.reverse).dropWhile p = items.reverse :=
    dropWhile_append_of_head (by simp) (by simpa using hlast)
  rw [List.nil_append] at hitems
  rw [dropEndWhile, dropEndWhile, List.reverse_append, List.dropWhile_append]
  by_cases hrest : (rest.reverse.dropWhile p).isEmpty
  · rw [if_pos hrest, hitems, List.isEmpty_iff.mp hrest]
    simp
  · rw [if_neg hrest, List.reverse_append, List.reverse_reverse]

/-- What would be dropped may follow. -/
theorem dropEndWhile_append_of_all {rest : List α} (hall : ∀ a ∈ rest, p a) (items : List α) :
    dropEndWhile p (items ++ rest) = dropEndWhile p items := by
  rw [dropEndWhile, dropEndWhile, List.reverse_append,
    List.dropWhile_append_of_pos (by simpa using hall)]

theorem dropEndWhile_of_all {items : List α} (hall : ∀ a ∈ items, p a) :
    dropEndWhile p items = [] :=
  dropEndWhile_append_of_all hall []

theorem dropEndWhile_append_of_last {items rest : List α} (hall : ∀ a ∈ rest, p a)
    (hlast : ∀ a ∈ items.getLast?, ¬p a) : dropEndWhile p (items ++ rest) = items := by
  rw [dropEndWhile_append hlast, dropEndWhile_of_all hall, List.append_nil]

theorem prefix_dropEndWhile (p : α → Bool) (items : List α) :
    dropEndWhile p items <+: items := by
  rw [dropEndWhile, ← List.reverse_suffix, List.reverse_reverse]
  exact List.dropWhile_suffix p

theorem infix_trimWhile (p : α → Bool) (items : List α) : trimWhile p items <:+: items :=
  (prefix_dropEndWhile p _).isInfix.trans (List.dropWhile_suffix p).isInfix

/-- A piece stays in a list that is trimmed, unless it could be trimmed itself.
It cannot be cut short: its last element is one that stays. -/
theorem isInfix_dropEndWhile {part items : List α} (hlast : ∀ a ∈ part.getLast?, ¬p a)
    (hne : part ≠ []) (hwithin : part <:+: items) : part <:+: dropEndWhile p items := by
  obtain ⟨before, after, rfl⟩ := hwithin
  have hlast' : ∀ a ∈ (before ++ part).getLast?, ¬p a := by
    rwa [List.getLast?_append_of_ne_nil _ hne]
  rw [dropEndWhile_append hlast']
  exact ⟨before, dropEndWhile p after, rfl⟩

theorem isInfix_trimWhile {part items : List α} (hhead : ∀ a ∈ part.head?, ¬p a)
    (hlast : ∀ a ∈ part.getLast?, ¬p a) (hne : part ≠ []) (hwithin : part <:+: items) :
    part <:+: trimWhile p items := by
  apply isInfix_dropEndWhile hlast hne
  obtain ⟨before, after, rfl⟩ := hwithin
  have hstays : (part ++ after).dropWhile p = part ++ after := by
    obtain ⟨a, part, rfl⟩ := List.exists_cons_of_ne_nil hne
    exact List.dropWhile_cons_of_neg (hhead a rfl)
  rw [List.append_assoc, List.dropWhile_append, hstays]
  split
  · exact ⟨[], after, rfl⟩
  · exact ⟨before.dropWhile p, after, by rw [List.append_assoc]⟩

/-- Trimming undoes the padding of a list whose ends stay, and takes nothing
more. -/
theorem trimWhile_append {before items after : List α} (hbefore : ∀ a ∈ before, p a)
    (hhead : ∀ a ∈ items.head?, ¬p a) (hlast : ∀ a ∈ items.getLast?, ¬p a)
    (hafter : ∀ a ∈ after, p a) (hne : items ≠ []) :
    trimWhile p (before ++ items ++ after) = items := by
  obtain ⟨a, items, rfl⟩ := List.exists_cons_of_ne_nil hne
  have hstart : (before ++ (a :: items ++ after)).dropWhile p = a :: items ++ after :=
    dropWhile_append_of_head hbefore (by simpa using hhead)
  rw [trimWhile, List.append_assoc, hstart, dropEndWhile_append_of_last hafter hlast]

theorem exists_append_dropEndWhile (p : α → Bool) (items : List α) :
    ∃ after, items = dropEndWhile p items ++ after ∧ ∀ a ∈ after, p a := by
  refine ⟨(items.reverse.takeWhile p).reverse, ?_, fun a ha => ?_⟩
  · rw [dropEndWhile, ← List.reverse_append, List.takeWhile_append_dropWhile,
      List.reverse_reverse]
  · exact List.all_eq_true.mp List.all_takeWhile a (List.mem_reverse.mp ha)

/-- A list is what trimming leaves of it, with padding at both ends.  The list
may be all padding. -/
theorem exists_append_trimWhile (p : α → Bool) (items : List α) :
    ∃ before after, items = before ++ trimWhile p items ++ after ∧
      (∀ a ∈ before, p a) ∧ ∀ a ∈ after, p a := by
  obtain ⟨after, hinner, hafter⟩ := exists_append_dropEndWhile p (items.dropWhile p)
  refine ⟨items.takeWhile p, after, ?_, List.all_eq_true.mp List.all_takeWhile, hafter⟩
  rw [trimWhile, List.append_assoc, ← hinner, List.takeWhile_append_dropWhile]

/-- What was dropped need not have been dropped before. -/
theorem dropEndWhile_dropEndWhile {p' : α → Bool} {items : List α}
    (hweaker : ∀ a ∈ items, p a → p' a) :
    dropEndWhile p' (dropEndWhile p items) = dropEndWhile p' items := by
  obtain ⟨after, hitems, hafter⟩ := exists_append_dropEndWhile p items
  have hall : ∀ a ∈ after, p' a := by
    intro a ha
    apply hweaker a _ (hafter a ha)
    rw [hitems]
    exact List.mem_append_right _ ha
  conv_rhs => rw [hitems]
  exact (dropEndWhile_append_of_all hall _).symm

theorem head?_dropWhile_not (p : α → Bool) (items : List α) :
    ∀ a ∈ (items.dropWhile p).head?, ¬p a := by
  intro a ha
  have := List.head?_dropWhile_not p items
  rw [Option.mem_def.mp ha] at this
  simpa using this

theorem getLast?_dropEndWhile_not (p : α → Bool) (items : List α) :
    ∀ a ∈ (dropEndWhile p items).getLast?, ¬p a := by
  intro a ha
  rw [dropEndWhile, List.getLast?_reverse] at ha
  exact head?_dropWhile_not p _ a ha

theorem head?_trimWhile_not (p : α → Bool) (items : List α) :
    ∀ a ∈ (trimWhile p items).head?, ¬p a := by
  intro a ha
  obtain ⟨kept, hkept⟩ := List.dropWhile_suffix p (l := (items.dropWhile p).reverse)
  have hinner : trimWhile p items ++ kept.reverse = items.dropWhile p := by
    rw [trimWhile, dropEndWhile, ← List.reverse_append, hkept, List.reverse_reverse]
  apply head?_dropWhile_not p items
  rw [← hinner, List.head?_append, Option.mem_def.mp ha]
  rfl

theorem getLast?_trimWhile_not (p : α → Bool) (items : List α) :
    ∀ a ∈ (trimWhile p items).getLast?, ¬p a :=
  getLast?_dropEndWhile_not p _

end Trim

/-! ## Squeezing piece by piece -/

/-- Whether the squeezing of what follows the text starts after a gap. -/
def gapAfter (gap : Bool) (text : List Char) : Bool :=
  text.foldl (fun _ c => isBlank c) gap

theorem exists_concat_of_gapAfter {text : List Char} (hgap : gapAfter false text) :
    ∃ start c, text = start ++ [c] ∧ isBlank c := by
  rcases List.eq_nil_or_concat text with rfl | ⟨start, c, rfl⟩
  · cases hgap
  · exact ⟨start, c, by simp, by simpa [gapAfter] using hgap⟩

theorem gapAfter_of_last {text : List Char} (hlast : ∀ c ∈ text.getLast?, ¬isBlank c) :
    gapAfter false text = false := by
  by_contra hgap
  obtain ⟨start, c, rfl, hc⟩ := exists_concat_of_gapAfter (Bool.not_eq_false _ |>.mp hgap)
  exact hlast c (by simp) hc

/-- Squeezing a text is squeezing its pieces one after the other.  Whether a
space is owed to the second piece depends on how the first one ends. -/
theorem squeezeAfter_append (gap : Bool) (text rest : List Char) :
    squeezeAfter gap (text ++ rest) =
      squeezeAfter gap text ++ squeezeAfter (gapAfter gap text) rest := by
  induction text generalizing gap with
  | nil => rfl
  | cons c text ih =>
      have hgap : gapAfter gap (c :: text) = gapAfter (isBlank c) text := rfl
      cases hc : isBlank c with
      | true => simp [squeezeAfter, hc, ih, hgap]
      | false => cases gap <;> simp [squeezeAfter, hc, ih, hgap]

theorem squeezeAfter_blanks {gap : List Char} (hblank : ∀ c ∈ gap, isBlank c)
    (after : Bool) (text : List Char) :
    squeezeAfter after (gap ++ text) = squeezeAfter (after || !gap.isEmpty) text := by
  induction gap generalizing after with
  | nil => simp
  | cons c gap ih =>
      have hc : isBlank c = true := hblank c (by simp)
      have hrest : ∀ d ∈ gap, isBlank d := fun d hd => hblank d (by simp [hd])
      simp [squeezeAfter, hc, ih hrest]

theorem squeezeAfter_true_cons {c : Char} (hc : ¬isBlank c) (text : List Char) :
    squeezeAfter true (c :: text) = ' ' :: squeezeAfter false (c :: text) := by
  simp [squeezeAfter, hc]

/-- The blanks of an evenly spaced text stay as they are, as long as a word
comes after each of them. -/
theorem squeezeAfter_false_phrase {text : List Char} (heven : EvenlySpaced text)
    (hlast : ∀ c ∈ text.getLast?, ¬isBlank c) (rest : List Char) :
    squeezeAfter false (text ++ rest) = text ++ squeezeAfter false rest := by
  induction text with
  | nil => rfl
  | cons c text ih =>
      have hspace : ∀ d ∈ text, isBlank d → d = ' ' :=
        fun d hd => heven.eq_space d (by simp [hd])
      obtain ⟨hnext, hchain⟩ := List.isChain_cons.mp heven.isChain
      cases text with
      | nil => simp [squeezeAfter, hlast c rfl]
      | cons d text =>
          have htail := ih ⟨hspace, hchain⟩ (by simpa using hlast)
          by_cases hc : isBlank c
          · have hd : ¬isBlank d := fun hd => hnext d rfl ⟨hc, hd⟩
            calc
              squeezeAfter false (c :: d :: text ++ rest) =
                  squeezeAfter true (d :: (text ++ rest)) := by simp [squeezeAfter, hc]
              _ = ' ' :: squeezeAfter false (d :: text ++ rest) :=
                squeezeAfter_true_cons hd _
              _ = c :: d :: text ++ squeezeAfter false rest := by
                rw [htail, heven.eq_space c (by simp) hc]
                rfl
          · calc
              squeezeAfter false (c :: d :: text ++ rest) =
                  c :: squeezeAfter false (d :: text ++ rest) := by
                simp [squeezeAfter, hc]
              _ = c :: d :: text ++ squeezeAfter false rest := by
                rw [htail]
                rfl

/-- A phrase stays as it is, and one space stands for the gap before it. -/
theorem squeezeAfter_phrase {text : List Char} (hphrase : IsPhrase text) (gap : Bool)
    (rest : List Char) :
    squeezeAfter gap (text ++ rest) =
      (if gap then [' '] else []) ++ text ++ squeezeAfter false rest := by
  have hfalse := squeezeAfter_false_phrase hphrase.evenlySpaced hphrase.last_not_blank rest
  obtain ⟨c, text, rfl⟩ := List.exists_cons_of_ne_nil hphrase.ne_nil
  cases gap with
  | false => exact hfalse
  | true =>
      have hc : ¬isBlank c := hphrase.head_not_blank c rfl
      rw [List.cons_append] at hfalse ⊢
      rw [squeezeAfter_true_cons hc, hfalse]
      rfl

theorem squeeze_phrase {text : List Char} (hphrase : IsPhrase text) :
    squeeze text = text := by
  have hdrop : text.dropWhile isBlank = text := by
    obtain ⟨c, text, rfl⟩ := List.exists_cons_of_ne_nil hphrase.ne_nil
    exact List.dropWhile_cons_of_neg (hphrase.head_not_blank c rfl)
  have := squeezeAfter_phrase hphrase false []
  simpa [squeeze, hdrop, squeezeAfter] using this

/-- After a gap, one space stands in front of the squeezed text. -/
theorem squeezeAfter_true {text : List Char} (hne : squeeze text ≠ []) :
    squeezeAfter true text = ' ' :: squeeze text := by
  have hsplit : text.takeWhile isBlank ++ text.dropWhile isBlank = text :=
    List.takeWhile_append_dropWhile
  have hblank : ∀ c ∈ text.takeWhile isBlank, isBlank c :=
    List.all_eq_true.mp List.all_takeWhile
  have hhead := head?_dropWhile_not isBlank text
  have hskip := squeezeAfter_blanks hblank true (text.dropWhile isBlank)
  rw [hsplit, Bool.true_or] at hskip
  cases hdrop : text.dropWhile isBlank with
  | nil => simp [squeeze, hdrop, squeezeAfter] at hne
  | cons c rest =>
      have hc : ¬isBlank c := hhead c (by simp [hdrop])
      rw [hskip, squeeze, hdrop, squeezeAfter_true_cons hc]

/-! ## What squeezing leaves -/

theorem mem_squeezeAfter {gap : Bool} {text : List Char} {c : Char}
    (hmem : c ∈ squeezeAfter gap text) : c = ' ' ∨ c ∈ text ∧ ¬isBlank c := by
  induction text generalizing gap with
  | nil => cases hmem
  | cons d text ih =>
      have hrest {gap : Bool} (hmem : c ∈ squeezeAfter gap text) :
          c = ' ' ∨ c ∈ d :: text ∧ ¬isBlank c :=
        (ih hmem).imp_right fun h => ⟨List.mem_cons_of_mem d h.1, h.2⟩
      by_cases hd : isBlank d
      · simp only [squeezeAfter, hd, if_true] at hmem
        exact hrest hmem
      · cases gap with
        | false =>
            simp only [squeezeAfter, hd, if_false, Bool.false_eq_true] at hmem
            rcases List.mem_cons.mp hmem with rfl | hmem
            · exact Or.inr ⟨List.mem_cons_self, hd⟩
            · exact hrest hmem
        | true =>
            simp only [squeezeAfter, hd, if_false, if_true, Bool.false_eq_true] at hmem
            rcases List.mem_cons.mp hmem with rfl | hmem
            · exact Or.inl rfl
            rcases List.mem_cons.mp hmem with rfl | hmem
            · exact Or.inr ⟨List.mem_cons_self, hd⟩
            · exact hrest hmem

/-- What is squeezed is evenly spaced and does not end with a blank.  Both have
to be shown together, since a space is put only when a word follows. -/
theorem evenlySpaced_squeezeAfter (gap : Bool) (text : List Char) :
    EvenlySpaced (squeezeAfter gap text) ∧
      ∀ c ∈ (squeezeAfter gap text).getLast?, ¬isBlank c := by
  induction text generalizing gap with
  | nil => exact ⟨⟨by simp [squeezeAfter], by simp [squeezeAfter]⟩, by simp [squeezeAfter]⟩
  | cons c text ih =>
      by_cases hc : isBlank c
      · simpa [squeezeAfter, hc] using ih true
      · obtain ⟨heven, hlast⟩ := ih false
        have hword : EvenlySpaced (c :: squeezeAfter false text) := heven.cons hc
        have hend : ∀ d ∈ (c :: squeezeAfter false text).getLast?, ¬isBlank d := by
          intro d hd
          cases hrest : squeezeAfter false text with
          | nil => simp_all
          | cons e rest =>
              rw [hrest] at hd hlast
              exact hlast d (by simpa using hd)
        cases gap with
        | false =>
            have hsqueeze : squeezeAfter false (c :: text) =
                c :: squeezeAfter false text := by simp [squeezeAfter, hc]
            rw [hsqueeze]
            exact ⟨hword, hend⟩
        | true =>
            have hsqueeze : squeezeAfter true (c :: text) =
                ' ' :: c :: squeezeAfter false text := by simp [squeezeAfter, hc]
            rw [hsqueeze]
            refine ⟨⟨?_, ?_⟩, by simpa using hend⟩
            · intro d hd hblank
              rcases List.mem_cons.mp hd with rfl | hd
              · rfl
              · exact hword.eq_space d hd hblank
            · refine List.isChain_cons.mpr ⟨fun d hd hblank => hc ?_, hword.isChain⟩
              simp only [List.head?_cons, Option.mem_def, Option.some.injEq] at hd
              exact hd ▸ hblank.2

/-- A squeezed text is empty or a phrase, so that squeezing it again changes
nothing. -/
theorem squeeze_eq_nil_or_isPhrase (text : List Char) :
    squeeze text = [] ∨ IsPhrase (squeeze text) := by
  by_cases hnil : squeeze text = []
  · exact Or.inl hnil
  · right
    obtain ⟨heven, hlast⟩ := evenlySpaced_squeezeAfter false (text.dropWhile isBlank)
    refine ⟨heven, hnil, ?_, hlast⟩
    intro c hc
    have hhead := head?_dropWhile_not isBlank text
    cases hdrop : text.dropWhile isBlank with
    | nil => simp [squeeze, hdrop, squeezeAfter] at hc
    | cons d rest =>
        have hd : ¬isBlank d := hhead d (by simp [hdrop])
        simp only [squeeze, hdrop, squeezeAfter, hd, Bool.false_eq_true, if_false,
          List.head?_cons, Option.mem_def, Option.some.injEq] at hc
        exact hc ▸ hd

theorem evenlySpaced_squeeze (text : List Char) : EvenlySpaced (squeeze text) :=
  (evenlySpaced_squeezeAfter false _).1

end CreateIndex.Text
