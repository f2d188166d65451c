import CreateIndex.Proofs.Text.Spacing
import Mathlib.Data.List.TakeWhile

/-!
# Collapsed blanks

Squeezing a text is trimming it and then collapsing its blanks: every run of them becomes
one space.  Unlike squeezing, collapsing treats the ends of a text as it treats its middle,
so a collapsed text can be cut anywhere, and each of the pieces is a collapsed piece of the
text.  That is how the pieces of a squeezed statement are found in what was typed.
-/

namespace CreateIndex.Text

variable {text typed start rest word : List Char} {c : Char}

/-- Goes on after a character.  `blank` says that it was a blank, so that the blanks which
follow it are left out. -/
def collapseAfter (blank : Bool) : List Char → List Char
  | [] => []
  | c :: rest =>
    if isBlank c then
      if blank then collapseAfter true rest else ' ' :: collapseAfter true rest
    else c :: collapseAfter false rest

/-- Turns every run of blanks into one space, also at the ends of the text. -/
def collapse (text : List Char) : List Char :=
  collapseAfter false text

theorem collapseAfter_of_blank (hc : isBlank c) (blank : Bool) (rest : List Char) :
    collapseAfter blank (c :: rest) =
      (if blank then [] else [' ']) ++ collapseAfter true rest := by
  cases blank <;> simp [collapseAfter, hc]

theorem collapseAfter_of_not_blank (hc : ¬isBlank c) (blank : Bool) (rest : List Char) :
    collapseAfter blank (c :: rest) = c :: collapse rest := by
  simp [collapseAfter, hc, collapse]

/-- A gap that has begun is only seen by a text that goes on with it. -/
theorem collapseAfter_of_head (hhead : ∀ c ∈ text.head?, ¬isBlank c) (blank : Bool) :
    collapseAfter blank text = collapse text := by
  cases text with
  | nil => rfl
  | cons c rest =>
      have hc : ¬isBlank c := hhead c rfl
      rw [collapse, collapseAfter_of_not_blank hc, collapseAfter_of_not_blank hc]

/-! ## Pieces -/

/-- Collapsing a text is collapsing its pieces one after the other.  The second
piece has to know whether the first one ended in a blank. -/
theorem collapseAfter_append (blank : Bool) (start rest : List Char) :
    collapseAfter blank (start ++ rest) =
      collapseAfter blank start ++ collapseAfter (gapAfter blank start) rest := by
  induction start generalizing blank with
  | nil => rfl
  | cons c start ih =>
      have hgap : gapAfter blank (c :: start) = gapAfter (isBlank c) start := rfl
      rw [List.cons_append, hgap]
      by_cases hc : isBlank c
      · rw [collapseAfter_of_blank hc, collapseAfter_of_blank hc, ih, hc, List.append_assoc]
      · rw [collapseAfter_of_not_blank hc, collapseAfter_of_not_blank hc, collapse, ih,
          Bool.not_eq_true _ |>.mp hc, List.cons_append]
        rfl

/-- The pieces of a text collapse one by one, unless a run of blanks goes across
the cut between them. -/
theorem collapse_append
    (hcut : ∀ c ∈ rest.head?, isBlank c → gapAfter false start = false) :
    collapse (start ++ rest) = collapse start ++ collapse rest := by
  rw [collapse, collapseAfter_append]
  apply congrArg (collapse start ++ ·)
  cases hgap : gapAfter false start with
  | false => rfl
  | true =>
      apply collapseAfter_of_head
      intro c hc hblank
      rw [hcut c hc hblank] at hgap
      cases hgap

theorem collapse_append_of_head (hhead : ∀ c ∈ rest.head?, ¬isBlank c) :
    collapse (start ++ rest) = collapse start ++ collapse rest :=
  collapse_append fun c hc hblank => absurd hblank (hhead c hc)

theorem collapse_cons_of_not_blank (hc : ¬isBlank c) (rest : List Char) :
    collapse (c :: rest) = c :: collapse rest :=
  collapseAfter_of_not_blank hc false rest

theorem collapse_eq_nil_iff : collapse typed = [] ↔ typed = [] := by
  cases typed with
  | nil => simp [collapse, collapseAfter]
  | cons c rest =>
      by_cases hc : isBlank c
      · simp [collapse, collapseAfter_of_blank hc]
      · simp [collapse, collapseAfter_of_not_blank hc]

/-- A collapsed text ends in a blank if and only if the text does, so a cut can
be made on either side. -/
theorem gapAfter_collapseAfter (blank : Bool) (text : List Char) :
    gapAfter blank (collapseAfter blank text) = gapAfter blank text := by
  induction text generalizing blank with
  | nil => rfl
  | cons c rest ih =>
      by_cases hc : isBlank c
      · rw [collapseAfter_of_blank hc]
        have hgap : gapAfter blank (c :: rest) = gapAfter true rest := by simp [gapAfter, hc]
        rw [hgap, ← ih true]
        cases blank <;> rfl
      · have hgap (after : List Char) : gapAfter blank (c :: after) = gapAfter false after := by
          simp [gapAfter, hc]
        rw [collapseAfter_of_not_blank hc, hgap, hgap]
        exact ih false

/-- An evenly spaced text stays as it is: it has no run of blanks left that
could collapse. -/
theorem EvenlySpaced.collapse_eq (heven : EvenlySpaced text) : collapse text = text := by
  induction text with
  | nil => rfl
  | cons c rest ih =>
      obtain ⟨hnext, -⟩ := List.isChain_cons.mp heven.isChain
      have hrest := ih (heven.of_isInfix (List.suffix_cons c rest).isInfix)
      by_cases hc : isBlank c
      · have hhead : ∀ d ∈ rest.head?, ¬isBlank d := fun d hd hblank => hnext d hd ⟨hc, hblank⟩
        rw [collapse, collapseAfter_of_blank hc, collapseAfter_of_head hhead, hrest,
          heven.eq_space c (by simp) hc]
        rfl
      · rw [collapse, collapseAfter_of_not_blank hc, hrest]

theorem collapse_of_not_blank (hword : ∀ c ∈ word, ¬isBlank c) : collapse word = word := by
  cases word with
  | nil => rfl
  | cons c word => exact (isPhrase_of_not_blank (by simp) hword).evenlySpaced.collapse_eq

/-- Between two characters that are no blanks, such as the quotes of a name, the
inner text collapses on its own. -/
theorem collapse_enclose {opener closer : Char} (hopener : ¬isBlank opener)
    (hcloser : ¬isBlank closer) (inner : List Char) :
    collapse (opener :: inner ++ [closer]) = opener :: collapse inner ++ [closer] := by
  have hlast : collapse [closer] = [closer] := collapse_of_not_blank (by simpa using hcloser)
  rw [List.cons_append, collapse_cons_of_not_blank hopener,
    collapse_append_of_head (by simpa using hcloser), hlast]
  rfl

/-! ## Squeezing -/

/-- Both passes put one space for a run of blanks.  They differ at the end of a
text only, which here is the end of a word. -/
theorem squeezeAfter_eq_collapseAfter (hlast : ∀ c ∈ text.getLast?, ¬isBlank c) (gap : Bool) :
    squeezeAfter gap text =
      (if gap && !text.isEmpty then [' '] else []) ++ collapseAfter gap text := by
  induction text generalizing gap with
  | nil => cases gap <;> rfl
  | cons c rest ih =>
      by_cases hc : isBlank c
      · cases rest with
        | nil => exact absurd hc (hlast c rfl)
        | cons d rest =>
            have hrest := ih (by simpa using hlast) true
            rw [collapseAfter_of_blank hc]
            cases gap <;> simpa [squeezeAfter, hc] using hrest
      · have hrest := ih (fun d hd => hlast d (List.mem_getLast?_cons hd)) false
        rw [collapseAfter_of_not_blank hc]
        cases gap <;> simpa [squeezeAfter, hc, collapse] using hrest

theorem squeezeAfter_of_blank (hblank : ∀ c ∈ text, isBlank c) (gap : Bool) :
    squeezeAfter gap text = [] := by
  have hsqueeze := squeezeAfter_blanks hblank gap []
  rwa [List.append_nil] at hsqueeze

/-- Squeezing is trimming and then collapsing, so that facts about runs of
blanks need to be proved for one pass only. -/
theorem squeeze_eq_collapse (text : List Char) : squeeze text = collapse (trim text) := by
  obtain ⟨before, after, htext, hbefore, hafter⟩ := exists_append_trimWhile isBlank text
  have hdrop : squeeze text = squeezeAfter false (trim text) := by
    by_cases hnil : trim text = []
    · have hall : ∀ c ∈ text, isBlank c := by
        rw [htext, show trimWhile isBlank text = [] from hnil]
        simpa [or_imp, forall_and] using ⟨hbefore, hafter⟩
      rw [squeeze, List.dropWhile_eq_nil_iff.mpr hall, hnil]
    · have hhead : ∀ c ∈ (trim text ++ after).head?, ¬isBlank c := by
        rw [List.head?_append_of_ne_nil _ hnil]
        exact head?_trimWhile_not isBlank text
      have hstart : text.dropWhile isBlank = trim text ++ after := by
        conv_lhs => rw [htext, List.append_assoc]
        exact dropWhile_append_of_head hbefore hhead
      rw [squeeze, hstart, squeezeAfter_append, squeezeAfter_of_blank hafter, List.append_nil]
  have hlast : ∀ c ∈ (trim text).getLast?, ¬isBlank c := getLast?_trimWhile_not isBlank text
  rw [hdrop, squeezeAfter_eq_collapseAfter hlast]
  rfl

theorem collapseAfter_true_of_blank (hblank : ∀ c ∈ text, isBlank c) :
    collapseAfter true text = [] := by
  induction text with
  | nil => rfl
  | cons c rest ih =>
      rw [collapseAfter_of_blank (hblank c (by simp))]
      exact ih fun d hd => hblank d (by simp [hd])

/-- A run of blanks becomes one space. -/
theorem collapse_of_blank (hblank : ∀ c ∈ text, isBlank c) (hne : text ≠ []) :
    collapse text = [' '] := by
  cases text with
  | nil => exact absurd rfl hne
  | cons c rest =>
      have hrest : ∀ d ∈ rest, isBlank d := fun d hd => hblank d (by simp [hd])
      rw [collapse, collapseAfter_of_blank (hblank c (by simp)),
        collapseAfter_true_of_blank hrest]
      rfl

theorem isBlank_of_mem_collapse (hblank : ∀ c ∈ text, isBlank c) (hmem : c ∈ collapse text) :
    isBlank c := by
  by_cases hnil : text = []
  · rw [hnil] at hmem
    cases hmem
  · rw [collapse_of_blank hblank hnil, List.mem_singleton] at hmem
    rw [hmem, isBlank_space]

/-- The blanks may also collapse before the text is trimmed.  The two passes
touch no blank in common but the runs at the ends. -/
theorem squeeze_eq_trim_collapse (text : List Char) : squeeze text = trim (collapse text) := by
  obtain ⟨before, after, htext, hbefore, hafter⟩ := exists_append_trimWhile isBlank text
  have hinner : collapse (trimWhile isBlank text) = squeeze text :=
    (squeeze_eq_collapse text).symm
  rcases squeeze_eq_nil_or_isPhrase text with hnil | hphrase
  · have hall : ∀ c ∈ text, isBlank c := by
      rw [htext, collapse_eq_nil_iff.mp (hinner.trans hnil)]
      simpa [or_imp, forall_and] using ⟨hbefore, hafter⟩
    have hdrop : (collapse text).dropWhile isBlank = [] :=
      List.dropWhile_eq_nil_iff.mpr fun c hc => isBlank_of_mem_collapse hall hc
    rw [hnil, trim, trimWhile, hdrop]
    rfl
  · -- No run of blanks goes across the ends of the trimmed text.
    have hne : trimWhile isBlank text ≠ [] := by
      intro hnil
      rw [hnil] at hinner
      exact hphrase.ne_nil hinner.symm
    have hhead : ∀ c ∈ (trimWhile isBlank text ++ after).head?, ¬isBlank c := by
      rw [List.head?_append_of_ne_nil _ hne]
      exact head?_trimWhile_not isBlank text
    have hlast : gapAfter false (trimWhile isBlank text) = false :=
      gapAfter_of_last (getLast?_trimWhile_not isBlank text)
    have hpieces : collapse text = collapse before ++ squeeze text ++ collapse after := by
      conv_lhs => rw [htext, List.append_assoc]
      rw [collapse_append_of_head hhead, collapse_append fun _ _ _ => hlast, hinner,
        List.append_assoc]
    rw [hpieces, trim]
    apply Eq.symm
    exact trimWhile_append (fun c hc => isBlank_of_mem_collapse hbefore hc)
      hphrase.head_not_blank hphrase.last_not_blank
      (fun c hc => isBlank_of_mem_collapse hafter hc) hphrase.ne_nil

/-! ## Back to what was typed -/

/-- Where a collapsed text can be cut, the text can be cut too.  The cut goes
through no run of blanks: the first piece takes all of a run that it has the
space of. -/
theorem exists_append_of_collapseAfter {blank : Bool}
    (hcollapse : collapseAfter blank typed = start ++ rest) :
    ∃ typed' left, typed = typed' ++ left ∧ collapseAfter blank typed' = start ∧
      collapse left = rest ∧
      ∀ c ∈ left.head?, isBlank c → gapAfter blank typed' = false := by
  induction typed generalizing blank start with
  | nil =>
      obtain ⟨rfl, rfl⟩ := List.append_eq_nil_iff.mp hcollapse.symm
      exact ⟨[], [], rfl, rfl, rfl, by simp⟩
  | cons c typed ih =>
      by_cases hnil : start = [] ∧ (isBlank c → blank = false)
      · obtain ⟨rfl, hbegins⟩ := hnil
        have hwhole : collapse (c :: typed) = collapseAfter blank (c :: typed) := by
          by_cases hc : isBlank c
          · rw [hbegins hc, collapse]
          · rw [collapse_cons_of_not_blank hc, collapseAfter_of_not_blank hc]
        refine ⟨[], c :: typed, rfl, rfl, hwhole.trans hcollapse, ?_⟩
        intro d hd hblank
        cases hd
        exact hbegins hblank
      · -- What the character leaves, one character or none, belongs to the first piece.
        rw [← List.singleton_append, collapseAfter_append] at hcollapse
        have hlength : (collapseAfter blank [c]).length ≤ start.length := by
          cases start with
          | nil =>
              have hskips : isBlank c ∧ blank = true := by simpa using hnil
              simp [collapseAfter, hskips]
          | cons d start =>
              by_cases hc : isBlank c
              · cases blank <;> simp [collapseAfter, hc]
              · simp [collapseAfter, hc]
        obtain ⟨start', rfl⟩ := List.prefix_of_prefix_length_le (List.prefix_append _ _)
          (hcollapse ▸ List.prefix_append start rest) hlength
        rw [List.append_assoc] at hcollapse
        obtain ⟨typed', left, rfl, hstart, hrest, hcut⟩ := ih (List.append_cancel_left hcollapse)
        refine ⟨[c] ++ typed', left, rfl, ?_, hrest, hcut⟩
        rw [collapseAfter_append, hstart]

theorem exists_append_of_collapse (hcollapse : collapse typed = start ++ rest) :
    ∃ typed' left, typed = typed' ++ left ∧ collapse typed' = start ∧ collapse left = rest ∧
      ∀ c ∈ left.head?, isBlank c → gapAfter false typed' = false :=
  exists_append_of_collapseAfter hcollapse

/-- A word was typed as it is read: collapsing changes blanks only, and a word
has none. -/
theorem eq_of_collapse_eq_word (hword : ∀ c ∈ word, ¬isBlank c)
    (hcollapse : collapse typed = word) : typed = word := by
  induction word generalizing typed with
  | nil => exact collapse_eq_nil_iff.mp hcollapse
  | cons c word ih =>
      have hc : ¬isBlank c := hword c (by simp)
      cases typed with
      | nil => cases hcollapse
      | cons d typed =>
          by_cases hd : isBlank d
          · rw [collapse, collapseAfter_of_blank hd] at hcollapse
            obtain ⟨rfl, -⟩ := List.cons.inj hcollapse
            exact absurd isBlank_space hc
          · rw [collapse, collapseAfter_of_not_blank hd] at hcollapse
            obtain ⟨rfl, hrest⟩ := List.cons.inj hcollapse
            rw [ih (fun e he => hword e (by simp [he])) hrest]

/-- A word of a collapsed text was typed in the text.  Collapsing adds no
characters but spaces, and joins nothing. -/
theorem isInfix_of_isInfix_collapse (hword : ∀ c ∈ word, ¬isBlank c)
    (hwithin : word <:+: collapse typed) : word <:+: typed := by
  obtain ⟨start, rest, hcollapse⟩ := hwithin
  rw [List.append_assoc] at hcollapse
  obtain ⟨before, left, rfl, -, hleft, -⟩ := exists_append_of_collapse hcollapse.symm
  obtain ⟨typed', after, rfl, htyped, -⟩ := exists_append_of_collapse hleft
  rw [eq_of_collapse_eq_word hword htyped, ← List.append_assoc]
  exact ⟨before, after, rfl⟩

/-- A piece that starts with a word collapses to a piece of the collapsed text;
one that starts with a blank might lose it to the run before. -/
theorem isInfix_collapse (hhead : ∀ c ∈ text.head?, ¬isBlank c) (hwithin : text <:+: typed) :
    collapse text <:+: collapse typed := by
  obtain ⟨before, after, rfl⟩ := hwithin
  rw [collapse.eq_def (before ++ text ++ after), collapseAfter_append, collapseAfter_append,
    collapseAfter_of_head hhead]
  exact ⟨_, _, rfl⟩

theorem mem_collapse_of_not_blank (hc : ¬isBlank c) (hmem : c ∈ typed) : c ∈ collapse typed := by
  have hword : ∀ d ∈ [c], ¬isBlank d := by simpa using hc
  obtain ⟨before, after, rfl⟩ := List.append_of_mem hmem
  have hwithin : collapse [c] <:+: collapse (before ++ c :: after) :=
    isInfix_collapse (by simpa using hc) ⟨before, after, by simp⟩
  rw [collapse_of_not_blank hword] at hwithin
  exact hwithin.subset (by simp)

/-- Between two characters that are no blanks, what was typed collapses on its own. -/
theorem exists_of_collapse_enclose {opener closer : Char} {inner : List Char}
    (hopener : ¬isBlank opener) (hcloser : ¬isBlank closer)
    (hcollapse : collapse typed = opener :: inner ++ [closer]) :
    ∃ typed', typed = opener :: typed' ++ [closer] ∧ collapse typed' = inner := by
  rw [List.cons_append, ← List.singleton_append] at hcollapse
  obtain ⟨first, left, rfl, hfirst, hleft, -⟩ := exists_append_of_collapse hcollapse
  obtain ⟨typed', last, rfl, hinner, hlast, -⟩ := exists_append_of_collapse hleft
  rw [eq_of_collapse_eq_word (by simpa using hopener) hfirst,
    eq_of_collapse_eq_word (by simpa using hcloser) hlast]
  exact ⟨typed', by simp, hinner⟩

end CreateIndex.Text
