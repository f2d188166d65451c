import CreateIndex.Proofs.Text.Spacing
import CreateIndex.Text.Basic

/-!
# Laws of dotted names

Cutting a name at its dots and joining parts with dots are the library's `splitOn` and
`intercalate`, so they undo each other.  The split at the last dot gives a name proper
without dots, and putting the two together again gives the same split.
-/

namespace CreateIndex.Text

variable {name qualifier proper part : List Char} {parts : List (List Char)}

theorem dottedParts_eq_splitOn (name : List Char) : dottedParts name = name.splitOn '.' := by
  induction name with
  | nil => rfl
  | cons c name ih =>
      rw [dottedParts, List.splitOn_cons_eq_if_modifyHead, ih]
      simp only [beq_iff_eq]

theorem dottedParts_ne_nil (name : List Char) : dottedParts name ≠ [] := by
  rw [dottedParts_eq_splitOn]
  exact List.splitOn_ne_nil '.' name

theorem joinDotted_dottedParts (name : List Char) : joinDotted (dottedParts name) = name := by
  rw [dottedParts_eq_splitOn]
  exact List.intercalate_splitOn '.'

theorem dottedParts_append_dot (qualifier rest : List Char) :
    dottedParts (qualifier ++ '.' :: rest) = dottedParts qualifier ++ dottedParts rest := by
  simp only [dottedParts_eq_splitOn]
  exact List.splitOn_append_cons_self qualifier rest

theorem dottedParts_of_not_mem (hdot : '.' ∉ name) : dottedParts name = [name] := by
  rw [dottedParts_eq_splitOn]
  exact List.splitOn_eq_singleton hdot

/-- A part has no dot in it, so that cutting what the parts are joined to finds
the same parts again. -/
theorem not_mem_of_mem_dottedParts (hpart : part ∈ dottedParts name) : '.' ∉ part := by
  induction name generalizing part with
  | nil =>
      rw [dottedParts, List.mem_singleton] at hpart
      simp [hpart]
  | cons c name ih =>
      rw [dottedParts] at hpart
      by_cases hc : c = '.'
      · rw [if_pos hc] at hpart
        rcases List.mem_cons.mp hpart with rfl | hpart
        · simp
        · exact ih hpart
      · rw [if_neg hc] at hpart
        obtain ⟨first, parts, hname⟩ := List.exists_cons_of_ne_nil (dottedParts_ne_nil name)
        rw [hname, List.modifyHead_cons] at hpart
        rw [hname] at ih
        rcases List.mem_cons.mp hpart with rfl | hpart
        · have hfirst : '.' ∉ first := ih (List.mem_cons_self)
          simp [hfirst, Ne.symm hc]
        · exact ih (List.mem_cons_of_mem first hpart)

/-! ## Joining -/

theorem joinDotted_singleton (part : List Char) : joinDotted [part] = part :=
  List.intercalate_singleton

theorem joinDotted_cons (part : List Char) (hne : parts ≠ []) :
    joinDotted (part :: parts) = part ++ '.' :: joinDotted parts := by
  rw [joinDotted, List.intercalate_cons_of_ne_nil hne]
  simp [joinDotted]

theorem joinDotted_concat (hne : parts ≠ []) (part : List Char) :
    joinDotted (parts ++ [part]) = joinDotted parts ++ '.' :: part := by
  induction parts with
  | nil => exact absurd rfl hne
  | cons first parts ih =>
      cases parts with
      | nil => simp [joinDotted_cons, joinDotted_singleton]
      | cons second parts =>
          rw [List.cons_append, joinDotted_cons _ (by simp), joinDotted_cons _ (by simp),
            ih (by simp), List.append_assoc, List.cons_append]

theorem isInfix_intercalate {α : Type} {separator item : List α} {items : List (List α)}
    (hitem : item ∈ items) : item <:+: separator.intercalate items := by
  induction items with
  | nil => cases hitem
  | cons first items ih =>
      by_cases hne : items = []
      · subst hne
        obtain rfl := List.mem_singleton.mp hitem
        simp
      · rw [List.intercalate_cons_of_ne_nil hne]
        rcases List.mem_cons.mp hitem with rfl | hitem
        · exact ((List.prefix_append _ _).trans (List.prefix_append _ _)).isInfix
        · exact (ih hitem).trans (List.suffix_append _ _).isInfix

/-- What stands in a joined text comes from the separator or from one of the
items. -/
theorem mem_of_mem_intercalate {α : Type} {separator : List α} {items : List (List α)} {a : α}
    (hmem : a ∈ separator.intercalate items) : a ∈ separator ∨ ∃ item ∈ items, a ∈ item := by
  induction items with
  | nil => cases hmem
  | cons first items ih =>
      by_cases hne : items = []
      · subst hne
        rw [List.intercalate_singleton] at hmem
        exact Or.inr ⟨first, List.mem_singleton_self first, hmem⟩
      · rw [List.intercalate_cons_of_ne_nil hne] at hmem
        simp only [List.mem_append] at hmem
        rcases hmem with (hmem | hmem) | hmem
        · exact Or.inr ⟨first, List.mem_cons_self, hmem⟩
        · exact Or.inl hmem
        · rcases ih hmem with hmem | ⟨item, hitem, hmem⟩
          · exact Or.inl hmem
          · exact Or.inr ⟨item, List.mem_cons_of_mem first hitem, hmem⟩

theorem length_intercalate_cons {α : Type} (separator first : List α) (items : List (List α)) :
    (separator.intercalate (first :: items)).length =
      first.length + (if items = [] then 0 else separator.length) +
        (separator.intercalate items).length := by
  cases items with
  | nil => simp
  | cons second items => simp [List.intercalate_cons_cons, Nat.add_assoc]

/-- Items of the same lengths are told apart by what they are joined to, since
every item then starts at the same place on both sides. -/
theorem eq_of_intercalate_eq {α β : Type} {separator : List α} {f g : β → List α}
    {items : List β} (hlength : ∀ item ∈ items, (f item).length = (g item).length)
    (heq : separator.intercalate (items.map f) = separator.intercalate (items.map g)) :
    ∀ item ∈ items, f item = g item := by
  induction items with
  | nil => simp
  | cons first items ih =>
      have hfirst : (f first).length = (g first).length := hlength first (by simp)
      cases items with
      | nil => simpa using heq
      | cons second items =>
          simp only [List.map_cons, List.intercalate_cons_cons, List.append_assoc] at heq
          obtain ⟨hhead, htail⟩ := List.append_inj heq hfirst
          have hrest := ih (fun item hitem => hlength item (by simp [hitem]))
            (List.append_cancel_left htail)
          intro item hitem
          rcases List.mem_cons.mp hitem with rfl | hitem
          · exact hhead
          · exact hrest item hitem

theorem infix_of_mem_dottedParts (hpart : part ∈ dottedParts name) : part <:+: name := by
  have hwithin : part <:+: joinDotted (dottedParts name) := isInfix_intercalate hpart
  rwa [joinDotted_dottedParts] at hwithin

/-- Dots are no blanks, so a name is evenly spaced if its parts are, even where
a part starts or ends with a space. -/
theorem evenlySpaced_joinDotted (heven : ∀ part ∈ parts, EvenlySpaced part) :
    EvenlySpaced (joinDotted parts) := by
  induction parts with
  | nil => exact evenlySpaced_nil
  | cons first parts ih =>
      have hfirst : EvenlySpaced first := heven first (by simp)
      have hrest : EvenlySpaced (joinDotted parts) := ih fun part hpart =>
        heven part (by simp [hpart])
      by_cases hne : parts = []
      · rw [hne, joinDotted_singleton]
        exact hfirst
      · have hdot : ¬isBlank '.' := by decide
        rw [joinDotted_cons first hne]
        exact hfirst.append (hrest.cons hdot) fun c _ d hd hblank => by
          cases hd
          exact hdot hblank.2

/-! ## The split at the last dot -/

theorem splitQualifier_of_not_mem (hdot : '.' ∉ proper) :
    splitQualifier proper = ([], proper) := by
  rw [splitQualifier, dottedParts_of_not_mem hdot]
  rfl

/-- A name is split at its last dot: the part after it has none, and the
qualifier may have any number. -/
theorem splitQualifier_append (hdot : '.' ∉ proper) (qualifier : List Char) :
    splitQualifier (qualifier ++ '.' :: proper) = (qualifier, proper) := by
  have hparts : dottedParts (qualifier ++ '.' :: proper) = dottedParts qualifier ++ [proper] := by
    rw [dottedParts_append_dot, dottedParts_of_not_mem hdot]
  simp [splitQualifier, hparts, joinDotted_dottedParts]

/-- Splitting off the last part agrees with cutting at every dot: the name
proper is the last of the parts. -/
theorem dropLast_concat_splitQualifier (name : List Char) :
    (dottedParts name).dropLast ++ [(splitQualifier name).2] = dottedParts name := by
  rw [splitQualifier, List.getLastD_eq_getLast?,
    List.getLast?_eq_some_getLast (dottedParts_ne_nil name), Option.getD_some]
  exact List.dropLast_append_getLast _

theorem not_mem_splitQualifier (name : List Char) : '.' ∉ (splitQualifier name).2 := by
  apply not_mem_of_mem_dottedParts
  rw [← dropLast_concat_splitQualifier name]
  exact List.mem_append_right _ (List.mem_singleton_self _)

/-- The two halves are the name, up to the dot between them.  Without a dot all
of the name is the second half. -/
theorem splitQualifier_cases (name : List Char) :
    splitQualifier name = ([], name) ∨
      name = (splitQualifier name).1 ++ '.' :: (splitQualifier name).2 := by
  by_cases hdot : '.' ∈ name
  · right
    obtain ⟨qualifier, rest, hname⟩ := List.append_of_mem hdot
    have hparts : (dottedParts name).dropLast ≠ [] := by
      rw [hname, dottedParts_append_dot,
        List.dropLast_append_of_ne_nil (dottedParts_ne_nil rest)]
      simp [dottedParts_ne_nil]
    calc
      name = joinDotted (dottedParts name) := (joinDotted_dottedParts name).symm
      _ = joinDotted ((dottedParts name).dropLast ++ [(splitQualifier name).2]) := by
        rw [dropLast_concat_splitQualifier]
      _ = (splitQualifier name).1 ++ '.' :: (splitQualifier name).2 :=
        joinDotted_concat hparts _
  · left
    exact splitQualifier_of_not_mem hdot

theorem evenlySpaced_splitQualifier (heven : EvenlySpaced name) :
    EvenlySpaced (splitQualifier name).1 ∧ EvenlySpaced (splitQualifier name).2 := by
  rcases splitQualifier_cases name with hsplit | hsplit
  · rw [hsplit]
    exact ⟨evenlySpaced_nil, heven⟩
  · rw [hsplit] at heven
    constructor
    · exact heven.of_isInfix (List.prefix_append _ _).isInfix
    · exact heven.of_isInfix ((List.suffix_cons '.' _).trans (List.suffix_append _ _)).isInfix

end CreateIndex.Text
