import CreateIndex.Proofs.Statement.Nesting
import CreateIndex.Statement.Reading

/-!
# Entries of a column list

An entry is balanced if no comma and no closing parenthesis in it is outside the
parentheses that the entry opens.  A column list is cut exactly into the balanced entries
that it was made of.
-/

namespace CreateIndex.Statement

open Lexeme

variable {depth depth' : Nat} {lexeme : Lexeme} {start rest entry lexemes left : List Lexeme}
  {entries : List (List Lexeme)}

/-- The number of open inner parentheses after a lexeme with the given token, or nothing
if that ends the entry. -/
def depthAfterToken (depth : Nat) (token : Token) : Option Nat :=
  match token with
  | .leftParen => some (depth + 1)
  | .rightParen => if depth = 0 then none else some (depth - 1)
  | .comma => if depth = 0 then none else some depth
  | _ => some depth

/-- The number of open inner parentheses after some lexemes, or nothing if an entry ends
among them. -/
def depthAfter (depth : Nat) (lexemes : List Lexeme) : Option Nat :=
  lexemes.foldlM (fun depth lexeme => depthAfterToken depth lexeme.token) depth

def Balanced (lexemes : List Lexeme) : Prop :=
  depthAfter 0 lexemes = some 0

theorem depthAfter_cons (depth : Nat) (lexeme : Lexeme) (rest : List Lexeme) :
    depthAfter depth (lexeme :: rest) =
      (depthAfterToken depth lexeme.token).bind (depthAfter · rest) :=
  List.foldlM_cons

theorem depthAfter_append (depth : Nat) (start rest : List Lexeme) :
    depthAfter depth (start ++ rest) = (depthAfter depth start).bind (depthAfter · rest) :=
  List.foldlM_append

/-! ## Lexemes that are no punctuation -/

/-- The lexeme neither opens nor closes anything, and it separates no entries. -/
def IsNeutral (lexeme : Lexeme) : Prop :=
  lexeme.token ≠ .leftParen ∧ lexeme.token ≠ .rightParen ∧ lexeme.token ≠ .comma

theorem IsNeutral.depthAfterToken (hneutral : IsNeutral lexeme) (depth : Nat) :
    depthAfterToken depth lexeme.token = some depth := by
  obtain ⟨hleft, hright, hcomma⟩ := hneutral
  unfold Statement.depthAfterToken
  split <;> first | rfl | contradiction

theorem isNeutral_of_isBlank (hblank : lexeme.isBlank) : IsNeutral lexeme := by
  refine ⟨?_, ?_, ?_⟩ <;> intro htoken <;> simp [Lexeme.isBlank, htoken] at hblank

/-- A name is neutral whatever it contains: parentheses and commas in quotes
belong to the lexeme. -/
theorem isNeutral_of_identifier? {name : List Char} (hname : lexeme.identifier? = some name) :
    IsNeutral lexeme := by
  refine ⟨?_, ?_, ?_⟩ <;> intro htoken <;> simp [Lexeme.identifier?, htoken] at hname

theorem isNeutral_of_isKeyword {spelling : String} (hkeyword : lexeme.isKeyword spelling) :
    IsNeutral lexeme := by
  refine ⟨?_, ?_, ?_⟩ <;> intro htoken <;> simp [Lexeme.isKeyword, htoken] at hkeyword

theorem depthAfter_of_neutral (hneutral : ∀ lexeme ∈ lexemes, IsNeutral lexeme)
    (depth : Nat) : depthAfter depth lexemes = some depth := by
  induction lexemes with
  | nil => rfl
  | cons lexeme lexemes ih =>
      rw [depthAfter_cons, (hneutral lexeme (by simp)).depthAfterToken]
      exact ih fun other hother => hneutral other (by simp [hother])

theorem balanced_of_neutral (hneutral : ∀ lexeme ∈ lexemes, IsNeutral lexeme) :
    Balanced lexemes :=
  depthAfter_of_neutral hneutral 0

/-- Neutral lexemes at the end of an entry do not matter, such as a collation
and a sort order. -/
theorem balanced_append_neutral (hneutral : ∀ lexeme ∈ rest, IsNeutral lexeme) :
    Balanced (start ++ rest) ↔ Balanced start := by
  rw [Balanced, Balanced, depthAfter_append]
  cases depthAfter 0 start with
  | none => rfl
  | some depth =>
      change depthAfter depth rest = some 0 ↔ some depth = some 0
      rw [depthAfter_of_neutral hneutral]

/-- Neutral lexemes at the start of an entry do not matter. -/
theorem balanced_neutral_append (hneutral : ∀ lexeme ∈ start, IsNeutral lexeme) :
    Balanced (start ++ rest) ↔ Balanced rest := by
  rw [Balanced, depthAfter_append, depthAfter_of_neutral hneutral]
  rfl

/-! ## Cutting -/

theorem cutEntries_cons (hdepth : depthAfterToken depth lexeme.token = some depth') :
    cutEntries depth (lexeme :: rest) =
      (cutEntries depth' rest).map
        fun (entries, left) => (consFirst lexeme entries, left) := by
  have hclose : ¬(lexeme.token = .rightParen ∧ depth = 0) := by
    rintro ⟨htoken, rfl⟩
    simp [depthAfterToken, htoken] at hdepth
  have hcomma : ¬(lexeme.token = .comma ∧ depth = 0) := by
    rintro ⟨htoken, rfl⟩
    simp [depthAfterToken, htoken] at hdepth
  have hinner :
      (if lexeme.token = .leftParen then depth + 1
        else if lexeme.token = .rightParen then depth - 1
        else depth) = depth' := by
    unfold depthAfterToken at hdepth
    split at hdepth <;> simp_all
  rw [cutEntries, if_neg hclose, if_neg hcomma, hinner]

theorem foldr_consFirst (start first : List Lexeme) (others : List (List Lexeme)) :
    start.foldr consFirst (first :: others) = (start ++ first) :: others := by
  induction start with
  | nil => rfl
  | cons lexeme start ih =>
      rw [List.foldr_cons, ih]
      rfl

/-- Lexemes within an entry join its front one by one, and the cut goes on at
the depth that they lead to. -/
theorem cutEntries_append (hdepth : depthAfter depth start = some depth')
    (rest : List Lexeme) :
    cutEntries depth (start ++ rest) =
      (cutEntries depth' rest).map
        fun (entries, left) => (start.foldr consFirst entries, left) := by
  induction start generalizing depth with
  | nil =>
      cases hdepth
      simp
  | cons lexeme start ih =>
      rw [depthAfter_cons] at hdepth
      obtain ⟨inner, hinner, hstart⟩ := Option.bind_eq_some_iff.mp hdepth
      rw [List.cons_append, cutEntries_cons hinner, ih hstart, Option.map_map]
      rfl

/-- The pieces are what the lexemes are cut into at every comma outside
parentheses.  Between two commas there may be nothing at all. -/
inductive CutAtCommas : List Lexeme → List (List Lexeme) → Prop where
  | last {piece : List Lexeme} (hpiece : Balanced piece) : CutAtCommas piece [piece]
  | comma {piece rest : List Lexeme} {mark : Lexeme} {pieces : List (List Lexeme)}
      (hpiece : Balanced piece) (hmark : mark.token = .comma) (hrest : CutAtCommas rest pieces) :
      CutAtCommas (piece ++ mark :: rest) (piece :: pieces)

/-- A column list is cut into its pieces at the parenthesis that closes it, and
what comes after that is left. -/
theorem CutAtCommas.cutEntries_eq {close : Lexeme} (hcut : CutAtCommas lexemes entries)
    (hclose : close.token = .rightParen) (left : List Lexeme) :
    cutEntries 0 (lexemes ++ close :: left) = some (entries, left) := by
  induction hcut with
  | @last piece hpiece =>
      have hend : cutEntries 0 (close :: left) = some ([[]], left) := by
        rw [cutEntries, if_pos ⟨hclose, rfl⟩]
      rw [cutEntries_append hpiece, hend, Option.map_some]
      simp only [foldr_consFirst, List.append_nil]
  | @comma piece rest mark pieces hpiece hmark _ ih =>
      have hnext : cutEntries 0 (mark :: (rest ++ close :: left)) =
          some ([] :: pieces, left) := by
        rw [cutEntries, if_neg (by simp [hmark]), if_pos ⟨hmark, rfl⟩, ih]
        rfl
      rw [List.append_assoc, List.cons_append, cutEntries_append hpiece, hnext, Option.map_some]
      simp only [foldr_consFirst, List.append_nil]

theorem cutAtCommas_intercalate (hne : entries ≠ [])
    (hbalanced : ∀ entry ∈ entries, Balanced entry) :
    CutAtCommas ([comma].intercalate entries) entries := by
  induction entries with
  | nil => exact absurd rfl hne
  | cons entry entries ih =>
      have hentry : Balanced entry := hbalanced entry (by simp)
      cases entries with
      | nil =>
          rw [List.intercalate_singleton]
          exact .last hentry
      | cons next entries =>
          have hrest := ih (by simp) fun other hother => hbalanced other (by simp [hother])
          rw [List.intercalate_cons_cons, List.append_assoc, List.singleton_append]
          exact .comma hentry rfl hrest

/-- Balanced entries with commas between them are cut apart again.  Empty entries
count as balanced. -/
theorem cutEntries_intercalate (hne : entries ≠ [])
    (hbalanced : ∀ entry ∈ entries, Balanced entry) (left : List Lexeme) :
    cutEntries 0 ([comma].intercalate entries ++ rightParen :: left) =
      some (entries, left) :=
  (cutAtCommas_intercalate hne hbalanced).cutEntries_eq rfl left

/-! ## The cut between head and trailer -/

/-- One token changes the depth within a list as it changes the nesting of the
cut, unless it ends the entry. -/
theorem afterToken_succ {token : Token} (hdepth : depthAfterToken depth token = some depth') :
    Nesting.afterToken (depth + 1) token = some (.outside (depth' + 1)) := by
  unfold depthAfterToken at hdepth
  split at hdepth
  · cases hdepth
    rfl
  · split at hdepth
    · cases hdepth
    · rename_i hpos
      cases hdepth
      obtain ⟨inner, rfl⟩ := Nat.exists_eq_succ_of_ne_zero hpos
      simp [Nesting.afterToken]
  · split at hdepth
    · cases hdepth
    · cases hdepth
      rfl
  · rename_i hleft hright _
    cases hdepth
    unfold Nesting.afterToken
    split
    · exact absurd rfl hleft
    · exact absurd rfl hright
    · rfl

/-- The cut counts the parentheses of a column list as the lexemes do, with the
one around the list. -/
theorem pass_sourceText (hagrees : ∀ lexeme ∈ lexemes, lexeme.AgreesWithCut)
    (hdepth : depthAfter depth lexemes = some depth') :
    (Nesting.outside (depth + 1)).pass (sourceText lexemes) =
      some (.outside (depth' + 1)) := by
  induction lexemes generalizing depth with
  | nil =>
      cases hdepth
      rfl
  | cons lexeme lexemes ih =>
      rw [depthAfter_cons] at hdepth
      obtain ⟨inner, hinner, hrest⟩ := Option.bind_eq_some_iff.mp hdepth
      have hlexeme : (Nesting.outside (depth + 1)).pass lexeme.text =
          some (.outside (inner + 1)) :=
        (hagrees lexeme (by simp) (depth + 1)).trans (afterToken_succ hinner)
      change (Nesting.outside (depth + 1)).pass (lexeme.text ++ sourceText lexemes) = _
      rw [Nesting.pass_append_of_pass hlexeme]
      exact ih (fun other hother => hagrees other (by simp [hother])) hrest

end CreateIndex.Statement
