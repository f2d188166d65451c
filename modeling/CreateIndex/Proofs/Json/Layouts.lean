import CreateIndex.Proofs.Json.PassedOver
import Mathlib.Data.List.Forall2

/-!
# Layouts of lists and objects

However the items of a list are laid out, the list is read item by item; and an object is read
field by field, in any order, and past unknown fields.  What is written is one such layout.
-/

namespace CreateIndex.Json

variable {α β ρ : Type} {item : Reader α} {value : α} {values : List α} {first : Bool}
  {gap lead text : List Char} {texts : List (List Char)} {member : String × List Char}
  {members : List (String × List Char)} {names seen : List String} {c : Char} {fuel : Nat}
  {fields : List (RecordField ρ)} {record : ρ} {changes : List (ρ → ρ)}

/-! ## Flags -/

theorem FlagText.reads_flag {value : Bool} {written : List Char} (htext : FlagText value written) :
    Reads flag written value := by
  cases htext with
  | yes => exact Json.reads_flag true
  | no => exact Json.reads_flag false

theorem flagText_writeFlag (value : Bool) : FlagText value (writeFlag value) := by
  cases value with
  | false => exact .no
  | true => exact .yes

/-! ## Lists -/

theorem nextItem_close (hgap : IsGap gap) (first : Bool) (rest : List Char) :
    (nextItem first).run (gap ++ ']' :: rest) = .ok (false, ']' :: rest) := by
  rw [nextItem, run_bind_of_ok (peekToken_run hgap (by decide) rest), if_pos rfl]
  rfl

/-- There is a next item if something else than the bracket follows, after a
comma that is due from the second item on. -/
theorem Lead.nextItem_run (hlead : Lead first lead) (hblank : ¬isGap c) (hclose : c ≠ ']')
    (rest : List Char) : (nextItem first).run (lead ++ c :: rest) = .ok (true, c :: rest) := by
  cases hlead with
  | first hgap =>
      rw [nextItem, run_bind_of_ok (peekToken_run hgap hblank rest), if_neg hclose, if_pos rfl]
      rfl
  | comma hbefore hafter =>
      rename_i before after
      have hcomma := peekToken_run hbefore (show ¬isGap ',' by decide) (after ++ c :: rest)
      have hnext := peekToken_run hafter hblank rest
      rw [List.append_assoc, List.cons_append, nextItem, run_bind_of_ok hcomma,
        if_neg (by decide), if_neg (by decide), if_pos rfl, run_bind_of_ok (skip_run _ _),
        run_bind_of_ok hnext, if_neg hclose]
      rfl

/-- The induction goes along the items.  The fuel bounds their number, and the
length of the text is at least that. -/
theorem ItemsText.run_eq (hitems : ItemsText first texts text)
    (hread : List.Forall₂ (Reads item) texts values) (hfuel : text.length ≤ fuel)
    (rest : List Char) : (items item fuel first).run (text ++ rest) = .ok (values, rest) := by
  induction hitems generalizing values fuel with
  | @close first gap hgap =>
      cases hread
      rw [List.length_append, List.length_singleton] at hfuel
      obtain ⟨spare, rfl⟩ := Nat.exists_eq_add_one_of_ne_zero (show fuel ≠ 0 by omega)
      rw [List.append_assoc, List.singleton_append, items,
        run_bind_of_ok (nextItem_close hgap first rest)]
      rfl
  | @next first lead written text texts hlead _ ih =>
      cases hread with
      | @cons _ value _ values hitem hothers =>
      obtain ⟨c, hc, hblank, hclose⟩ := hitem.starts
      obtain ⟨tail, htail⟩ := List.head?_eq_some_iff.mp hc
      simp only [List.length_append, htail, List.length_cons] at hfuel
      obtain ⟨spare, rfl⟩ := Nat.exists_eq_add_one_of_ne_zero (show fuel ≠ 0 by omega)
      have hnext := hlead.nextItem_run hblank hclose (tail ++ (text ++ rest))
      have hvalue := hitem.run_eq [] (text ++ rest) isGap_nil
      have hmore : (items item spare false).run (text ++ rest) = .ok (values, rest) :=
        ih hothers (by omega)
      rw [htail, List.nil_append, List.cons_append] at hvalue
      rw [htail, List.append_assoc, List.cons_append, List.cons_append, List.append_assoc,
        items, run_bind_of_ok hnext, if_pos rfl, run_bind_of_ok hvalue, run_bind_of_ok hmore]
      rfl

/-- A list is read item by item, and its value is the list of their values. -/
theorem ListText.reads_list (hlist : ListText texts text)
    (hread : List.Forall₂ (Reads item) texts values) : Reads (list item) text values := by
  cases hlist with
  | @mk text hitems =>
  refine ⟨⟨'[', rfl, by decide, by decide⟩, fun gap rest hgap => ?_⟩
  have hpeek := peekToken_run hgap (show ¬isGap '[' by decide) (text ++ rest)
  rw [List.cons_append, list, run_bind_of_ok hpeek, if_pos rfl, run_bind_of_ok (skip_run _ _),
    run_bind_of_ok (get_run _)]
  exact hitems.run_eq hread (by rw [List.length_append]; omega) rest

/-! ## Objects -/

theorem nextName_close (hgap : IsGap gap) (first : Bool) (rest : List Char) :
    (nextName first).run (gap ++ '\x7d' :: rest) = .ok (false, '\x7d' :: rest) := by
  rw [nextName, run_bind_of_ok (peekToken_run hgap (by decide) rest), if_pos rfl]
  rfl

/-- There is a next name if a quote follows, after a comma that is due from the
second name on. -/
theorem Lead.nextName_run (hlead : Lead first lead) (rest : List Char) :
    (nextName first).run (lead ++ '"' :: rest) = .ok (true, '"' :: rest) := by
  cases hlead with
  | first hgap =>
      rw [nextName, run_bind_of_ok (peekToken_run hgap (by decide) rest), if_neg (by decide),
        if_pos rfl, if_pos rfl]
      rfl
  | comma hbefore hafter =>
      rename_i before after
      have hcomma := peekToken_run hbefore (show ¬isGap ',' by decide) (after ++ '"' :: rest)
      have hnext := peekToken_run hafter (show ¬isGap '"' by decide) rest
      rw [List.append_assoc, List.cons_append, nextName, run_bind_of_ok hcomma,
        if_neg (by decide), if_neg (by decide), if_pos rfl, run_bind_of_ok (skip_run _ _),
        run_bind_of_ok hnext, if_pos rfl]
      rfl

theorem colon_run (hgap : IsGap gap) (rest : List Char) :
    colon.run (gap ++ ':' :: rest) = .ok ((), rest) := by
  rw [colon, run_bind_of_ok (peekToken_run hgap (by decide) rest), if_pos rfl]
  rfl

/-- The written field is one of the fields, and it makes the change. -/
def ReadsMember (fields : List (RecordField ρ)) (member : String × List Char)
    (change : ρ → ρ) : Prop :=
  ∃ field, fields.find? (·.name == member.1) = some field ∧ Reads field.read member.2 change

theorem ReadsMember.mem_names {change : ρ → ρ} (hread : ReadsMember fields member change) :
    member.1 ∈ fields.map RecordField.name := by
  obtain ⟨field, hfind, _⟩ := hread
  have hname : field.name = member.1 := by simpa using List.find?_some hfind
  exact hname ▸ List.mem_map_of_mem (List.mem_of_find?_eq_some hfind)

/-- The member makes the change: it is one of the fields, or it is unknown and nothing changes. -/
inductive Makes (fields : List (RecordField ρ)) (member : String × List Char) :
    (ρ → ρ) → Prop where
  | known {change : ρ → ρ} (hread : ReadsMember fields member change) :
      Makes fields member change
  | unknown (hfind : fields.find? (·.name == member.1) = none) (hvalue : IsValue member.2) :
      Makes fields member id

def afterChanges (changes : List (ρ → ρ)) (record : ρ) : ρ :=
  changes.foldl (fun record change => change record) record

/-- No number goes on with what is left of an object, so that the value before
it is read to its end and no further. -/
theorem MembersText.endsNumber (hmembers : MembersText false members text) (rest : List Char) :
    EndsNumber (text ++ rest) := by
  cases hmembers with
  | close hgap => exact endsNumber_close hgap (by decide) rest
  | next hlead =>
      rw [List.append_assoc]
      exact hlead.endsNumber _

theorem EachOnce.of_cons (honce : EachOnce names (member :: members)) :
    EachOnce names members := by
  intro name hname
  exact (List.count_le_count_cons ..).trans (honce name hname)

theorem EachOnce.not_mem (honce : EachOnce names (member :: members)) (hname : member.1 ∈ names) :
    member.1 ∉ members.map Prod.fst := by
  have hcount := honce member.1 hname
  rw [List.map_cons, List.count_cons_self] at hcount
  rw [← List.count_eq_zero]
  omega

section Step

variable {spelled before after written : List Char} {name : String} {change : ρ → ρ}
  (hlead : Lead first lead) (hname : Spelling spelled name.toList) (hbefore : IsGap before)
  (hafter : IsGap after)

include hlead hname hbefore hafter

/-- A field that has not been given makes its change, and its name is noted as
given. -/
theorem members_run_known (hread : ReadsMember fields (name, written) change)
    (hunseen : name ∉ seen) (fuel : Nat) (record : ρ) (rest : List Char) :
    (Json.members fields (fuel + 1) first seen record).run
        (lead ++ '"' :: (spelled ++ '"' :: (before ++ ':' :: (after ++ (written ++ rest))))) =
      (Json.members fields fuel false (name :: seen) (change record)).run rest := by
  obtain ⟨field, hfind, hvalue⟩ := hread
  have hbody := hname.stringBody_run (before ++ ':' :: (after ++ (written ++ rest)))
  rw [Json.members, run_bind_of_ok (hlead.nextName_run _), if_pos rfl,
    run_bind_of_ok (skip_run _ _), run_bind_of_ok hbody, String.ofList_toList]
  dsimp only
  rw [hfind]
  dsimp only
  rw [if_neg hunseen, run_bind_of_ok (colon_run hbefore _),
    run_bind_of_ok (hvalue.run_eq after rest hafter)]

/-- An unknown field is passed over, and the record stays as it is. -/
theorem members_run_unknown (hfind : fields.find? (·.name == name) = none)
    (hvalue : IsValue written) {rest : List Char} (hends : EndsNumber rest) (fuel : Nat)
    (record : ρ) :
    (Json.members fields (fuel + 1) first seen record).run
        (lead ++ '"' :: (spelled ++ '"' :: (before ++ ':' :: (after ++ (written ++ rest))))) =
      (Json.members fields fuel false seen record).run rest := by
  have hbody := hname.stringBody_run (before ++ ':' :: (after ++ (written ++ rest)))
  rw [Json.members, run_bind_of_ok (hlead.nextName_run _), if_pos rfl,
    run_bind_of_ok (skip_run _ _), run_bind_of_ok hbody, String.ofList_toList]
  dsimp only
  rw [hfind]
  dsimp only
  rw [run_bind_of_ok (colon_run hbefore _), run_bind_of_ok (hvalue.ignored_run hafter hends)]

end Step

/-- The fields are read in the order in which they stand, and their changes are
made in that order.  A field that is given twice would be refused, hence
`EachOnce`. -/
theorem MembersText.run_eq (hmembers : MembersText first members text)
    (hmakes : List.Forall₂ (Makes fields) members changes)
    (honce : EachOnce (fields.map RecordField.name) members)
    (hunseen : ∀ name ∈ seen, name ∉ members.map Prod.fst) (hfuel : text.length ≤ fuel)
    (rest : List Char) :
    (Json.members fields fuel first seen record).run (text ++ rest) =
      .ok (afterChanges changes record, rest) := by
  induction hmembers generalizing changes seen record fuel with
  | @close first gap hgap =>
      cases hmakes
      rw [List.length_append, List.length_singleton] at hfuel
      obtain ⟨spare, rfl⟩ := Nat.exists_eq_add_one_of_ne_zero (show fuel ≠ 0 by omega)
      rw [List.append_assoc, List.singleton_append, Json.members,
        run_bind_of_ok (nextName_close hgap first rest)]
      rfl
  | @next first lead spelled before after written text name members hlead hname hbefore hafter
      hrest ih =>
      cases hmakes with
      | @cons _ change _ changes hmake hothers =>
      simp only [List.length_append, List.length_cons] at hfuel
      obtain ⟨spare, rfl⟩ := Nat.exists_eq_add_one_of_ne_zero (show fuel ≠ 0 by omega)
      simp only [List.append_assoc, List.cons_append]
      cases hmake with
      | known hread =>
          have hnew : name ∉ seen := fun hseen => hunseen name hseen (by simp)
          rw [members_run_known hlead hname hbefore hafter hread hnew]
          refine ih hothers honce.of_cons ?_ (by omega)
          -- The name is now among those that were seen, and the object does not give it again.
          intro other hseen
          rcases List.mem_cons.mp hseen with rfl | hseen
          · exact honce.not_mem hread.mem_names
          · exact fun hmem => hunseen other hseen (List.mem_cons_of_mem name hmem)
      | unknown hfind hvalue =>
          rw [members_run_unknown hlead hname hbefore hafter hfind hvalue (hrest.endsNumber rest)]
          change _ = Except.ok (afterChanges changes record, rest)
          refine ih hothers honce.of_cons ?_ (by omega)
          intro other hseen hmem
          exact hunseen other hseen (List.mem_cons_of_mem name hmem)

/-- An object is read field by field, and a field that is not given keeps its
default. -/
theorem ObjectText.reads_record (hobject : ObjectText members text)
    (hmakes : List.Forall₂ (Makes fields) members changes)
    (honce : EachOnce (fields.map RecordField.name) members) (record : ρ) :
    Reads (Json.record fields record) text (afterChanges changes record) := by
  cases hobject with
  | @mk text hmembers =>
  refine ⟨⟨'\x7b', rfl, by decide, by decide⟩, fun gap rest hgap => ?_⟩
  have hpeek := peekToken_run hgap (show ¬isGap '\x7b' by decide) (text ++ rest)
  rw [List.cons_append, Json.record, run_bind_of_ok hpeek]
  refine (run_bind_of_ok (skip_run _ _)).trans ?_
  rw [run_bind_of_ok (get_run _)]
  exact hmembers.run_eq hmakes honce (by simp) (by rw [List.length_append]; omega) rest

/-! ## What is written -/

theorem isGap_newLine (depth : Nat) : IsGap (newLine depth) := by
  intro c hc
  rcases List.mem_cons.mp hc with rfl | hc
  · rfl
  · rw [List.eq_of_mem_replicate hc]
    rfl

theorem lead_newLine (depth : Nat) : Lead false (',' :: newLine depth) :=
  .comma isGap_nil (isGap_newLine depth)

theorem intercalate_cons_eq_flatMap (separator : Char) (first : List Char)
    (others : List (List Char)) :
    [separator].intercalate (first :: others) = first ++ others.flatMap (separator :: ·) := by
  induction others generalizing first with
  | nil => simp
  | cons second others ih => simp [List.intercalate_cons_cons, ih]

/-- What follows an item of a block: the other items and the closing bracket. -/
def blockEnd (closer : Char) (depth : Nat) (items : List (List Char)) : List Char :=
  items.flatMap (fun item => ',' :: newLine (depth + 1) ++ item) ++ (newLine depth ++ [closer])

theorem writeBlock_cons (opener closer : Char) (depth : Nat) (first : List Char)
    (others : List (List Char)) :
    writeBlock opener closer depth (first :: others) =
      opener :: (newLine (depth + 1) ++ (first ++ blockEnd closer depth others)) := by
  rw [writeBlock, if_neg (List.cons_ne_nil _ _), List.map_cons, intercalate_cons_eq_flatMap]
  simp [blockEnd, List.flatMap_map]

theorem itemsText_blockEnd (texts : List (List Char)) (depth : Nat) :
    ItemsText false texts (blockEnd ']' depth texts) := by
  induction texts with
  | nil => exact .close (isGap_newLine depth)
  | cons written texts ih => simpa [blockEnd] using ItemsText.next (lead_newLine (depth + 1)) ih

theorem listText_writeList (write : Nat → α → List Char) (depth : Nat) (values : List α) :
    ListText (values.map (write (depth + 1))) (writeList write depth values) := by
  cases values with
  | nil => exact .mk (.close isGap_nil)
  | cons value values =>
      rw [writeList, List.map_cons, writeBlock_cons]
      exact .mk (.next (.first (isGap_newLine (depth + 1))) (itemsText_blockEnd _ depth))

/-- A list is read as its items are.  The items need not be read as what was
written, only as some image of it. -/
theorem reads_writeList {write : Nat → α → List Char} {image : α → β} {item : Reader β}
    (hitem : ∀ value ∈ values, Reads item (write (depth + 1) value) (image value)) :
    Reads (list item) (writeList write depth values) (values.map image) := by
  apply (listText_writeList write depth values).reads_list
  rw [List.forall₂_map_left_iff, List.forall₂_map_right_iff]
  exact List.forall₂_same.mpr hitem

def writeMember (member : String × List Char) : List Char :=
  writeText member.1 ++ [':', ' '] ++ member.2

theorem MembersText.next_writeMember (member : String × List Char) (hlead : Lead first lead)
    (hrest : MembersText false members text) :
    MembersText first (member :: members) (lead ++ (writeMember member ++ text)) := by
  obtain ⟨name, written⟩ := member
  have hname := spelling_flatMap_writeChar name.toList
  have hspace : IsGap [' '] := by simp [IsGap, isGap]
  have hnext : MembersText first ((name, written) :: members) _ :=
    .next hlead hname isGap_nil hspace hrest
  simpa [writeMember, writeText] using hnext

theorem membersText_blockEnd (members : List (String × List Char)) (depth : Nat) :
    MembersText false members (blockEnd '\x7d' depth (members.map writeMember)) := by
  induction members with
  | nil => exact .close (isGap_newLine depth)
  | cons member members ih =>
      simpa [blockEnd] using ih.next_writeMember member (lead_newLine (depth + 1))

/-- What is written for a record is one of its layouts, so what holds of every
layout holds of the writer. -/
theorem objectText_writeObject (depth : Nat) (members : List (String × List Char)) :
    ObjectText members (writeObject depth members) := by
  cases members with
  | nil => exact .mk (.close isGap_nil)
  | cons member members =>
      rw [writeObject, List.map_cons, writeBlock_cons]
      have hrest := membersText_blockEnd members depth
      exact .mk (hrest.next_writeMember member (.first (isGap_newLine (depth + 1))))

end CreateIndex.Json
