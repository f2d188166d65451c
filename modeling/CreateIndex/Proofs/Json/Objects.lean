import CreateIndex.Proofs.Json.Layouts
import Mathlib.Data.List.Nodup

/-!
# Objects that give a record

Which objects give a record, without a look at any reader: they give its fields in any order and
each at most once, with unknown members between them, and a field with its default may be left
out.  Reading one gives the record if each field is read from the texts that give it.
-/

namespace CreateIndex.Json

variable {α ρ : Type}

/-- How a field of a record is given: its name, the texts that give it for a record, and whether
the record has the default. -/
structure FieldText (ρ : Type) where
  name : String
  Gives : ρ → List Char → Prop
  IsDefault : ρ → Prop

def FieldText.of (name : String) (isText : α → List Char → Prop) (get : ρ → α) (default : α) :
    FieldText ρ :=
  ⟨name, fun record => isText (get record), fun record => get record = default⟩

/-- The member gives a field of the record, or it is unknown and may have any value. -/
inductive MemberText (fields : List (FieldText ρ)) (record : ρ) : String × List Char → Prop where
  | field {field : FieldText ρ} {written : List Char} (hfield : field ∈ fields)
      (hgives : field.Gives record written) : MemberText fields record (field.name, written)
  | unknown {name : String} {written : List Char} (hunknown : name ∉ fields.map FieldText.name)
      (hvalue : IsValue written) : MemberText fields record (name, written)

inductive RecordText (fields : List (FieldText ρ)) (record : ρ) (text : List Char) : Prop where
  | mk {members : List (String × List Char)} (hobject : ObjectText members text)
      (hmembers : ∀ member ∈ members, MemberText fields record member)
      (honce : EachOnce (fields.map FieldText.name) members)
      (hdefault : ∀ field ∈ fields, field.name ∉ members.map Prod.fst → field.IsDefault record) :
      RecordText fields record text

inductive ListOf (isText : α → List Char → Prop) (values : List α) (text : List Char) : Prop where
  | mk {items : List (List Char)} (hlist : ListText items text)
      (hitems : List.Forall₂ isText values items) : ListOf isText values text

variable {fields : List (FieldText ρ)} {readers : List (RecordField ρ)} {record final : ρ}
  {only : List String → ρ} {members : List (String × List Char)} {text : List Char}

theorem eachOnce_of_nodup {names : List String} (hnodup : (members.map Prod.fst).Nodup) :
    EachOnce names members := fun name _ =>
  List.nodup_iff_count_le_one.mp hnodup name

theorem exists_field_of_forall₂ (hgives : List.Forall₂ (fun field member =>
      field.name = member.1 ∧ field.Gives record member.2) fields members) :
    ∀ member ∈ members, ∃ field ∈ fields,
      field.name = member.1 ∧ field.Gives record member.2 := by
  induction hgives with
  | nil => simp
  | @cons field member fields members hfirst _ ih =>
      intro other hother
      rcases List.mem_cons.mp hother with rfl | hother
      · exact ⟨field, by simp, hfirst⟩
      · obtain ⟨field, hfield, hgives⟩ := ih other hother
        exact ⟨field, List.mem_cons_of_mem _ hfield, hgives⟩

/-- An object may give every field, in order, as the writer does. -/
theorem RecordText.of_forall₂ (hobject : ObjectText members text)
    (hgives : List.Forall₂ (fun field member =>
      field.name = member.1 ∧ field.Gives record member.2) fields members)
    (hnodup : (fields.map FieldText.name).Nodup) : RecordText fields record text := by
  have hnames : fields.map FieldText.name = members.map Prod.fst := by
    rw [← List.forall₂_eq_eq_eq, List.forall₂_map_left_iff, List.forall₂_map_right_iff]
    exact hgives.imp fun _ _ hboth => hboth.1
  refine .mk hobject ?_ ?_ ?_
  · rintro ⟨name, written⟩ hmember
    obtain ⟨field, hfield, rfl, hgives⟩ := exists_field_of_forall₂ hgives _ hmember
    exact .field hfield hgives
  · exact eachOnce_of_nodup (hnames ▸ hnodup)
  · intro field hfield hmissing
    rw [← hnames] at hmissing
    exact absurd (List.mem_map_of_mem hfield) hmissing

/-! ## Reading -/

def ifGiven (given : List String) (name : String) (value default : α) : α :=
  if name ∈ given then value else default

section IfGiven

variable {given : List String} {name other : String} {value default : α}

@[simp] theorem ifGiven_nil : ifGiven [] name value default = default :=
  if_neg (by simp)

@[simp] theorem ifGiven_concat_self : ifGiven (given ++ [name]) name value default = value :=
  if_pos (by simp)

theorem ifGiven_concat_of_ne (hne : other ≠ name) :
    ifGiven (given ++ [other]) name value default = ifGiven given name value default := by
  simp [ifGiven, hne.symm]

theorem ifGiven_of_default (hdefault : name ∉ given → value = default) :
    ifGiven given name value default = value := by
  by_cases hname : name ∈ given
  · exact if_pos hname
  · exact (if_neg hname).trans (hdefault hname).symm

end IfGiven

/-- What is read after each member: `only` gives the record that has the fields with the given
names and the defaults of the others. -/
structure ReadAs (fields : List (FieldText ρ)) (readers : List (RecordField ρ)) (record : ρ)
    (only : List String → ρ) : Prop where
  names_eq : readers.map RecordField.name = fields.map FieldText.name
  field : ∀ field ∈ fields, ∀ written, field.Gives record written →
    ∃ change, ReadsMember readers (field.name, written) change ∧
      ∀ given, change (only given) = only (given ++ [field.name])
  unknown : ∀ name, (∀ field ∈ fields, name ≠ field.name) →
    ∀ given, only given = only (given ++ [name])

theorem exists_change_of_reads {name : String} {written : List Char} {read : Reader α} {value : α}
    {put : α → ρ → ρ} (hfind : readers.find? (·.name == name) = some (.of name read put))
    (hread : Reads read written value)
    (hput : ∀ given, put value (only given) = only (given ++ [name])) :
    ∃ change, ReadsMember readers (name, written) change ∧
      ∀ given, change (only given) = only (given ++ [name]) :=
  ⟨put value, ⟨_, hfind, hread.map put⟩, hput⟩

/-- A member that gives a field makes the change of that field; an unknown one
changes nothing.  Both lead to the record with one more name given. -/
theorem ReadAs.exists_change (hreadAs : ReadAs fields readers record only)
    {member : String × List Char} (hmember : MemberText fields record member) :
    ∃ change, Makes readers member change ∧
      ∀ given, change (only given) = only (given ++ [member.1]) := by
  cases hmember with
  | @field field written hfield hgives =>
      obtain ⟨change, hread, hchange⟩ := hreadAs.field field hfield written hgives
      exact ⟨change, .known hread, hchange⟩
  | @unknown name written hunknown hvalue =>
      have hfind : readers.find? (·.name == name) = none := by
        have hreaders := hreadAs.names_eq ▸ hunknown
        simpa using hreaders
      have hne : ∀ field ∈ fields, name ≠ field.name := by
        intro field hfield hsame
        exact hunknown (hsame ▸ List.mem_map_of_mem hfield)
      exact ⟨id, .unknown hfind hvalue, hreadAs.unknown name hne⟩

/-- The step for one member carries over to all members of an object, whatever
their order. -/
theorem ReadAs.exists_changes (hreadAs : ReadAs fields readers record only)
    (hmembers : ∀ member ∈ members, MemberText fields record member) (given : List String) :
    ∃ changes, List.Forall₂ (Makes readers) members changes ∧
      afterChanges changes (only given) = only (given ++ members.map Prod.fst) := by
  induction members generalizing given with
  | nil => exact ⟨[], .nil, by simp [afterChanges]⟩
  | cons member members ih =>
      obtain ⟨change, hmake, hchange⟩ := hreadAs.exists_change (hmembers member (by simp))
      have hothers : ∀ other ∈ members, MemberText fields record other := fun other hother =>
        hmembers other (List.mem_cons_of_mem member hother)
      obtain ⟨changes, hmakes, hchanges⟩ := ih hothers (given ++ [member.1])
      refine ⟨change :: changes, .cons hmake hmakes, ?_⟩
      calc
        afterChanges (change :: changes) (only given)
            = afterChanges changes (change (only given)) := rfl
        _ = only (given ++ [member.1] ++ members.map Prod.fst) := by rw [hchange, hchanges]
        _ = only (given ++ (member :: members).map Prod.fst) := by simp

/-- An object that gives a record is read as the record, if nothing is missing
when what is left out has its default. -/
theorem RecordText.reads_record (htext : RecordText fields record text)
    (hreadAs : ReadAs fields readers record only)
    (hcomplete : ∀ given, (∀ field ∈ fields, field.name ∉ given → field.IsDefault record) →
      only given = final) : Reads (Json.record readers (only [])) text final := by
  obtain ⟨hobject, hmembers, honce, hdefault⟩ := htext
  obtain ⟨changes, hmakes, hchanges⟩ := hreadAs.exists_changes hmembers []
  rw [← hreadAs.names_eq] at honce
  have hread := hobject.reads_record hmakes honce (only [])
  rwa [hchanges, List.nil_append, hcomplete _ hdefault] at hread

end CreateIndex.Json
