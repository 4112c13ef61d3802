import StructuralSchema.Json.Comparison
import StructuralSchema.Proofs.Fields
import StructuralSchema.Schema

namespace StructuralSchema

namespace Json

@[induction_eliminator]
theorem inductionOn {motive : Json → Prop} (null : motive null) (bool : ∀ b, motive (bool b))
    (number : ∀ n, motive (number n)) (string : ∀ text, motive (string text))
    (array : ∀ items, (∀ item ∈ items, motive item) → motive (array items))
    (object : ∀ members, (∀ entry ∈ members, motive entry.2) → motive (object members))
    (value : Json) : motive value :=
  @Json.rec motive (fun items => ∀ item ∈ items, motive item)
    (fun members => ∀ entry ∈ members, motive entry.2) (fun entry => motive entry.2)
    null bool number string array object
    (by simp) (fun _ _ hv hs => List.forall_mem_cons.mpr ⟨hv, hs⟩)
    (by simp) (fun _ _ hv hs => List.forall_mem_cons.mpr ⟨hv, hs⟩)
    (fun _ _ hv => hv) value

theorem allWellFormed_iff (items : List Json) :
    AllWellFormed items ↔ ∀ item ∈ items, item.WellFormed :=
  iff_forall_mem_of_cons AllWellFormed trivial (fun _ _ => .rfl) items

theorem membersWellFormed_iff (members : List (String × Json)) :
    MembersWellFormed members ↔ ∀ entry ∈ members, entry.2.WellFormed :=
  iff_forall_mem_of_cons MembersWellFormed trivial (fun _ _ => .rfl) members

theorem wellFormed_array {items : List Json} :
    (array items).WellFormed ↔ ∀ item ∈ items, item.WellFormed :=
  allWellFormed_iff items

theorem wellFormed_object {members : Fields Json} :
    (object members).WellFormed ↔
      members.Distinct ∧ ∀ entry ∈ members, entry.2.WellFormed := by
  rw [WellFormed, membersWellFormed_iff]

theorem allWhole_iff (items : List Json) : AllWhole items ↔ ∀ item ∈ items, item.Whole :=
  iff_forall_mem_of_cons AllWhole trivial (fun _ _ => .rfl) items

theorem membersWhole_iff (members : List (String × Json)) :
    MembersWhole members ↔ ∀ entry ∈ members, entry.2.Whole :=
  iff_forall_mem_of_cons MembersWhole trivial (fun _ _ => .rfl) members

theorem whole_array {items : List Json} : (array items).Whole ↔ ∀ item ∈ items, item.Whole :=
  allWhole_iff items

theorem whole_object {members : Fields Json} :
    (object members).Whole ↔ ∀ entry ∈ members, entry.2.Whole :=
  membersWhole_iff members

mutual

def decideWellFormed : (value : Json) → Decidable value.WellFormed
  | null | bool _ | number _ | string _ => .isTrue trivial
  | array items => decideAllWellFormed items
  | object members =>
    have := decideMembersWellFormed members
    inferInstanceAs (Decidable (Fields.Distinct members ∧ MembersWellFormed members))

def decideAllWellFormed : (items : List Json) → Decidable (AllWellFormed items)
  | [] => .isTrue trivial
  | item :: items =>
    have := decideWellFormed item
    have := decideAllWellFormed items
    inferInstanceAs (Decidable (WellFormed item ∧ AllWellFormed items))

def decideMembersWellFormed :
    (members : List (String × Json)) → Decidable (MembersWellFormed members)
  | [] => .isTrue trivial
  | (_, value) :: members =>
    have := decideWellFormed value
    have := decideMembersWellFormed members
    inferInstanceAs (Decidable (WellFormed value ∧ MembersWellFormed members))

end

instance (value : Json) : Decidable value.WellFormed :=
  decideWellFormed value

end Json

namespace Schema

variable {χ : Type}

@[induction_eliminator]
theorem inductionOn {motive : Schema χ → Prop} (scalar : ∀ kind, motive (scalar kind))
    (object : ∀ fields, (∀ entry ∈ fields, motive entry.2) → motive (object fields))
    (listOf : ∀ element, motive element → motive (listOf element))
    (union : ∀ members, (∀ member ∈ members, motive member) → motive (union members))
    (predicate : ∀ p, motive (predicate p)) (schema : Schema χ) : motive schema :=
  @Schema.rec χ motive (fun fields => ∀ entry ∈ fields, motive entry.2)
    (fun members => ∀ member ∈ members, motive member) (fun entry => motive entry.2)
    scalar object listOf union predicate
    (by simp) (fun _ _ hs hr => List.forall_mem_cons.mpr ⟨hs, hr⟩)
    (by simp) (fun _ _ hs hr => List.forall_mem_cons.mpr ⟨hs, hr⟩)
    (fun _ _ hs => hs) schema

def children : Schema χ → List (Schema χ)
  | object fields => fields.map Prod.snd
  | listOf element => [element]
  | union members => members
  | _ => []

@[elab_as_elim]
theorem childCases {motive : (schema child : Schema χ) → child ∈ schema.children → Prop}
    (object : ∀ (fields : Fields (Schema χ)) (entry) (h : entry ∈ fields),
      motive (object fields) entry.2 (List.mem_map_of_mem h))
    (listOf : ∀ element, motive (listOf element) element List.mem_cons_self)
    (union : ∀ members member (h : member ∈ members), motive (union members) member h)
    {schema child : Schema χ} (h : child ∈ schema.children) : motive schema child h := by
  cases schema with
  | scalar kind => cases h
  | object fields =>
    obtain ⟨entry, he, rfl⟩ := List.mem_map.mp h
    exact object fields entry he
  | listOf element =>
    obtain rfl := List.mem_singleton.mp h
    exact listOf child
  | union members => exact union members child h
  | predicate p => cases h

theorem sizeOf_lt_of_mem_children {schema child : Schema χ} (h : child ∈ schema.children) :
    sizeOf child < sizeOf schema := by
  induction h using childCases with
  | object fields entry he =>
    obtain ⟨key, value⟩ := entry
    have hl := List.sizeOf_lt_of_mem he
    simp only [Prod.mk.sizeOf_spec] at hl
    simp only [object.sizeOf_spec]
    omega
  | listOf element => simp
  | union members member hm =>
    have hl := List.sizeOf_lt_of_mem hm
    simp only [union.sizeOf_spec]
    omega

theorem allWellFormed_iff (schemas : List (Schema χ)) :
    AllWellFormed schemas ↔ ∀ schema ∈ schemas, schema.WellFormed :=
  iff_forall_mem_of_cons AllWellFormed trivial (fun _ _ => .rfl) schemas

theorem fieldsWellFormed_iff (fields : List (String × Schema χ)) :
    FieldsWellFormed fields ↔ ∀ entry ∈ fields, entry.2.WellFormed :=
  iff_forall_mem_of_cons FieldsWellFormed trivial (fun _ _ => .rfl) fields

theorem wellFormed_object {fields : Fields (Schema χ)} :
    (object fields).WellFormed ↔ fields.Distinct ∧ ∀ entry ∈ fields, entry.2.WellFormed := by
  rw [WellFormed, fieldsWellFormed_iff]

theorem wellFormed_listOf {element : Schema χ} :
    (listOf element).WellFormed ↔ element.WellFormed :=
  Iff.rfl

theorem wellFormed_union {members : List (Schema χ)} :
    (union members).WellFormed ↔ ∀ member ∈ members, member.WellFormed :=
  allWellFormed_iff members

mutual

def decideWellFormed : (schema : Schema χ) → Decidable schema.WellFormed
  | scalar _ | predicate _ => .isTrue trivial
  | object fields =>
    have := decideFieldsWellFormed fields
    inferInstanceAs (Decidable (Fields.Distinct fields ∧ FieldsWellFormed fields))
  | listOf element => decideWellFormed element
  | union members => decideAllWellFormed members

def decideAllWellFormed : (schemas : List (Schema χ)) → Decidable (AllWellFormed schemas)
  | [] => .isTrue trivial
  | schema :: schemas =>
    have := decideWellFormed schema
    have := decideAllWellFormed schemas
    inferInstanceAs (Decidable (WellFormed schema ∧ AllWellFormed schemas))

def decideFieldsWellFormed :
    (fields : List (String × Schema χ)) → Decidable (FieldsWellFormed fields)
  | [] => .isTrue trivial
  | (_, schema) :: fields =>
    have := decideWellFormed schema
    have := decideFieldsWellFormed fields
    inferInstanceAs (Decidable (WellFormed schema ∧ FieldsWellFormed fields))

end

instance (schema : Schema χ) : Decidable schema.WellFormed :=
  decideWellFormed schema

theorem WellFormed.child {schema child : Schema χ} (h : schema.WellFormed)
    (hc : child ∈ schema.children) : child.WellFormed := by
  induction hc using childCases with
  | object fields entry he => exact (wellFormed_object.mp h).2 entry he
  | listOf element => exact h
  | union members member hm => exact wellFormed_union.mp h member hm

end Schema

end StructuralSchema
