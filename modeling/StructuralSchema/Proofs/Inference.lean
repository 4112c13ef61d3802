import StructuralSchema.Proofs.Acceptance
import StructuralSchema.Proofs.Predicates

namespace StructuralSchema

theorem Json.isScalar_iff {value : Json} :
    value.isScalar = true ↔ ∃ kind : Scalar, value.kind = kind.kind := by
  constructor
  · intro h
    match value with
    | null => exact ⟨.null, rfl⟩
    | bool _ => exact ⟨.bool, rfl⟩
    | number (.int ..) => exact ⟨.int, rfl⟩
    | number (.float _) => exact ⟨.float, rfl⟩
    | string _ => exact ⟨.string, rfl⟩
  · rintro ⟨kind, h⟩
    cases value with
    | array items => cases kind <;> cases h
    | object members => cases kind <;> cases h
    | _ => rfl

namespace Schema

open Fields

variable {χ : Type}

def kind? : Schema χ → Option Kind
  | scalar kind => some kind.kind
  | object _ => some .object
  | listOf _ => some .list
  | union _ | predicate _ => none

theorem eq_scalar_of_kind? {schema : Schema χ} {kind : Scalar}
    (h : schema.kind? = some kind.kind) : schema = scalar kind := by
  cases schema with
  | scalar other => cases other <;> cases kind <;> first | rfl | cases h
  | object fields => cases kind <;> cases h
  | listOf element => cases kind <;> cases h
  | union members => cases h
  | predicate p => cases h

variable [DecidableEq χ]

theorem Alike.kind?_eq {schema other : Schema χ} (h : Alike schema other) :
    schema.kind? = other.kind? := by
  cases h <;> rfl

theorem kind?_ofValue (value : Json) : (ofValue value : Schema χ).kind? = some value.kind := by
  cases value with
  | number n => cases n <;> rfl
  | _ => rfl

theorem ofItems_eq_map (items : List Json) :
    (ofItems items : List (Schema χ)) = items.map ofValue :=
  eq_map_of_cons ofItems rfl (fun _ _ => rfl) items

theorem ofMembers_eq_map (members : Fields Json) :
    (ofMembers members : Fields (Schema χ)) =
      members.map fun entry => (entry.1, ofValue entry.2) :=
  eq_map_of_cons ofMembers rfl (fun _ _ => rfl) members

theorem ofValue_eq_scalar {kind : Scalar} {value : Json} (h : value.kind = kind.kind) :
    (ofValue value : Schema χ) = scalar kind :=
  eq_scalar_of_kind? (by rw [kind?_ofValue, h])

theorem isUnion_ofValue (value : Json) : isUnion (ofValue value : Schema χ) = false := by
  cases value with
  | number n => cases n <;> rfl
  | _ => rfl

theorem keys_ofMembers (members : Fields Json) :
    keys (ofMembers members : Fields (Schema χ)) = members.keys := by
  rw [ofMembers_eq_map, keys_map]

theorem get?_ofMembers (members : Fields Json) (key : String) :
    get? (ofMembers members : Fields (Schema χ)) key = (members.get? key).map ofValue := by
  rw [ofMembers_eq_map, get?_map]

theorem isUnion_of_mem_ofItems {items : List Json} {shape : Schema χ} (h : shape ∈ ofItems items) :
    isUnion shape = false := by
  rw [ofItems_eq_map] at h
  obtain ⟨item, _, rfl⟩ := List.mem_map.mp h
  exact isUnion_ofValue item

theorem wellFormed_ofValue {value : Json} (h : value.WellFormed) :
    (ofValue value : Schema χ).WellFormed := by
  induction value with
  | array items ih =>
    rw [ofValue, wellFormed_listOf, ofItems_eq_map]
    apply wellFormed_unionOf
    intro shape hs
    obtain ⟨item, hi, rfl⟩ := List.mem_map.mp hs
    exact ih item hi (Json.wellFormed_array.mp h item hi)
  | object members ih =>
    obtain ⟨hd, hm⟩ := Json.wellFormed_object.mp h
    rw [ofValue, wellFormed_object]
    constructor
    · rwa [Distinct, keys_ofMembers]
    · rw [ofMembers_eq_map]
      intro entry he
      obtain ⟨member, hmem, rfl⟩ := List.mem_map.mp he
      exact ih member hmem (hm member hmem)
  | number n => cases n <;> trivial
  | _ => trivial

theorem wellFormed_of_mem_ofItems {items : List Json} (h : ∀ item ∈ items, item.WellFormed)
    {shape : Schema χ} (hs : shape ∈ ofItems items) : shape.WellFormed := by
  rw [ofItems_eq_map] at hs
  obtain ⟨item, hi, rfl⟩ := List.mem_map.mp hs
  exact wellFormed_ofValue (h item hi)

theorem not_mem_predicates_ofValue (p : Predicate χ) (value : Json) :
    p ∉ (ofValue value : Schema χ).predicates := by
  induction value with
  | array items ih =>
    intro h
    obtain ⟨shape, hs, hp⟩ := exists_mem_predicates_of_unionOf h
    rw [ofItems_eq_map] at hs
    obtain ⟨item, hi, rfl⟩ := List.mem_map.mp hs
    exact ih item hi hp
  | object members ih =>
    intro h
    obtain ⟨entry, he, hp⟩ := mem_predicatesOfFields.mp h
    rw [ofMembers_eq_map] at he
    obtain ⟨member, hm, rfl⟩ := List.mem_map.mp he
    exact ih member hm hp
  | number n => cases n <;> simp [ofValue, predicates]
  | _ => simp [ofValue, predicates]

theorem hasPredicates_ofValue (value : Json) : (ofValue value : Schema χ).hasPredicates = false :=
  (hasPredicates_eq_false_iff _).mpr
    (List.eq_nil_iff_forall_not_mem.mpr fun p => not_mem_predicates_ofValue p value)

variable [Check χ]

theorem accepts_ofValue {value : Json} (h : value.WellFormed) :
    Accepts (ofValue value : Schema χ) value := by
  induction value with
  | array items ih =>
    have hw := Json.wellFormed_array.mp h
    rw [ofValue, accepts_listOf]
    refine ⟨items, rfl, fun item hi => ?_⟩
    have hs : ofValue item ∈ (ofItems items : List (Schema χ)) := by
      rw [ofItems_eq_map]
      exact List.mem_map_of_mem hi
    exact accepts_unionOf_of_mem (fun _ => wellFormed_of_mem_ofItems hw) hs (ih item hi (hw item hi))
  | object members ih =>
    obtain ⟨hd, hm⟩ := Json.wellFormed_object.mp h
    rw [ofValue, accepts_object]
    refine ⟨members, rfl, fun key => by rw [keys_ofMembers], ?_⟩
    rw [ofMembers_eq_map]
    intro entry he
    obtain ⟨member, hmem, rfl⟩ := List.mem_map.mp he
    exact ⟨member.2, get?_of_mem hd hmem, ih member hmem (hm member hmem)⟩
  | number n =>
    cases n with
    | int value fits => exact accepts_scalar.mpr rfl
    | float value => exact accepts_scalar.mpr rfl
  | null => exact accepts_scalar.mpr rfl
  | bool b => exact accepts_scalar.mpr rfl
  | string text => exact accepts_scalar.mpr rfl

/-- An element of the value may have been accepted for the sake of another element of the example,
and the schema may have other members for the two of them. -/
theorem accepts_of_accepts_ofValue {schema : Schema χ} {model value : Json}
    (hp : schema.hasPredicates = false) (hm : Accepts schema model)
    (hv : Accepts (ofValue model : Schema χ) value) : Accepts schema value := by
  induction schema generalizing model value with
  | scalar kind =>
    rwa [ofValue_eq_scalar (Scalar.accepts_iff.mp (accepts_scalar.mp hm))] at hv
  | object fields ih =>
    obtain ⟨members, rfl, hk, hf⟩ := accepts_object.mp hm
    rw [ofValue, accepts_object] at hv
    obtain ⟨others, rfl, hk', hf'⟩ := hv
    refine accepts_object.mpr ⟨others, rfl, fun key => ?_, fun entry he => ?_⟩
    · rw [hk key, ← hk' key, keys_ofMembers]
    · obtain ⟨member, hg, ha⟩ := hf entry he
      have hs : (entry.1, ofValue member) ∈ (ofMembers members : Fields (Schema χ)) := by
        apply mem_of_get?
        rw [get?_ofMembers, hg, Option.map_some]
      obtain ⟨other, ho, hb⟩ := hf' _ hs
      have hpe := hasPredicates_child hp (List.mem_map_of_mem he)
      exact ⟨other, ho, ih entry he hpe ha hb⟩
  | listOf element ih =>
    obtain ⟨items, rfl, hi⟩ := accepts_listOf.mp hm
    rw [ofValue, accepts_listOf, ofItems_eq_map] at hv
    obtain ⟨others, rfl, ho⟩ := hv
    refine accepts_listOf.mpr ⟨others, rfl, fun other hother => ?_⟩
    obtain ⟨shape, hs, ha⟩ := exists_accepts_of_accepts_unionOf (ho other hother)
    obtain ⟨item, hitem, rfl⟩ := List.mem_map.mp hs
    exact ih (hasPredicates_child hp List.mem_cons_self) (hi item hitem) ha
  | union members ih =>
    obtain ⟨member, hmem, ha⟩ := accepts_union.mp hm
    exact accepts_union.mpr ⟨member, hmem, ih member hmem (hasPredicates_child hp hmem) ha hv⟩
  | predicate p => simp [hasPredicates] at hp

end Schema

end StructuralSchema
