import StructuralSchema.Proofs.Canonical

namespace StructuralSchema.Schema

open Fields

variable {χ : Type} [DecidableEq χ]

mutual

def normal : Schema χ → Schema χ
  | scalar kind => scalar kind
  | object fields => object (normalFields fields)
  | listOf element => listOf (normal element)
  | union members => unionOf (normals members)
  | predicate p => predicate p

def normals : List (Schema χ) → List (Schema χ)
  | [] => []
  | schema :: schemas => normal schema :: normals schemas

def normalFields : List (String × Schema χ) → List (String × Schema χ)
  | [] => []
  | (key, schema) :: fields => (key, normal schema) :: normalFields fields

end

theorem normals_eq_map (schemas : List (Schema χ)) : normals schemas = schemas.map normal :=
  eq_map_of_cons normals rfl (fun _ _ => rfl) schemas

theorem normalFields_eq_map (fields : Fields (Schema χ)) :
    normalFields fields = fields.map fun entry => (entry.1, normal entry.2) :=
  eq_map_of_cons normalFields rfl (fun _ _ => rfl) fields

@[simp]
theorem keys_normalFields (fields : Fields (Schema χ)) :
    keys (normalFields fields) = fields.keys := by
  rw [normalFields_eq_map, keys_map]

theorem distinct_normalFields {fields : Fields (Schema χ)} (h : fields.Distinct) :
    Distinct (normalFields fields) := by
  rwa [Distinct, keys_normalFields]

theorem wellFormed_normal {schema : Schema χ} (h : schema.WellFormed) :
    schema.normal.WellFormed := by
  induction schema with
  | scalar kind => trivial
  | object fields ih =>
    obtain ⟨hd, hf⟩ := wellFormed_object.mp h
    refine wellFormed_object.mpr ⟨distinct_normalFields hd, ?_⟩
    rw [normalFields_eq_map, List.forall_mem_map]
    exact fun entry he => ih entry he (hf entry he)
  | listOf element ih => exact ih h
  | union members ih =>
    apply wellFormed_unionOf
    rw [normals_eq_map, List.forall_mem_map]
    exact fun member hm => ih member hm (wellFormed_union.mp h member hm)
  | predicate p => trivial

theorem normal_of_canonical {schema : Schema χ} (h : schema.Canonical) :
    schema.normal = schema := by
  induction schema with
  | scalar kind => rfl
  | object fields ih =>
    have hf : ∀ entry ∈ fields, (entry.1, entry.2.normal) = entry := fun entry he => by
      rw [ih entry he (canonical_object.mp h entry he)]
    rw [normal, normalFields_eq_map, List.map_congr_left hf, List.map_id']
  | listOf element ih => rw [normal, ih (canonical_listOf.mp h)]
  | union members ih =>
    have hm : ∀ member ∈ members, member.normal = member := fun member hmem =>
      ih member hmem ((canonical_union.mp h).2.2 member hmem).2
    rw [normal, normals_eq_map, List.map_congr_left hm, List.map_id', unionOf_of_canonical h]
  | predicate p => rfl

theorem accepts_normal [Check χ] {schema : Schema χ} {value : Json} (h : schema.WellFormed) :
    Accepts schema.normal value ↔ Accepts schema value := by
  induction schema generalizing value with
  | scalar kind => rfl
  | object fields ih =>
    have hf := (wellFormed_object.mp h).2
    rw [normal, accepts_object, accepts_object]
    apply exists_congr
    intro members
    apply and_congr_right
    intro _
    rw [normalFields_eq_map, within_map_left]
    apply and_congr
    · simp only [SameKeys, keys_map]
    · exact forall₂_congr fun entry he => exists_congr fun other =>
        and_congr_right fun _ => ih entry he (hf entry he)
  | listOf element ih =>
    rw [normal, accepts_listOf, accepts_listOf]
    apply exists_congr
    intro items
    apply and_congr_right
    intro _
    exact forall₂_congr fun item _ => ih h
  | union members ih =>
    have hm := wellFormed_union.mp h
    have hw : ∀ schema ∈ members.map normal, schema.WellFormed :=
      List.forall_mem_map.mpr fun member hmem => wellFormed_normal (hm member hmem)
    rw [normal, normals_eq_map, accepts_unionOf hw, accepts_union]
    simp only [List.mem_map, exists_exists_and_eq_and]
    exact exists_congr fun member => and_congr_right fun hmem => ih member hmem (hm member hmem)
  | predicate p => rfl

end StructuralSchema.Schema
