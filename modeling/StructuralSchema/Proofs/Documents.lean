import StructuralSchema.Json.Comparison
import StructuralSchema.Proofs.Denotation
import StructuralSchema.Proofs.Normal
import StructuralSchema.Schema.Grammar

namespace StructuralSchema.Schema

open Fields

@[simp]
theorem unescapeKey_escapeKey (key : String) : unescapeKey (escapeKey key) = key := by
  unfold escapeKey
  split
  · rename_i rest hk
    have hl : ("$" ++ key).toList = '$' :: '$' :: rest := by simp [hk]
    have hu : unescapeKey ("$" ++ key) = String.ofList ('$' :: rest) := by
      simp only [unescapeKey, hl]
    rw [hu, ← hk, String.ofList_toList]
  · rename_i hk
    unfold unescapeKey
    split
    · rename_i rest hl
      exact absurd hl (hk ('$' :: rest))
    · rfl

theorem escapeKey_inj {key other : String} (h : escapeKey key = escapeKey other) : key = other := by
  rw [← unescapeKey_escapeKey key, h, unescapeKey_escapeKey]

theorem escapeKey_ne_unionKey (key : String) : escapeKey key ≠ unionKey := by
  intro h
  have hu : key = unescapeKey unionKey := by rw [← h, unescapeKey_escapeKey]
  subst hu
  revert h
  decide

variable {χ : Type}

theorem toDocuments_eq_map (schemas : List (Schema χ)) :
    toDocuments schemas = schemas.map toDocument :=
  eq_map_of_cons toDocuments rfl (fun _ _ => rfl) schemas

theorem toMembers_eq_map (fields : Fields (Schema χ)) :
    toMembers fields = fields.map fun entry => (escapeKey entry.1, toDocument entry.2) :=
  eq_map_of_cons toMembers rfl (fun _ _ => rfl) fields

@[simp]
theorem keys_toMembers (fields : Fields (Schema χ)) :
    keys (toMembers fields) = fields.keys.map escapeKey := by
  simp [toMembers_eq_map, keys]

theorem distinct_toMembers {fields : Fields (Schema χ)} (h : fields.Distinct) :
    Distinct (toMembers fields) := by
  unfold Distinct
  rw [keys_toMembers]
  exact List.Pairwise.map _ (fun _ _ hn he => hn (escapeKey_inj he)) h

@[simp]
theorem isUnionMarker_toMembers (fields : Fields (Schema χ)) :
    isUnionMarker (toMembers fields) = false := by
  match fields with
  | [] => rfl
  | [(key, schema)] => simp [toMembers, isUnionMarker, escapeKey_ne_unionKey]
  | _ :: _ :: _ => rfl

theorem toDocument_object {fields : Fields (Schema χ)} (h : fields.Distinct) :
    toDocument (object fields) = .object (toMembers fields) := by
  rw [toDocument, ofList_of_distinct (distinct_toMembers h)]

theorem hasFieldsAtRoot_toDocument {schema : Schema χ} (hr : schema.isObject = true)
    (hw : schema.WellFormed) : HasFieldsAtRoot schema.toDocument := by
  cases schema with
  | object fields =>
    rw [toDocument_object (wellFormed_object.mp hw).1]
    exact isUnionMarker_toMembers fields
  | _ => cases hr

theorem wellFormed_toDocument (schema : Schema χ) : schema.toDocument.WellFormed := by
  induction schema with
  | scalar kind => trivial
  | object fields ih =>
    rw [toDocument, Json.wellFormed_object]
    refine ⟨distinct_ofList _, fun entry he => ?_⟩
    have hm := mem_ofList he
    rw [toMembers_eq_map] at hm
    obtain ⟨field, hf, rfl⟩ := List.mem_map.mp hm
    exact ih field hf
  | listOf element ih =>
    rw [toDocument, Json.wellFormed_array]
    simpa using ih
  | union members ih =>
    rw [toDocument, toDocuments_eq_map, Json.wellFormed_object]
    refine ⟨by simp [Distinct, keys], ?_⟩
    simpa [Json.wellFormed_array] using ih
  | predicate p => trivial

theorem whole_toDocument (schema : Schema χ) : schema.toDocument.Whole := by
  induction schema with
  | scalar kind => trivial
  | object fields ih =>
    rw [toDocument, Json.whole_object]
    intro entry he
    have hm := mem_ofList he
    rw [toMembers_eq_map] at hm
    obtain ⟨field, hf, rfl⟩ := List.mem_map.mp hm
    exact ih field hf
  | listOf element ih =>
    rw [toDocument, Json.whole_array]
    simpa using ih
  | union members ih =>
    rw [toDocument, toDocuments_eq_map, Json.whole_object]
    simpa [Json.whole_array] using ih
  | predicate p => trivial

/-- The registry has the predicates of the schema under their own names. -/
def Knows (registry : Registry χ) (schema : Schema χ) : Prop :=
  ∀ p ∈ schema.predicates, registry.get? p.name = some p

theorem ofTag?_name (kind : Scalar) : Scalar.ofTag? kind.name = some kind := by
  cases kind <;> rfl

theorem Knows.child {registry : Registry χ} {schema child : Schema χ} (h : Knows registry schema)
    (hc : child ∈ schema.children) : Knows registry child :=
  fun p hp => h p (mem_predicates_of_child hc hp)

variable [DecidableEq χ] {registry : Registry χ}

/-- The document of a schema stands for the normal form of the schema. -/
theorem denotes_toDocument {schema : Schema χ} (hw : schema.WellFormed)
    (hk : Knows registry schema) : Denotes registry schema.toDocument schema.normal := by
  induction schema with
  | scalar kind => exact .scalar (ofTag?_name kind)
  | object fields ih =>
    obtain ⟨hd, hf⟩ := wellFormed_object.mp hw
    have hn : normal (object fields) = object (ofList (normalFields fields)) := by
      rw [normal, ofList_of_distinct (distinct_normalFields hd)]
    rw [toDocument_object hd, hn]
    refine .object (isUnionMarker_toMembers fields) ?_ ?_
    · simp [Function.comp_def]
    · simp only [toMembers_eq_map, normalFields_eq_map, List.map_map, List.forall₂_map_left_iff,
        List.forall₂_map_right_iff, List.forall₂_same]
      exact fun entry he => ih entry he (hf entry he) (hk.child (List.mem_map_of_mem he))
  | listOf element ih => exact .listOf (ih hw (hk.child List.mem_cons_self))
  | union members ih =>
    have hm := wellFormed_union.mp hw
    rw [toDocument, toDocuments_eq_map, normal, normals_eq_map]
    refine .union ?_
    rw [List.forall₂_map_left_iff, List.forall₂_map_right_iff, List.forall₂_same]
    exact fun member hmem => ih member hmem (hm member hmem) (hk.child hmem)
  | predicate p => exact .predicate (hk p (by simp [predicates]))

theorem ofDocument_eq_ok_iff {document : Json} {schema : Schema χ} :
    ofDocument registry document = .ok schema ↔
      HasFieldsAtRoot document ∧ Denotes registry document schema := by
  cases document with
  | object members =>
    rw [ofDocument, HasFieldsAtRoot]
    split
    · simp_all
    · simp_all [ofNode_eq_ok_iff]
  | _ => simp [ofDocument, HasFieldsAtRoot]

theorem ofDocument_toDocument_normal {schema : Schema χ} (hr : schema.isObject = true)
    (hw : schema.WellFormed) (hk : Knows registry schema) :
    ofDocument registry schema.toDocument = .ok schema.normal :=
  ofDocument_eq_ok_iff.mpr ⟨hasFieldsAtRoot_toDocument hr hw, denotes_toDocument hw hk⟩

theorem ofDocument_toDocument {schema : Schema χ} (hr : schema.isObject = true)
    (hw : schema.WellFormed) (hc : schema.Canonical) (hk : Knows registry schema) :
    ofDocument registry schema.toDocument = .ok schema := by
  rw [ofDocument_toDocument_normal hr hw hk, normal_of_canonical hc]

end StructuralSchema.Schema
