import StructuralSchema.Predicate.Builtin
import StructuralSchema.Proofs.Documents
import StructuralSchema.Proofs.Modes

namespace StructuralSchema

open Fields

variable {χ : Type} [DecidableEq χ]

namespace Schema

variable {registry : Registry χ}

/-- Nothing in the schema is changed by writing it and reading it by the registry. -/
structure Settled (registry : Registry χ) (schema : Schema χ) : Prop where
  wellFormed : schema.WellFormed
  canonical : schema.Canonical
  knows : Knows registry schema

theorem Settled.ofDocument_toDocument {schema : Schema χ} (h : Settled registry schema)
    (hr : schema.isObject = true) : ofDocument registry schema.toDocument = .ok schema :=
  Schema.ofDocument_toDocument hr h.wellFormed h.canonical h.knows

theorem settled_scalar (kind : Scalar) : Settled registry (scalar kind) :=
  ⟨trivial, ⟨trivial, trivial⟩, by simp [Knows, predicates]⟩

theorem settled_predicate {name : String} {p : Predicate χ} (h : registry.get? name = some p) :
    Settled registry (predicate p) := by
  refine ⟨trivial, ⟨trivial, trivial⟩, ?_⟩
  have hn := Registry.name_of_get? h
  simpa [Knows, predicates, hn] using h

theorem settled_listOf {element : Schema χ} (h : Settled registry element) :
    Settled registry (listOf element) :=
  ⟨h.wellFormed, h.canonical, h.knows⟩

theorem settled_object {fields : List (String × Schema χ)}
    (h : ∀ entry ∈ fields, Settled registry entry.2) :
    Settled registry (object (ofList fields)) := by
  have he : ∀ entry ∈ ofList fields, Settled registry entry.2 := fun entry hm =>
    h entry (mem_ofList hm)
  refine ⟨wellFormed_object.mpr ⟨distinct_ofList fields, fun entry hm => (he entry hm).wellFormed⟩,
    canonical_object.mpr fun entry hm => (he entry hm).canonical, fun p hp => ?_⟩
  obtain ⟨entry, hm, hpe⟩ := mem_predicatesOfFields.mp hp
  exact (he entry hm).knows p hpe

theorem settled_unionOf {schemas : List (Schema χ)}
    (h : ∀ schema ∈ schemas, Settled registry schema) : Settled registry (unionOf schemas) := by
  refine ⟨wellFormed_unionOf fun schema hs => (h schema hs).wellFormed,
    canonical_unionOf fun schema hs => (h schema hs).canonical, fun p hp => ?_⟩
  obtain ⟨schema, hs, hps⟩ := exists_mem_predicates_of_unionOf hp
  exact (h schema hs).knows p hps

theorem Denotes.settled {node : Json} {schema : Schema χ} (h : Denotes registry node schema) :
    Settled registry schema := by
  induction h with
  | scalar h => exact settled_scalar _
  | predicate h => exact settled_predicate h
  | listOf h ih => exact settled_listOf ih
  | object hm hk h ih =>
    refine settled_object fun entry he => ?_
    obtain ⟨_, _, _, hs⟩ := exists_mem_left_of_forall₂ ih (List.mem_map_of_mem he)
    exact hs
  | union h ih =>
    refine settled_unionOf fun schema hm => ?_
    obtain ⟨_, _, _, hs⟩ := exists_mem_left_of_forall₂ ih hm
    exact hs

theorem Denotes.isObject {document : Json} {schema : Schema χ}
    (h : Denotes registry document schema) (hf : HasFieldsAtRoot document) :
    schema.isObject = true := by
  cases h with
  | object => rfl
  | union => simp [HasFieldsAtRoot, isUnionMarker] at hf
  | _ => cases hf

theorem settled_ofValue {value : Json} (h : value.WellFormed) :
    Settled registry (ofValue value) :=
  ⟨wellFormed_ofValue h, canonical_ofValue value,
    fun p hp => absurd hp (not_mem_predicates_ofValue p value)⟩

end Schema

open Schema

variable {registry : Registry χ}

/-- A schema that was read from a document, or is the shape of an object, is read back from its own
document as it was. -/
theorem ofDocument_toDocument_of_ofDocument_or_ofRoot {schema : Schema χ}
    (h : (∃ document, ofDocument registry document = .ok schema) ∨
      ∃ value : Json, value.WellFormed ∧ ofRoot value = .ok schema) :
    ofDocument registry schema.toDocument = .ok schema := by
  obtain ⟨document, hd⟩ | ⟨value, hw, hv⟩ := h
  · obtain ⟨hf, hn⟩ := ofDocument_eq_ok_iff.mp hd
    exact hn.settled.ofDocument_toDocument (hn.isObject hf)
  · obtain ⟨members, rfl, rfl⟩ := ofRoot_eq_ok_iff.mp hv
    exact (settled_ofValue hw).ofDocument_toDocument rfl

theorem ofDocument_toDocument_notes :
    let registry : Registry Builtin := .builtin id
    let document : Json := .object
      [("$$union", .object [("$union", .array
          [.string "string", .object [("$union", .array [.string "str", .string "integer"])]])]),
        ("mail", .string "@email"), ("$id", .array [.object [("$union", .array [])]])]
    let schema : Schema Builtin := object
      [("$union", union [scalar .string, scalar .int]), ("mail", predicate ⟨"email", .email⟩),
        ("$id", listOf (union []))]
    let value : Json := .object [("$union", .array [.null, .array [], .null])]
    let shape : Schema Builtin :=
      object [("$union", listOf (union [scalar .null, listOf (union [])]))]
    (ofDocument registry document = .ok schema ∧
        ofDocument registry schema.toDocument = .ok schema) ∧
      ofRoot value = .ok shape ∧ ofDocument registry shape.toDocument = .ok shape := by
  intro registry document schema value shape
  have hd : ofDocument registry document = .ok schema := by rfl
  have hv : ofRoot value = .ok shape := by rfl
  exact ⟨⟨hd, ofDocument_toDocument_of_ofDocument_or_ofRoot (.inl ⟨document, hd⟩)⟩, hv,
    ofDocument_toDocument_of_ofDocument_or_ofRoot (.inr ⟨value, by decide, hv⟩)⟩

/-- Of any schema that is written and read again the same instances pass. -/
theorem exists_ofDocument_validate_iff [Check χ] {schema : Schema χ} (hr : schema.isObject = true)
    (hw : schema.WellFormed) (hk : Knows registry schema) :
    ∃ reloaded, ofDocument registry schema.toDocument = .ok reloaded ∧
      ∀ (options : Options) (given : Instance),
        validate options given reloaded = .ok () ↔ validate options given schema = .ok () := by
  refine ⟨schema.normal, ofDocument_toDocument_normal hr hw hk, fun options given => ?_⟩
  cases schema with
  | object fields =>
    have hkeys : SameKeys (normalFields fields) fields := fun key => by rw [keys_normalFields]
    have ha : ∀ value, Accepts (object (normalFields fields)) value ↔
        Accepts (object fields) value := fun value => accepts_normal hw
    rw [normal]
    exact ⟨validate_of_validate hkeys fun value => (ha value).mp,
      validate_of_validate (fun key => (hkeys key).symm) fun value => (ha value).mpr⟩
  | _ => cases hr

theorem exists_ofDocument_mail :
    let registry : Registry Builtin := .builtin id
    let schema : Schema Builtin := object
      [("$union", union [union [scalar .int, scalar .int], union [scalar .int]]),
        ("mail", union [predicate ⟨"email", .email⟩, union []])]
    Knows registry schema ∧ ∃ reloaded, ofDocument registry schema.toDocument = .ok reloaded ∧
      ∀ (options : Options) (given : Instance),
        validate options given reloaded = .ok () ↔ validate options given schema = .ok () := by
  intro registry schema
  have hk : Knows registry schema := by
    intro p hp
    obtain rfl : p = ⟨"email", .email⟩ := by
      simpa [schema, predicates, predicatesOfFields, predicatesOfAll] using hp
    rfl
  exact ⟨hk, exists_ofDocument_validate_iff rfl (by decide) hk⟩

end StructuralSchema
