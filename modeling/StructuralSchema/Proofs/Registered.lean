import StructuralSchema.Predicate.Builtin
import StructuralSchema.Proofs.Documents

namespace StructuralSchema

open Fields

namespace Schema

variable {χ : Type} [DecidableEq χ] {registry : Registry χ}

section Nodes

theorem exists_denotes_row_iff {nodes : List Json} :
    (∃ schemas, List.Forall₂ (Denotes registry) nodes schemas) ↔
      ∀ node ∈ nodes, ∃ schema, Denotes registry node schema := by
  constructor
  · rintro ⟨schemas, h⟩ node hn
    obtain ⟨schema, _, hs⟩ := exists_mem_right_of_forall₂ h hn
    exact ⟨schema, hs⟩
  · exact exists_forall₂

theorem exists_denotes_at_append_iff (name : String) :
    (∃ schema, Denotes registry (.string ("@" ++ name)) schema) ↔ name ∈ registry.names := by
  have ht : ∀ schema, Denotes registry (.string ("@" ++ name)) schema ↔
      ofTag registry .root ("@" ++ name) = .ok schema := fun _ => ofTag_eq_ok_iff.symm
  have hn := registry.get?_eq_none_iff name
  simp only [ht, ofTag_at_append]
  cases hg : registry.get? name with
  | none => simpa using hn.mp hg
  | some found => simpa [hg] using hn

theorem exists_denotes_listOf_iff {node : Json} :
    (∃ schema, Denotes registry (.array [node]) schema) ↔
      ∃ schema, Denotes registry node schema := by
  constructor
  · rintro ⟨_, h⟩
    cases h with
    | listOf h => exact ⟨_, h⟩
  · rintro ⟨element, h⟩
    exact ⟨_, .listOf h⟩

theorem exists_denotes_union_iff {nodes : List Json} :
    (∃ schema, Denotes registry (.object [(unionKey, .array nodes)]) schema) ↔
      ∀ node ∈ nodes, ∃ schema, Denotes registry node schema := by
  rw [← exists_denotes_row_iff]
  constructor
  · rintro ⟨_, h⟩
    cases h with
    | object hm => simp [isUnionMarker] at hm
    | union h => exact ⟨_, h⟩
  · rintro ⟨schemas, h⟩
    exact ⟨_, .union h⟩

theorem exists_denotes_object_iff {members : Fields Json} (hm : isUnionMarker members = false) :
    (∃ schema, Denotes registry (.object members) schema) ↔
      ∀ entry ∈ members, ∃ schema, Denotes registry entry.2 schema := by
  rw [← List.forall_mem_map (f := Prod.snd)
    (P := fun node => ∃ schema, Denotes registry node schema), ← exists_denotes_row_iff]
  constructor
  · rintro ⟨_, h⟩
    cases h with
    | object _ _ h => exact ⟨_, h⟩
    | union h => simp [isUnionMarker] at hm
  · rintro ⟨schemas, h⟩
    let names := members.keys.map unescapeKey
    have hl : names.length = schemas.length := by simpa [names, keys] using h.length_eq
    have hk : keys (names.zip schemas) = names := List.map_fst_zip (Nat.le_of_eq hl)
    have hs : (names.zip schemas).map Prod.snd = schemas := List.map_snd_zip (Nat.le_of_eq hl.symm)
    exact ⟨_, .object hm hk (hs.symm ▸ h)⟩

end Nodes

section Names

variable {P : Predicate χ → Prop}

omit [DecidableEq χ]

theorem forall_mem_predicatesOfAll {schemas : List (Schema χ)} :
    (∀ p ∈ predicatesOfAll schemas, P p) ↔ ∀ schema ∈ schemas, ∀ p ∈ schema.predicates, P p := by
  constructor
  · exact fun h schema hs p hp => h p (mem_predicatesOfAll.mpr ⟨schema, hs, hp⟩)
  · intro h p hp
    obtain ⟨schema, hs, hp⟩ := mem_predicatesOfAll.mp hp
    exact h schema hs p hp

theorem forall_mem_predicatesOfFields {fields : Fields (Schema χ)} :
    (∀ p ∈ predicatesOfFields fields, P p) ↔ ∀ entry ∈ fields, ∀ p ∈ entry.2.predicates, P p := by
  constructor
  · exact fun h entry he p hp => h p (mem_predicatesOfFields.mpr ⟨entry, he, hp⟩)
  · intro h p hp
    obtain ⟨entry, he, hp⟩ := mem_predicatesOfFields.mp hp
    exact h entry he p hp

end Names

theorem exists_denotes_toDocument_iff {schema : Schema χ} (hw : schema.WellFormed) :
    (∃ reloaded, Denotes registry schema.toDocument reloaded) ↔
      ∀ p ∈ schema.predicates, p.name ∈ registry.names := by
  induction schema with
  | scalar kind =>
    have hp : (scalar kind : Schema χ).predicates = [] := rfl
    simpa [hp] using ⟨_, Denotes.scalar (ofTag?_name kind)⟩
  | object fields ih =>
    obtain ⟨hd, hf⟩ := wellFormed_object.mp hw
    rw [toDocument_object hd, exists_denotes_object_iff (isUnionMarker_toMembers fields),
      toMembers_eq_map, List.forall_mem_map, predicates, forall_mem_predicatesOfFields]
    exact forall₂_congr fun entry he => ih entry he (hf entry he)
  | listOf element ih =>
    rw [toDocument, exists_denotes_listOf_iff, ih hw, predicates]
  | union members ih =>
    have hm := wellFormed_union.mp hw
    rw [toDocument, toDocuments_eq_map, exists_denotes_union_iff, List.forall_mem_map, predicates,
      forall_mem_predicatesOfAll]
    exact forall₂_congr fun member hmem => ih member hmem (hm member hmem)
  | predicate p =>
    rw [toDocument, exists_denotes_at_append_iff]
    simp [predicates]

end Schema

open Schema

variable {χ : Type} [DecidableEq χ]

/-- The document of a schema is read by those registries that have all names of its predicates, and
so by the empty one just if there are none. Without predicates it is read the same by all. -/
theorem exists_ofDocument_toDocument_iff {schema : Schema χ} (hr : schema.isObject = true)
    (hw : schema.WellFormed) :
    (∀ registry : Registry χ, (∃ reloaded, ofDocument registry schema.toDocument = .ok reloaded) ↔
        ∀ p ∈ schema.predicates, p.name ∈ registry.names) ∧
      ((∃ reloaded, ofDocument (.empty : Registry χ) schema.toDocument = .ok reloaded) ↔
        schema.hasPredicates = false) ∧
      (schema.hasPredicates = false → ∃ reloaded, ∀ registry : Registry χ,
        ofDocument registry schema.toDocument = .ok reloaded) := by
  have h : ∀ registry : Registry χ,
      (∃ reloaded, ofDocument registry schema.toDocument = .ok reloaded) ↔
        ∀ p ∈ schema.predicates, p.name ∈ registry.names := by
    intro registry
    simp only [ofDocument_eq_ok_iff, hasFieldsAtRoot_toDocument hr hw, true_and]
    exact exists_denotes_toDocument_iff hw
  refine ⟨h, ?_, fun hn => ⟨schema.normal, fun registry => ?_⟩⟩
  · rw [h, hasPredicates_eq_false_iff, List.eq_nil_iff_forall_not_mem]
    exact forall₂_congr fun p _ => by simp [Registry.names, Registry.empty, Fields.keys]
  · rw [hasPredicates_eq_false_iff] at hn
    exact ofDocument_toDocument_normal hr hw (by simp [Knows, hn])

/-- A predicate of another check under a name that is known, and one under a name that is not. -/
theorem exists_ofDocument_toDocument_iff_mails :
    let registry : Registry Builtin := .builtin id
    let mails (name : String) : Schema Builtin := object
      [("$union", union [union [predicate ⟨"email", .uri⟩], listOf (predicate ⟨name, .email⟩)])]
    (∃ reloaded, ofDocument registry (mails "uri").toDocument = .ok reloaded) ∧
      (¬∃ reloaded, ofDocument registry (mails "@uri").toDocument = .ok reloaded) ∧
      ¬∃ reloaded,
        ofDocument (.empty : Registry Builtin) (mails "uri").toDocument = .ok reloaded := by
  intro registry mails
  refine ⟨?_, ?_, ?_⟩
  · rw [(exists_ofDocument_toDocument_iff (by rfl) (by decide)).1]
    decide
  · rw [(exists_ofDocument_toDocument_iff (by rfl) (by decide)).1]
    decide
  · rw [(exists_ofDocument_toDocument_iff (by rfl) (by decide)).2.1]
    decide

end StructuralSchema
