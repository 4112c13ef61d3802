import StructuralSchema.Predicate.Builtin
import StructuralSchema.Proofs.Equivalence

namespace StructuralSchema.Schema

variable {χ : Type} [DecidableEq χ]

/-- The schema is the same as one that is no union. -/
def HasOneShape (schema : Schema χ) : Prop :=
  ∃ shape : Schema χ, shape.WellFormed ∧ isUnion shape = false ∧ schema.same shape = true

theorem matched_replicate_iff {copies : Nat} (hc : 0 < copies) (schema : Schema χ)
    (others : List (Schema χ)) : Matched (List.replicate copies schema) others ↔
      others ≠ [] ∧ ∀ other ∈ others, schema.same other = true := by
  rw [← matched_singleton_left]
  simp [Matched, List.mem_replicate, Nat.ne_of_gt hc]

theorem same_union_replicate {copies : Nat} (hc : 0 < copies) (schema : Schema χ) :
    (union (List.replicate copies schema)).same schema = true ↔
      schema.parts ≠ [] ∧ ∀ part ∈ schema.parts, schema.same part = true := by
  rw [same_iff_matched, parts, matched_replicate_iff hc]

theorem HasOneShape.same_parts {schema : Schema χ} (hw : schema.WellFormed)
    (h : schema.HasOneShape) :
    schema.parts ≠ [] ∧ ∀ part ∈ schema.parts, schema.same part = true := by
  obtain ⟨shape, hs, hu, hsame⟩ := h
  have hm := (same_iff_matched schema shape).mp hsame
  rw [parts_of_not_union hu, matched_singleton_right] at hm
  refine ⟨hm.1, fun part hp => ?_⟩
  exact same_trans hsame (same_symm (hw.part hp) hs (hm.2 part hp))

/-- By induction on the schema: what is the same as all of its members goes on to be the same as
all members of one of them. -/
theorem hasOneShape_of_same_parts {schema : Schema χ} (hw : schema.WellFormed)
    (hn : schema.parts ≠ []) (h : ∀ part ∈ schema.parts, schema.same part = true) :
    schema.HasOneShape := by
  induction schema with
  | union members ih =>
    have hm := wellFormed_union.mp hw
    obtain ⟨member, hmem⟩ := List.exists_mem_of_ne_nil members hn
    have hsame : (union members).same member = true := h member hmem
    have hmatched : Matched members member.parts := (same_iff_matched (union members) member).mp hsame
    have hparts : ∀ part ∈ member.parts, member.same part = true := by
      intro part hp
      obtain ⟨other, ho, hop⟩ := hmatched.2 part hp
      exact same_trans (same_trans (same_symm hw (hm member hmem) hsame) (h other ho)) hop
    obtain ⟨part, hp, _⟩ := hmatched.1 member hmem
    obtain ⟨shape, hs, hu, hshape⟩ :=
      ih member hmem (hm member hmem) (List.ne_nil_of_mem hp) hparts
    exact ⟨shape, hs, hu, same_trans hsame hshape⟩
  | scalar kind => exact ⟨_, hw, rfl, same_refl hw⟩
  | object fields => exact ⟨_, hw, rfl, same_refl hw⟩
  | listOf element => exact ⟨_, hw, rfl, same_refl hw⟩
  | predicate p => exact ⟨_, hw, rfl, same_refl hw⟩

omit [DecidableEq χ] in
theorem wellFormed_union_replicate {schema : Schema χ} (hw : schema.WellFormed) (copies : Nat) :
    (union (List.replicate copies schema)).WellFormed := by
  apply wellFormed_union.mpr
  intro member hm
  obtain rfl := List.eq_of_mem_replicate hm
  exact hw

/-- A union of copies of a schema is the same as the schema, from either side, just if the schema
is the same as one that is no union. -/
theorem same_union_replicate_iff_hasOneShape {schema : Schema χ} (hw : schema.WellFormed)
    {copies : Nat} (hc : 0 < copies) :
    ((union (List.replicate copies schema)).same schema = true ↔ schema.HasOneShape) ∧
      (schema.same (union (List.replicate copies schema)) = true ↔ schema.HasOneShape) := by
  have hu := wellFormed_union_replicate hw copies
  have h : (union (List.replicate copies schema)).same schema = true ↔ schema.HasOneShape := by
    rw [same_union_replicate hc]
    exact ⟨fun ⟨hn, hp⟩ => hasOneShape_of_same_parts hw hn hp, fun h => h.same_parts hw⟩
  exact ⟨h, ⟨fun hs => h.mp (same_symm hw hu hs), fun hs => same_symm hu hw (h.mpr hs)⟩⟩

theorem same_union_replicate_nested :
    let shape : Schema Builtin := object [("n", listOf (union []))]
    let schema := union [shape, union [shape, shape]]
    schema.HasOneShape ∧ (union [schema, schema, schema]).same schema = true ∧
      schema.same (union [schema, schema, schema]) = true := by
  intro shape schema
  have h : schema.HasOneShape := ⟨shape, by decide, rfl, rfl⟩
  obtain ⟨hl, hr⟩ :=
    @same_union_replicate_iff_hasOneShape Builtin _ schema (by decide) 3 (by decide)
  exact ⟨h, hl.mpr h, hr.mpr h⟩

theorem not_same_union_copy :
    let several : Schema Builtin := union [scalar .int, scalar .string]
    let none : Schema Builtin := union []
    ((union [several]).same several = false ∧ several.same (union [several]) = false) ∧
      (union [none]).same none = false ∧ none.same (union [none]) = false := by
  decide

end StructuralSchema.Schema
