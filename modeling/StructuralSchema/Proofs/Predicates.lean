import StructuralSchema.Proofs.Union

namespace StructuralSchema.Schema

variable {χ : Type}

theorem anyHasPredicates_eq_false_iff (schemas : List (Schema χ)) :
    anyHasPredicates schemas = false ↔ ∀ schema ∈ schemas, schema.hasPredicates = false :=
  iff_forall_mem_of_cons (anyHasPredicates · = false) rfl (fun _ _ => Bool.or_eq_false_iff) schemas

theorem fieldsHavePredicates_eq_false_iff (fields : List (String × Schema χ)) :
    fieldsHavePredicates fields = false ↔ ∀ entry ∈ fields, entry.2.hasPredicates = false :=
  iff_forall_mem_of_cons (fieldsHavePredicates · = false) rfl
    (fun _ _ => Bool.or_eq_false_iff) fields

theorem hasPredicates_child {schema child : Schema χ} (h : schema.hasPredicates = false)
    (hc : child ∈ schema.children) : child.hasPredicates = false := by
  induction hc using childCases with
  | object fields entry he => exact (fieldsHavePredicates_eq_false_iff fields).mp h entry he
  | listOf element => exact h
  | union members member hm => exact (anyHasPredicates_eq_false_iff members).mp h member hm

theorem mem_predicatesOfAll {p : Predicate χ} {schemas : List (Schema χ)} :
    p ∈ predicatesOfAll schemas ↔ ∃ schema ∈ schemas, p ∈ schema.predicates := by
  induction schemas with
  | nil => simp [predicatesOfAll]
  | cons schema schemas ih => simp [predicatesOfAll, ih]

theorem mem_predicatesOfFields {p : Predicate χ} {fields : Fields (Schema χ)} :
    p ∈ predicatesOfFields fields ↔ ∃ entry ∈ fields, p ∈ entry.2.predicates := by
  induction fields with
  | nil => simp [predicatesOfFields]
  | cons entry fields ih => simp [predicatesOfFields, ih]

theorem mem_predicates_of_child {p : Predicate χ} {schema child : Schema χ}
    (hc : child ∈ schema.children) (hp : p ∈ child.predicates) : p ∈ schema.predicates := by
  induction hc using childCases with
  | object fields entry he => exact mem_predicatesOfFields.mpr ⟨entry, he, hp⟩
  | listOf element => exact hp
  | union members member hm => exact mem_predicatesOfAll.mpr ⟨member, hm, hp⟩

theorem predicatesOfAll_eq_nil_iff (schemas : List (Schema χ)) :
    predicatesOfAll schemas = [] ↔ ∀ schema ∈ schemas, schema.predicates = [] :=
  iff_forall_mem_of_cons (predicatesOfAll · = []) rfl (fun _ _ => List.append_eq_nil_iff) schemas

theorem predicatesOfFields_eq_nil_iff (fields : Fields (Schema χ)) :
    predicatesOfFields fields = [] ↔ ∀ entry ∈ fields, entry.2.predicates = [] :=
  iff_forall_mem_of_cons (predicatesOfFields · = []) rfl (fun _ _ => List.append_eq_nil_iff) fields

theorem hasPredicates_eq_false_iff (schema : Schema χ) :
    schema.hasPredicates = false ↔ schema.predicates = [] := by
  induction schema with
  | scalar kind => simp [hasPredicates, predicates]
  | object fields ih =>
    rw [hasPredicates, fieldsHavePredicates_eq_false_iff, predicates, predicatesOfFields_eq_nil_iff]
    exact forall₂_congr ih
  | listOf element ih => exact ih
  | union members ih =>
    rw [hasPredicates, anyHasPredicates_eq_false_iff, predicates, predicatesOfAll_eq_nil_iff]
    exact forall₂_congr ih
  | predicate p => simp [hasPredicates, predicates]

theorem mem_predicates_iff_parts {p : Predicate χ} {schema : Schema χ} :
    p ∈ schema.predicates ↔ ∃ part ∈ schema.parts, p ∈ part.predicates := by
  obtain hs | ⟨members, rfl⟩ := eq_union_or_isUnion_eq_false schema
  · simp [parts_of_not_union hs]
  · exact mem_predicatesOfAll

section Same

variable [DecidableEq χ]

theorem Alike.predicates_subset {schema other : Schema χ} (h : Alike schema other)
    (ih : ∀ a ∈ schema.children, ∀ b ∈ other.children, a.same b = true →
      a.predicates ⊆ b.predicates) : schema.predicates ⊆ other.predicates := by
  intro p hp
  cases h with
  | scalar kind => exact hp
  | object hl hw =>
    obtain ⟨entry, he, hpe⟩ := mem_predicatesOfFields.mp hp
    obtain ⟨other, ho, hs⟩ := hw entry he
    have hm := Fields.mem_of_get? ho
    refine mem_predicatesOfFields.mpr ⟨_, hm, ?_⟩
    exact ih entry.2 (List.mem_map_of_mem he) other (List.mem_map_of_mem hm) hs hpe
  | listOf h => exact ih _ List.mem_cons_self _ List.mem_cons_self h hp
  | predicate q => exact hp

theorem predicates_subset_of_same {schema other : Schema χ} (h : schema.same other = true) :
    schema.predicates ⊆ other.predicates := by
  induction schema, other, h using same_induction with
  | parts schema other _ hm ih =>
    intro p hp
    obtain ⟨a, ha, hpa⟩ := mem_predicates_iff_parts.mp hp
    obtain ⟨b, hb, hab⟩ := hm.1 a ha
    exact mem_predicates_iff_parts.mpr ⟨b, hb, ih a ha b hb hab hpa⟩
  | alike schema other _ _ _ ha ih => exact ha.predicates_subset ih

theorem hasPredicates_eq_of_same {schema other : Schema χ} (hs : schema.WellFormed)
    (ho : other.WellFormed) (h : schema.same other = true) :
    schema.hasPredicates = other.hasPredicates := by
  have hl := predicates_subset_of_same h
  have hr := predicates_subset_of_same (same_symm hs ho h)
  rw [← Bool.not_inj_iff, Bool.eq_iff_iff, Bool.not_eq_true', Bool.not_eq_true',
    hasPredicates_eq_false_iff, hasPredicates_eq_false_iff]
  exact ⟨fun he => List.subset_nil.mp (he ▸ hr), fun he => List.subset_nil.mp (he ▸ hl)⟩

end Same

theorem exists_mem_predicates_of_unionOf [DecidableEq χ] {p : Predicate χ}
    {schemas : List (Schema χ)} (h : p ∈ (unionOf schemas).predicates) :
    ∃ schema ∈ schemas, p ∈ schema.predicates := by
  have hd : ∃ part ∈ distinct (schemas.flatMap parts), p ∈ part.predicates := by
    rw [unionOf] at h
    obtain ⟨part, hd, hc⟩ | ⟨_, hc⟩ := collapse_cases (distinct (schemas.flatMap parts))
    · rw [hc] at h
      exact ⟨part, by simp [hd], h⟩
    · rw [hc, predicates] at h
      exact mem_predicatesOfAll.mp h
  obtain ⟨part, hm, hp⟩ := hd
  obtain ⟨schema, hs, hpart⟩ := exists_mem_parts_of_mem_distinct hm
  exact ⟨schema, hs, mem_predicates_iff_parts.mpr ⟨part, hpart, hp⟩⟩

end StructuralSchema.Schema
