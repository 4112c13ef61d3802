import StructuralSchema.Proofs.Inference

namespace StructuralSchema.Schema

variable {χ : Type}

theorem allFlat_iff (schemas : List (Schema χ)) :
    AllFlat schemas ↔ ∀ schema ∈ schemas, schema.Flat :=
  iff_forall_mem_of_cons AllFlat trivial (fun _ _ => .rfl) schemas

theorem fieldsFlat_iff (fields : List (String × Schema χ)) :
    FieldsFlat fields ↔ ∀ entry ∈ fields, entry.2.Flat :=
  iff_forall_mem_of_cons FieldsFlat trivial (fun _ _ => .rfl) fields

variable [DecidableEq χ]

theorem allApart_iff (schemas : List (Schema χ)) :
    AllApart schemas ↔ ∀ schema ∈ schemas, schema.Apart :=
  iff_forall_mem_of_cons AllApart trivial (fun _ _ => .rfl) schemas

theorem fieldsApart_iff (fields : List (String × Schema χ)) :
    FieldsApart fields ↔ ∀ entry ∈ fields, entry.2.Apart :=
  iff_forall_mem_of_cons FieldsApart trivial (fun _ _ => .rfl) fields

theorem canonical_object {fields : Fields (Schema χ)} :
    (object fields).Canonical ↔ ∀ entry ∈ fields, entry.2.Canonical := by
  simp only [Canonical, Flat, Apart, fieldsFlat_iff, fieldsApart_iff]
  exact forall₂_and.symm

theorem canonical_listOf {element : Schema χ} :
    (listOf element).Canonical ↔ element.Canonical :=
  Iff.rfl

theorem canonical_union {members : List (Schema χ)} :
    (union members).Canonical ↔ members.length ≠ 1 ∧
      members.Pairwise (fun a b => a.same b = false) ∧
        ∀ member ∈ members, isUnion member = false ∧ member.Canonical := by
  simp only [Canonical, Flat, Apart, allFlat_iff, allApart_iff, forall₂_and]
  constructor
  · rintro ⟨⟨hl, hu, hf⟩, hp, ha⟩
    exact ⟨hl, hp, hu, hf, ha⟩
  · rintro ⟨hl, hp, hu, hf, ha⟩
    exact ⟨⟨hl, hu, hf⟩, hp, ha⟩

theorem Canonical.part {schema part : Schema χ} (h : schema.Canonical) (hp : part ∈ schema.parts) :
    isUnion part = false ∧ part.Canonical := by
  obtain hs | ⟨members, rfl⟩ := eq_union_or_isUnion_eq_false schema
  · rw [parts_of_not_union hs, List.mem_singleton] at hp
    exact hp ▸ ⟨hs, h⟩
  · exact (canonical_union.mp h).2.2 part hp

theorem canonical_unionOf {schemas : List (Schema χ)}
    (h : ∀ schema ∈ schemas, schema.Canonical) : (unionOf schemas).Canonical := by
  have hp : ∀ part ∈ distinct (schemas.flatMap parts), isUnion part = false ∧ part.Canonical := by
    intro part hm
    obtain ⟨schema, hs, hpart⟩ := exists_mem_parts_of_mem_distinct hm
    exact (h schema hs).part hpart
  obtain ⟨schema, hd, hc⟩ | ⟨hl, hc⟩ := collapse_cases (distinct (schemas.flatMap parts))
  · rw [unionOf, hc]
    exact (hp schema (by simp [hd])).2
  · rw [unionOf, hc]
    exact canonical_union.mpr ⟨hl, pairwise_distinct _, hp⟩

theorem unionOf_of_canonical {members : List (Schema χ)} (h : (union members).Canonical) :
    unionOf members = union members := by
  obtain ⟨hl, hp, hm⟩ := canonical_union.mp h
  rw [unionOf_of_not_union fun member hmem => (hm member hmem).1, distinct_of_apart hp]
  obtain ⟨member, rfl, _⟩ | ⟨_, hc⟩ := collapse_cases members
  · exact absurd rfl hl
  · exact hc

theorem canonical_ofValue (value : Json) : (ofValue value : Schema χ).Canonical := by
  induction value with
  | array items ih =>
    rw [ofValue, canonical_listOf, ofItems_eq_map]
    apply canonical_unionOf
    intro shape hs
    obtain ⟨item, hi, rfl⟩ := List.mem_map.mp hs
    exact ih item hi
  | object members ih =>
    rw [ofValue, canonical_object, ofMembers_eq_map]
    intro entry he
    obtain ⟨member, hm, rfl⟩ := List.mem_map.mp he
    exact ih member hm
  | number n => cases n <;> exact ⟨trivial, trivial⟩
  | _ => exact ⟨trivial, trivial⟩

end StructuralSchema.Schema
