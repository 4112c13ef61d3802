import StructuralSchema.Proofs.Equivalence

namespace StructuralSchema.Schema

variable {χ : Type} [DecidableEq χ]

theorem anySame_iff (kept : List (Schema χ)) (schema : Schema χ) :
    anySame kept schema = true ↔ ∃ k ∈ kept, k.same schema = true := by
  simp [anySame_eq]

theorem mem_keep {kept : List (Schema χ)} {schema member : Schema χ}
    (h : member ∈ keep kept schema) : member ∈ kept ∨ member = schema := by
  unfold keep at h
  split at h
  · exact .inl h
  · simpa using h

theorem subset_keep (kept : List (Schema χ)) (schema : Schema χ) : kept ⊆ keep kept schema := by
  unfold keep
  split
  · exact List.Subset.refl kept
  · exact List.subset_append_left kept [schema]

theorem exists_mem_keep {schema : Schema χ} (hw : schema.WellFormed) (kept : List (Schema χ)) :
    ∃ k ∈ keep kept schema, k.same schema = true := by
  unfold keep
  split
  · rename_i h
    exact (anySame_iff kept schema).mp h
  · exact ⟨schema, by simp, same_refl hw⟩

theorem pairwise_keep {kept : List (Schema χ)}
    (h : kept.Pairwise fun a b => a.same b = false) (schema : Schema χ) :
    (keep kept schema).Pairwise fun a b => a.same b = false := by
  unfold keep
  split
  · exact h
  · rename_i hn
    rw [List.pairwise_append]
    refine ⟨h, List.pairwise_singleton _ _, ?_⟩
    intro a ha b hb
    obtain rfl := List.mem_singleton.mp hb
    by_contra hs
    exact hn ((anySame_iff kept b).mpr ⟨a, ha, by simpa using hs⟩)

theorem keep_of_apart {kept : List (Schema χ)} {schema : Schema χ}
    (h : ∀ k ∈ kept, k.same schema = false) : keep kept schema = kept ++ [schema] := by
  unfold keep
  rw [if_neg]
  rw [anySame_iff]
  rintro ⟨k, hk, hs⟩
  rw [h k hk] at hs
  cases hs

def keepAll (kept schemas : List (Schema χ)) : List (Schema χ) :=
  schemas.foldl keep kept

theorem mem_keepAll {kept schemas : List (Schema χ)} {member : Schema χ}
    (h : member ∈ keepAll kept schemas) : member ∈ kept ∨ member ∈ schemas := by
  induction schemas generalizing kept with
  | nil => exact .inl h
  | cons schema schemas ih =>
    obtain hk | hs := ih h
    · obtain hk | rfl := mem_keep hk
      · exact .inl hk
      · exact .inr List.mem_cons_self
    · exact .inr (List.mem_cons_of_mem _ hs)

theorem subset_keepAll (kept schemas : List (Schema χ)) : kept ⊆ keepAll kept schemas := by
  induction schemas generalizing kept with
  | nil => exact List.Subset.refl kept
  | cons schema schemas ih => exact List.Subset.trans (subset_keep kept schema) (ih _)

theorem exists_mem_keepAll {schemas : List (Schema χ)} (kept : List (Schema χ))
    {schema : Schema χ} (hw : schema.WellFormed) (h : schema ∈ schemas) :
    ∃ k ∈ keepAll kept schemas, k.same schema = true := by
  induction schemas generalizing kept with
  | nil => cases h
  | cons first schemas ih =>
    cases h with
    | head =>
      obtain ⟨k, hk, hs⟩ := exists_mem_keep hw kept
      exact ⟨k, subset_keepAll (keep kept schema) schemas hk, hs⟩
    | tail _ h => exact ih (keep kept first) h

theorem pairwise_keepAll {kept : List (Schema χ)}
    (h : kept.Pairwise fun a b => a.same b = false) (schemas : List (Schema χ)) :
    (keepAll kept schemas).Pairwise fun a b => a.same b = false := by
  induction schemas generalizing kept with
  | nil => exact h
  | cons schema schemas ih => exact ih (pairwise_keep h schema)

theorem keepAll_of_apart {kept schemas : List (Schema χ)}
    (h : (kept ++ schemas).Pairwise fun a b => a.same b = false) :
    keepAll kept schemas = kept ++ schemas := by
  induction schemas generalizing kept with
  | nil => simp [keepAll]
  | cons schema schemas ih =>
    have hk : ∀ k ∈ kept, k.same schema = false := fun k hk =>
      (List.pairwise_append.mp h).2.2 k hk schema List.mem_cons_self
    have hs : (kept ++ [schema] ++ schemas).Pairwise fun a b => a.same b = false := by
      simpa using h
    calc keepAll kept (schema :: schemas)
        = keepAll (keep kept schema) schemas := rfl
      _ = kept ++ [schema] ++ schemas := by rw [keep_of_apart hk, ih hs]
      _ = kept ++ schema :: schemas := by simp

theorem mem_of_mem_distinct {schemas : List (Schema χ)} {member : Schema χ}
    (h : member ∈ distinct schemas) : member ∈ schemas := by
  obtain hn | hm := mem_keepAll h
  · cases hn
  · exact hm

theorem exists_mem_parts_of_mem_distinct {schemas : List (Schema χ)} {part : Schema χ}
    (h : part ∈ distinct (schemas.flatMap parts)) : ∃ schema ∈ schemas, part ∈ schema.parts :=
  List.mem_flatMap.mp (mem_of_mem_distinct h)

theorem pairwise_distinct (schemas : List (Schema χ)) :
    (distinct schemas).Pairwise fun a b => a.same b = false :=
  pairwise_keepAll List.Pairwise.nil schemas

theorem exists_mem_distinct {schemas : List (Schema χ)} {schema : Schema χ}
    (hw : schema.WellFormed) (h : schema ∈ schemas) :
    ∃ k ∈ distinct schemas, k.same schema = true :=
  exists_mem_keepAll [] hw h

theorem matched_distinct {schemas : List (Schema χ)} (hw : ∀ schema ∈ schemas, schema.WellFormed) :
    Matched (distinct schemas) schemas := by
  constructor
  · intro member hm
    have hs := mem_of_mem_distinct hm
    exact ⟨member, hs, same_refl (hw member hs)⟩
  · intro schema hs
    exact exists_mem_distinct (hw schema hs) hs

theorem distinct_of_apart {schemas : List (Schema χ)}
    (h : schemas.Pairwise fun a b => a.same b = false) : distinct schemas = schemas := by
  have hk : ([] ++ schemas).Pairwise fun (a b : Schema χ) => a.same b = false := h
  exact keepAll_of_apart hk

omit [DecidableEq χ] in
theorem flatMap_parts_of_not_union {schemas : List (Schema χ)}
    (h : ∀ schema ∈ schemas, isUnion schema = false) : schemas.flatMap parts = schemas := by
  induction schemas with
  | nil => rfl
  | cons schema schemas ih =>
    obtain ⟨hs, hr⟩ := List.forall_mem_cons.mp h
    rw [List.flatMap_cons, parts_of_not_union hs, ih hr]
    rfl

omit [DecidableEq χ] in
theorem wellFormed_of_mem_flatMap_parts {schemas : List (Schema χ)}
    (hw : ∀ schema ∈ schemas, schema.WellFormed) :
    ∀ part ∈ schemas.flatMap parts, part.WellFormed := by
  intro part hp
  obtain ⟨schema, hs, hp⟩ := List.mem_flatMap.mp hp
  exact (hw schema hs).part hp

omit [DecidableEq χ] in
theorem collapse_cases (schemas : List (Schema χ)) :
    (∃ schema, schemas = [schema] ∧ collapse schemas = schema) ∨
      schemas.length ≠ 1 ∧ collapse schemas = union schemas := by
  match schemas with
  | [] => exact .inr ⟨by simp, rfl⟩
  | [schema] => exact .inl ⟨schema, rfl, rfl⟩
  | _ :: _ :: _ => exact .inr ⟨by simp, rfl⟩

omit [DecidableEq χ] in
theorem wellFormed_collapse {schemas : List (Schema χ)}
    (h : ∀ schema ∈ schemas, schema.WellFormed) : (collapse schemas).WellFormed := by
  obtain ⟨schema, rfl, hc⟩ | ⟨_, hc⟩ := collapse_cases schemas
  · rw [hc]
    exact h schema List.mem_cons_self
  · rw [hc]
    exact wellFormed_union.mpr h

theorem wellFormed_unionOf {schemas : List (Schema χ)}
    (h : ∀ schema ∈ schemas, schema.WellFormed) : (unionOf schemas).WellFormed := by
  apply wellFormed_collapse
  intro part hp
  exact wellFormed_of_mem_flatMap_parts h part (mem_of_mem_distinct hp)

theorem unionOf_of_not_union {schemas : List (Schema χ)}
    (h : ∀ schema ∈ schemas, isUnion schema = false) :
    unionOf schemas = collapse (distinct schemas) := by
  rw [unionOf, flatMap_parts_of_not_union h]

theorem parts_unionOf {schemas : List (Schema χ)}
    (h : ∀ schema ∈ schemas, isUnion schema = false) :
    (unionOf schemas).parts = distinct schemas := by
  rw [unionOf_of_not_union h]
  obtain ⟨schema, hd, hc⟩ | ⟨_, hc⟩ := collapse_cases (distinct schemas)
  · have hm : schema ∈ schemas := mem_of_mem_distinct (by simp [hd])
    rw [hc, hd, parts_of_not_union (h schema hm)]
  · rw [hc, parts]

theorem same_unionOf {schemas : List (Schema χ)} (h : ∀ schema ∈ schemas, isUnion schema = false)
    (hw : ∀ schema ∈ schemas, schema.WellFormed) :
    (unionOf schemas).same (union schemas) = true := by
  rw [same_iff_matched, parts_unionOf h]
  exact matched_distinct hw

end StructuralSchema.Schema
