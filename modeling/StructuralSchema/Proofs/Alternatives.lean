import StructuralSchema.Predicate.Builtin
import StructuralSchema.Proofs.Canonical
import StructuralSchema.Proofs.Modes

namespace StructuralSchema

open Fields

namespace Schema

variable {χ : Type} [DecidableEq χ]

theorem Matched.append {schemas schemas' others others' : List (Schema χ)}
    (h : Matched schemas others) (h' : Matched schemas' others') :
    Matched (schemas ++ schemas') (others ++ others') := by
  constructor
  · intro a ha
    obtain ha | ha := List.mem_append.mp ha
    · obtain ⟨b, hb, hab⟩ := h.1 a ha
      exact ⟨b, List.mem_append_left others' hb, hab⟩
    · obtain ⟨b, hb, hab⟩ := h'.1 a ha
      exact ⟨b, List.mem_append_right others hb, hab⟩
  · intro b hb
    obtain hb | hb := List.mem_append.mp hb
    · obtain ⟨a, ha, hab⟩ := h.2 b hb
      exact ⟨a, List.mem_append_left schemas' ha, hab⟩
    · obtain ⟨a, ha, hab⟩ := h'.2 b hb
      exact ⟨a, List.mem_append_right schemas ha, hab⟩

theorem Matched.flatMap_parts {schemas others : List (Schema χ)} (h : Matched schemas others) :
    Matched (schemas.flatMap parts) (others.flatMap parts) := by
  constructor
  · intro part hp
    obtain ⟨schema, hs, hp⟩ := List.mem_flatMap.mp hp
    obtain ⟨other, ho, hso⟩ := h.1 schema hs
    obtain ⟨part', hp', hpp⟩ := ((same_iff_matched schema other).mp hso).1 part hp
    exact ⟨part', List.mem_flatMap.mpr ⟨other, ho, hp'⟩, hpp⟩
  · intro part' hp'
    obtain ⟨other, ho, hp'⟩ := List.mem_flatMap.mp hp'
    obtain ⟨schema, hs, hso⟩ := h.2 other ho
    obtain ⟨part, hp, hpp⟩ := ((same_iff_matched schema other).mp hso).2 part' hp'
    exact ⟨part, List.mem_flatMap.mpr ⟨schema, hs, hp⟩, hpp⟩

theorem length_eq_one_of_matched_singleton {schema : Schema χ} {others : List (Schema χ)}
    (hs : schema.WellFormed) (ho : ∀ other ∈ others, other.WellFormed)
    (ha : others.Pairwise fun a b => a.same b = false) (h : Matched [schema] others) :
    others.length = 1 := by
  obtain ⟨hn, hsame⟩ := (matched_singleton_left schema others).mp h
  match others with
  | [] => exact absurd rfl hn
  | [_] => rfl
  | first :: second :: _ =>
    have hf : first.same schema = true :=
      same_symm hs (ho first (by simp)) (hsame first (by simp))
    have hfs : first.same second = true := same_trans hf (hsame second (by simp))
    have hne := (List.pairwise_cons.mp ha).1 second List.mem_cons_self
    rw [hfs] at hne
    cases hne

/-- A list without repeated shapes is collapsed just if each list that it matches is: the one
schema that is left may itself be a union, and then it is compared whole. -/
theorem same_collapse {schemas others : List (Schema χ)}
    (hs : ∀ schema ∈ schemas, schema.WellFormed) (ho : ∀ other ∈ others, other.WellFormed)
    (ha : schemas.Pairwise fun a b => a.same b = false)
    (ha' : others.Pairwise fun a b => a.same b = false) (h : Matched schemas others) :
    (collapse schemas).same (collapse others) = true := by
  have hsymm : Matched others schemas := h.symm fun a hma b hmb => same_symm (hs a hma) (ho b hmb)
  obtain ⟨schema, rfl, hc⟩ | ⟨hl, hc⟩ := collapse_cases schemas <;>
    obtain ⟨other, rfl, hc'⟩ | ⟨hl', hc'⟩ := collapse_cases others <;> rw [hc, hc']
  · exact ((matched_singleton_left schema [other]).mp h).2 other List.mem_cons_self
  · exact absurd (length_eq_one_of_matched_singleton (hs schema List.mem_cons_self) ho ha' h) hl'
  · exact absurd (length_eq_one_of_matched_singleton (ho other List.mem_cons_self) hs ha hsymm) hl
  · exact (same_iff_matched _ _).mpr h

theorem same_unionOf_of_matched_parts {schemas others : List (Schema χ)}
    (hs : ∀ schema ∈ schemas, schema.WellFormed) (ho : ∀ other ∈ others, other.WellFormed)
    (h : Matched (schemas.flatMap parts) (others.flatMap parts)) :
    (unionOf schemas).same (unionOf others) = true := by
  have hp := wellFormed_of_mem_flatMap_parts hs
  have hp' := wellFormed_of_mem_flatMap_parts ho
  have hd : ∀ part ∈ distinct (schemas.flatMap parts), part.WellFormed := fun part hm =>
    hp part (mem_of_mem_distinct hm)
  have hd' : ∀ part ∈ distinct (others.flatMap parts), part.WellFormed := fun part hm =>
    hp' part (mem_of_mem_distinct hm)
  have hm : Matched (distinct (schemas.flatMap parts)) (others.flatMap parts) :=
    (matched_distinct hp).trans h fun _ _ _ _ _ _ => same_trans
  have hm' : Matched (others.flatMap parts) (distinct (others.flatMap parts)) :=
    (matched_distinct hp').symm fun a ha b hb => same_symm (hd' a ha) (hp' b hb)
  exact same_collapse hd hd' (pairwise_distinct _) (pairwise_distinct _)
    (hm.trans hm' fun _ _ _ _ _ _ => same_trans)

omit [DecidableEq χ] in
theorem isUnion_of_mem_flatMap_parts {schemas : List (Schema χ)}
    (h : ∀ schema ∈ schemas, schema.Flat) : ∀ part ∈ schemas.flatMap parts, isUnion part = false := by
  intro part hp
  obtain ⟨schema, hs, hp⟩ := List.mem_flatMap.mp hp
  obtain hu | ⟨members, rfl⟩ := eq_union_or_isUnion_eq_false schema
  · rw [parts_of_not_union hu, List.mem_singleton] at hp
    exact hp ▸ hu
  · exact (h _ hs).2.1 part hp

/-- Also where only one part is left and no union is needed for it. -/
theorem parts_unionOf_of_flat {schemas : List (Schema χ)} (h : ∀ schema ∈ schemas, schema.Flat) :
    (unionOf schemas).parts = distinct (schemas.flatMap parts) := by
  have hp := isUnion_of_mem_flatMap_parts h
  calc (unionOf schemas).parts
      = (unionOf (schemas.flatMap parts)).parts := by
        rw [unionOf_of_not_union hp, unionOf]
    _ = distinct (schemas.flatMap parts) := parts_unionOf hp

theorem same_unionOf_append {schemas others : List (Schema χ)}
    (hs : ∀ schema ∈ schemas, schema.WellFormed) (ho : ∀ other ∈ others, other.WellFormed)
    (hf : ∀ schema ∈ schemas, schema.Flat) (hf' : ∀ other ∈ others, other.Flat) :
    (unionOf [unionOf schemas, unionOf others]).same (unionOf (schemas ++ others)) = true := by
  have hu : ∀ schema ∈ [unionOf schemas, unionOf others], schema.WellFormed := by
    simpa using ⟨wellFormed_unionOf hs, wellFormed_unionOf ho⟩
  have ha : ∀ schema ∈ schemas ++ others, schema.WellFormed :=
    List.forall_mem_append.mpr ⟨hs, ho⟩
  apply same_unionOf_of_matched_parts hu ha
  have hp : [unionOf schemas, unionOf others].flatMap parts =
      distinct (schemas.flatMap parts) ++ distinct (others.flatMap parts) := by
    simp [parts_unionOf_of_flat hf, parts_unionOf_of_flat hf']
  rw [hp, List.flatMap_append]
  exact (matched_distinct (wellFormed_of_mem_flatMap_parts hs)).append
    (matched_distinct (wellFormed_of_mem_flatMap_parts ho))

example :
    let hidden : Schema Builtin := union [union [scalar .int, scalar .string]]
    (unionOf [unionOf [hidden], unionOf [scalar .int]]).same (unionOf [hidden, scalar .int]) =
      false := by
  decide

end Schema

open Schema

variable {χ : Type}

theorem validate_single_eq_ok_iff [Check χ] {options : Options}
    (ht : options.looselyTyped = false) {given : Instance} {key : String} {value : Json}
    (hl : given.load = .ok (.object [(key, value)])) (schema : Schema χ) :
    validate options given (object [(key, schema)]) = .ok () ↔
      options.checkSize given = .ok () ∧ Accepts schema value := by
  have hk : SameKeys [(key, schema)] [(key, value)] := fun _ => Iff.rfl
  have hw : Within Accepts [(key, schema)] [(key, value)] ↔ Accepts schema value := by
    simp [Within, get?_cons]
  rw [validate_eq_ok_iff]
  apply and_congr_right
  intro _
  constructor
  · rintro ⟨fields, members, hf, hm, _, ha⟩
    cases hf
    rw [hl] at hm
    cases hm
    exact hw.mp (ha ht)
  · intro ha
    exact ⟨_, _, rfl, hl, hk, fun _ => hw.mpr ha⟩

variable [DecidableEq χ]

/-- Under a union passes what passes under one of the schemas that it was built from, and so nothing
under a union of unions without members. -/
theorem validate_unionOf_iff [Check χ] {schemas : List (Schema χ)}
    (hw : ∀ schema ∈ schemas, schema.WellFormed) {options : Options}
    (ht : options.looselyTyped = false) {given : Instance} {key : String} {value : Json}
    (hl : given.load = .ok (.object [(key, value)])) :
    (validate options given (object [(key, unionOf schemas)]) = .ok () ↔
        ∃ schema ∈ schemas, validate options given (object [(key, schema)]) = .ok ()) ∧
      ((∀ schema ∈ schemas, schema = union []) →
        validate options given (object [(key, unionOf schemas)]) ≠ .ok ()) := by
  simp only [ne_eq, validate_single_eq_ok_iff ht hl, accepts_unionOf hw]
  constructor
  · constructor
    · rintro ⟨hz, schema, hs, ha⟩
      exact ⟨schema, hs, hz, ha⟩
    · rintro ⟨schema, hs, hz, ha⟩
      exact ⟨hz, schema, hs, ha⟩
  · rintro he ⟨_, schema, hs, ha⟩
    rw [he schema hs, accepts_union] at ha
    simp at ha

/-- The last schema is dropped from the union for the sake of the first, whose fields stand in
another order. -/
theorem validate_unionOf_row :
    let row : Schema Builtin := object [("n", scalar .int), ("mail", predicate ⟨"email", .email⟩)]
    let row' : Schema Builtin :=
      object [("mail", union [predicate ⟨"email", .email⟩]), ("n", union [scalar .int, scalar .int])]
    let schemas := [union [row, union [scalar .null, scalar .bool]], union [], row']
    let given : Instance := .value
      (.object [("row", .object [("mail", .string "a@b.de"), ("n", .number (.int 7 (by decide)))])])
    (unionOf schemas).parts.length = 2 ∧
      validate {} given (object [("row", row')]) = .ok () ∧
      validate {} given (object [("row", unionOf schemas)]) = .ok () ∧
      validate {} given (object [("row", unionOf [union [], (union [] : Schema Builtin)])]) ≠ .ok () := by
  intro row row' schemas given
  have hr : validate {} given (object [("row", row')]) = .ok () := by rfl
  have hs : ∀ schema ∈ schemas, schema.WellFormed := by decide
  have hn : ∀ schema ∈ [union [], (union [] : Schema Builtin)], schema.WellFormed := by decide
  refine ⟨by rfl, hr, ?_, ?_⟩
  · exact (validate_unionOf_iff hs rfl rfl).1.mpr ⟨row', by simp [schemas], hr⟩
  · exact (validate_unionOf_iff hn rfl rfl).2 (by simp)

/-- Which union comes out depends only on which schemas go in, be they repeated or in another order,
and not on whether some of them are united before, as long as none of them hides a union in another
one. -/
theorem same_unionOf_and_append {schemas others : List (Schema χ)}
    (hs : ∀ schema ∈ schemas, schema.WellFormed) (ho : ∀ other ∈ others, other.WellFormed) :
    ((∀ schema ∈ schemas, ∃ other ∈ others, schema.same other = true) →
        (∀ other ∈ others, ∃ schema ∈ schemas, other.same schema = true) →
        (unionOf schemas).same (unionOf others) = true) ∧
      ((∀ schema ∈ schemas, schema.Flat) → (∀ other ∈ others, other.Flat) →
        (unionOf [unionOf schemas, unionOf others]).same (unionOf (schemas ++ others)) = true) := by
  refine ⟨fun h h' => ?_, same_unionOf_append hs ho⟩
  have hm : Matched schemas others := by
    refine ⟨h, fun other hother => ?_⟩
    obtain ⟨schema, hschema, hsame⟩ := h' other hother
    exact ⟨schema, hschema, same_symm (ho other hother) (hs schema hschema) hsame⟩
  exact same_unionOf_of_matched_parts hs ho hm.flatMap_parts

theorem same_unionOf_and_append_rows :
    let row : Schema Builtin := object [("n", listOf (union []))]
    let hidden : Schema Builtin := union [union [scalar .int, scalar .string]]
    let hidden' : Schema Builtin := union [union [scalar .string, scalar .int, scalar .string]]
    let first : List (Schema Builtin) := [union [row, scalar .null], scalar .int]
    let second : List (Schema Builtin) := [union [], union [scalar .int, scalar .bool, row]]
    (unionOf [hidden, row, union [row]]).same (unionOf [union [row, row], hidden', hidden]) = true ∧
      (unionOf [unionOf first, unionOf second]).same (unionOf (first ++ second)) = true := by
  intro row hidden hidden' first second
  constructor
  · have hs : ∀ schema ∈ [hidden, row, union [row]], schema.WellFormed := by decide
    have ho : ∀ other ∈ [union [row, row], hidden', hidden], other.WellFormed := by decide
    exact (same_unionOf_and_append hs ho).1 (by decide) (by decide)
  · have hs : ∀ schema ∈ first, schema.WellFormed := by decide
    have ho : ∀ other ∈ second, other.WellFormed := by decide
    have hf : ∀ schema ∈ first, schema.Flat := by
      simp [first, row, Flat, AllFlat, FieldsFlat, isUnion]
    have hf' : ∀ other ∈ second, other.Flat := by
      simp [second, row, Flat, AllFlat, FieldsFlat, isUnion]
    exact (same_unionOf_and_append hs ho).2 hf hf'

end StructuralSchema
