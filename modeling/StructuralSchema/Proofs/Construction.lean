import Mathlib.Data.List.Induction
import Mathlib.Data.List.Pairwise
import StructuralSchema.Proofs.Alternatives
import StructuralSchema.Proofs.Reloading

namespace StructuralSchema.Schema

open Fields

variable {χ : Type} [DecidableEq χ]

/-- The schemas that come of kinds, predicates, fields, elements and the union of other such
schemas, of documents and of examples. -/
inductive Built : Schema χ → Prop where
  | scalar (kind : Scalar) : Built (scalar kind)
  | predicate (p : Predicate χ) : Built (predicate p)
  | listOf {element : Schema χ} (h : Built element) : Built (listOf element)
  | object {fields : List (String × Schema χ)} (h : ∀ entry ∈ fields, Built entry.2) :
      Built (object (ofList fields))
  | unionOf {schemas : List (Schema χ)} (h : ∀ schema ∈ schemas, Built schema) :
      Built (unionOf schemas)
  | ofDocument {registry : Registry χ} {document : Json} {schema : Schema χ}
      (h : ofDocument registry document = .ok schema) : Built schema
  | ofRoot {value : Json} {schema : Schema χ} (hv : value.WellFormed)
      (h : ofRoot value = .ok schema) : Built schema
  | ofValue {value : Json} (hv : value.WellFormed) : Built (ofValue value)

theorem Built.canonical {schema : Schema χ} (h : Built schema) :
    schema.WellFormed ∧ schema.Canonical := by
  induction h with
  | scalar kind => exact ⟨trivial, trivial, trivial⟩
  | predicate p => exact ⟨trivial, trivial, trivial⟩
  | listOf _ ih => exact ⟨wellFormed_listOf.mpr ih.1, canonical_listOf.mpr ih.2⟩
  | @object fields _ ih =>
    have he : ∀ entry ∈ ofList fields, entry.2.WellFormed ∧ entry.2.Canonical :=
      fun entry hm => ih entry (mem_ofList hm)
    exact ⟨wellFormed_object.mpr ⟨distinct_ofList fields, fun entry hm => (he entry hm).1⟩,
      canonical_object.mpr fun entry hm => (he entry hm).2⟩
  | unionOf _ ih =>
    exact ⟨wellFormed_unionOf fun schema hs => (ih schema hs).1,
      canonical_unionOf fun schema hs => (ih schema hs).2⟩
  | ofDocument h =>
    have hs := (ofDocument_eq_ok_iff.mp h).2.settled
    exact ⟨hs.wellFormed, hs.canonical⟩
  | ofRoot hv h =>
    obtain ⟨members, rfl, rfl⟩ := ofRoot_eq_ok_iff.mp h
    exact ⟨wellFormed_ofValue hv, canonical_ofValue _⟩
  | ofValue hv => exact ⟨wellFormed_ofValue hv, canonical_ofValue _⟩

/-- The schemas at those positions before which none that is the same stands. -/
def firsts (schemas : List (Schema χ)) : List (Schema χ) :=
  (List.range schemas.length).filterMap fun position =>
    schemas[position]?.filter fun schema =>
      !(schemas.take position).any fun earlier => earlier.same schema

theorem firsts_concat (schemas : List (Schema χ)) (schema : Schema χ) :
    firsts (schemas ++ [schema]) =
      firsts schemas ++ if anySame schemas schema then [] else [schema] := by
  rw [firsts, List.length_append, List.length_singleton, List.range_succ, List.filterMap_append]
  congr 1
  · apply List.filterMap_congr
    intro position hp
    have hl : position < schemas.length := List.mem_range.mp hp
    rw [List.getElem?_append_left hl, List.take_append_of_le_length (Nat.le_of_lt hl)]
  · rw [anySame_eq, List.filterMap_cons, List.getElem?_concat_length, List.take_left,
      Option.filter_some]
    cases schemas.any fun earlier => earlier.same schema <;> rfl

theorem anySame_distinct {schemas : List (Schema χ)} (hw : ∀ schema ∈ schemas, schema.WellFormed)
    (schema : Schema χ) : anySame (distinct schemas) schema = anySame schemas schema := by
  rw [Bool.eq_iff_iff, anySame_iff, anySame_iff]
  constructor
  · rintro ⟨kept, hk, hs⟩
    exact ⟨kept, mem_of_mem_distinct hk, hs⟩
  · rintro ⟨earlier, he, hs⟩
    obtain ⟨kept, hk, hke⟩ := exists_mem_distinct (hw earlier he) he
    exact ⟨kept, hk, same_trans hke hs⟩

/-- By induction from the end: it makes no difference to the last schema whether it is compared with
all that came or with those that were kept. -/
theorem distinct_eq_firsts {schemas : List (Schema χ)}
    (hw : ∀ schema ∈ schemas, schema.WellFormed) : distinct schemas = firsts schemas := by
  induction schemas using List.reverseRecOn with
  | nil => rfl
  | append_singleton schemas schema ih =>
    have hs : ∀ earlier ∈ schemas, earlier.WellFormed := fun earlier he =>
      hw earlier (List.mem_append_left [schema] he)
    have hd : distinct (schemas ++ [schema]) = keep (distinct schemas) schema := by
      rw [distinct, List.foldl_concat]
      rfl
    rw [hd, keep, anySame_distinct hs, firsts_concat, ih hs]
    split
    · rw [List.append_nil]
    · rfl

theorem eq_of_same_of_apart {schemas : List (Schema χ)}
    (h : schemas.Pairwise fun a b => a.same b = false) {schema other : Schema χ}
    (hs : schema ∈ schemas) (ho : other ∈ schemas) (hso : schema.same other = true)
    (hos : other.same schema = true) : schema = other := by
  have hsymm : Std.Symm fun a b : Schema χ => ¬(a.same b = true ∧ b.same a = true) :=
    ⟨fun a b hn hba => hn hba.symm⟩
  have hp : schemas.Pairwise fun a b => ¬(a.same b = true ∧ b.same a = true) :=
    h.imp fun hab hs => by simp [hab] at hs
  by_contra hne
  exact hp.forall hs ho hne ⟨hso, hos⟩

theorem existsUnique_mem_distinct {schemas : List (Schema χ)}
    (hw : ∀ schema ∈ schemas, schema.WellFormed) {schema : Schema χ} (h : schema ∈ schemas) :
    ∃! kept, kept ∈ distinct schemas ∧ kept.same schema = true := by
  obtain ⟨kept, hk, hs⟩ := exists_mem_distinct (hw schema h) h
  refine ⟨kept, ⟨hk, hs⟩, fun other ⟨ho, hos⟩ => ?_⟩
  have hwk := hw kept (mem_of_mem_distinct hk)
  have hwo := hw other (mem_of_mem_distinct ho)
  have hok : other.same kept = true := same_trans hos (same_symm hwk (hw schema h) hs)
  exact eq_of_same_of_apart (pairwise_distinct schemas) ho hk hok (same_symm hwo hwk hok)

/-- Whatever is built is canonical. The union of canonical schemas is so too, and keeps of each shape
among their parts one schema, which is the first one, in the order in which the shapes come. -/
theorem built_canonical_and_parts_unionOf :
    (∀ schema : Schema χ, Built schema → schema.WellFormed ∧ schema.Canonical) ∧
      ∀ schemas : List (Schema χ), (∀ schema ∈ schemas, schema.WellFormed ∧ schema.Canonical) →
        (unionOf schemas).Canonical ∧
          (unionOf schemas).parts = firsts (schemas.flatMap parts) ∧
          ∀ part ∈ schemas.flatMap parts,
            ∃! kept, kept ∈ (unionOf schemas).parts ∧ kept.same part = true := by
  refine ⟨fun _ => Built.canonical, fun schemas h => ?_⟩
  have hf : ∀ schema ∈ schemas, schema.Flat := fun schema hs => (h schema hs).2.1
  have hw := wellFormed_of_mem_flatMap_parts fun schema hs => (h schema hs).1
  refine ⟨canonical_unionOf fun schema hs => (h schema hs).2, ?_, ?_⟩
  · rw [parts_unionOf_of_flat hf, distinct_eq_firsts hw]
  · rw [parts_unionOf_of_flat hf]
    exact fun part hp => existsUnique_mem_distinct hw hp

/-- The third schema is the same as a part of the first one, and comes from a document that names its
fields in another order and one of their kinds twice. -/
theorem built_canonical_and_parts_unionOf_rows :
    let row : Schema Builtin := object [("n", scalar .int), ("m", scalar .string)]
    let row' : Schema Builtin := object [("m", scalar .string), ("n", scalar .int)]
    let schemas : List (Schema Builtin) :=
      [unionOf [row, scalar .null], ofValue (.array []), row', unionOf [scalar .bool, scalar .null]]
    (Built (unionOf schemas) ∧ (unionOf schemas).Canonical) ∧
      (unionOf schemas).parts = [row, scalar .null, listOf (union []), scalar .bool] ∧
      ∃! kept, kept ∈ (unionOf schemas).parts ∧ kept.same row' = true := by
  intro row row' schemas
  have hrow : Built row :=
    @Built.object _ _ [("n", scalar .int), ("m", scalar .string)]
      (by simpa using ⟨.scalar .int, .scalar .string⟩)
  have hrow' : Built row' := by
    have hd : ofDocument .empty (.object [("m", .string "str"),
        ("n", .object [("$union", .array [.string "int", .string "integer"])])]) = .ok row' := by rfl
    exact .ofDocument hd
  have hs : ∀ schema ∈ schemas, Built schema := by
    have hf : Built (unionOf [row, scalar .null]) := .unionOf (by simpa using ⟨hrow, .scalar .null⟩)
    have hl : Built (unionOf [scalar .bool, (scalar .null : Schema Builtin)]) :=
      .unionOf (by simpa using ⟨.scalar .bool, .scalar .null⟩)
    simpa [schemas] using ⟨hf, .ofValue (by decide), hrow', hl⟩
  have hall := built_canonical_and_parts_unionOf (χ := Builtin)
  obtain ⟨hc, hp, hu⟩ := hall.2 schemas fun schema hm => hall.1 schema (hs schema hm)
  exact ⟨⟨.unionOf hs, hc⟩, hp.trans (by rfl), hu row' (by simp [schemas, row', parts])⟩

end StructuralSchema.Schema
