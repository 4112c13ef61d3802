import StructuralSchema.Proofs.Results
import StructuralSchema.Proofs.Union
import StructuralSchema.Validation

namespace StructuralSchema

open Fields

namespace Schema

variable {χ : Type}

theorem reconcile_eq_ok_iff (path : Path) (fields : Fields (Schema χ)) (members : Fields Json) :
    reconcile path fields members = .ok () ↔ SameKeys fields members := by
  rw [sameKeys_iff, ← find?_isNone_eq_none_iff, ← find?_isNone_eq_none_iff, reconcile]
  cases fields.keys.find? fun key => (members.get? key).isNone with
  | some key => simp
  | none => cases members.keys.find? fun key => (fields.get? key).isNone <;> simp

variable [Check χ]

def Accepts (schema : Schema χ) (value : Json) : Prop :=
  check schema .root value = .ok ()

theorem checkItems_eq_ok_iff {check : Path → Json → Except Fault Unit} {p : Json → Prop}
    (hp : ∀ path item, check path item = .ok () ↔ p item) (path : Path) (position : Nat)
    (items : List Json) :
    checkItems check path position items = .ok () ↔ ∀ item ∈ items, p item := by
  induction items generalizing position with
  | nil => simp [checkItems]
  | cons item items ih =>
    rw [checkItems, check_then_eq_ok_iff, hp, ih, List.forall_mem_cons]

section Parts

variable {fields : Fields (Schema χ)} {schemas : List (Schema χ)}

theorem checkFields_eq_ok_iff
    (ih : ∀ entry ∈ fields, ∀ path value,
      check entry.2 path value = .ok () ↔ Accepts entry.2 value)
    (path : Path) (members : Fields Json) :
    checkFields fields path members = .ok () ↔ Within Accepts fields members := by
  induction fields with
  | nil => simp [checkFields, Within]
  | cons entry fields ihf =>
    obtain ⟨he, hf⟩ := List.forall_mem_cons.mp ih
    rw [checkFields, within_cons, ← ihf hf]
    cases members.get? entry.1 with
    | none => simp
    | some value => simp [check_then_eq_ok_iff, he]

theorem anyAccepts_iff
    (ih : ∀ schema ∈ schemas, ∀ path value,
      check schema path value = .ok () ↔ Accepts schema value)
    (path : Path) (value : Json) :
    anyAccepts schemas path value = true ↔ ∃ schema ∈ schemas, Accepts schema value := by
  induction schemas with
  | nil => simp [anyAccepts]
  | cons schema schemas ihs =>
    obtain ⟨hs, hr⟩ := List.forall_mem_cons.mp ih
    simp only [anyAccepts, Bool.or_eq_true, ihs hr, List.exists_mem_cons_iff, ← hs path value]
    cases check schema path value <;> simp [Except.isOk, Except.toBool]

theorem check_object_eq_ok_iff
    (ih : ∀ entry ∈ fields, ∀ path value,
      check entry.2 path value = .ok () ↔ Accepts entry.2 value)
    (path : Path) (members : Fields Json) :
    check (object fields) path (.object members) = .ok () ↔
      SameKeys fields members ∧ Within Accepts fields members := by
  simp only [check]
  rw [check_then_eq_ok_iff, reconcile_eq_ok_iff, checkFields_eq_ok_iff ih]

theorem check_union_eq_ok_iff
    (ih : ∀ schema ∈ schemas, ∀ path value,
      check schema path value = .ok () ↔ Accepts schema value)
    (path : Path) (value : Json) :
    check (union schemas) path value = .ok () ↔ ∃ schema ∈ schemas, Accepts schema value := by
  rw [check, ← anyAccepts_iff ih path]
  split <;> simp_all

end Parts

/-- Where a value stands does not matter to whether it passes. -/
theorem check_eq_ok_iff (schema : Schema χ) (path : Path) (value : Json) :
    check schema path value = .ok () ↔ Accepts schema value := by
  induction schema generalizing path value with
  | scalar kind => simp [Accepts, check]
  | object fields ih =>
    cases value with
    | object members =>
      rw [Accepts, check_object_eq_ok_iff ih, check_object_eq_ok_iff ih]
    | _ => simp [Accepts, check]
  | listOf element ih =>
    cases value with
    | array items =>
      simp only [Accepts, check]
      rw [checkItems_eq_ok_iff ih, checkItems_eq_ok_iff ih]
    | _ => simp [Accepts, check]
  | union members ih => rw [Accepts, check_union_eq_ok_iff ih, check_union_eq_ok_iff ih]
  | predicate p => simp [Accepts, check]

theorem accepts_scalar {kind : Scalar} {value : Json} :
    Accepts (scalar kind : Schema χ) value ↔ kind.accepts value = true := by
  simp [Accepts, check]

theorem accepts_object {fields : Fields (Schema χ)} {value : Json} :
    Accepts (object fields) value ↔ ∃ members, value = .object members ∧
      SameKeys fields members ∧ Within Accepts fields members := by
  cases value with
  | object members =>
    rw [Accepts, check_object_eq_ok_iff fun entry _ => check_eq_ok_iff entry.2]
    simp
  | _ => simp [Accepts, check]

theorem accepts_listOf {element : Schema χ} {value : Json} :
    Accepts (listOf element) value ↔ ∃ items, value = .array items ∧
      ∀ item ∈ items, Accepts element item := by
  cases value with
  | array items =>
    simp only [Accepts, check]
    rw [checkItems_eq_ok_iff (check_eq_ok_iff element)]
    simp [Accepts]
  | _ => simp [Accepts, check]

theorem accepts_union {members : List (Schema χ)} {value : Json} :
    Accepts (union members) value ↔ ∃ member ∈ members, Accepts member value := by
  rw [Accepts, check_union_eq_ok_iff fun member _ => check_eq_ok_iff member]

theorem accepts_iff_parts {schema : Schema χ} {value : Json} :
    Accepts schema value ↔ ∃ part ∈ schema.parts, Accepts part value := by
  obtain hs | ⟨members, rfl⟩ := eq_union_or_isUnion_eq_false schema
  · simp [parts_of_not_union hs]
  · exact accepts_union

section Same

variable [DecidableEq χ]

theorem Alike.accepts {schema other : Schema χ} {value : Json} (hs : schema.WellFormed)
    (ho : other.WellFormed) (h : Alike schema other)
    (ih : ∀ a ∈ schema.children, ∀ b ∈ other.children, a.same b = true → ∀ value,
      Accepts a value → Accepts b value)
    (hv : Accepts schema value) : Accepts other value := by
  cases h with
  | scalar kind => exact hv
  | @object fields others hl hw =>
    obtain ⟨hd, _⟩ := wellFormed_object.mp hs
    obtain ⟨hd', _⟩ := wellFormed_object.mp ho
    obtain ⟨members, rfl, hk, hf⟩ := accepts_object.mp hv
    have ho : SameKeys fields others := sameKeys_of_keys_subset hd hw.keys_subset hl
    refine accepts_object.mpr ⟨members, rfl, fun key => (ho key).symm.trans (hk key), ?_⟩
    have hb : Within (fun b a => a.same b = true) others fields :=
      hw.symm hd hd' hl fun _ _ _ _ hab => hab
    apply hb.trans hf
    intro b hmb a hma value _ hab hav
    exact ih a.2 (List.mem_map_of_mem hma) b.2 (List.mem_map_of_mem hmb) hab value.2 hav
  | listOf h =>
    obtain ⟨items, rfl, hi⟩ := accepts_listOf.mp hv
    refine accepts_listOf.mpr ⟨items, rfl, fun item hm => ?_⟩
    exact ih _ List.mem_cons_self _ List.mem_cons_self h item (hi item hm)
  | predicate p => exact hv

theorem accepts_of_same {schema other : Schema χ} {value : Json} (hs : schema.WellFormed)
    (ho : other.WellFormed) (h : schema.same other = true) (hv : Accepts schema value) :
    Accepts other value := by
  induction schema, other, h using same_induction generalizing value with
  | parts schema other _ hm ih =>
    obtain ⟨a, ha, hav⟩ := accepts_iff_parts.mp hv
    obtain ⟨b, hb, hab⟩ := hm.1 a ha
    exact accepts_iff_parts.mpr ⟨b, hb, ih a ha b hb hab (hs.part ha) (ho.part hb) hav⟩
  | alike schema other _ _ _ halike ih =>
    apply halike.accepts hs ho _ hv
    intro a ha b hb hab value hav
    exact ih a ha b hb hab (hs.child ha) (ho.child hb) hav

omit [DecidableEq χ] in
theorem accepts_collapse {schemas : List (Schema χ)} {value : Json} :
    Accepts (collapse schemas) value ↔ ∃ schema ∈ schemas, Accepts schema value := by
  obtain ⟨schema, rfl, hc⟩ | ⟨_, hc⟩ := collapse_cases schemas
  · simp [hc]
  · rw [hc, accepts_union]

theorem exists_accepts_of_accepts_unionOf {schemas : List (Schema χ)} {value : Json}
    (h : Accepts (unionOf schemas) value) : ∃ schema ∈ schemas, Accepts schema value := by
  obtain ⟨part, hp, hv⟩ := accepts_collapse.mp h
  obtain ⟨schema, hs, hm⟩ := exists_mem_parts_of_mem_distinct hp
  exact ⟨schema, hs, accepts_iff_parts.mpr ⟨part, hm, hv⟩⟩

/-- What a member accepts is accepted by the union, if not by the member itself then by an earlier
one of the same shape. -/
theorem accepts_unionOf_of_mem {schemas : List (Schema χ)} {schema : Schema χ} {value : Json}
    (hw : ∀ schema ∈ schemas, schema.WellFormed) (hs : schema ∈ schemas)
    (h : Accepts schema value) : Accepts (unionOf schemas) value := by
  obtain ⟨part, hp, hv⟩ := accepts_iff_parts.mp h
  have hw' : ∀ part ∈ schemas.flatMap parts, part.WellFormed :=
    wellFormed_of_mem_flatMap_parts hw
  have hm : part ∈ schemas.flatMap parts := List.mem_flatMap.mpr ⟨schema, hs, hp⟩
  obtain ⟨kept, hk, hsame⟩ := exists_mem_distinct (hw' part hm) hm
  have hwk := hw' kept (mem_of_mem_distinct hk)
  have hv' := accepts_of_same (hw' part hm) hwk (same_symm hwk (hw' part hm) hsame) hv
  exact accepts_collapse.mpr ⟨kept, hk, hv'⟩

theorem accepts_unionOf {schemas : List (Schema χ)} {value : Json}
    (hw : ∀ schema ∈ schemas, schema.WellFormed) :
    Accepts (unionOf schemas) value ↔ ∃ schema ∈ schemas, Accepts schema value :=
  ⟨exists_accepts_of_accepts_unionOf, fun ⟨_, hs, h⟩ => accepts_unionOf_of_mem hw hs h⟩

end Same

end Schema

end StructuralSchema
