import StructuralSchema.Predicate.Builtin
import StructuralSchema.Proofs.Modes

namespace StructuralSchema

open Fields Schema

variable {χ : Type} [DecidableEq χ]

namespace Schema

/-- Fields are looked up from one side only. That the other side has no more of them follows from
their number. -/
theorem sameKeys_of_same {fields others : Fields (Schema χ)} (hd : fields.Distinct)
    (h : (object fields).same (object others) = true) : SameKeys fields others := by
  obtain ⟨hl, hw⟩ := same_object.mp h
  exact sameKeys_of_keys_subset hd hw.keys_subset hl

end Schema

/-- Being the same shape is an equivalence relation, and no instance has the shape of one schema
only out of two that are the same. -/
theorem same_equivalence_and_isValid_eq :
    (Equivalence fun first second : {schema : Schema χ // schema.WellFormed} =>
        first.1.same second.1 = true) ∧
      ∀ schema other : {schema : Schema χ // schema.WellFormed}, schema.1.same other.1 = true →
        ∀ (options : Options) (given : Instance),
          isValid options given schema.1 = isValid options given other.1 := by
  refine ⟨equivalence_same, fun schema other h options given => ?_⟩
  simp only [isValid, same_right_eq_of_same schema.2 other.2 h]

theorem same_equivalence_and_isValid_eq_tags :
    let first : Schema Builtin :=
      object [("n", union [scalar .int, union [scalar .int, scalar .int]]),
        ("tags", listOf (union []))]
    let second : Schema Builtin := object [("tags", listOf (union [])), ("n", scalar .int)]
    let third : Schema Builtin :=
      object [("n", union [scalar .int]), ("tags", union [listOf (union []), listOf (union [])])]
    let given : Instance :=
      .value (.object [("tags", .array []), ("n", .number (.int 7 (by decide)))])
    first.same second = true ∧ second.same third = true ∧ third.same first = true ∧
      isValid {} given second = .ok true ∧ isValid {} given third = .ok true := by
  intro first second third given
  obtain ⟨he, hv⟩ := same_equivalence_and_isValid_eq (χ := Builtin)
  let a : {schema : Schema Builtin // schema.WellFormed} := ⟨first, by decide⟩
  let b : {schema : Schema Builtin // schema.WellFormed} := ⟨second, by decide⟩
  let c : {schema : Schema Builtin // schema.WellFormed} := ⟨third, by decide⟩
  have hab : a.1.same b.1 = true := by rfl
  have hbc : b.1.same c.1 = true := by rfl
  have hb : isValid {} given second = .ok true := by rfl
  exact ⟨hab, hbc, he.symm (he.trans hab hbc), hb, (hv b c hbc {} given).symm.trans hb⟩

/-- Out of two schemas that are the same no instance passes one only, typed loosely or not. -/
theorem validate_iff_of_same [Check χ] {schema other : Schema χ} (hs : schema.WellFormed)
    (ho : other.WellFormed) (hr : schema.isObject = true) (hr' : other.isObject = true)
    (h : schema.same other = true) (options : Options) (given : Instance) :
    validate options given schema = .ok () ↔ validate options given other = .ok () := by
  cases schema with
  | object fields =>
    cases other with
    | object others =>
      have hk : SameKeys fields others := sameKeys_of_same (wellFormed_object.mp hs).1 h
      have h' : (object others).same (object fields) = true := same_symm hs ho h
      exact ⟨validate_of_validate hk fun _ => accepts_of_same hs ho h,
        validate_of_validate (fun key => (hk key).symm) fun _ => accepts_of_same ho hs h'⟩
    | _ => cases hr'
  | _ => cases hr

theorem validate_iff_of_same_mail :
    let schema : Schema Builtin := object
      [("mail", union [union [predicate ⟨"email", .email⟩],
          union [listOf (union []), scalar .null]]), ("n", scalar .int)]
    let other : Schema Builtin := object
      [("n", union [scalar .int, scalar .int]),
        ("mail", union [union [scalar .null, listOf (union [])], predicate ⟨"email", .email⟩])]
    let given : Instance :=
      .value (.object [("n", .number (.int 7 (by decide))), ("mail", .array [])])
    schema.same other = true ∧ validate {} given schema = .ok () ∧
      validate {} given other = .ok () := by
  intro schema other given
  have h : schema.same other = true := by rfl
  have hv : validate {} given schema = .ok () := by rfl
  exact ⟨h, hv, (validate_iff_of_same (by decide) (by decide) rfl rfl h {} given).mp hv⟩

/-- Of two schemas that are the same both have predicates or neither has, and no instance has exactly
the shape of a schema that has some, wherever they stand. -/
theorem hasPredicates_eq_of_same_and_isValid_ne :
    (∀ schema other : Schema χ, schema.WellFormed → other.WellFormed →
        schema.same other = true → schema.hasPredicates = other.hasPredicates) ∧
      ∀ schema : Schema χ, schema.WellFormed → schema.hasPredicates = true →
        ∀ (options : Options) (given : Instance), given.WellFormed →
          isValid options given schema ≠ .ok true := by
  refine ⟨fun schema other => hasPredicates_eq_of_same, ?_⟩
  intro schema hs hp options given hg hv
  obtain ⟨_, members, hl, hm⟩ := isValid_eq_ok_iff.mp hv
  have hw := wellFormed_ofValue (χ := χ) (Instance.wellFormed_load hg hl)
  have he := hasPredicates_eq_of_same hw hs hm
  rw [hasPredicates_ofValue, hp] at he
  cases he

theorem hasPredicates_eq_of_same_mails :
    let mail : Schema Builtin := predicate ⟨"email", .email⟩
    let schema := object [("mails", union [listOf (union [mail, mail]), union [listOf mail]])]
    let other := object [("mails", union [union [listOf (union [mail])], listOf mail])]
    let given : Instance := .value (.object [("mails", .array [])])
    schema.same other = true ∧ schema.hasPredicates = true ∧ other.hasPredicates = true ∧
      isValid {} given other ≠ .ok true := by
  intro mail schema other given
  obtain ⟨he, hv⟩ := hasPredicates_eq_of_same_and_isValid_ne (χ := Builtin)
  have hs : schema.WellFormed := by decide
  have ho : other.WellFormed := by decide
  have hsame : schema.same other = true := by rfl
  have hp : schema.hasPredicates = true := by rfl
  have hp' : other.hasPredicates = true := (he schema other hs ho hsame).symm.trans hp
  exact ⟨hsame, hp, hp', hv other ho hp' {} given (by decide)⟩

end StructuralSchema
