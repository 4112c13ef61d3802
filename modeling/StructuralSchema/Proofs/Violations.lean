import StructuralSchema.Proofs.Modes
import StructuralSchema.Validation.Violations

namespace StructuralSchema

open Fields

def verdict : List Fault → Except Fault Unit
  | [] => .ok ()
  | fault :: _ => .error fault

theorem verdict_append (faults others : List Fault) :
    verdict (faults ++ others) = (do verdict faults; verdict others) := by
  cases faults <;> rfl

theorem verdict_eq_ok_iff (faults : List Fault) : verdict faults = .ok () ↔ faults = [] := by
  cases faults <;> simp [verdict]

theorem mem_of_verdict {faults : List Fault} {fault : Fault} (h : verdict faults = .error fault) :
    fault ∈ faults := by
  cases faults with
  | nil => cases h
  | cons first rest =>
    obtain rfl : first = fault := by simpa [verdict] using h
    exact List.mem_cons_self

theorem isOk_verdict (faults : List Fault) : (verdict faults).isOk = faults.isEmpty := by
  cases faults <;> rfl

theorem verdict_map_filter (keys : List String) (p : String → Bool) (fault : String → Fault) :
    verdict ((keys.filter p).map fault) =
      match keys.find? p with
      | some key => .error (fault key)
      | none => .ok () := by
  induction keys with
  | nil => rfl
  | cons key keys ih =>
    cases hp : p key with
    | true => simp [hp, verdict]
    | false => simpa [hp] using ih

namespace Schema

variable {χ : Type}

theorem reconcile_eq_verdict (path : Path) (fields : Fields (Schema χ)) (members : Fields Json) :
    reconcile path fields members = verdict (keyViolations path fields members) := by
  rw [keyViolations, verdict_append, verdict_map_filter, verdict_map_filter]
  simp only [decide_not_mem_keys, reconcile]
  cases fields.keys.find? fun key => (members.get? key).isNone with
  | some key => rfl
  | none => cases members.keys.find? fun key => (fields.get? key).isNone <;> rfl

theorem checkItems_eq_verdict {check : Path → Json → Except Fault Unit}
    {faults : Path → Json → List Fault}
    (h : ∀ path item, check path item = verdict (faults path item)) (path : Path) (position : Nat)
    (items : List Json) :
    checkItems check path position items = verdict (itemViolations faults path position items) := by
  induction items generalizing position with
  | nil => rfl
  | cons item items ih => rw [checkItems, itemViolations, verdict_append, h, ih]

theorem keys_subset_of_keyViolations {path : Path} {fields : Fields (Schema χ)}
    {members : Fields Json} (h : keyViolations path fields members = []) :
    fields.keys ⊆ members.keys := by
  have hr := reconcile_eq_verdict path fields members
  rw [h] at hr
  exact fun key hk => ((reconcile_eq_ok_iff path fields members).mp hr key).mp hk

variable [Check χ]

section Parts

variable {fields : Fields (Schema χ)} {schemas : List (Schema χ)}

/-- The walk fails at a key that is absent, and the list of violations passes over it, so that they
agree only where the keys have been compared before. -/
theorem checkFields_eq_verdict
    (ih : ∀ entry ∈ fields, ∀ path value,
      check entry.2 path value = verdict (violations entry.2 path value))
    (path : Path) {members : Fields Json} (hk : fields.keys ⊆ members.keys) :
    checkFields fields path members = verdict (fieldViolations fields path members) := by
  induction fields with
  | nil => rfl
  | cons entry fields ihf =>
    obtain ⟨he, hf⟩ := List.forall_mem_cons.mp ih
    obtain ⟨hm, hr⟩ := List.cons_subset.mp hk
    obtain ⟨value, hv⟩ := exists_get?_of_mem_keys hm
    simp only [checkFields, fieldViolations, hv]
    rw [verdict_append, he, ihf hf hr]

theorem anyAccepts_eq_someWithout
    (ih : ∀ schema ∈ schemas, ∀ path value,
      check schema path value = verdict (violations schema path value))
    (path : Path) (value : Json) :
    anyAccepts schemas path value = someWithout schemas path value := by
  induction schemas with
  | nil => rfl
  | cons schema schemas ihs =>
    obtain ⟨hs, hr⟩ := List.forall_mem_cons.mp ih
    rw [anyAccepts, someWithout, hs, isOk_verdict, ihs hr]

end Parts

theorem check_eq_verdict (schema : Schema χ) (path : Path) (value : Json) :
    check schema path value = verdict (violations schema path value) := by
  induction schema generalizing path value with
  | scalar kind =>
    simp only [check, violations, Scalar.accepts_iff]
    split <;> rfl
  | object fields ih =>
    cases value with
    | object members =>
      simp only [check, violations]
      rw [reconcile_eq_verdict]
      cases hk : keyViolations path fields members with
      | nil => exact checkFields_eq_verdict ih path (keys_subset_of_keyViolations hk)
      | cons fault faults => rfl
    | _ => rfl
  | listOf element ih =>
    cases value with
    | array items => exact checkItems_eq_verdict ih path 0 items
    | _ => rfl
  | union members ih =>
    rw [check, violations, anyAccepts_eq_someWithout ih]
    split <;> rfl
  | predicate p =>
    simp only [check, violations, Predicate.holds_iff]
    split <;> rfl

theorem violations_eq_nil_iff (schema : Schema χ) (path : Path) (value : Json) :
    violations schema path value = [] ↔ Accepts schema value := by
  rw [← verdict_eq_ok_iff, ← check_eq_verdict, check_eq_ok_iff]

theorem violations_object_of_kind_ne {fields : Fields (Schema χ)} {path : Path} {value : Json}
    (h : value.kind ≠ .object) :
    violations (object fields) path value =
      [.wrongType path (object fields).summary value.kind] := by
  cases value with
  | object members => exact absurd rfl h
  | _ => rfl

theorem violations_listOf_of_kind_ne {element : Schema χ} {path : Path} {value : Json}
    (h : value.kind ≠ .list) :
    violations (listOf element) path value =
      [.wrongType path (listOf element).summary value.kind] := by
  cases value with
  | array items => exact absurd rfl h
  | _ => rfl

theorem someWithout_iff (schemas : List (Schema χ)) (path : Path) (value : Json) :
    someWithout schemas path value = true ↔ ∃ schema ∈ schemas, Accepts schema value := by
  rw [← anyAccepts_eq_someWithout fun schema _ => check_eq_verdict schema]
  exact anyAccepts_iff (fun schema _ => check_eq_ok_iff schema) path value

theorem verdict_rootViolations (options : Options) (fields : Fields (Schema χ))
    (members : Fields Json) : verdict (rootViolations options fields members) = (do
      reconcile .root fields members
      if options.looselyTyped then .ok () else checkFields fields .root members) := by
  unfold rootViolations
  split
  · rw [← reconcile_eq_verdict]
    cases reconcile .root fields members <;> rfl
  · rw [← check_eq_verdict]
    rfl

theorem validate_object (options : Options) (given : Instance) (fields : Fields (Schema χ)) :
    validate options given (object fields) = (do
      options.checkSize given
      let root ← given.load
      let members ← root.members?
      verdict (rootViolations options fields members)) := by
  simp only [validate, verdict_rootViolations]

end Schema

open Schema

variable {χ : Type} [Check χ]

/-- An instance that is small enough and an object passes just if nothing in it violates the schema,
and otherwise fails with the first violation. -/
theorem validate_eq_verdict {options : Options} {given : Instance} {schema : Schema χ}
    {members : Fields Json} (hs : options.looselyTyped = false)
    (hz : options.checkSize given = .ok ()) (hl : given.load = .ok (.object members))
    (hr : schema.isObject = true) :
    validate options given schema = verdict (violations schema .root (.object members)) := by
  cases schema with
  | object fields =>
    rw [← check_eq_verdict, validate, hz, hl, hs]
    rfl
  | _ => cases hr

/-- The second row has nothing wrong in it. The check of the first one ends in an error, that of the
third in a crash, and that of the fourth in a refusal. -/
theorem validate_staff_eq_verdict :
    let mail : Json → Outcome
      | .string _ => .pass
      | .null => .error
      | .array _ => .crash
      | _ => .reject
    let row (id mail : Json) : Json := .object [("id", id), ("mail", mail)]
    let root : Fields Json :=
      [("staff", .array [row (.string "1") .null, row (.bool true) (.string "a@b"),
          row (.bool false) (.array []), row .null (.bool true), .object [("name", .null)]]),
        ("note", .null)]
    let schema : Schema (Json → Outcome) := object
      [("staff", listOf (object [("mail", predicate ⟨"mail", mail⟩), ("id", scalar .bool)])),
        ("note", union [scalar .int, listOf (scalar .string)])]
    let place (position : Nat) (key : String) : Path :=
      .key (.index (.key .root "staff") position) key
    violations schema .root (.object root) =
        [.predicateFailed (place 0 "mail") "mail" .null,
          .wrongType (place 0 "id") "bool" .string,
          .predicateFailed (place 2 "mail") "mail" (.array []),
          .predicateFailed (place 3 "mail") "mail" (.bool true),
          .wrongType (place 3 "id") "bool" .null,
          .missingKey (place 4 "mail"), .missingKey (place 4 "id"),
          .unexpectedKey (place 4 "name"),
          .wrongType (.key .root "note") "int | [str]" .null] ∧
      validate {} (.value (.object root)) schema =
        verdict (violations schema .root (.object root)) := by
  intro mail row root schema place
  exact ⟨rfl, validate_eq_verdict rfl rfl rfl rfl⟩

end StructuralSchema
