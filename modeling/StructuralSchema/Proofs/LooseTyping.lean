import StructuralSchema.Predicate.Builtin
import StructuralSchema.Proofs.Modes

namespace StructuralSchema

open Fields

def FirstWith (p : String → Prop) (names : List String) (name : String) : Prop :=
  p name ∧ ∃ before after, names = before ++ name :: after ∧ ∀ other ∈ before, ¬p other

theorem find?_eq_some_iff_firstWith {p : String → Prop} [DecidablePred p] {names : List String}
    {name : String} : names.find? (p ·) = some name ↔ FirstWith p names name := by
  simp [List.find?_eq_some_iff_append, FirstWith]

theorem exists_firstWith {p : String → Prop} [DecidablePred p] {names : List String}
    (h : ∃ name ∈ names, p name) : ∃ name, FirstWith p names name := by
  simpa [← find?_eq_some_iff_firstWith, ← Option.isSome_iff_exists] using h

namespace Schema

variable {χ : Type} {fields : Fields (Schema χ)} {members : Fields Json} {key : String}

theorem reconcile_of_missing (path : Path) (h : FirstWith (· ∉ members.keys) fields.keys key) :
    reconcile path fields members = .error (.missingKey (path.key key)) := by
  simp only [← find?_eq_some_iff_firstWith, decide_not_mem_keys] at h
  rw [reconcile, h]

theorem reconcile_of_unexpected (path : Path) (hm : ∀ name ∈ fields.keys, name ∈ members.keys)
    (h : FirstWith (· ∉ fields.keys) members.keys key) :
    reconcile path fields members = .error (.unexpectedKey (path.key key)) := by
  simp only [← find?_eq_some_iff_firstWith, decide_not_mem_keys] at h
  rw [reconcile, (find?_isNone_eq_none_iff fields.keys members).mpr hm, h]

end Schema

open Schema

variable {χ : Type} [Check χ]

section Runs

variable {given : Instance} {fields : Fields (Schema χ)} {members : Fields Json} {fault : Fault}

theorem validate_strict_of_loose {maxSize : Option UInt64} {schema : Schema χ}
    (h : validate ⟨maxSize, true⟩ given schema = .error fault) :
    validate ⟨maxSize, false⟩ given schema = .error fault := by
  unfold validate at h ⊢
  refine bind_eq_error_of_imp (fun _ h => ?_) h
  cases schema with
  | object fields =>
    refine bind_eq_error_of_imp (fun root h => ?_) h
    refine bind_eq_error_of_imp (fun members h => ?_) h
    exact bind_eq_error_of_imp (fun _ h => by simp at h) h
  | _ => exact h

theorem validate_of_reconcile {options : Options} (hz : options.checkSize given = .ok ())
    (hl : given.load = .ok (.object members))
    (h : reconcile .root fields members = .error fault) :
    validate options given (object fields) = .error fault := by
  rw [validate, hz, hl]
  simp only [bind, Except.bind, Json.members?, h]

theorem validate_loose_eq_ok_iff {maxSize : Option UInt64}
    (hz : (⟨maxSize, true⟩ : Options).checkSize given = .ok ())
    (hl : given.load = .ok (.object members)) :
    validate ⟨maxSize, true⟩ given (object fields) = .ok () ↔ SameKeys fields members := by
  rw [validate_eq_ok_iff]
  constructor
  · rintro ⟨-, _, _, hs, hr, hk, -⟩
    cases hs
    cases hl.symm.trans hr
    exact hk
  · exact fun hk => ⟨hz, fields, members, rfl, hl, hk, nofun⟩

end Runs

/-- Loose typing is the comparison of the keys at the root, which strict typing begins with: neither
tells an unexpected key where one is missing, nor a wrong type where any key is wrong. -/
theorem validate_loose_strict (maxSize : Option UInt64) (given : Instance) (schema : Schema χ) :
    let loose := validate ⟨maxSize, true⟩ given schema
    let strict := validate ⟨maxSize, false⟩ given schema
    (∀ fault, loose = .error fault → strict = .error fault) ∧ (strict = .ok () → loose = .ok ()) ∧
      ∀ (fields : Fields (Schema χ)) (members : Fields Json),
        (⟨maxSize, true⟩ : Options).checkSize given = .ok () → schema = object fields →
        given.load = .ok (.object members) →
          (loose = .ok () ↔ SameKeys fields members) ∧
          ((∃ key ∈ fields.keys, key ∉ members.keys) →
            ∃ key, FirstWith (· ∉ members.keys) fields.keys key ∧
              loose = .error (.missingKey (.key .root key)) ∧
              strict = .error (.missingKey (.key .root key))) ∧
          ((∀ key ∈ fields.keys, key ∈ members.keys) → (∃ key ∈ members.keys, key ∉ fields.keys) →
            ∃ key, FirstWith (· ∉ fields.keys) members.keys key ∧
              loose = .error (.unexpectedKey (.key .root key)) ∧
              strict = .error (.unexpectedKey (.key .root key))) := by
  intro loose strict
  have herror : ∀ fault, loose = .error fault → strict = .error fault :=
    fun _ => validate_strict_of_loose
  refine ⟨herror, fun hs => ?_, ?_⟩
  · cases hl : loose with
    | ok _ => rfl
    | error fault =>
      rw [herror fault hl] at hs
      cases hs
  · rintro fields members hz rfl hl
    refine ⟨validate_loose_eq_ok_iff hz hl, fun h => ?_, fun hm h => ?_⟩
    · obtain ⟨key, hk⟩ := exists_firstWith h
      have hr := validate_of_reconcile hz hl (reconcile_of_missing .root hk)
      exact ⟨key, hk, hr, herror _ hr⟩
    · obtain ⟨key, hk⟩ := exists_firstWith h
      have hr := validate_of_reconcile hz hl (reconcile_of_unexpected .root hm hk)
      exact ⟨key, hk, hr, herror _ hr⟩

/-- A missing key is told before an unexpected one, which comes first in the instance, and before a
wrong type; a wrong type alone does not matter to loose typing. -/
theorem validate_loose_strict_staff :
    let staff (keys : List String) : Instance :=
      .value (.object (keys.map fun key => (key, .bool true)))
    let fields : Fields (Schema Builtin) :=
      [("id", scalar .int), ("mail", predicate ⟨"email", .email⟩), ("tag", scalar .bool)]
    let loose (given : Instance) := validate ⟨some 64, true⟩ given (object fields)
    let strict (given : Instance) := validate ⟨some 64, false⟩ given (object fields)
    (∃ key, FirstWith (· ∉ ["note", "id"]) ["id", "mail", "tag"] key ∧
        loose (staff ["note", "id"]) = .error (.missingKey (.key .root key)) ∧
        strict (staff ["note", "id"]) = .error (.missingKey (.key .root key))) ∧
      loose (staff ["tag", "id", "mail"]) = .ok () := by
  intro staff fields loose strict
  constructor
  · obtain ⟨_, hmissing, _⟩ := (validate_loose_strict (some 64) (staff ["note", "id"])
      (object fields)).2.2 fields _ (by rfl) rfl rfl
    exact hmissing ⟨"tag", by decide, by decide⟩
  · obtain ⟨hok, _⟩ := (validate_loose_strict (some 64) (staff ["tag", "id", "mail"])
      (object fields)).2.2 fields _ (by rfl) rfl rfl
    refine hok.mpr fun key => ?_
    simp [fields, keys, or_comm, or_left_comm]

end StructuralSchema
