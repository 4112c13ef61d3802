import StructuralSchema.Predicate.Builtin
import StructuralSchema.Proofs.Inference
import StructuralSchema.Proofs.Json.Reading

namespace StructuralSchema

open Fields

/-- A text may be anything; a value has no object with two members of one name. -/
def Instance.WellFormed : Instance → Prop
  | text _ => True
  | value v => v.WellFormed

instance : (given : Instance) → Decidable given.WellFormed
  | .text _ => .isTrue trivial
  | .value v => inferInstanceAs (Decidable v.WellFormed)

theorem Instance.wellFormed_load {given : Instance} {root : Json} (h : given.WellFormed)
    (hl : given.load = .ok root) : root.WellFormed := by
  cases given with
  | text source => exact Json.wellFormed_of_ofText (load_text_eq_ok_iff.mp hl)
  | value v =>
    obtain rfl : v = root := by simpa [load] using hl
    exact h

theorem Options.checkSize_of_unlimited {options : Options} (h : options.sizeLimit = none)
    (given : Instance) : options.checkSize given = .ok () := by
  simp [checkSize, h]

variable {χ : Type}

namespace Schema

variable [DecidableEq χ]

theorem ofRoot_eq_ok_iff {root : Json} {shape : Schema χ} :
    ofRoot root = .ok shape ↔ ∃ members, root = .object members ∧ shape = ofValue root := by
  cases root with
  | object members => simp [ofRoot, ofValue, eq_comm]
  | _ => simp [ofRoot]

end Schema

open Schema

theorem isValid_eq_ok_iff [DecidableEq χ] {options : Options} {given : Instance}
    {schema : Schema χ} {answer : Bool} :
    isValid options given schema = .ok answer ↔
      options.checkSize given = .ok () ∧ ∃ members, given.load = .ok (.object members) ∧
        (ofValue (.object members) : Schema χ).same schema = answer := by
  rw [isValid, check_then_eq_ok_iff]
  simp only [bind_eq_ok_iff, pure_eq_ok_iff, Json.members?_eq_ok_iff, ofValue]
  apply and_congr_right
  intro _
  constructor
  · rintro ⟨root, hl, members, rfl, hs⟩
    exact ⟨members, hl, hs⟩
  · rintro ⟨members, hl, hs⟩
    exact ⟨.object members, hl, members, rfl, hs⟩

theorem validate_eq_ok_iff [Check χ] {options : Options} {given : Instance}
    {schema : Schema χ} :
    validate options given schema = .ok () ↔
      options.checkSize given = .ok () ∧ ∃ fields members, schema = object fields ∧
        given.load = .ok (.object members) ∧ SameKeys fields members ∧
          (options.looselyTyped = false → Within Accepts fields members) := by
  have hf : ∀ (fields : Fields (Schema χ)) members, checkFields fields .root members = .ok () ↔
      Within Accepts fields members := fun fields members =>
    checkFields_eq_ok_iff (fun entry _ => check_eq_ok_iff entry.2) .root members
  unfold validate
  rw [check_then_eq_ok_iff]
  apply and_congr_right
  intro _
  cases schema with
  | object fields =>
    simp only [bind_eq_ok_iff, Json.members?_eq_ok_iff]
    constructor
    · rintro ⟨root, hl, members, rfl, hr⟩
      obtain ⟨_, hk, hw⟩ := hr
      refine ⟨fields, members, rfl, hl, (reconcile_eq_ok_iff _ _ _).mp hk, fun hs => ?_⟩
      simpa [hs, hf] using hw
    · rintro ⟨_, members, hfields, hl, hk, hw⟩
      cases hfields
      refine ⟨.object members, hl, members, rfl, (), (reconcile_eq_ok_iff _ _ _).mpr hk, ?_⟩
      split
      · rfl
      · rename_i hs
        exact (hf fields members).mpr (hw (by simpa using hs))
  | _ => simp

theorem validate_of_validate [Check χ] {fields others : Fields (Schema χ)}
    (hk : SameKeys fields others)
    (ha : ∀ value, Accepts (object fields) value → Accepts (object others) value)
    {options : Options} {given : Instance} (h : validate options given (object fields) = .ok ()) :
    validate options given (object others) = .ok () := by
  obtain ⟨hz, _, members, hf, hl, hm, hw⟩ := validate_eq_ok_iff.mp h
  cases hf
  have ho : SameKeys others members := fun key => (hk key).symm.trans (hm key)
  refine validate_eq_ok_iff.mpr ⟨hz, others, members, rfl, hl, ho, fun hs => ?_⟩
  obtain ⟨_, hv, _, hw'⟩ := accepts_object.mp (ha _ (accepts_object.mpr ⟨members, rfl, hm, hw hs⟩))
  cases hv
  exact hw'

section

variable [DecidableEq χ] [Check χ]

/-- Having exactly the shape of a schema is more than passing its checks. -/
theorem validate_of_isValid {options : Options} {given : Instance} {schema : Schema χ}
    (hg : given.WellFormed) (hs : schema.WellFormed) (hr : schema.isObject = true)
    (h : isValid options given schema = .ok true) : validate options given schema = .ok () := by
  obtain ⟨hz, members, hl, hm⟩ := isValid_eq_ok_iff.mp h
  have hw := Instance.wellFormed_load hg hl
  have ha : Accepts schema (.object members) :=
    accepts_of_same (wellFormed_ofValue hw) hs hm (accepts_ofValue hw)
  cases schema with
  | object fields =>
    obtain ⟨_, hv, hk, hf⟩ := accepts_object.mp ha
    cases hv
    exact validate_eq_ok_iff.mpr ⟨hz, fields, members, rfl, hl, hk, fun _ => hf⟩
  | _ => cases hr

theorem validate_tags_of_isValid :
    let options : Options := { maxSize := some 64 }
    let given : Instance := .value (.object [("tags", .array [.string "new", .null, .string "old"])])
    let schema : Schema Builtin :=
      object [("tags", listOf (union [scalar .null, union [scalar .string], scalar .null]))]
    isValid options given schema = .ok true ∧ validate options given schema = .ok () := by
  intro options given schema
  have hv : isValid options given schema = .ok true := by rfl
  exact ⟨hv, validate_of_isValid (by decide) (by decide) rfl hv⟩

/-- The shape of an instance that passes is narrower than the schema it passes, whatever the
options. -/
theorem exists_ofInstance_of_validate {options : Options} {given : Instance} {schema : Schema χ}
    (hp : schema.hasPredicates = false) (h : validate options given schema = .ok ()) :
    ∃ shape : Schema χ, ofInstance given = .ok shape ∧ ∀ other : Instance,
      validate options other shape = .ok () → validate options other schema = .ok () := by
  obtain ⟨_, fields, members, rfl, hl, hk, hf⟩ := validate_eq_ok_iff.mp h
  refine ⟨object (ofMembers members), ?_, ?_⟩
  · exact bind_eq_ok_iff.mpr ⟨.object members, hl, rfl⟩
  intro other ho
  obtain ⟨hz, _, others, hshape, hlo, hko, hfo⟩ := validate_eq_ok_iff.mp ho
  cases hshape
  have hkeys : SameKeys fields others := fun key => by
    rw [hk key, ← hko key, keys_ofMembers]
  refine validate_eq_ok_iff.mpr ⟨hz, fields, others, rfl, hlo, hkeys, fun hs => ?_⟩
  have hm : Accepts (object fields) (.object members) :=
    accepts_object.mpr ⟨members, rfl, hk, hf hs⟩
  have hv : Accepts (ofValue (.object members) : Schema χ) (.object others) :=
    accepts_object.mpr ⟨others, rfl, hko, hfo hs⟩
  obtain ⟨_, heq, _, hw⟩ := accepts_object.mp (accepts_of_accepts_ofValue hp hm hv)
  cases heq
  exact hw

theorem exists_ofInstance_tags :
    let given : Instance := .value (.object [("tags", .array [.string "new", .null])])
    let schema : Schema Builtin :=
      object [("tags", listOf (union [scalar .null, listOf (union []), scalar .string]))]
    validate {} given schema = .ok () ∧ ∃ shape : Schema Builtin, ofInstance given = .ok shape ∧
      ∀ other, validate {} other shape = .ok () → validate {} other schema = .ok () := by
  intro given schema
  have hv : validate {} given schema = .ok () := by rfl
  exact ⟨hv, exists_ofInstance_of_validate (by rfl) hv⟩

end

end StructuralSchema
