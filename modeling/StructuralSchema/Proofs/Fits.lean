import StructuralSchema.Proofs.SameShape
import StructuralSchema.Schema.Place

namespace StructuralSchema

open Fields

namespace Json

theorem eachFits_iff (items others : List Json) :
    EachFits items others ↔ ∀ item ∈ items, ∃ other ∈ others, Fits item other :=
  iff_forall_mem_of_cons (EachFits · others) trivial (fun _ _ => .rfl) items

theorem membersFit_iff (members others : Fields Json) :
    MembersFit members others ↔ Within Fits members others :=
  iff_forall_mem_of_cons (MembersFit · others) trivial (fun _ _ => .rfl) members

theorem fits_array {value : Json} {others : List Json} :
    value.Fits (array others) ↔ ∃ items, value = array items ∧
      ∀ item ∈ items, ∃ other ∈ others, item.Fits other := by
  cases value with
  | array items => simp [Fits, eachFits_iff]
  | _ => simp [Fits, isScalar]

theorem fits_object {value : Json} {others : Fields Json} :
    value.Fits (object others) ↔ ∃ members, value = object members ∧
      Fields.SameKeys members others ∧ Within Fits members others := by
  cases value with
  | object members =>
    simp only [Fits, membersFit_iff, object.injEq, exists_eq_left']
    rfl
  | _ => simp [Fits, isScalar]

theorem fits_of_isScalar {value model : Json} (h : model.isScalar = true) :
    value.Fits model ↔ value.kind = model.kind := by
  unfold Fits
  split
  · cases h
  · cases h
  · rw [and_iff_right h]
    refine and_iff_right_of_imp fun hk => ?_
    obtain ⟨kind, hm⟩ := isScalar_iff.mp h
    exact isScalar_iff.mpr ⟨kind, hk ▸ hm⟩

/-- Only the empty list has no element that would have to fit one of none. -/
theorem fits_nil {value : Json} : value.Fits (array []) ↔ value = array [] := by
  rw [fits_array]
  constructor
  · rintro ⟨items, rfl, h⟩
    have hn : items = [] := List.eq_nil_iff_forall_not_mem.mpr fun item hm => by
      simpa using h item hm
    rw [hn]
  · rintro rfl
    exact ⟨[], rfl, by simp⟩

/-- Under the same keys the one value has what fits the other. Through a list there is no such
place, as the elements need not fit in their order. -/
theorem exists_at?_of_fits {value model found : Json} {path : Path} (h : value.Fits model)
    (hp : path.OnlyKeys) (hf : model.at? path = some found) :
    ∃ other, value.at? path = some other ∧ other.Fits found := by
  induction path generalizing found with
  | root =>
    obtain rfl : model = found := by simpa [at?] using hf
    exact ⟨value, rfl, h⟩
  | key parent name ih =>
    rw [at?] at hf
    split at hf
    · rename_i others hat
      obtain ⟨_, hv, ho⟩ := ih hp hat
      obtain ⟨members, rfl, hk, hw⟩ := fits_object.mp ho
      obtain ⟨other, hg⟩ := exists_get?_of_mem_keys ((hk name).mpr (mem_keys_of_get? hf))
      obtain ⟨_, hg', hfit⟩ := hw _ (mem_of_get? hg)
      cases hf.symm.trans hg'
      exact ⟨other, by rw [at?, hv]; exact hg, hfit⟩
    · cases hf
  | index parent position => cases hp

end Json

namespace Schema

variable {χ : Type} [DecidableEq χ] [Check χ]

theorem accepts_ofValue_of_isScalar {model value : Json} (h : model.isScalar = true) :
    Accepts (ofValue model : Schema χ) value ↔ value.Fits model := by
  obtain ⟨kind, hk⟩ := Json.isScalar_iff.mp h
  rw [ofValue_eq_scalar hk, accepts_scalar, Scalar.accepts_iff, Json.fits_of_isScalar h, hk]

/-- The shape of an example accepts just what fits the example. Of elements of one shape only the
first has left its shape, and whatever fits another one of them passes for it. -/
theorem accepts_ofValue_iff {model value : Json} (hm : model.WellFormed) (hv : value.WellFormed) :
    Accepts (ofValue model : Schema χ) value ↔ value.Fits model := by
  induction model generalizing value with
  | array items ih =>
    have hi := Json.wellFormed_array.mp hm
    rw [ofValue, accepts_listOf, Json.fits_array]
    apply exists_congr
    intro others
    apply and_congr_right
    rintro rfl
    have ho := Json.wellFormed_array.mp hv
    apply forall₂_congr
    intro other hmem
    rw [accepts_unionOf fun _ => wellFormed_of_mem_ofItems hi, ofItems_eq_map]
    simp only [List.mem_map, exists_exists_and_eq_and]
    exact exists_congr fun item => and_congr_right fun hmem' =>
      ih item hmem' (hi item hmem') (ho other hmem)
  | object members ih =>
    obtain ⟨hd, hms⟩ := Json.wellFormed_object.mp hm
    rw [ofValue, accepts_object, Json.fits_object]
    apply exists_congr
    intro others
    apply and_congr_right
    rintro rfl
    obtain ⟨hd', hos⟩ := Json.wellFormed_object.mp hv
    have hs : ∀ entry ∈ members, ∀ other ∈ others,
        Accepts (ofValue entry.2 : Schema χ) other.2 ↔ other.2.Fits entry.2 :=
      fun entry he other ho => ih entry he (hms entry he) (hos other ho)
    rw [ofMembers_eq_map, within_map_left]
    constructor
    · rintro ⟨hk, hw⟩
      have hk' : SameKeys members others := fun key => by rw [← hk key, keys_map]
      exact ⟨fun key => (hk' key).symm, hw.symm hd hd' (length_eq_of_sameKeys hd hd' hk')
        fun entry he other ho => (hs entry he other ho).mp⟩
    · rintro ⟨hk, hw⟩
      exact ⟨fun key => by rw [keys_map, hk key], hw.symm hd' hd (length_eq_of_sameKeys hd' hd hk)
        fun other ho entry he => (hs entry he other ho).mpr⟩
  | _ => exact accepts_ofValue_of_isScalar rfl

end Schema

open Json Schema

variable {χ : Type} [DecidableEq χ] [Check χ]

theorem validate_ofValue_iff {options : Options} (ho : options.sizeLimit = none)
    (hs : options.looselyTyped = false) {given : Instance} {model members : Fields Json}
    (hl : given.load = .ok (.object members)) :
    validate options given (ofValue (.object model) : Schema χ) = .ok () ↔
      Accepts (ofValue (.object model) : Schema χ) (.object members) := by
  rw [validate_eq_ok_iff]
  simp [options.checkSize_of_unlimited ho, ofValue, hl, hs, accepts_object]

/-- An object passes the checks of an example's shape just if it fits the example. -/
theorem validate_ofRoot_iff {options : Options} (ho : options.sizeLimit = none)
    (hs : options.looselyTyped = false) {model value : Fields Json}
    (hm : (object model).WellFormed) (hv : (object value).WellFormed) :
    ∃ shape : Schema χ, ofRoot (.object model) = .ok shape ∧
      (validate options (.value (.object value)) shape = .ok () ↔
        (object value).Fits (object model)) ∧
      (∀ given : Instance, given.load = .ok (.object model) →
        validate options given shape = .ok ()) ∧
      (validate options (.value (.object value)) shape = .ok () → ∀ path : Path, path.OnlyKeys →
        (object model).at? path = some (array []) →
          (object value).at? path = some (array [])) := by
  have hf :
      validate options (.value (.object value)) (ofValue (.object model) : Schema χ) = .ok () ↔
        (object value).Fits (object model) := by
    rw [validate_ofValue_iff ho hs rfl, accepts_ofValue_iff hm hv]
  refine ⟨ofValue (object model), rfl, hf, fun given hl => ?_, fun h path hp he => ?_⟩
  · exact (validate_ofValue_iff ho hs hl).mpr (accepts_ofValue hm)
  · obtain ⟨other, hat, hfit⟩ := exists_at?_of_fits (hf.mp h) hp he
    rw [hat, fits_nil.mp hfit]

theorem exists_validate_rows :
    let model : Fields Json :=
      [("rows", .array [.array [], .array [.string "x", .null]]), ("rest", .array [])]
    let value : Fields Json := [("rest", .array []), ("rows", .array [.array [.null, .null]])]
    (object value).Fits (object model) ∧ ∃ shape : Schema Builtin,
      ofRoot (.object model) = .ok shape ∧
        validate {} (.value (.object value)) shape = .ok () ∧
          (object value).at? (.key .root "rest") = some (array []) := by
  intro model value
  have hm : (object model).WellFormed := by decide
  have hv : (object value).WellFormed := by decide
  have hf : (object value).Fits (object model) := by
    rw [← accepts_ofValue_iff (χ := Builtin) hm hv]
    rfl
  obtain ⟨shape, hr, h, _, he⟩ := @validate_ofRoot_iff Builtin _ _ {} rfl rfl model value hm hv
  exact ⟨hf, shape, hr, h.mpr hf, he (h.mpr hf) (.key .root "rest") trivial rfl⟩

end StructuralSchema
