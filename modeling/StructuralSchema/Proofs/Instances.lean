import StructuralSchema.Predicate.Builtin
import StructuralSchema.Proofs.Json.RoundTrip
import StructuralSchema.Proofs.Results
import StructuralSchema.Validation

namespace StructuralSchema

open Schema

/-- The instances have one size and are read as one value, or fail to be for one reason. -/
structure Instance.Agree (given other : Instance) : Prop where
  size : given.size = other.size
  load : given.load = other.load

variable {χ : Type}

section Agree

variable {given other : Instance} (h : given.Agree other) (options : Options) (schema : Schema χ)

include h

theorem Instance.Agree.checkSize_eq : options.checkSize given = options.checkSize other := by
  rw [Options.checkSize, Options.checkSize, h.size]

theorem Instance.Agree.ofInstance_eq [DecidableEq χ] :
    (ofInstance given : Except Fault (Schema χ)) = ofInstance other := by
  rw [ofInstance, ofInstance, h.load]

theorem Instance.Agree.isValid_eq [DecidableEq χ] :
    isValid options given schema = isValid options other schema := by
  rw [isValid, isValid, h.checkSize_eq, h.load]

theorem Instance.Agree.validate_eq [Check χ] :
    validate options given schema = validate options other schema := by
  unfold validate
  rw [h.checkSize_eq, h.load]

end Agree

theorem Instance.agree_text_compact {value : Json} (hv : value.WellFormed) (hw : value.Whole)
    (hd : value.depth ≤ Json.greatestDepth) :
    (Instance.text value.compact).Agree (.value value) where
  size := rfl
  load := Instance.load_text_eq_ok_iff.mpr (Json.ofText_write Json.Layout.blank_compact hv hw hd)

variable [DecidableEq χ] [Check χ]

/-- Whatever is asked of such a value is answered alike for its text. -/
theorem text_compact_eq_value {value : Json} (hv : value.WellFormed) (hw : value.Whole)
    (hd : value.depth ≤ Json.greatestDepth) (options : Options) (schema : Schema χ) :
    let text := Instance.text value.compact
    let parsed := Instance.value value
    text.size = parsed.size ∧
      options.checkSize text = options.checkSize parsed ∧
      isValid options text schema = isValid options parsed schema ∧
      validate options text schema = validate options parsed schema ∧
      (ofInstance text : Except Fault (Schema χ)) = ofInstance parsed := by
  intro text parsed
  have h : text.Agree parsed := Instance.agree_text_compact hv hw hd
  exact ⟨h.size, h.checkSize_eq options, h.isValid_eq options schema,
    h.validate_eq options schema, h.ofInstance_eq⟩

/-- What is a byte too large as a text is a byte too large as a value, and what just fits fits as
either. -/
theorem text_compact_eq_value_escaped :
    let value : Json := .object [("k\n\"é", .array [.number (.int (-2 ^ 63) (by decide)),
      .number (.int (2 ^ 64 - 1) (by decide)), .string "\x01/"])]
    let schema : Schema Builtin :=
      object [("k\n\"é", listOf (union [scalar .int, scalar .string]))]
    (value.WellFormed ∧ value.Whole ∧ value.depth ≤ Json.greatestDepth) ∧
      validate { maxSize := some 64 } (.text value.compact) schema = .error (.tooLarge 65 64) ∧
      validate { maxSize := some 65 } (.text value.compact) schema = .ok () := by
  intro value schema
  have hv : value.WellFormed := by decide
  have hw : value.Whole := by simp [value, Json.Whole, Json.MembersWhole, Json.AllWhole]
  have hd : value.depth ≤ Json.greatestDepth := by decide
  have ht (options : Options) : validate options (.text value.compact) schema =
      validate options (.value value) schema := by
    obtain ⟨_, _, _, ht, _⟩ := text_compact_eq_value hv hw hd options schema
    exact ht
  exact ⟨⟨hv, hw, hd⟩, (ht _).trans rfl, (ht _).trans rfl⟩

end StructuralSchema
