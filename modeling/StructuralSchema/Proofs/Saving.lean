import StructuralSchema.Predicate.Builtin
import StructuralSchema.Proofs.Documents
import StructuralSchema.Proofs.Instances
import StructuralSchema.Proofs.Modes

namespace StructuralSchema

variable {χ : Type} [DecidableEq χ]

namespace Schema

theorem ofInstance_eq_ok_iff {given : Instance} {shape : Schema χ} :
    ofInstance given = .ok shape ↔
      ∃ members, given.load = .ok (.object members) ∧ shape = ofValue (.object members) := by
  rw [ofInstance, bind_eq_ok_iff]
  constructor
  · rintro ⟨root, hl, hr⟩
    obtain ⟨members, rfl, hs⟩ := ofRoot_eq_ok_iff.mp hr
    exact ⟨members, hl, hs⟩
  · rintro ⟨members, hl, hs⟩
    exact ⟨.object members, hl, ofRoot_eq_ok_iff.mpr ⟨members, rfl, hs⟩⟩

def SavedAs (schema : Schema χ) (text : String) : Prop :=
  text = schema.toDocument.compact ∨ text = schema.toDocument.indented

omit [DecidableEq χ] in
theorem SavedAs.exists_layout {schema : Schema χ} {text : String} (h : schema.SavedAs text) :
    ∃ layout : Json.Layout, layout.Blank ∧
      text = String.ofList (layout.write 0 schema.toDocument) := by
  obtain rfl | rfl := h
  · exact ⟨_, Json.Layout.blank_compact, rfl⟩
  · exact ⟨_, Json.Layout.blank_indented, rfl⟩

theorem ofDocumentText_of_savedAs (registry : Registry χ) {schema : Schema χ} {text : String}
    (h : schema.SavedAs text) (hd : schema.toDocument.depth ≤ Json.greatestDepth) :
    ofDocumentText registry text = ofDocument registry schema.toDocument := by
  obtain ⟨layout, hl, rfl⟩ := h.exists_layout
  have hr := Json.ofText_write hl (wellFormed_toDocument schema) (whole_toDocument schema) hd
  rw [ofDocumentText, Instance.load_text_eq_ok_iff.mpr hr]
  rfl

theorem ofDocumentText_of_tooDeep (registry : Registry χ) {schema : Schema χ} {text : String}
    (h : schema.SavedAs text) (hd : Json.greatestDepth < schema.toDocument.depth) :
    ∃ place, ofDocumentText registry text = .error (.malformed ⟨.tooDeep, place⟩) := by
  obtain ⟨layout, hl, rfl⟩ := h.exists_layout
  obtain ⟨⟨reason, place⟩, hr, hm⟩ :=
    Json.ofText_write_of_tooDeep hl (wellFormed_toDocument schema) (whole_toDocument schema) hd
  cases hm
  refine ⟨place, ?_⟩
  rw [ofDocumentText, Instance.load, hr]
  rfl

theorem ofInstance_compact {members : Fields Json} (hv : (Json.object members).WellFormed)
    (hw : (Json.object members).Whole)
    (hd : (Json.object members).depth ≤ Json.greatestDepth) :
    ofInstance (.text (Json.object members).compact) =
      .ok (ofValue (.object members) : Schema χ) := by
  rw [(Instance.agree_text_compact hv hw hd).ofInstance_eq]
  rfl

end Schema

def Json.nested : Nat → Json
  | 0 => array []
  | levels + 1 => array [nested levels]

namespace Json

theorem wellFormed_nested (levels : Nat) : (nested levels).WellFormed := by
  induction levels with
  | zero => exact wellFormed_array.mpr (by simp)
  | succ levels ih => exact wellFormed_array.mpr (by simpa using ih)

theorem whole_nested (levels : Nat) : (nested levels).Whole := by
  induction levels with
  | zero => exact whole_array.mpr (by simp)
  | succ levels ih => exact whole_array.mpr (by simpa using ih)

theorem depth_nested (levels : Nat) : (nested levels).depth = levels + 1 := by
  induction levels with
  | zero => rfl
  | succ levels ih => simp [nested, depth, depthOfItems, ih]

end Json

namespace Schema

theorem depth_toDocument_nested (levels : Nat) :
    (ofValue (Json.nested levels) : Schema χ).toDocument.depth = levels + 3 := by
  induction levels with
  | zero => rfl
  | succ levels ih =>
    have hu := isUnion_ofValue (χ := χ) (Json.nested levels)
    have hs : (ofValue (Json.nested (levels + 1)) : Schema χ) =
        listOf (ofValue (Json.nested levels)) := by
      rw [Json.nested, ofValue, ofItems, ofItems, unionOf_of_not_union (by simpa using hu)]
      rfl
    rw [hs, toDocument]
    simp [Json.depth, Json.depthOfItems, ih]

end Schema

open Fields Schema

/-- The shape of a text can be saved and read again just if its document does not nest too deep. -/
theorem exists_reloaded_iff {options : Options} (ho : options.sizeLimit = none)
    (registry : Registry χ) {text saved : String} {schema : Schema χ}
    (h : ofInstance (.text text) = .ok schema) (hs : schema.SavedAs saved) :
    ((∃ reloaded, ofDocumentText registry saved = .ok reloaded ∧ reloaded.same schema = true ∧
        isValid options (.text text) reloaded = .ok true) ↔
      schema.toDocument.depth ≤ Json.greatestDepth) ∧
    (Json.greatestDepth < schema.toDocument.depth →
      ∃ place, ofDocumentText registry saved = .error (.malformed ⟨.tooDeep, place⟩)) := by
  obtain ⟨members, hl, rfl⟩ := ofInstance_eq_ok_iff.mp h
  refine ⟨⟨fun hr => ?_, fun hd => ?_⟩, ofDocumentText_of_tooDeep registry hs⟩
  · obtain ⟨reloaded, hr, _⟩ := hr
    apply Nat.le_of_not_lt
    intro hd
    obtain ⟨place, he⟩ := ofDocumentText_of_tooDeep registry hs hd
    rw [he] at hr
    cases hr
  · have hg : (Instance.text text).WellFormed := trivial
    have hw := wellFormed_ofValue (χ := χ) (Instance.wellFormed_load hg hl)
    refine ⟨ofValue (.object members), ?_, same_refl hw, ?_⟩
    · rw [ofDocumentText_of_savedAs registry hs hd]
      apply ofDocument_toDocument rfl hw (canonical_ofValue _)
      intro p hp
      exact absurd hp (not_mem_predicates_ofValue p _)
    · exact isValid_eq_ok_iff.mpr ⟨options.checkSize_of_unlimited ho _, members, hl, same_refl hw⟩

theorem exists_reloaded_tags :
    let members : Fields Json := [("tags", .array [.string "new", .null])]
    let text := (Json.object members).compact
    ∃ schema : Schema Builtin, ofInstance (.text text) = .ok schema ∧
      ∃ reloaded, ofDocumentText .empty schema.toDocument.indented = .ok reloaded ∧
        reloaded.same schema = true ∧ isValid {} (.text text) reloaded = .ok true := by
  intro members text
  have hw : (Json.object members).Whole := by
    simp [members, Json.Whole, Json.MembersWhole, Json.AllWhole]
  have h : ofInstance (.text text) = .ok (ofValue (.object members) : Schema Builtin) :=
    ofInstance_compact (by decide) hw (by decide)
  have ho : ({} : Options).sizeLimit = none := rfl
  exact ⟨_, h, (exists_reloaded_iff ho .empty h (.inr rfl)).1.mpr (by decide)⟩

theorem exists_not_reloaded_nested :
    let text := (Json.object [("a", .nested 125)]).compact
    ∃ schema : Schema Builtin, ofInstance (.text text) = .ok schema ∧
      ∀ (registry : Registry Builtin) (saved : String), schema.SavedAs saved →
        ∃ place, ofDocumentText registry saved = .error (.malformed ⟨.tooDeep, place⟩) := by
  intro text
  have hv : (Json.object [("a", .nested 125)]).WellFormed :=
    Json.wellFormed_object.mpr ⟨by decide, by simpa using Json.wellFormed_nested 125⟩
  have hw : (Json.object [("a", .nested 125)]).Whole :=
    Json.whole_object.mpr (by simpa using Json.whole_nested 125)
  have hd : (Json.object [("a", .nested 125)]).depth ≤ Json.greatestDepth := by
    simp [Json.depth, Json.depthOfMembers, Json.depth_nested, Json.greatestDepth]
  refine ⟨_, ofInstance_compact hv hw hd, fun registry saved hs => ?_⟩
  apply ofDocumentText_of_tooDeep registry hs
  rw [ofValue, ofMembers, toDocument_object (by simp [Distinct, keys, ofMembers])]
  simp [toMembers, ofMembers, Json.depth, Json.depthOfMembers, depth_toDocument_nested,
    Json.greatestDepth]

end StructuralSchema
