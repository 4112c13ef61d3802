import StructuralSchema.Json.Comparison
import StructuralSchema.Proofs.Modes

namespace StructuralSchema

open Fields

namespace Json

theorem eachAmong_iff (items others : List Json) :
    EachAmong items others ↔ ∀ item ∈ items, ∃ other ∈ others, SameShape item other :=
  iff_forall_mem_of_cons (EachAmong · others) (by simp [EachAmong])
    (fun _ _ => by rw [EachAmong]) items

theorem amongThese_iff (items : List Json) (other : Json) :
    AmongThese items other ↔ ∃ item ∈ items, SameShape item other := by
  induction items with
  | nil => simp [AmongThese]
  | cons item items ih => rw [AmongThese, ih, List.exists_mem_cons_iff]

theorem sameMembers_iff (members others : Fields Json) :
    SameMembers members others ↔ Within SameShape members others :=
  iff_forall_mem_of_cons (SameMembers · others) (by simp [SameMembers])
    (fun _ _ => by rw [SameMembers]) members

theorem sameShape_array {items others : List Json} :
    SameShape (array items) (array others) ↔
      (∀ item ∈ items, ∃ other ∈ others, SameShape item other) ∧
        ∀ other ∈ others, ∃ item ∈ items, SameShape item other := by
  simp only [SameShape, eachAmong_iff, amongThese_iff]

theorem sameShape_object {members others : Fields Json} :
    SameShape (object members) (object others) ↔
      Fields.SameKeys members others ∧ Within SameShape members others := by
  simp only [SameShape, sameMembers_iff]
  rfl

theorem sameShape_array_of_forall₂ {items others : List Json}
    (h : List.Forall₂ SameShape items others) : SameShape (array items) (array others) :=
  sameShape_array.mpr
    ⟨fun _ => exists_mem_right_of_forall₂ h, fun _ => exists_mem_left_of_forall₂ h⟩

theorem sameShape_object_of_perm {members entries others : Fields Json} (ho : others.Distinct)
    (h : List.Forall₂ (fun a b => a.1 = b.1 ∧ SameShape a.2 b.2) members entries)
    (hp : entries.Perm others) : SameShape (object members) (object others) := by
  refine sameShape_object.mpr ⟨fun key => ?_, within_of_perm ho h hp⟩
  rw [keys_eq_of_forall₂ h]
  exact (hp.map Prod.fst).mem_iff

theorem kind_eq_list_iff {value : Json} : value.kind = .list ↔ ∃ items, value = array items := by
  rcases value with _ | _ | (_ | _) | _ | _ | _ <;> simp [kind]

theorem kind_eq_object_iff {value : Json} :
    value.kind = .object ↔ ∃ members, value = object members := by
  rcases value with _ | _ | (_ | _) | _ | _ | _ <;> simp [kind]

theorem kind_eq_of_sameShape {value other : Json} (h : SameShape value other) :
    value.kind = other.kind := by
  unfold SameShape at h
  split at h
  · rfl
  · rfl
  · exact h.2.2

theorem sameShape_of_isScalar {value other : Json} (h : value.isScalar = true) :
    value.SameShape other ↔ value.kind = other.kind := by
  refine ⟨kind_eq_of_sameShape, fun hk => ?_⟩
  obtain ⟨kind, hv⟩ := isScalar_iff.mp h
  have ho : other.isScalar = true := isScalar_iff.mpr ⟨kind, hk ▸ hv⟩
  unfold SameShape
  split
  · cases h
  · cases h
  · exact ⟨h, ho, hk⟩

end Json

namespace Schema

variable {χ : Type} [DecidableEq χ]

theorem same_congr {first first' second second' : Schema χ} (h : first.WellFormed)
    (h' : second.WellFormed) (hf : first'.WellFormed) (hs : second'.WellFormed)
    (hff : first.same first' = true) (hss : second.same second' = true) :
    first.same second = true ↔ first'.same second' = true :=
  ⟨fun hq => same_trans (same_trans (same_symm h hf hff) hq) hss,
   fun hq => same_trans (same_trans hff hq) (same_symm h' hs hss)⟩

theorem same_unionOf_ofItems {items others : List Json} (hi : ∀ item ∈ items, item.WellFormed)
    (ho : ∀ other ∈ others, other.WellFormed) :
    (unionOf (ofItems items) : Schema χ).same (unionOf (ofItems others)) = true ↔
      (∀ item ∈ items, ∃ other ∈ others,
        (ofValue item : Schema χ).same (ofValue other) = true) ∧
      ∀ other ∈ others, ∃ item ∈ items, (ofValue item : Schema χ).same (ofValue other) = true := by
  have hw : ∀ values : List Json, (∀ value ∈ values, value.WellFormed) →
      ∀ shape ∈ (ofItems values : List (Schema χ)), shape.WellFormed := fun _ hv _ =>
    wellFormed_of_mem_ofItems hv
  have hu : ∀ values : List Json, (∀ value ∈ values, value.WellFormed) →
      (unionOf (ofItems values) : Schema χ).same (union (ofItems values)) = true := fun values hv =>
    same_unionOf (fun _ => isUnion_of_mem_ofItems) (hw values hv)
  rw [same_congr (wellFormed_unionOf (hw items hi)) (wellFormed_unionOf (hw others ho))
    (wellFormed_union.mpr (hw items hi)) (wellFormed_union.mpr (hw others ho))
    (hu items hi) (hu others ho), same_union_union]
  simp [ofItems_eq_map]

theorem kind_eq_of_same_ofValue {value other : Json}
    (h : (ofValue value : Schema χ).same (ofValue other) = true) : value.kind = other.kind := by
  have ha := (same_iff_alike (isUnion_ofValue value) (isUnion_ofValue other)).mp h
  have hk := ha.kind?_eq
  rwa [kind?_ofValue, kind?_ofValue, Option.some.injEq] at hk

theorem same_ofValue_of_isScalar {value other : Json} (h : value.isScalar = true) :
    (ofValue value : Schema χ).same (ofValue other) = true ↔ value.SameShape other := by
  obtain ⟨kind, hv⟩ := Json.isScalar_iff.mp h
  rw [Json.sameShape_of_isScalar h]
  refine ⟨kind_eq_of_same_ofValue, fun hk => ?_⟩
  rw [ofValue_eq_scalar hv, ofValue_eq_scalar (hk ▸ hv)]
  exact same_refl trivial

theorem same_ofValue_iff {value other : Json} (hv : value.WellFormed) (ho : other.WellFormed) :
    (ofValue value : Schema χ).same (ofValue other) = true ↔ value.SameShape other := by
  induction value generalizing other with
  | array items ih =>
    by_cases hk : other.kind = .list
    · obtain ⟨others, rfl⟩ := Json.kind_eq_list_iff.mp hk
      have hi := Json.wellFormed_array.mp hv
      have hos := Json.wellFormed_array.mp ho
      have hs : ∀ item ∈ items, ∀ other ∈ others,
          (ofValue item : Schema χ).same (ofValue other) = true ↔ item.SameShape other :=
        fun item hm other hm' => ih item hm (hi item hm) (hos other hm')
      rw [ofValue, ofValue, same_listOf, same_unionOf_ofItems hi hos, Json.sameShape_array]
      apply and_congr
      · exact forall₂_congr fun item hm => exists_congr fun other => and_congr_right (hs item hm other)
      · exact forall₂_congr fun other hm => exists_congr fun item =>
          and_congr_right fun hm' => hs item hm' other hm
    · exact ⟨fun h => absurd (kind_eq_of_same_ofValue h).symm hk,
        fun h => absurd (Json.kind_eq_of_sameShape h).symm hk⟩
  | object members ih =>
    by_cases hk : other.kind = .object
    · obtain ⟨others, rfl⟩ := Json.kind_eq_object_iff.mp hk
      obtain ⟨hd, hm⟩ := Json.wellFormed_object.mp hv
      obtain ⟨hd', hos⟩ := Json.wellFormed_object.mp ho
      have hs : ∀ entry ∈ members, ∀ other ∈ others,
          (ofValue entry.2 : Schema χ).same (ofValue other.2) = true ↔ entry.2.SameShape other.2 :=
        fun entry he other hm' => ih entry he (hm entry he) (hos other hm')
      rw [ofValue, ofValue, same_object, Json.sameShape_object, ofMembers_eq_map,
        ofMembers_eq_map, within_map, List.length_map, List.length_map]
      constructor
      · rintro ⟨hl, hw⟩
        exact ⟨sameKeys_of_keys_subset hd hw.keys_subset hl,
          hw.imp fun entry he other hm' => (hs entry he other hm').mp⟩
      · rintro ⟨hk, hw⟩
        exact ⟨length_eq_of_sameKeys hd hd' hk,
          hw.imp fun entry he other hm' => (hs entry he other hm').mpr⟩
    · exact ⟨fun h => absurd (kind_eq_of_same_ofValue h).symm hk,
        fun h => absurd (Json.kind_eq_of_sameShape h).symm hk⟩
  | _ => exact same_ofValue_of_isScalar rfl

end Schema

namespace Json

open Schema in
theorem sameShape_refl {value : Json} (h : value.WellFormed) : value.SameShape value :=
  (same_ofValue_iff (χ := Empty) h h).mp (same_refl (wellFormed_ofValue h))

open Schema in
theorem sameShape_symm {value other : Json} (hv : value.WellFormed) (ho : other.WellFormed)
    (h : value.SameShape other) : other.SameShape value := by
  rw [← same_ofValue_iff (χ := Empty) hv ho] at h
  exact (same_ofValue_iff ho hv).mp (same_symm (wellFormed_ofValue hv) (wellFormed_ofValue ho) h)

open Schema in
theorem sameShape_trans {first second third : Json} (hf : first.WellFormed)
    (hs : second.WellFormed) (ht : third.WellFormed) (h : first.SameShape second)
    (h' : second.SameShape third) : first.SameShape third := by
  rw [← same_ofValue_iff (χ := Empty) hf hs] at h
  rw [← same_ofValue_iff (χ := Empty) hs ht] at h'
  exact (same_ofValue_iff hf ht).mp (same_trans h h')

/-- The values are equal but for the order of members, the order of elements and how often an
element is repeated, at any depth. -/
inductive Rearranged : Json → Json → Prop where
  | refl (value : Json) : Rearranged value value
  | trans {first second third : Json} (h : Rearranged first second)
      (h' : Rearranged second third) : Rearranged first third
  | members {members others : Fields Json} (h : members.Perm others) :
      Rearranged (object members) (object others)
  | items {items others : List Json} (h : ∀ item, item ∈ items ↔ item ∈ others) :
      Rearranged (array items) (array others)
  | member (before after : Fields Json) (key : String) {value other : Json}
      (h : Rearranged value other) :
      Rearranged (object (before ++ (key, value) :: after))
        (object (before ++ (key, other) :: after))
  | item (before after : List Json) {value other : Json} (h : Rearranged value other) :
      Rearranged (array (before ++ value :: after)) (array (before ++ other :: after))

theorem Rearranged.wellFormed {value other : Json} (h : Rearranged value other)
    (hw : value.WellFormed) : other.WellFormed := by
  induction h with
  | refl value => exact hw
  | trans _ _ ih ih' => exact ih' (ih hw)
  | members h =>
    obtain ⟨hd, hm⟩ := wellFormed_object.mp hw
    refine wellFormed_object.mpr ⟨?_, fun entry he => hm entry (h.mem_iff.mpr he)⟩
    exact (h.map Prod.fst).nodup_iff.mp hd
  | items h =>
    have hi := wellFormed_array.mp hw
    exact wellFormed_array.mpr fun item hm => hi item ((h item).mpr hm)
  | member before after key _ ih =>
    obtain ⟨hd, hm⟩ := wellFormed_object.mp hw
    simp only [List.forall_mem_append, List.forall_mem_cons] at hm
    refine wellFormed_object.mpr ⟨by simpa [Distinct, keys] using hd, ?_⟩
    simp only [List.forall_mem_append, List.forall_mem_cons]
    exact ⟨hm.1, ih hm.2.1, hm.2.2⟩
  | item before after _ ih =>
    have hi := wellFormed_array.mp hw
    simp only [List.forall_mem_append, List.forall_mem_cons] at hi
    apply wellFormed_array.mpr
    simp only [List.forall_mem_append, List.forall_mem_cons]
    exact ⟨hi.1, ih hi.2.1, hi.2.2⟩

theorem Rearranged.sameShape {value other : Json} (h : Rearranged value other)
    (hw : value.WellFormed) : value.SameShape other := by
  induction h with
  | refl value => exact sameShape_refl hw
  | trans h h' ih ih' =>
    have hs := h.wellFormed hw
    exact sameShape_trans hw hs (h'.wellFormed hs) (ih hw) (ih' hs)
  | members h =>
    have ho := (wellFormed_object.mp ((Rearranged.members h).wellFormed hw)).1
    have hm := (wellFormed_object.mp hw).2
    refine sameShape_object_of_perm ho (List.forall₂_same.mpr fun entry he => ?_) h
    exact ⟨rfl, sameShape_refl (hm entry he)⟩
  | @items items others h =>
    have hi := wellFormed_array.mp hw
    refine sameShape_array.mpr ⟨fun item hm => ?_, fun item hm => ?_⟩
    · exact ⟨item, (h item).mp hm, sameShape_refl (hi item hm)⟩
    · exact ⟨item, (h item).mpr hm, sameShape_refl (hi item ((h item).mpr hm))⟩
  | @member before after key value other h ih =>
    obtain ⟨ho, _⟩ := wellFormed_object.mp ((Rearranged.member before after key h).wellFormed hw)
    have hm := (wellFormed_object.mp hw).2
    simp only [List.forall_mem_append, List.forall_mem_cons] at hm
    obtain ⟨hb, hv, ha⟩ := hm
    refine sameShape_object_of_perm ho ?_ (.refl _)
    apply forall₂_of_replaced
    · exact fun entry he => ⟨rfl, sameShape_refl (hb entry he)⟩
    · exact ⟨rfl, ih hv⟩
    · exact fun entry he => ⟨rfl, sameShape_refl (ha entry he)⟩
  | item before after h ih =>
    have hi := wellFormed_array.mp hw
    simp only [List.forall_mem_append, List.forall_mem_cons] at hi
    obtain ⟨hb, hv, ha⟩ := hi
    apply sameShape_array_of_forall₂
    apply forall₂_of_replaced
    · exact fun item hm => sameShape_refl (hb item hm)
    · exact ih hv
    · exact fun item hm => sameShape_refl (ha item hm)

end Json

open Json Schema

variable {χ : Type} [DecidableEq χ]

theorem isValid_value_ofValue {options : Options} (ho : options.sizeLimit = none)
    (members : Fields Json) (shape : Schema χ) :
    isValid options (.value (.object members)) shape =
      .ok ((ofValue (.object members) : Schema χ).same shape) :=
  isValid_eq_ok_iff.mpr ⟨options.checkSize_of_unlimited ho _, members, rfl, rfl⟩

/-- An object has exactly the shape of an example just if the two have the same shape, whichever
arrangement of the two is looked at. -/
theorem isValid_ofRoot_iff {options : Options} (ho : options.sizeLimit = none)
    {model value : Fields Json} (hm : (object model).WellFormed) (hv : (object value).WellFormed) :
    ∃ shape : Schema χ, ofRoot (.object model) = .ok shape ∧
      ((object value).SameShape (object model) →
        isValid options (.value (.object value)) shape = .ok true) ∧
      (¬ (object value).SameShape (object model) →
        isValid options (.value (.object value)) shape = .ok false) ∧
      isValid options (.value (.object model)) shape = .ok true ∧
      ∀ model' value', (object model).Rearranged model' → (object value).Rearranged value' →
        ∃ shape' : Schema χ, ofRoot model' = .ok shape' ∧
          isValid options (.value value') shape' =
            isValid options (.value (.object value)) shape := by
  refine ⟨ofValue (object model), rfl, fun h => ?_, fun h => ?_, ?_, fun model' value' h h' => ?_⟩
  · rw [isValid_value_ofValue ho, (same_ofValue_iff hv hm).mpr h]
  · rw [isValid_value_ofValue ho, Bool.eq_false_iff.mpr (mt (same_ofValue_iff hv hm).mp h)]
  · rw [isValid_value_ofValue ho, (same_ofValue_iff hm hm).mpr (sameShape_refl hm)]
  · have hs := h.sameShape hm
    have hs' := h'.sameShape hv
    obtain ⟨members, rfl⟩ := kind_eq_object_iff.mp (kind_eq_of_sameShape hs).symm
    obtain ⟨others, rfl⟩ := kind_eq_object_iff.mp (kind_eq_of_sameShape hs').symm
    have hw := h.wellFormed hm
    have hw' := h'.wellFormed hv
    refine ⟨ofValue (object members), rfl, ?_⟩
    rw [isValid_value_ofValue ho, isValid_value_ofValue ho]
    apply congrArg
    rw [Bool.eq_iff_iff]
    exact same_congr (wellFormed_ofValue hw') (wellFormed_ofValue hw) (wellFormed_ofValue hv)
      (wellFormed_ofValue hm) ((same_ofValue_iff hw' hv).mpr (sameShape_symm hv hw' hs'))
      ((same_ofValue_iff hw hm).mpr (sameShape_symm hm hw hs))

theorem exists_isValid_tags :
    let model : Fields Json := [("a", .array [.bool false, .string "x", .bool true]), ("b", .null)]
    let value : Fields Json := [("b", .null), ("a", .array [.string "y", .bool true])]
    (object value).SameShape (object model) ∧ ∃ shape : Schema Empty,
      ofRoot (.object model) = .ok shape ∧ isValid {} (.value (.object value)) shape = .ok true := by
  intro model value
  have hm : (object model).WellFormed := by decide
  have hv : (object value).WellFormed := by decide
  have hs : (object value).SameShape (object model) := by
    rw [← same_ofValue_iff (χ := Empty) hv hm]
    rfl
  obtain ⟨shape, ho, h, _⟩ := @isValid_ofRoot_iff Empty _ {} rfl model value hm hv
  exact ⟨hs, shape, ho, h hs⟩

end StructuralSchema
