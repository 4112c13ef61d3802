import StructuralSchema.Predicate.Builtin
import StructuralSchema.Proofs.Grounds
import StructuralSchema.Proofs.Json.Reordering
import StructuralSchema.Proofs.SameShape

namespace StructuralSchema

open Fields

inductive EndAlike (R : Fault → Fault → Prop) : Except Fault Unit → Except Fault Unit → Prop where
  | passed : EndAlike R (.ok ()) (.ok ())
  | failed {fault other : Fault} (h : R fault other) : EndAlike R (.error fault) (.error other)

theorem endAlike_verdict {R : Fault → Fault → Prop} {faults others : List Fault}
    (h : List.Forall₂ R faults others) : EndAlike R (verdict faults) (verdict others) := by
  cases h with
  | nil => exact .passed
  | cons h _ => exact .failed h

variable {χ : Type}

namespace Schema

/-- What takes the place of a fault if members come in another order. -/
inductive Counterpart (first second : Json) (schema : Schema χ) : Fault → Fault → Prop where
  | same {fault : Fault} (h : ∀ path, fault ≠ .unexpectedKey path) :
      Counterpart first second schema fault fault
  | unexpectedKey {path : Path} {members others : Fields Json} {fields : Fields (Schema χ)}
      {key name : String} (hf : Reaches first schema path (.object members) (object fields))
      (hs : Reaches second schema path (.object others) (object fields))
      (hk : key ∈ members.keys ∧ key ∉ fields.keys) (hn : name ∈ others.keys ∧ name ∉ fields.keys) :
      Counterpart first second schema (.unexpectedKey (path.key key))
        (.unexpectedKey (path.key name))

section Rows

variable {first second : Json} {schema : Schema χ} {path : Path}

theorem Counterpart.of_place?_eq_none {fault : Fault} (h : fault.place? = none) :
    Counterpart first second schema fault fault := by
  refine .same ?_
  rintro path rfl
  cases h

theorem forall₂_wrongType (node : Schema χ) {value other : Json} (h : value.kind = other.kind) :
    List.Forall₂ (Counterpart first second schema) [.wrongType path node.summary value.kind]
      [.wrongType path node.summary other.kind] := by
  rw [h]
  exact .cons (.same (by simp)) .nil

theorem forall₂_keyViolations {fields : Fields (Schema χ)} {members others : Fields Json}
    (hf : Reaches first schema path (.object members) (object fields))
    (hs : Reaches second schema path (.object others) (object fields))
    (hp : members.keys.Perm others.keys) :
    List.Forall₂ (Counterpart first second schema) (keyViolations path fields members)
      (keyViolations path fields others) := by
  apply List.rel_append
  · have hm : fields.keys.filter (· ∉ members.keys) = fields.keys.filter (· ∉ others.keys) := by
      simp only [hp.mem_iff]
    rw [hm, List.forall₂_same, List.forall_mem_map]
    exact fun _ _ => .same (by simp)
  · rw [List.forall₂_map_left_iff, List.forall₂_map_right_iff]
    apply forall₂_of_forall_mem (hp.filter _).length_eq
    intro key hk name hn
    exact .unexpectedKey hf hs (by simpa using hk) (by simpa using hn)

theorem forall₂_itemViolations {R : Json → Json → Prop} {C : Fault → Fault → Prop}
    {ofItem : Path → Json → List Fault} {position : Nat} {items others : List Json}
    (hr : List.Forall₂ R items others)
    (h : ∀ (index : Nat) (item other : Json), items[index]? = some item →
      others[index]? = some other → R item other →
      List.Forall₂ C (ofItem (path.index (position + index)) item)
        (ofItem (path.index (position + index)) other)) :
    List.Forall₂ C (itemViolations ofItem path position items)
      (itemViolations ofItem path position others) := by
  induction hr generalizing position with
  | nil => exact .nil
  | cons hab _ ih =>
    refine List.rel_append (h 0 _ _ rfl rfl hab) (ih fun index item other hi ho hr => ?_)
    rw [Nat.add_right_comm]
    exact h (index + 1) item other hi ho hr

variable [Check χ]

theorem forall₂_fieldViolations {R : Json → Json → Prop} {C : Fault → Fault → Prop}
    {fields : Fields (Schema χ)} {members others : Fields Json}
    (hk : fields.keys ⊆ members.keys) (hr : Within R members others)
    (h : ∀ entry ∈ fields, ∀ value other, members.get? entry.1 = some value →
      others.get? entry.1 = some other → R value other →
      List.Forall₂ C (violations entry.2 (path.key entry.1) value)
        (violations entry.2 (path.key entry.1) other)) :
    List.Forall₂ C (fieldViolations fields path members) (fieldViolations fields path others) := by
  induction fields with
  | nil => exact .nil
  | cons entry fields ih =>
    obtain ⟨he, hf⟩ := List.forall_mem_cons.mp h
    obtain ⟨hm, hs⟩ := List.cons_subset.mp hk
    obtain ⟨value, hv⟩ := exists_get?_of_mem_keys hm
    obtain ⟨other, ho, hvo⟩ := hr _ (mem_of_get? hv)
    simp only [fieldViolations, hv, ho]
    exact List.rel_append (he value other hv ho hvo) (ih hs hf)

theorem accepts_iff_of_forall₂_violations {C : Fault → Fault → Prop} {node : Schema χ}
    {value other : Json}
    (h : List.Forall₂ C (violations node path value) (violations node path other)) :
    Accepts node value ↔ Accepts node other := by
  rw [← violations_eq_nil_iff node path, ← violations_eq_nil_iff node path,
    ← List.length_eq_zero_iff, ← List.length_eq_zero_iff, h.length_eq]

theorem forall₂_violations_object {fields : Fields (Schema χ)} {members others : Fields Json}
    (hd : fields.Distinct) (hv : (Json.object members).WellFormed)
    (hr : (Json.object members).Reordered (.object others))
    (hf : Reaches first schema path (.object members) (object fields))
    (hs : Reaches second schema path (.object others) (object fields))
    (ih : ∀ entry ∈ fields, ∀ value other, value.WellFormed → value.Reordered other →
      Reaches first schema (path.key entry.1) value entry.2 →
      Reaches second schema (path.key entry.1) other entry.2 →
      List.Forall₂ (Counterpart first second schema) (violations entry.2 (path.key entry.1) value)
        (violations entry.2 (path.key entry.1) other)) :
    List.Forall₂ (Counterpart first second schema)
      (violations (object fields) path (.object members))
      (violations (object fields) path (.object others)) := by
  have hkeys := forall₂_keyViolations hf hs (Json.perm_keys_of_reordered hv hr)
  obtain ⟨_, ho, _, _, hm⟩ := Json.reordered_object.mp hr
  cases ho
  rw [violations, violations]
  cases hk : keyViolations path fields members with
  | nil =>
    rw [hk, List.forall₂_nil_left_iff] at hkeys
    rw [hkeys]
    apply forall₂_fieldViolations (keys_subset_of_keyViolations hk) hm
    intro entry he value other hg ho hvo
    have hw := (Json.wellFormed_object.mp hv).2 _ (mem_of_get? hg)
    exact ih entry he value other hw hvo (hf.field hd he hg) (hs.field hd he ho)
  | cons fault faults =>
    rw [hk] at hkeys
    obtain ⟨fault', faults', h, ht, he⟩ := List.forall₂_cons_left_iff.mp hkeys
    rw [he]
    exact .cons h ht

theorem someWithout_congr {members : List (Schema χ)} {value other : Json}
    (h : ∀ member ∈ members, Accepts member value ↔ Accepts member other) :
    someWithout members path value = someWithout members path other := by
  rw [Bool.eq_iff_iff, someWithout_iff, someWithout_iff]
  exact exists_congr fun member => and_congr_right (h member)

/-- Through a union no path leads, so its members are compared with the value as their own root. -/
theorem forall₂_violations_of_reordered {node : Schema χ} {value other : Json}
    (hw : node.WellFormed) (hp : node.hasPredicates = false) (hv : value.WellFormed)
    (hr : value.Reordered other) (hf : Reaches first schema path value node)
    (hs : Reaches second schema path other node) :
    List.Forall₂ (Counterpart first second schema) (violations node path value)
      (violations node path other) := by
  induction node generalizing first second schema path value other with
  | scalar kind =>
    have hk := Json.kind_eq_of_reordered hr
    rw [violations, violations, hk]
    split
    · exact .nil
    · exact forall₂_wrongType _ rfl
  | object fields ih =>
    obtain ⟨hd, hc⟩ := wellFormed_object.mp hw
    by_cases hk : value.kind = .object
    · obtain ⟨members, rfl⟩ := Json.kind_eq_object_iff.mp hk
      obtain ⟨others, rfl, _⟩ := Json.reordered_object.mp hr
      apply forall₂_violations_object hd hv hr hf hs
      intro entry he value other hv hr hf hs
      exact ih entry he (hc entry he) (hasPredicates_child hp (List.mem_map_of_mem he)) hv hr hf hs
    · have hkind := Json.kind_eq_of_reordered hr
      rw [violations_object_of_kind_ne hk, violations_object_of_kind_ne (hkind ▸ hk)]
      exact forall₂_wrongType _ hkind
  | listOf element ih =>
    by_cases hk : value.kind = .list
    · obtain ⟨items, rfl⟩ := Json.kind_eq_list_iff.mp hk
      obtain ⟨others, rfl, hi⟩ := Json.reordered_array.mp hr
      have hwi := Json.wellFormed_array.mp hv
      apply forall₂_itemViolations hi
      intro index item other hg ho hvo
      rw [Nat.zero_add]
      exact ih hw hp (hwi item (List.mem_of_getElem? hg)) hvo (hf.item hg) (hs.item ho)
    · have hkind := Json.kind_eq_of_reordered hr
      rw [violations_listOf_of_kind_ne hk, violations_listOf_of_kind_ne (hkind ▸ hk)]
      exact forall₂_wrongType _ hkind
  | union members ih =>
    have hm : ∀ member ∈ members, Accepts member value ↔ Accepts member other := by
      intro member hmem
      have hroot : Reaches value member .root value member := ⟨rfl, rfl⟩
      have hroot' : Reaches other member .root other member := ⟨rfl, rfl⟩
      exact accepts_iff_of_forall₂_violations (ih member hmem (wellFormed_union.mp hw member hmem)
        (hasPredicates_child hp hmem) hv hr hroot hroot')
    rw [violations, violations, someWithout_congr hm]
    split
    · exact .nil
    · exact forall₂_wrongType _ (Json.kind_eq_of_reordered hr)
  | predicate p => cases hp

theorem forall₂_rootViolations_of_reordered {options : Options} {fields : Fields (Schema χ)}
    {members others : Fields Json} (hw : (object fields).WellFormed)
    (hp : (object fields).hasPredicates = false) (hv : (Json.object members).WellFormed)
    (hr : (Json.object members).Reordered (.object others)) :
    List.Forall₂ (Counterpart (.object members) (.object others) (object fields))
      (rootViolations options fields members) (rootViolations options fields others) := by
  have hf : Reaches (.object members) (object fields) .root (.object members) (object fields) :=
    ⟨rfl, rfl⟩
  have hs : Reaches (.object others) (object fields) .root (.object others) (object fields) :=
    ⟨rfl, rfl⟩
  unfold rootViolations
  split
  · exact forall₂_keyViolations hf hs (Json.perm_keys_of_reordered hv hr)
  · exact forall₂_violations_of_reordered hw hp hv hr hf hs

end Rows

end Schema

open Schema

variable [Check χ]

/-- Values that differ only in the order of members end a check alike, whatever the options. -/
theorem endAlike_validate_of_reordered {schema : Schema χ} (hs : schema.WellFormed)
    (hp : schema.hasPredicates = false) {value other : Json} (hv : value.WellFormed)
    (hr : value.Reordered other) (options : Options) :
    EndAlike (Counterpart value other schema) (validate options (.value value) schema)
      (validate options (.value other) schema) := by
  have hz : options.checkSize (.value value) = options.checkSize (.value other) := by
    rw [Options.checkSize, Options.checkSize, Json.size_eq_of_reordered hv hr]
  cases schema with
  | object fields =>
    rw [validate_object, validate_object, hz]
    cases hc : options.checkSize (.value other) with
    | error fault => exact .failed (.of_place?_eq_none (Options.place?_of_checkSize hc))
    | ok =>
      cases value with
      | object members =>
        obtain ⟨others, rfl, _⟩ := Json.reordered_object.mp hr
        exact endAlike_verdict (forall₂_rootViolations_of_reordered hs hp hv hr)
      | array items =>
        obtain ⟨others, rfl, _⟩ := Json.reordered_array.mp hr
        exact .failed (.of_place?_eq_none rfl)
      | _ =>
        obtain rfl := (Json.reordered_of_isScalar rfl).mp hr
        exact .failed (.of_place?_eq_none rfl)
  | _ =>
    simp only [validate, hz]
    cases hc : options.checkSize (.value other) with
    | error fault => exact .failed (.of_place?_eq_none (Options.place?_of_checkSize hc))
    | ok => exact .failed (.same (by simp))

/-- The second row has two unexpected keys, and each of the two values tells another one. -/
theorem endAlike_validate_rows :
    let first : Json := .object [("a", .object [("b", .null)])]
    let second : Json := .object [("a", .null), ("x", .null), ("y", .bool false)]
    let second' : Json := .object [("a", .null), ("y", .bool false), ("x", .null)]
    let value : Json := .object [("n", .bool true), ("rows", .array [first, second])]
    let other : Json := .object [("rows", .array [first, second']), ("n", .bool true)]
    let schema : Schema Builtin := object [("rows", listOf (object
      [("a", union [scalar .null, object [("b", scalar .null)]])])), ("n", scalar .int)]
    let place : Path := .index (.key .root "rows") 1
    validate {} (.value value) schema = .error (.unexpectedKey (place.key "x")) ∧
      validate {} (.value other) schema = .error (.unexpectedKey (place.key "y")) ∧
      EndAlike (Counterpart value other schema) (validate {} (.value value) schema)
        (validate {} (.value other) schema) := by
  intro first second second' value other schema place
  have hs : second.Reordered second' :=
    Json.reordered_of_perm (by decide) (.cons _ (.swap _ _ _))
  have hr : value.Reordered other := by
    have hrows : (Json.array [first, second]).Reordered (.array [first, second']) :=
      Json.reordered_array.mpr
        ⟨_, rfl, .cons (Json.reordered_refl (by decide)) (.cons hs .nil)⟩
    have hn : (Json.bool true).Reordered (.bool true) := Json.reordered_refl (by decide)
    refine Json.reordered_object_of_perm (by decide) ?_ (.swap _ _ _)
    exact .cons ⟨rfl, hn⟩ (.cons ⟨rfl, hrows⟩ .nil)
  exact ⟨rfl, rfl, endAlike_validate_of_reordered (by decide) rfl (by decide) hr {}⟩

end StructuralSchema
