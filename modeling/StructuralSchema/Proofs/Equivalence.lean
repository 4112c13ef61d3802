import StructuralSchema.Proofs.Trees
import StructuralSchema.Schema.Canonical
import StructuralSchema.Schema.Union

namespace StructuralSchema.Schema

variable {χ : Type}

theorem eq_union_or_isUnion_eq_false (schema : Schema χ) :
    isUnion schema = false ∨ ∃ members, schema = union members := by
  cases schema with
  | union members => exact .inr ⟨members, rfl⟩
  | _ => exact .inl rfl

theorem everyMember_eq (p : Schema χ → Bool) (schemas : List (Schema χ)) :
    everyMember p schemas = schemas.all (every p) := by
  induction schemas with
  | nil => rfl
  | cons schema schemas ih => simp [everyMember, ih]

theorem every_of_not_union (p : Schema χ → Bool) {schema : Schema χ}
    (h : isUnion schema = false) : every p schema = p schema := by
  cases schema with
  | union members => cases h
  | _ => rfl

theorem every_union (p : Schema χ → Bool) (members : List (Schema χ)) :
    every p (union members) = true ↔ members ≠ [] ∧ ∀ member ∈ members, every p member = true := by
  simp [every, everyMember_eq]

theorem parts_of_not_union {schema : Schema χ} (h : isUnion schema = false) :
    schema.parts = [schema] := by
  cases schema with
  | union members => cases h
  | _ => rfl

theorem mem_children_of_mem_parts {schema part : Schema χ} (h : part ∈ schema.parts) :
    isUnion schema = false ∧ part = schema ∨ part ∈ schema.children := by
  obtain hs | ⟨members, rfl⟩ := eq_union_or_isUnion_eq_false schema
  · rw [parts_of_not_union hs, List.mem_singleton] at h
    exact .inl ⟨hs, h⟩
  · exact .inr h

theorem WellFormed.part {schema part : Schema χ} (h : schema.WellFormed)
    (hp : part ∈ schema.parts) : part.WellFormed := by
  obtain ⟨_, rfl⟩ | hc := mem_children_of_mem_parts hp
  · exact h
  · exact h.child hc

theorem sizeOf_le_of_mem_parts {schema part : Schema χ} (h : part ∈ schema.parts) :
    sizeOf part ≤ sizeOf schema := by
  obtain ⟨_, rfl⟩ | hc := mem_children_of_mem_parts h
  · exact Nat.le_refl _
  · exact Nat.le_of_lt (sizeOf_lt_of_mem_children hc)

theorem sizeOf_lt_of_mem_parts {schema part : Schema χ} (hs : isUnion schema = true)
    (h : part ∈ schema.parts) : sizeOf part < sizeOf schema := by
  obtain ⟨hf, _⟩ | hc := mem_children_of_mem_parts h
  · rw [hf] at hs
    cases hs
  · exact sizeOf_lt_of_mem_children hc

variable [DecidableEq χ]

theorem fieldsWithin_iff (fields others : Fields (Schema χ)) :
    fieldsWithin fields others = true ↔
      Fields.Within (fun a b => a.same b = true) fields others := by
  induction fields with
  | nil => simp [fieldsWithin, Fields.Within]
  | cons entry fields ih =>
    rw [Fields.within_cons, ← ih, fieldsWithin]
    cases Fields.get? others entry.1 <;> simp

def leafTest : Schema χ → Schema χ → Bool
  | scalar s => fun | .scalar t => s = t | _ => false
  | object fields => fun
    | .object others => fields.length = others.length && fieldsWithin fields others
    | _ => false
  | listOf element => fun | .listOf e => same element e | _ => false
  | union _ => fun _ => false
  | predicate p => fun | .predicate q => p = q | _ => false

theorem same_eq_every {schema : Schema χ} (h : isUnion schema = false) (other : Schema χ) :
    schema.same other = every (leafTest schema) other := by
  cases schema with
  | union members => cases h
  | _ => rfl

inductive Alike : Schema χ → Schema χ → Prop where
  | scalar (kind : Scalar) : Alike (scalar kind) (scalar kind)
  | object {fields others : Fields (Schema χ)} (hl : fields.length = others.length)
      (hw : Fields.Within (fun a b => a.same b = true) fields others) :
      Alike (object fields) (object others)
  | listOf {element other : Schema χ} (h : element.same other = true) :
      Alike (listOf element) (listOf other)
  | predicate (p : Predicate χ) : Alike (predicate p) (predicate p)

theorem leafTest_iff (schema other : Schema χ) :
    leafTest schema other = true ↔ Alike schema other := by
  constructor
  · intro h
    cases schema <;> cases other <;> simp [leafTest] at h
    case scalar.scalar => exact h ▸ .scalar _
    case object.object => exact .object h.1 ((fieldsWithin_iff _ _).mp h.2)
    case listOf.listOf => exact .listOf h
    case predicate.predicate => exact h ▸ .predicate _
  · rintro (kind | ⟨hl, hw⟩ | h | p)
    · simp [leafTest]
    · simp [leafTest, hl, (fieldsWithin_iff _ _).mpr hw]
    · simpa [leafTest] using h
    · simp [leafTest]

theorem same_iff_alike {schema other : Schema χ} (hs : isUnion schema = false)
    (ho : isUnion other = false) : schema.same other = true ↔ Alike schema other := by
  rw [same_eq_every hs, every_of_not_union _ ho, leafTest_iff]

theorem same_listOf {element other : Schema χ} :
    (listOf element).same (listOf other) = true ↔ element.same other = true := by
  simp [same, every]

theorem same_object {fields others : Fields (Schema χ)} :
    (object fields).same (object others) = true ↔ fields.length = others.length ∧
      Fields.Within (fun a b => a.same b = true) fields others := by
  simp [same, every, fieldsWithin_iff]

theorem same_union_union (members others : List (Schema χ)) :
    (union members).same (union others) = true ↔
      (∀ member ∈ members, ∃ other ∈ others, member.same other = true) ∧
        ∀ other ∈ others, ∃ member ∈ members, member.same other = true := by
  simp [same, allWithin_eq, anySame_eq]

theorem same_union_left (members : List (Schema χ)) {other : Schema χ}
    (h : isUnion other = false) : (union members).same other = true ↔
      members ≠ [] ∧ ∀ member ∈ members, member.same other = true := by
  cases other with
  | union others => cases h
  | _ => simp [same, allSame_eq]

theorem same_union_right {schema : Schema χ} (h : isUnion schema = false)
    (others : List (Schema χ)) : schema.same (union others) = true ↔
      others ≠ [] ∧ ∀ other ∈ others, schema.same other = true := by
  simp [same_eq_every h, every_union]

/-- Each schema of either list is the same shape as one of the other list. -/
def Matched (schemas others : List (Schema χ)) : Prop :=
  (∀ schema ∈ schemas, ∃ other ∈ others, schema.same other = true) ∧
    ∀ other ∈ others, ∃ schema ∈ schemas, schema.same other = true

theorem matched_singleton_right (schemas : List (Schema χ)) (other : Schema χ) :
    Matched schemas [other] ↔ schemas ≠ [] ∧ ∀ schema ∈ schemas, schema.same other = true := by
  constructor
  · rintro ⟨hl, hr⟩
    obtain ⟨schema, hs, _⟩ := hr other List.mem_cons_self
    exact ⟨List.ne_nil_of_mem hs, fun s hm => by simpa using hl s hm⟩
  · rintro ⟨hn, ha⟩
    obtain ⟨schema, hs⟩ := List.exists_mem_of_ne_nil schemas hn
    exact ⟨fun s hm => ⟨other, List.mem_cons_self, ha s hm⟩, by simpa using ⟨schema, hs, ha schema hs⟩⟩

theorem matched_singleton_left (schema : Schema χ) (others : List (Schema χ)) :
    Matched [schema] others ↔ others ≠ [] ∧ ∀ other ∈ others, schema.same other = true := by
  constructor
  · rintro ⟨hl, hr⟩
    obtain ⟨other, ho, _⟩ := hl schema List.mem_cons_self
    exact ⟨List.ne_nil_of_mem ho, fun o hm => by simpa using hr o hm⟩
  · rintro ⟨hn, ha⟩
    obtain ⟨other, ho⟩ := List.exists_mem_of_ne_nil others hn
    exact ⟨by simpa using ⟨other, ho, ha other ho⟩, fun o hm => ⟨schema, List.mem_cons_self, ha o hm⟩⟩

/-- The rule behind the three rules for unions: what counts is which shapes occur among the
parts. -/
theorem same_iff_matched (schema other : Schema χ) :
    schema.same other = true ↔ Matched schema.parts other.parts := by
  obtain hs | ⟨members, rfl⟩ := eq_union_or_isUnion_eq_false schema <;>
    obtain ho | ⟨others, rfl⟩ := eq_union_or_isUnion_eq_false other
  · rw [parts_of_not_union hs, parts_of_not_union ho]
    simp [Matched]
  · rw [parts_of_not_union hs, same_union_right hs, parts, matched_singleton_left]
  · rw [parts_of_not_union ho, same_union_left members ho, parts, matched_singleton_right]
  · exact same_union_union members others

theorem Matched.symm {schemas others : List (Schema χ)} (h : Matched schemas others)
    (ih : ∀ a ∈ schemas, ∀ b ∈ others, a.same b = true → b.same a = true) :
    Matched others schemas := by
  constructor
  · intro b hb
    obtain ⟨a, ha, hab⟩ := h.2 b hb
    exact ⟨a, ha, ih a ha b hb hab⟩
  · intro a ha
    obtain ⟨b, hb, hab⟩ := h.1 a ha
    exact ⟨b, hb, ih a ha b hb hab⟩

theorem Matched.trans {first second third : List (Schema χ)} (h : Matched first second)
    (h' : Matched second third)
    (ih : ∀ a ∈ first, ∀ b ∈ second, ∀ c ∈ third, a.same b = true → b.same c = true →
      a.same c = true) : Matched first third := by
  constructor
  · intro a ha
    obtain ⟨b, hb, hab⟩ := h.1 a ha
    obtain ⟨c, hc, hbc⟩ := h'.1 b hb
    exact ⟨c, hc, ih a ha b hb c hc hab hbc⟩
  · intro c hc
    obtain ⟨b, hb, hbc⟩ := h'.2 c hc
    obtain ⟨a, ha, hab⟩ := h.2 b hb
    exact ⟨a, ha, ih a ha b hb c hc hab hbc⟩

/-- The fields are compared from the first schema's side only, so that turning them round needs
names that are not repeated. -/
theorem Alike.symm {schema other : Schema χ} (hs : schema.WellFormed) (ho : other.WellFormed)
    (h : Alike schema other)
    (ih : ∀ a ∈ schema.children, ∀ b ∈ other.children, a.same b = true → b.same a = true) :
    Alike other schema := by
  cases h with
  | scalar kind => exact .scalar kind
  | @object fields others hl hw =>
    obtain ⟨hd, _⟩ := wellFormed_object.mp hs
    obtain ⟨hd', _⟩ := wellFormed_object.mp ho
    refine .object hl.symm (hw.symm hd hd' hl ?_)
    intro a ha b hb
    exact ih a.2 (List.mem_map_of_mem ha) b.2 (List.mem_map_of_mem hb)
  | listOf h => exact .listOf (ih _ List.mem_cons_self _ List.mem_cons_self h)
  | predicate p => exact .predicate p

theorem Alike.trans {first second third : Schema χ} (h : Alike first second)
    (h' : Alike second third)
    (ih : ∀ a ∈ first.children, ∀ b ∈ second.children, ∀ c ∈ third.children,
      a.same b = true → b.same c = true → a.same c = true) : Alike first third := by
  cases h with
  | scalar kind => exact h'
  | object hl hw =>
    cases h' with
    | object hl' hw' =>
      refine .object (hl.trans hl') (hw.trans hw' ?_)
      intro a ha b hb c hc
      exact ih a.2 (List.mem_map_of_mem ha) b.2 (List.mem_map_of_mem hb) c.2
        (List.mem_map_of_mem hc)
  | listOf h =>
    cases h' with
    | listOf h' =>
      exact .listOf (ih _ List.mem_cons_self _ List.mem_cons_self _ List.mem_cons_self h h')
  | predicate p => exact h'

theorem same_refl {schema : Schema χ} (h : schema.WellFormed) : schema.same schema = true := by
  induction schema with
  | scalar kind => exact (same_iff_alike rfl rfl).mpr (.scalar kind)
  | object fields ih =>
    obtain ⟨hd, hf⟩ := wellFormed_object.mp h
    refine (same_iff_alike rfl rfl).mpr (.object rfl ?_)
    intro entry he
    exact ⟨entry.2, Fields.get?_of_mem hd he, ih entry he (hf entry he)⟩
  | listOf element ih => exact (same_iff_alike rfl rfl).mpr (.listOf (ih h))
  | union members ih =>
    have hm := wellFormed_union.mp h
    rw [same_union_union]
    exact ⟨fun m hc => ⟨m, hc, ih m hc (hm m hc)⟩, fun m hc => ⟨m, hc, ih m hc (hm m hc)⟩⟩
  | predicate p => exact (same_iff_alike rfl rfl).mpr (.predicate p)

/-- Induction over two schemas that are the same: of a union and another schema only the union is
left for its members, and of two that are no unions both are left for what stands below them. -/
theorem same_induction {motive : (schema other : Schema χ) → schema.same other = true → Prop}
    (parts : ∀ (schema other : Schema χ) (h : schema.same other = true),
      Matched schema.parts other.parts →
      (∀ a ∈ schema.parts, ∀ b ∈ other.parts, ∀ hab : a.same b = true, motive a b hab) →
      motive schema other h)
    (alike : ∀ (schema other : Schema χ) (h : schema.same other = true),
      isUnion schema = false → isUnion other = false → Alike schema other →
      (∀ a ∈ schema.children, ∀ b ∈ other.children, ∀ hab : a.same b = true, motive a b hab) →
      motive schema other h)
    (schema other : Schema χ) (h : schema.same other = true) : motive schema other h := by
  by_cases hu : isUnion schema = true ∨ isUnion other = true
  · apply parts schema other h ((same_iff_matched schema other).mp h)
    intro a ha b hb hab
    have hla := sizeOf_le_of_mem_parts ha
    have hlb := sizeOf_le_of_mem_parts hb
    have hlt : sizeOf a < sizeOf schema ∨ sizeOf b < sizeOf other :=
      hu.imp (sizeOf_lt_of_mem_parts · ha) (sizeOf_lt_of_mem_parts · hb)
    exact same_induction parts alike a b hab
  · obtain ⟨hs, ho⟩ : isUnion schema = false ∧ isUnion other = false := by simpa using hu
    apply alike schema other h hs ho ((same_iff_alike hs ho).mp h)
    intro a ha b hb hab
    have hla := sizeOf_lt_of_mem_children ha
    have hlb := sizeOf_lt_of_mem_children hb
    exact same_induction parts alike a b hab
termination_by sizeOf schema + sizeOf other

theorem same_symm {schema other : Schema χ} (hs : schema.WellFormed) (ho : other.WellFormed)
    (h : schema.same other = true) : other.same schema = true := by
  induction schema, other, h using same_induction with
  | parts schema other _ hm ih =>
    apply (same_iff_matched other schema).mpr
    apply hm.symm
    intro a ha b hb hab
    exact ih a ha b hb hab (hs.part ha) (ho.part hb)
  | alike schema other _ hs' ho' ha ih =>
    apply (same_iff_alike ho' hs').mpr
    apply ha.symm hs ho
    intro a ha b hb hab
    exact ih a ha b hb hab (hs.child ha) (ho.child hb)

theorem same_trans {first second third : Schema χ} (h : first.same second = true)
    (h' : second.same third = true) : first.same third = true := by
  by_cases hu : isUnion first = true ∨ isUnion second = true ∨ isUnion third = true
  · rw [same_iff_matched] at h h' ⊢
    apply h.trans h'
    intro a ha b hb c hc hab hbc
    have hla := sizeOf_le_of_mem_parts ha
    have hlb := sizeOf_le_of_mem_parts hb
    have hlc := sizeOf_le_of_mem_parts hc
    have hlt : sizeOf a < sizeOf first ∨ sizeOf b < sizeOf second ∨ sizeOf c < sizeOf third :=
      hu.imp (sizeOf_lt_of_mem_parts · ha)
        (Or.imp (sizeOf_lt_of_mem_parts · hb) (sizeOf_lt_of_mem_parts · hc))
    exact same_trans hab hbc
  · obtain ⟨h₁, h₂, h₃⟩ :
        isUnion first = false ∧ isUnion second = false ∧ isUnion third = false := by
      simpa using hu
    rw [same_iff_alike h₁ h₃]
    apply Alike.trans ((same_iff_alike h₁ h₂).mp h) ((same_iff_alike h₂ h₃).mp h')
    intro a ha b hb c hc hab hbc
    have hla := sizeOf_lt_of_mem_children ha
    have hlb := sizeOf_lt_of_mem_children hb
    have hlc := sizeOf_lt_of_mem_children hc
    exact same_trans hab hbc
termination_by sizeOf first + sizeOf second + sizeOf third

theorem equivalence_same :
    Equivalence fun first second : {schema : Schema χ // schema.WellFormed} =>
      first.1.same second.1 = true where
  refl schema := same_refl schema.2
  symm {first second} h := same_symm first.2 second.2 h
  trans h h' := same_trans h h'

theorem same_right_eq_of_same {second third : Schema χ} (hs : second.WellFormed)
    (ht : third.WellFormed) (h : second.same third = true) (first : Schema χ) :
    first.same second = first.same third := by
  rw [Bool.eq_iff_iff]
  exact ⟨fun hf => same_trans hf h, fun hf => same_trans hf (same_symm hs ht h)⟩

end StructuralSchema.Schema
