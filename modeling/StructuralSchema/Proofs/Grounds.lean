import StructuralSchema.Predicate.Builtin
import StructuralSchema.Proofs.Violations
import StructuralSchema.Schema.Place

namespace StructuralSchema

open Fields

variable {χ : Type}

section Places

open Schema

variable {root : Json} {schema : Schema χ} {path : Path}

theorem Reaches.field {fields : Fields (Schema χ)} {members : Fields Json}
    (h : Reaches root schema path (.object members) (object fields)) (hd : fields.Distinct)
    {entry : String × Schema χ} (he : entry ∈ fields) {value : Json}
    (hv : members.get? entry.1 = some value) :
    Reaches root schema (path.key entry.1) value entry.2 where
  value_at := by rw [Json.at?, h.value_at]; exact hv
  node_at := by rw [Schema.at?, h.node_at]; exact get?_of_mem hd he

theorem Reaches.item {element : Schema χ} {items : List Json}
    (h : Reaches root schema path (.array items) (listOf element)) {position : Nat} {item : Json}
    (hi : items[position]? = some item) :
    Reaches root schema (path.index position) item element where
  value_at := by rw [Json.at?, h.value_at]; exact hi
  node_at := by rw [Schema.at?, h.node_at]

end Places

namespace Schema

variable [Check χ]

/-- What the fault says of the value and of the schema is so at the place that it names. For a key
that is missing or unexpected this is one step from the object that lacks it or has it. -/
inductive Grounded (root : Json) (schema : Schema χ) : Fault → Prop where
  | missingKey {path : Path} {members : Fields Json} {fields : Fields (Schema χ)} {key : String}
      (h : Reaches root schema path (.object members) (object fields))
      (hf : key ∈ fields.keys) (hm : key ∉ members.keys) :
      Grounded root schema (.missingKey (path.key key))
  | unexpectedKey {path : Path} {members : Fields Json} {fields : Fields (Schema χ)} {key : String}
      (h : Reaches root schema path (.object members) (object fields))
      (hm : key ∈ members.keys) (hf : key ∉ fields.keys) :
      Grounded root schema (.unexpectedKey (path.key key))
  | wrongType {path : Path} {value : Json} {node : Schema χ}
      (h : Reaches root schema path value node) (hp : ∀ p, node ≠ predicate p)
      (ha : ¬ Accepts node value) :
      Grounded root schema (.wrongType path node.summary value.kind)
  | predicateFailed {path : Path} {value : Json} {p : Predicate χ}
      (h : Reaches root schema path value (predicate p)) (hc : p.holds value = false) :
      Grounded root schema (.predicateFailed path p.name value)

section Lists

variable {fault : Fault} {path : Path}

omit [Check χ] in
theorem mem_keyViolations {fields : Fields (Schema χ)} {members : Fields Json} :
    fault ∈ keyViolations path fields members ↔
      (∃ key ∈ fields.keys, key ∉ members.keys ∧ Fault.missingKey (path.key key) = fault) ∨
        ∃ key ∈ members.keys, key ∉ fields.keys ∧ Fault.unexpectedKey (path.key key) = fault := by
  simp only [keyViolations, List.mem_append, List.mem_map, List.mem_filter, decide_eq_true_eq,
    and_assoc]

theorem exists_of_mem_itemViolations {ofItem : Path → Json → List Fault} {position : Nat}
    {items : List Json} (h : fault ∈ itemViolations ofItem path position items) :
    ∃ (index : Nat) (item : Json), items[index]? = some item ∧
      fault ∈ ofItem (path.index (position + index)) item := by
  induction items generalizing position with
  | nil => cases h
  | cons item items ih =>
    obtain hi | hr := List.mem_append.mp h
    · exact ⟨0, item, rfl, hi⟩
    · obtain ⟨index, other, ho, hf⟩ := ih hr
      refine ⟨index + 1, other, ho, ?_⟩
      rwa [Nat.add_right_comm] at hf

theorem exists_of_mem_fieldViolations {fields : Fields (Schema χ)} {members : Fields Json}
    (h : fault ∈ fieldViolations fields path members) :
    ∃ entry ∈ fields, ∃ value, members.get? entry.1 = some value ∧
      fault ∈ violations entry.2 (path.key entry.1) value := by
  induction fields with
  | nil => cases h
  | cons entry fields ih =>
    obtain hv | hr := List.mem_append.mp h
    · cases hg : members.get? entry.1 with
      | none => simp [hg] at hv
      | some value => exact ⟨entry, List.mem_cons_self, value, hg, by simpa [hg] using hv⟩
    · obtain ⟨other, ho, hf⟩ := ih hr
      exact ⟨other, List.mem_cons_of_mem _ ho, hf⟩

end Lists

section Grounds

variable {root : Json} {schema : Schema χ} {path : Path} {fault : Fault}

theorem grounded_of_mem_keyViolations {fields : Fields (Schema χ)} {members : Fields Json}
    (h : Reaches root schema path (.object members) (object fields))
    (hf : fault ∈ keyViolations path fields members) : Grounded root schema fault := by
  obtain ⟨key, hk, hn, rfl⟩ | ⟨key, hk, hn, rfl⟩ := mem_keyViolations.mp hf
  · exact .missingKey h hk hn
  · exact .unexpectedKey h hk hn

theorem grounded_wrongType {node : Schema χ} {value : Json} (h : Reaches root schema path value node)
    (hp : ∀ p, node ≠ predicate p)
    (hv : violations node path value = [.wrongType path node.summary value.kind])
    (hf : fault ∈ violations node path value) : Grounded root schema fault := by
  have ha : ¬ Accepts node value := by
    rw [← violations_eq_nil_iff node path, hv]
    exact List.cons_ne_nil _ _
  rw [hv, List.mem_singleton] at hf
  exact hf ▸ .wrongType h hp ha

theorem grounded_of_mem_violations {node : Schema χ} {value : Json} (hw : node.WellFormed)
    (h : Reaches root schema path value node) (hf : fault ∈ violations node path value) :
    Grounded root schema fault := by
  induction node generalizing path value with
  | scalar kind =>
    by_cases ha : value.kind = kind.kind
    · simp [violations, ha] at hf
    · exact grounded_wrongType h (by simp) (by simp [violations, ha]) hf
  | object fields ih =>
    obtain ⟨hd, hc⟩ := wellFormed_object.mp hw
    cases value with
    | object members =>
      rw [violations] at hf
      split at hf
      · obtain ⟨entry, he, value, hv, hf⟩ := exists_of_mem_fieldViolations hf
        exact ih entry he (hc entry he) (h.field hd he hv) hf
      · exact grounded_of_mem_keyViolations h hf
    | _ => exact grounded_wrongType h (by simp) rfl hf
  | listOf element ih =>
    cases value with
    | array items =>
      obtain ⟨index, item, hi, hf⟩ := exists_of_mem_itemViolations hf
      rw [Nat.zero_add] at hf
      exact ih hw (h.item hi) hf
    | _ => exact grounded_wrongType h (by simp) rfl hf
  | union members =>
    by_cases ha : someWithout members path value = true
    · simp [violations, ha] at hf
    · exact grounded_wrongType h (by simp) (by simp [violations, ha]) hf
  | predicate p =>
    by_cases hc : Check.run p.check value = .pass
    · simp [violations, hc] at hf
    · obtain rfl : fault = .predicateFailed path p.name value := by simpa [violations, hc] using hf
      exact .predicateFailed h (Bool.eq_false_iff.mpr (mt Predicate.holds_iff.mp hc))

theorem grounded_of_mem_rootViolations {options : Options} {fields : Fields (Schema χ)}
    {members : Fields Json} (hw : (object fields).WellFormed)
    (hf : fault ∈ rootViolations options fields members) :
    Grounded (.object members) (object fields) fault := by
  have h : Reaches (.object members) (object fields) .root (.object members) (object fields) :=
    ⟨rfl, rfl⟩
  unfold rootViolations at hf
  split at hf
  · exact grounded_of_mem_keyViolations h hf
  · exact grounded_of_mem_violations hw h hf

end Grounds

end Schema

theorem Options.place?_of_checkSize {options : Options} {given : Instance} {fault : Fault}
    (h : options.checkSize given = .error fault) : fault.place? = none := by
  rw [checkSize] at h
  split at h
  · rw [StructuralSchema.checkSize] at h
    split at h
    · cases h
      rfl
    · cases h
  · cases h

theorem Instance.place?_of_load {given : Instance} {fault : Fault}
    (h : given.load = .error fault) : fault.place? = none := by
  cases given with
  | text source =>
    cases hr : Json.ofText source with
    | ok root =>
      rw [load, hr] at h
      cases h
    | error mistake =>
      rw [load, hr] at h
      cases h
      rfl
  | value v => cases h

theorem Json.place?_of_members? {root : Json} {fault : Fault} (h : root.members? = .error fault) :
    fault.place? = none := by
  cases root <;> cases h <;> rfl

open Schema

variable [Check χ]

/-- A fault that points at a place in an instance is right about that place. -/
theorem exists_grounded_of_validate {options : Options} {given : Instance} {schema : Schema χ}
    {fault : Fault} {place : String} (hs : schema.WellFormed) (hr : schema.isObject = true)
    (h : validate options given schema = .error fault) (hp : fault.place? = some place) :
    ∃ root, given.load = .ok root ∧ Grounded root schema fault := by
  cases schema with
  | object fields =>
    rw [validate_object] at h
    obtain hz | ⟨_, _, h⟩ := bind_eq_error_iff.mp h
    · rw [Options.place?_of_checkSize hz] at hp
      cases hp
    obtain hl | ⟨root, hl, h⟩ := bind_eq_error_iff.mp h
    · rw [Instance.place?_of_load hl] at hp
      cases hp
    obtain hm | ⟨members, hm, h⟩ := bind_eq_error_iff.mp h
    · rw [Json.place?_of_members? hm] at hp
      cases hp
    obtain rfl := Json.members?_eq_ok_iff.mp hm
    exact ⟨_, hl, grounded_of_mem_rootViolations hs (mem_of_verdict h)⟩
  | _ => cases hr

/-- The failed predicate and the wrong type in the list, by which the members of a union do not
accept the value, are passed over. -/
theorem exists_grounded_staff :
    let given : Instance := .value (.object [("staff", .array
      [.object [("mail", .array [.string "a@b.de"])], .object [("mail", .array [.null])]])])
    let schema : Schema Builtin := object [("staff", listOf (object
      [("mail", union [predicate ⟨"email", .email⟩, listOf (scalar .string)])]))]
    let fault : Fault :=
      .wrongType (.key (.index (.key .root "staff") 1) "mail") "@email | [str]" .list
    validate {} given schema = .error fault ∧ fault.place? = some "staff[1].mail" ∧
      ∃ root, given.load = .ok root ∧ Grounded root schema fault := by
  intro given schema fault
  have hv : validate {} given schema = .error fault := by rfl
  have hp : fault.place? = some "staff[1].mail" := by rfl
  exact ⟨hv, hp, exists_grounded_of_validate (by decide) rfl hv hp⟩

end StructuralSchema
