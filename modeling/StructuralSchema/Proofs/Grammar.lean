import StructuralSchema.Predicate.Builtin
import StructuralSchema.Proofs.Denotation
import StructuralSchema.Schema.Grammar

namespace StructuralSchema

def Json.isArray : Json → Bool
  | array _ => true
  | _ => false

namespace Schema

variable {χ : Type} {registry : Registry χ}

theorem locallyBad_object_iff (members : Fields Json) :
    LocallyBad registry (.object members) ↔
      isUnionMarker members = true ∧ ∀ entry ∈ members, entry.2.isArray = false := by
  rw [isUnionMarker_iff, LocallyBad]
  constructor
  · rintro ⟨value, rfl, hv⟩
    refine ⟨⟨value, rfl⟩, ?_⟩
    cases value with
    | array items => exact absurd rfl (hv items)
    | _ => simp [Json.isArray]
  · rintro ⟨⟨value, rfl⟩, hv⟩
    refine ⟨value, rfl, ?_⟩
    rintro items rfl
    simp [Json.isArray] at hv

instance (registry : Registry χ) : DecidablePred (LocallyBad registry)
  | .string tag => inferInstanceAs (Decidable
      (Scalar.ofTag? tag = none ∧ ∀ name ∈ registry.names, tag ≠ "@" ++ name))
  | .array items => inferInstanceAs (Decidable (items.length ≠ 1))
  | .object members => decidable_of_iff' _ (locallyBad_object_iff members)
  | .null | .bool _ | .number _ => .isTrue trivial

def tagDefect (tag : String) : Defect :=
  match tag.toList with
  | '@' :: rest => .unknownPredicate (String.ofList rest)
  | _ => .unknownTag tag

theorem tagDefect_at_append (name : String) :
    tagDefect ("@" ++ name) = .unknownPredicate name := by
  simp [tagDefect]

theorem tagDefect_of_not_at {tag : String} (h : tag.toList.head? ≠ some '@') :
    tagDefect tag = .unknownTag tag := by
  unfold tagDefect
  split
  · rename_i rest hl
    simp [hl] at h
  · rfl

def defectOf : Json → Defect
  | .string tag => tagDefect tag
  | .array items => .elementCount items.length
  | .object _ => .unionNotArray
  | other => .notASchema other

def offender? (registry : Registry χ) (nodes : List (Path × Json)) : Option (Path × Json) :=
  nodes.find? fun entry => LocallyBad registry entry.2

/-- The result of reading the nodes one after the other: there is one if none of them is bad, else
it is the fault of the first bad one. -/
def ReadsInOrder {α : Type} (registry : Registry χ) (nodes : List (Path × Json))
    (result : Except Fault α) : Prop :=
  match offender? registry nodes with
  | none => ∃ a, result = .ok a
  | some (path, node) => result = .error (.badSchema path (defectOf node))

section Order

variable {α β : Type} {nodes others : List (Path × Json)} {path : Path} {node : Json}

theorem readsInOrder_nil (a : α) : ReadsInOrder registry [] (.ok a) :=
  ⟨a, rfl⟩

theorem readsInOrder_of_bad (h : LocallyBad registry node) (nodes : List (Path × Json)) :
    ReadsInOrder registry ((path, node) :: nodes)
      (.error (.badSchema path (defectOf node)) : Except Fault α) := by
  simp [ReadsInOrder, offender?, h]

theorem ReadsInOrder.cons {result : Except Fault α} (h : ¬ LocallyBad registry node)
    (hr : ReadsInOrder registry nodes result) :
    ReadsInOrder registry ((path, node) :: nodes) result := by
  simpa [ReadsInOrder, offender?, h] using hr

theorem ReadsInOrder.bind {first : Except Fault α} {next : α → Except Fault β}
    (h : ReadsInOrder registry nodes first) (hn : ∀ a, ReadsInOrder registry others (next a)) :
    ReadsInOrder registry (nodes ++ others) (first >>= next) := by
  unfold ReadsInOrder at h
  rw [ReadsInOrder, offender?, List.find?_append, ← offender?, ← offender?]
  cases ho : offender? registry nodes with
  | none =>
    rw [ho] at h
    obtain ⟨a, rfl⟩ := h
    exact hn a
  | some found =>
    rw [ho] at h
    rw [h]
    rfl

theorem ReadsInOrder.map {result : Except Fault α} (h : ReadsInOrder registry nodes result)
    (f : α → β) : ReadsInOrder registry nodes (do return f (← result)) := by
  have hb := h.bind fun a => readsInOrder_nil (f a)
  rw [List.append_nil] at hb
  exact hb

theorem ReadsInOrder.exists_ok_iff {result : Except Fault α}
    (h : ReadsInOrder registry nodes result) :
    (∃ a, result = .ok a) ↔ ∀ entry ∈ nodes, ¬ LocallyBad registry entry.2 := by
  unfold ReadsInOrder at h
  cases ho : offender? registry nodes with
  | none =>
    rw [ho] at h
    simpa [offender?, h] using ho
  | some found =>
    rw [ho] at h
    have hb : LocallyBad registry found.2 := by simpa using List.find?_some ho
    constructor
    · rintro ⟨a, ha⟩
      rw [h] at ha
      cases ha
    · exact fun hn => absurd hb (hn found (List.mem_of_find?_eq_some ho))

theorem ReadsInOrder.exists_offender {result : Except Fault α} {fault : Fault}
    (h : ReadsInOrder registry nodes result) (hf : result = .error fault) :
    ∃ path node, offender? registry nodes = some (path, node) ∧
      fault = .badSchema path (defectOf node) := by
  unfold ReadsInOrder at h
  split at h
  · obtain ⟨a, ha⟩ := h
    rw [ha] at hf
    cases hf
  · rename_i path node ho
    rw [h] at hf
    cases hf
    exact ⟨path, node, ho, rfl⟩

end Order

theorem locallyBad_at_append_iff (name : String) :
    LocallyBad registry (.string ("@" ++ name)) ↔ name ∉ registry.names := by
  constructor
  · exact fun hb hn => hb.2 name hn rfl
  · intro hn
    constructor
    · rw [Option.eq_none_iff_forall_ne_some]
      intro kind hk
      exact not_at_of_ofTag? hk (by simp)
    · intro other ho he
      obtain rfl : name = other := by simpa using he
      exact hn ho

theorem locallyBad_iff_of_not_at {tag : String} (h : tag.toList.head? ≠ some '@') :
    LocallyBad registry (.string tag) ↔ Scalar.ofTag? tag = none := by
  constructor
  · exact fun hb => hb.1
  · refine fun hk => ⟨hk, fun name _ he => h ?_⟩
    simp [he]

theorem readsInOrder_ofTag (path : Path) (tag : String) :
    ReadsInOrder registry [(path, .string tag)] (ofTag registry path tag) := by
  obtain ⟨name, rfl⟩ | ht := exists_eq_at_append tag
  · rw [ofTag_at_append]
    cases hg : registry.get? name with
    | some found =>
      have hn : ¬ LocallyBad registry (.string ("@" ++ name)) := by
        simp [locallyBad_at_append_iff, ← Registry.get?_eq_none_iff, hg]
      exact (readsInOrder_nil _).cons hn
    | none =>
      have hb : LocallyBad registry (.string ("@" ++ name)) :=
        (locallyBad_at_append_iff name).mpr ((registry.get?_eq_none_iff name).mp hg)
      rw [← tagDefect_at_append]
      exact readsInOrder_of_bad hb []
  · rw [ofTag_of_not_at ht]
    cases hk : Scalar.ofTag? tag with
    | some kind =>
      have hn : ¬ LocallyBad registry (.string tag) := by
        simp [locallyBad_iff_of_not_at ht, hk]
      exact (readsInOrder_nil _).cons hn
    | none =>
      have hb : LocallyBad registry (.string tag) := (locallyBad_iff_of_not_at ht).mpr hk
      rw [← tagDefect_of_not_at ht]
      exact readsInOrder_of_bad hb []

variable [DecidableEq χ]

-- By recursion on the node. The array that the mark of a union holds is no node itself, so that its
-- items are reached past it.
mutual

theorem readsInOrder_ofNode (path : Path) (node : Json) :
    ReadsInOrder registry (nodesOf path node) (ofNode registry path node) := by
  match node with
  | .null | .bool _ | .number _ =>
    apply readsInOrder_of_bad
    trivial
  | .string tag => exact readsInOrder_ofTag path tag
  | .array [] | .array (_ :: _ :: _) =>
    apply readsInOrder_of_bad
    simp [LocallyBad]
  | .array [element] =>
    have he := readsInOrder_ofNode (path.index 0) element
    have hn : ¬ LocallyBad registry (.array [element]) := by simp [LocallyBad]
    simp only [nodesOf, nodesOfItems, List.append_nil, ofNode]
    exact (he.map listOf).cons hn
  | .object members =>
    rw [nodesOf, ofNode]
    split
    · rename_i hm
      exact readsInOrder_ofMarker path members hm
    · rename_i hm
      have hn : ¬ LocallyBad registry (.object members) := by simp [locallyBad_object_iff, hm]
      have hf := readsInOrder_ofNodeMembers path members
      exact (hf.map fun fields => object (Fields.ofList fields)).cons hn

theorem readsInOrder_ofMarker (path : Path) (members : Fields Json)
    (hm : isUnionMarker members = true) :
    ReadsInOrder registry ((path, .object members) :: nodesOfMarker path members)
      (ofMarker registry path members) := by
  match members with
  | [] => cases hm
  | (key, .array nodes) :: rest =>
    have hn : ¬ LocallyBad registry (.object ((key, .array nodes) :: rest)) := by
      simp [locallyBad_object_iff, Json.isArray]
    exact ((readsInOrder_ofNodes path 0 nodes).map unionOf).cons hn
  | (key, .null) :: rest | (key, .bool _) :: rest | (key, .number _) :: rest
  | (key, .string _) :: rest | (key, .object _) :: rest =>
    apply readsInOrder_of_bad
    obtain ⟨_, h⟩ := (isUnionMarker_iff _).mp hm
    cases h
    simp [locallyBad_object_iff, isUnionMarker, Json.isArray]

theorem readsInOrder_ofNodes (path : Path) (position : Nat) (nodes : List Json) :
    ReadsInOrder registry (nodesOfItems path position nodes)
      (ofNodes registry path position nodes) := by
  match nodes with
  | [] => exact readsInOrder_nil []
  | node :: nodes =>
    have hn := readsInOrder_ofNode (path.index position) node
    have hs := readsInOrder_ofNodes path (position + 1) nodes
    exact hn.bind fun schema => hs.map fun schemas => schema :: schemas

theorem readsInOrder_ofNodeMembers (path : Path) (members : Fields Json) :
    ReadsInOrder registry (nodesOfMembers path members)
      (ofNodeMembers registry path members) := by
  match members with
  | [] => exact readsInOrder_nil []
  | (key, node) :: members =>
    have hn := readsInOrder_ofNode (path.key (unescapeKey key)) node
    have hs := readsInOrder_ofNodeMembers path members
    exact hn.bind fun schema => hs.map fun fields => (unescapeKey key, schema) :: fields

end

theorem ofDocument_of_hasFieldsAtRoot {document : Json} (h : HasFieldsAtRoot document) :
    ofDocument registry document = ofNode registry .root document := by
  cases document with
  | object members =>
    rw [HasFieldsAtRoot] at h
    simp [ofDocument, h]
  | _ => cases h

theorem ofDocument_of_not_hasFieldsAtRoot {document : Json} (h : ¬ HasFieldsAtRoot document) :
    ofDocument registry document = .error (.badSchema .root .rootNotObject) := by
  cases document with
  | object members =>
    rw [HasFieldsAtRoot, Bool.not_eq_false] at h
    simp [ofDocument, h]
  | _ => rfl

/-- A document is read just if its root is an object with fields and no node of it is bad by itself.
Otherwise the fault tells the root, if that is no such object, or else the first bad node. -/
theorem exists_ofDocument_iff_and_offender (registry : Registry χ) (document : Json) :
    ((∃ schema, ofDocument registry document = .ok schema) ↔
        HasFieldsAtRoot document ∧
          ∀ entry ∈ nodesOf .root document, ¬ LocallyBad registry entry.2) ∧
      ∀ fault, ofDocument registry document = .error fault →
        (¬ HasFieldsAtRoot document ∧ fault = .badSchema .root .rootNotObject ∧
            fault.place? = some "$") ∨
          HasFieldsAtRoot document ∧ ∃ path node,
            offender? registry (nodesOf .root document) = some (path, node) ∧
              fault = .badSchema path (defectOf node) ∧
              fault.place? = some (Fault.schemaPlace path) := by
  by_cases hr : HasFieldsAtRoot document
  · have h : ReadsInOrder registry (nodesOf .root document) (ofDocument registry document) := by
      rw [ofDocument_of_hasFieldsAtRoot hr]
      exact readsInOrder_ofNode .root document
    refine ⟨by rw [h.exists_ok_iff, and_iff_right hr], fun fault hf => .inr ⟨hr, ?_⟩⟩
    obtain ⟨path, node, ho, rfl⟩ := h.exists_offender hf
    exact ⟨path, node, ho, rfl, rfl⟩
  · rw [ofDocument_of_not_hasFieldsAtRoot hr]
    refine ⟨by simp [hr], ?_⟩
    rintro _ ⟨⟩
    exact .inl ⟨hr, rfl, rfl⟩

theorem exists_ofDocument_iff_and_offender_notes :
    let registry : Registry Builtin := .builtin id
    let notes (tag : String) (items : List Json) : Json := .object
      [("mail", .array [.string "@email"]),
        ("$$any", .object [("$union", .array [.string "integer", .string tag])]),
        ("$union", .array items)]
    let bad := notes "@phone" [.string "str", .null]
    let place : Path := .index (.key .root "$any") 1
    let fault : Fault := .badSchema place (.unknownPredicate "phone")
    (∃ schema, ofDocument registry (notes "number" [.object []]) = .ok schema) ∧
      ofDocument registry bad = .error fault ∧ fault.place? = some "$any[1]" ∧
      ∃ node, offender? registry (nodesOf .root bad) = some (place, node) ∧
        defectOf node = .unknownPredicate "phone" := by
  intro registry notes bad place fault
  have hf : ofDocument registry bad = .error fault := by rfl
  refine ⟨?_, hf, by rfl, ?_⟩
  · exact (exists_ofDocument_iff_and_offender registry _).1.mpr ⟨rfl, by decide⟩
  · obtain ⟨hr, _⟩ | ⟨_, path, node, ho, hp, _⟩ :=
      (exists_ofDocument_iff_and_offender registry bad).2 fault hf
    · exact absurd rfl hr
    · obtain ⟨rfl, hd⟩ : place = path ∧ _ = defectOf node := Fault.badSchema.inj hp
      exact ⟨node, ho, hd.symm⟩

end Schema

end StructuralSchema
