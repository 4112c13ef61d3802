import Mathlib.Data.List.Forall2
import StructuralSchema.Proofs.Results
import StructuralSchema.Proofs.Trees
import StructuralSchema.Schema.Document

namespace StructuralSchema.Schema

open Fields

variable {χ : Type} {registry : Registry χ}

theorem isUnionMarker_iff (members : Fields Json) :
    isUnionMarker members = true ↔ ∃ value, members = [(unionKey, value)] := by
  match members with
  | [] => simp [isUnionMarker]
  | [(key, value)] => simp [isUnionMarker]
  | _ :: _ :: _ => simp [isUnionMarker]

theorem not_at_of_ofTag? {tag : String} {kind : Scalar} (h : Scalar.ofTag? tag = some kind) :
    tag.toList.head? ≠ some '@' := by
  have hm : tag ∈
      ["null", "bool", "boolean", "int", "integer", "float", "number", "str", "string"] := by
    by_contra hn
    simp only [List.mem_cons, not_or] at hn
    simp [Scalar.ofTag?, hn] at h
  clear h
  revert tag
  decide

theorem exists_eq_at_append (tag : String) :
    (∃ name, tag = "@" ++ name) ∨ tag.toList.head? ≠ some '@' := by
  cases h : tag.toList with
  | nil => exact .inr (by simp)
  | cons c rest =>
    by_cases hc : c = '@'
    · refine .inl ⟨String.ofList rest, ?_⟩
      rw [← String.toList_inj]
      simp [h, hc]
    · exact .inr (by simpa using hc)

theorem ofTag_at_append (path : Path) (name : String) :
    ofTag registry path ("@" ++ name) =
      match registry.get? name with
      | some found => .ok (predicate found)
      | none => .error (.badSchema path (.unknownPredicate name)) := by
  have hl : ("@" ++ name).toList = '@' :: name.toList := by simp
  cases h : registry.get? name <;> simp only [ofTag, hl, String.ofList_toList, h]

theorem ofTag_of_not_at {tag : String} (h : tag.toList.head? ≠ some '@') (path : Path) :
    ofTag registry path tag =
      match Scalar.ofTag? tag with
      | some found => .ok (scalar found)
      | none => .error (.badSchema path (.unknownTag tag)) := by
  unfold ofTag
  split
  · rename_i rest hl
    simp [hl] at h
  · rfl

variable [DecidableEq χ]

/-- The node stands for the schema, predicates being named as in the registry. -/
inductive Denotes (registry : Registry χ) : Json → Schema χ → Prop where
  | scalar {tag : String} {kind : Scalar} (h : Scalar.ofTag? tag = some kind) :
      Denotes registry (.string tag) (scalar kind)
  | predicate {name : String} {p : Predicate χ} (h : registry.get? name = some p) :
      Denotes registry (.string ("@" ++ name)) (predicate p)
  | listOf {node : Json} {element : Schema χ} (h : Denotes registry node element) :
      Denotes registry (.array [node]) (listOf element)
  | object {members : Fields Json} {fields : List (String × Schema χ)}
      (hm : isUnionMarker members = false) (hk : keys fields = members.keys.map unescapeKey)
      (h : List.Forall₂ (Denotes registry) (members.map Prod.snd) (fields.map Prod.snd)) :
      Denotes registry (.object members) (object (ofList fields))
  | union {nodes : List Json} {schemas : List (Schema χ)}
      (h : List.Forall₂ (Denotes registry) nodes schemas) :
      Denotes registry (.object [(unionKey, .array nodes)]) (unionOf schemas)

/-- What holds of each node and its schema if it holds of the nodes below. The array of a union is
no node. -/
@[induction_eliminator]
theorem Denotes.inductionOn
    {motive : (node : Json) → (schema : Schema χ) → Denotes registry node schema → Prop}
    (scalar : ∀ {tag kind} (h : Scalar.ofTag? tag = some kind), motive _ _ (.scalar h))
    (predicate : ∀ {name p} (h : registry.get? name = some p), motive _ _ (.predicate h))
    (listOf : ∀ {node element} (h : Denotes registry node element), motive node element h →
      motive _ _ (.listOf h))
    (object : ∀ {members : Fields Json} {fields} (hm : isUnionMarker members = false)
      (hk : keys fields = members.keys.map unescapeKey)
      (h : List.Forall₂ (Denotes registry) (members.map Prod.snd) (fields.map Prod.snd)),
      List.Forall₂ (fun node schema => ∃ h, motive node schema h) (members.map Prod.snd)
        (fields.map Prod.snd) →
      motive _ _ (.object hm hk h))
    (union : ∀ {nodes schemas} (h : List.Forall₂ (Denotes registry) nodes schemas),
      List.Forall₂ (fun node schema => ∃ h, motive node schema h) nodes schemas →
      motive _ _ (.union h))
    {node : Json} {schema : Schema χ} (h : Denotes registry node schema) : motive node schema h :=
  @Denotes.rec χ _ registry motive
    (fun nodes schemas _ =>
      List.Forall₂ (fun node schema => ∃ h, motive node schema h) nodes schemas)
    scalar predicate listOf object union .nil (fun h _ ih ihs => .cons ⟨h, ih⟩ ihs) _ _ h

theorem ofTag_eq_ok_iff {path : Path} {tag : String} {schema : Schema χ} :
    ofTag registry path tag = .ok schema ↔ Denotes registry (.string tag) schema := by
  constructor
  · intro h
    obtain ⟨name, rfl⟩ | ht := exists_eq_at_append tag
    · rw [ofTag_at_append] at h
      split at h
      · rename_i found hf
        cases h
        exact .predicate hf
      · cases h
    · rw [ofTag_of_not_at ht] at h
      split at h
      · rename_i found hf
        cases h
        exact .scalar hf
      · cases h
  · rintro (hk | hp)
    · rw [ofTag_of_not_at (not_at_of_ofTag? hk), hk]
    · rw [ofTag_at_append, hp]

-- By recursion on the node. The value of a union's mark is no node itself, so that its items are
-- reached past it.
mutual

theorem ofNode_eq_ok_iff (path : Path) (node : Json) (schema : Schema χ) :
    ofNode registry path node = .ok schema ↔ Denotes registry node schema := by
  match node with
  | .null | .bool _ | .number _ =>
    simp only [ofNode, reduceCtorEq, false_iff]
    rintro ⟨⟩
  | .string tag => exact ofTag_eq_ok_iff
  | .array [] | .array (_ :: _ :: _) =>
    simp only [ofNode, reduceCtorEq, false_iff]
    rintro ⟨⟩
  | .array [element] =>
    simp only [ofNode, bind_eq_ok_iff, pure_eq_ok_iff, ofNode_eq_ok_iff _ element]
    constructor
    · rintro ⟨found, h, rfl⟩
      exact .listOf h
    · rintro ⟨⟩
      rename_i found h
      exact ⟨found, h, rfl⟩
  | .object members =>
    rw [ofNode]
    split
    · rename_i hm
      exact ofMarker_eq_ok_iff path members hm schema
    · rename_i hm
      simp only [bind_eq_ok_iff, pure_eq_ok_iff, ofNodeMembers_eq_ok_iff]
      constructor
      · rintro ⟨fields, ⟨hk, h⟩, rfl⟩
        exact .object (by simpa using hm) hk h
      · intro h
        cases h with
        | object _ hk h => exact ⟨_, ⟨hk, h⟩, rfl⟩
        | union h => simp [isUnionMarker] at hm

theorem ofMarker_eq_ok_iff (path : Path) (members : Fields Json) (hm : isUnionMarker members = true)
    (schema : Schema χ) :
    ofMarker registry path members = .ok schema ↔ Denotes registry (.object members) schema := by
  match members with
  | [] => cases hm
  | (key, .array nodes) :: rest =>
    obtain ⟨_, h⟩ := (isUnionMarker_iff _).mp hm
    cases h
    simp only [ofMarker, bind_eq_ok_iff, pure_eq_ok_iff, ofNodes_eq_ok_iff]
    constructor
    · rintro ⟨schemas, h, rfl⟩
      exact .union h
    · intro h
      cases h with
      | object hf => rw [hf] at hm; cases hm
      | union h => exact ⟨_, h, rfl⟩
  | (key, .null) :: rest | (key, .bool _) :: rest | (key, .number _) :: rest
  | (key, .string _) :: rest | (key, .object _) :: rest =>
    simp only [ofMarker, reduceCtorEq, false_iff]
    intro h
    cases h with
    | object hf => rw [hf] at hm; cases hm

theorem ofNodes_eq_ok_iff (path : Path) (position : Nat) (nodes : List Json)
    (schemas : List (Schema χ)) :
    ofNodes registry path position nodes = .ok schemas ↔
      List.Forall₂ (Denotes registry) nodes schemas := by
  match nodes with
  | [] => simp [ofNodes, eq_comm]
  | node :: nodes =>
    simp only [ofNodes, bind_eq_ok_iff, pure_eq_ok_iff, ofNode_eq_ok_iff _ node,
      ofNodes_eq_ok_iff _ _ nodes, List.forall₂_cons_left_iff]
    constructor
    · rintro ⟨schema, h, rest, hr, rfl⟩
      exact ⟨schema, rest, h, hr, rfl⟩
    · rintro ⟨schema, rest, h, hr, rfl⟩
      exact ⟨schema, h, rest, hr, rfl⟩

theorem ofNodeMembers_eq_ok_iff (path : Path) (members : Fields Json)
    (fields : List (String × Schema χ)) :
    ofNodeMembers registry path members = .ok fields ↔
      keys fields = members.keys.map unescapeKey ∧
        List.Forall₂ (Denotes registry) (members.map Prod.snd) (fields.map Prod.snd) := by
  match members with
  | [] =>
    simp only [ofNodeMembers, Except.ok.injEq]
    constructor
    · rintro rfl
      exact ⟨rfl, .nil⟩
    · rintro ⟨hk, _⟩
      exact (List.map_eq_nil_iff.mp hk).symm
  | (key, node) :: members =>
    simp only [ofNodeMembers, bind_eq_ok_iff, pure_eq_ok_iff, ofNode_eq_ok_iff _ node,
      ofNodeMembers_eq_ok_iff _ members]
    constructor
    · rintro ⟨schema, h, rest, ⟨hk, hr⟩, rfl⟩
      exact ⟨by simpa [keys] using hk, .cons h hr⟩
    · rintro ⟨hk, h⟩
      obtain ⟨⟨name, schema⟩, rest, rfl, hn, hr⟩ := List.map_eq_cons_iff.mp hk
      cases h with
      | cons h hs => exact ⟨schema, h, rest, ⟨hr, hs⟩, by rw [← hn]⟩

end

end StructuralSchema.Schema
