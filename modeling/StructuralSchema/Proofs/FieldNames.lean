import StructuralSchema.Predicate.Builtin
import StructuralSchema.Proofs.Documents
import StructuralSchema.Validation

namespace StructuralSchema

open Fields

namespace Schema

/-- The first name begins with a single `$`, and the other has one more in front of it. -/
def Merge (name other : String) : Prop :=
  name.toList.head? = some '$' ∧ name.toList.tail.head? ≠ some '$' ∧ other = "$" ++ name

instance (name other : String) : Decidable (Merge name other) :=
  inferInstanceAs (Decidable (_ ∧ _ ∧ _))

theorem escapeKey_of_dollar {name : String} (h : name.toList.head? = some '$') :
    escapeKey name = "$" ++ name := by
  obtain ⟨rest, hr⟩ := List.head?_eq_some_iff.mp h
  simp [escapeKey, hr]

theorem escapeKey_of_not_dollar {name : String} (h : name.toList.head? ≠ some '$') :
    escapeKey name = name := by
  unfold escapeKey
  split
  · rename_i rest hr
    simp [hr] at h
  · rfl

theorem escapeKey_unescapeKey_or (key : String) :
    escapeKey (unescapeKey key) = key ∨
      unescapeKey key = key ∧ (key.toList.head? = some '$' → key.toList.tail.head? ≠ some '$') := by
  unfold unescapeKey
  split
  · rename_i rest hk
    refine .inl ?_
    rw [escapeKey_of_dollar (by simp), ← String.toList_inj]
    simp [hk]
  · rename_i hk
    refine .inr ⟨rfl, fun h ht => ?_⟩
    obtain ⟨rest, hr⟩ := List.head?_eq_some_iff.mp h
    obtain ⟨rest', hr'⟩ := List.head?_eq_some_iff.mp ht
    exact hk rest' (by simpa [hr] using hr')

theorem unescapeKey_of_single {name : String} (h : name.toList.tail.head? ≠ some '$') :
    unescapeKey name = name := by
  unfold unescapeKey
  split
  · rename_i rest hk
    simp [hk] at h
  · rfl

theorem Merge.unescapeKey_eq {name other : String} (h : Merge name other) :
    unescapeKey name = unescapeKey other := by
  obtain ⟨hd, ht, rfl⟩ := h
  rw [← escapeKey_of_dollar hd, unescapeKey_escapeKey, unescapeKey_of_single ht]

theorem Merge.ne {name other : String} (h : Merge name other) : name ≠ other := by
  obtain ⟨hd, ht, rfl⟩ := h
  intro he
  have hl := congrArg String.length he
  simp at hl

theorem merge_escapeKey {name : String}
    (h : name.toList.head? = some '$' → name.toList.tail.head? ≠ some '$')
    (hne : escapeKey name ≠ name) : Merge name (escapeKey name) := by
  by_cases hd : name.toList.head? = some '$'
  · exact ⟨hd, h hd, escapeKey_of_dollar hd⟩
  · exact absurd (escapeKey_of_not_dollar hd) hne

theorem merge_of_unescapeKey_eq {key other : String} (h : unescapeKey key = unescapeKey other)
    (hne : key ≠ other) : Merge key other ∨ Merge other key := by
  obtain hk | ⟨hk, hs⟩ := escapeKey_unescapeKey_or key <;>
    obtain ho | ⟨ho, hs'⟩ := escapeKey_unescapeKey_or other
  · rw [h, ho] at hk
    exact absurd hk.symm hne
  · rw [h, ho] at hk
    subst hk
    exact .inr (merge_escapeKey hs' hne)
  · rw [← h, hk] at ho
    subst ho
    exact .inl (merge_escapeKey hs hne.symm)
  · rw [hk, ho] at h
    exact absurd h hne

def NamesApart (members : Fields Json) : Prop :=
  ∀ name ∈ members.keys, ∀ other ∈ members.keys, ¬ Merge name other

instance (members : Fields Json) : Decidable (NamesApart members) :=
  inferInstanceAs (Decidable (∀ name ∈ members.keys, ∀ other ∈ members.keys, ¬ Merge name other))

theorem nodup_map_unescapeKey_iff {members : Fields Json} (hd : members.Distinct) :
    (members.keys.map unescapeKey).Nodup ↔ NamesApart members := by
  rw [List.nodup_map_iff_inj_on hd]
  constructor
  · intro h name hn other ho hm
    exact hm.ne (h name hn other ho hm.unescapeKey_eq)
  · intro h name hn other ho he
    by_contra hne
    obtain hm | hm := merge_of_unescapeKey_eq he hne
    · exact h name hn other ho hm
    · exact h other ho name hn hm

variable {χ : Type}

theorem mem_nodesOfItems {path : Path} {position : Nat} {items : List Json}
    {entry : Path × Json} (h : entry ∈ nodesOfItems path position items) :
    ∃ item ∈ items, ∃ index, entry ∈ nodesOf (path.index index) item := by
  induction items generalizing position with
  | nil => cases h
  | cons item items ih =>
    obtain hi | hr := List.mem_append.mp h
    · exact ⟨item, List.mem_cons_self, position, hi⟩
    · obtain ⟨other, ho, hn⟩ := ih hr
      exact ⟨other, List.mem_cons_of_mem _ ho, hn⟩

theorem mem_nodesOfMembers {path : Path} {members : Fields Json} {entry : Path × Json}
    (h : entry ∈ nodesOfMembers path members) :
    ∃ member ∈ members, entry ∈ nodesOf (path.key (unescapeKey member.1)) member.2 := by
  induction members with
  | nil => cases h
  | cons member members ih =>
    obtain hm | hr := List.mem_append.mp h
    · exact ⟨member, List.mem_cons_self, hm⟩
    · obtain ⟨other, ho, hn⟩ := ih hr
      exact ⟨other, List.mem_cons_of_mem _ ho, hn⟩

variable [DecidableEq χ] {registry : Registry χ}

def Readable (registry : Registry χ) (node : Json) : Prop :=
  node.WellFormed ∧ ∃ schema : Schema χ, Denotes registry node schema

theorem Denotes.readable {node : Json} {schema : Schema χ} (h : Denotes registry node schema)
    (hw : node.WellFormed) {path : Path} {entry : Path × Json} (he : entry ∈ nodesOf path node) :
    Readable registry entry.2 := by
  induction h generalizing path with
  | scalar hk =>
    obtain rfl := List.mem_singleton.mp he
    exact ⟨hw, _, .scalar hk⟩
  | predicate hp =>
    obtain rfl := List.mem_singleton.mp he
    exact ⟨hw, _, .predicate hp⟩
  | listOf hn ih =>
    obtain rfl | hi := List.mem_cons.mp he
    · exact ⟨hw, _, .listOf hn⟩
    · obtain ⟨item, hm, index, hm'⟩ := mem_nodesOfItems hi
      obtain rfl := List.mem_singleton.mp hm
      exact ih (Json.wellFormed_array.mp hw item hm) hm'
  | object hm hk hf ih =>
    rw [nodesOf, hm] at he
    obtain rfl | hi := List.mem_cons.mp he
    · exact ⟨hw, _, .object hm hk hf⟩
    · obtain ⟨member, hmem, hn⟩ := mem_nodesOfMembers hi
      obtain ⟨_, _, _, hr⟩ := exists_mem_right_of_forall₂ ih (List.mem_map_of_mem hmem)
      exact hr ((Json.wellFormed_object.mp hw).2 member hmem) hn
  | @union nodes schemas hs ih =>
    obtain rfl | hi := List.mem_cons.mp he
    · exact ⟨hw, _, .union hs⟩
    · obtain ⟨item, hm, index, hn⟩ := mem_nodesOfItems hi
      have ha : (Json.array nodes).WellFormed :=
        (Json.wellFormed_object.mp hw).2 (unionKey, .array nodes) List.mem_cons_self
      obtain ⟨_, _, _, hr⟩ := exists_mem_right_of_forall₂ ih hm
      exact hr (Json.wellFormed_array.mp ha item hm) hn

/-- There is one field for each member, in the same order, with the node that was read from the
member's value. -/
def FieldPerMember (registry : Registry χ) (path : Path) (members : Fields Json)
    (fields : Fields (Schema χ)) : Prop :=
  List.Forall₂ (fun member field => field.1 = unescapeKey member.1 ∧
    ofNode registry (path.key field.1) member.2 = .ok field.2) members fields

theorem fieldPerMember_of_denotes {members : Fields Json} {fields : Fields (Schema χ)}
    (hk : fields.keys = members.keys.map unescapeKey)
    (h : List.Forall₂ (Denotes registry) (members.map Prod.snd) (fields.map Prod.snd))
    (path : Path) : FieldPerMember registry path members fields := by
  have hn : List.Forall₂ (fun member field => unescapeKey member.1 = field.1) members fields := by
    rw [← List.forall₂_eq_eq_eq, keys, keys, List.map_map, List.forall₂_map_left_iff,
      List.forall₂_map_right_iff] at hk
    exact hk.flip.imp fun _ _ he => he.symm
  rw [List.forall₂_map_left_iff, List.forall₂_map_right_iff] at h
  refine List.Forall₂.mp ?_ hn h
  exact fun member field he hd => ⟨he.symm, (ofNode_eq_ok_iff _ member.2 field.2).mpr hd⟩

end Schema

open Schema

variable {χ : Type} [DecidableEq χ] {registry : Registry χ}

/-- Wherever an object stands in a document that was read, no field of it is lost as long as no two of
its names are read as one, and as soon as two are there are fewer fields than members. -/
theorem exists_fields_of_mem_nodesOf {document : Json} {schema : Schema χ} {path : Path}
    {members : Fields Json} (hw : document.WellFormed)
    (h : ofDocument registry document = .ok schema)
    (hm : (path, .object members) ∈ nodesOf .root document) (hu : isUnionMarker members = false) :
    ∃ fields, ofNode registry path (.object members) = .ok (object fields) ∧
      (NamesApart members → FieldPerMember registry path members fields) ∧
      (¬ NamesApart members → fields.length < members.length) := by
  obtain ⟨hwm, node, hn⟩ := (ofDocument_eq_ok_iff.mp h).2.readable hw hm
  have hr := (ofNode_eq_ok_iff path _ _).mpr hn
  have hd := (Json.wellFormed_object.mp hwm).1
  cases hn with
  | union => simp [isUnionMarker] at hu
  | @object _ fields _ hk hf =>
    have hl : fields.length = members.length := by simpa [keys] using congrArg List.length hk
    refine ⟨_, hr, fun ha => ?_, fun ha => ?_⟩
    · have hfields : Distinct fields := by
        rw [Distinct, hk]
        exact (nodup_map_unescapeKey_iff hd).mpr ha
      rw [ofList_of_distinct hfields]
      exact fieldPerMember_of_denotes hk hf path
    · rw [← hl]
      apply length_ofList_lt
      rwa [Distinct, hk, nodup_map_unescapeKey_iff hd]

theorem exists_fields_of_mem_nodesOf_rows :
    let registry : Registry Builtin := .builtin id
    let members : Fields Json :=
      [("$a", .string "integer"), ("$$$a", .array [.string "@email"]), ("$$b", .string "bool")]
    let document : Json :=
      .object [("rows", .array [.object [("$union", .array [.string "null", .object members])]])]
    let path : Path := .index (.index (.key .root "rows") 0) 1
    (∃ schema, ofDocument registry document = .ok schema) ∧
      ∃ fields, ofNode registry path (.object members) = .ok (object fields) ∧
        FieldPerMember registry path members fields := by
  intro registry members document path
  let row : Schema Builtin := object
    [("$a", scalar .int), ("$$a", listOf (predicate ⟨"email", .email⟩)), ("$b", scalar .bool)]
  have h : ofDocument registry document =
      .ok (object [("rows", listOf (union [scalar .null, row]))]) := by rfl
  have hm : (path, .object members) ∈ nodesOf .root document := by
    simp [document, path, nodesOf, nodesOfMembers, nodesOfItems, nodesOfMarker, nodesOfUnion,
      isUnionMarker, unionKey, unescapeKey]
  obtain ⟨fields, hf, hp, _⟩ := exists_fields_of_mem_nodesOf (by decide) h hm rfl
  exact ⟨⟨_, h⟩, fields, hf, hp (by decide)⟩

/-- Whichever of two members comes first is lost with its shape, and an object without it has
exactly the shape of the schema. -/
theorem ofDocument_of_merged_names :
    let document (first second : String) : Json :=
      .object [(first, .string "int"), (second, .string "int")]
    let schema : Schema Builtin := object [("$a", scalar .int)]
    (∀ names ∈ [("$a", "$$a"), ("$$a", "$a")],
      (document names.1 names.2).WellFormed ∧ HasFieldsAtRoot (document names.1 names.2) ∧
        ofDocument (.empty : Registry Builtin) (document names.1 names.2) = .ok schema) ∧
      isValid {} (.value (.object [("$a", .number (.int 1 (by decide)))])) schema = .ok true := by
  intro document schema
  refine ⟨?_, by rfl⟩
  simp only [List.forall_mem_cons, List.not_mem_nil, false_implies, implies_true, and_true]
  exact ⟨⟨by decide, rfl, by rfl⟩, ⟨by decide, rfl, by rfl⟩⟩

end StructuralSchema
