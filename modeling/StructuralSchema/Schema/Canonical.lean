import StructuralSchema.Schema.Equality

namespace StructuralSchema.Schema

variable {χ : Type}

def isUnion : Schema χ → Bool
  | union _ => true
  | _ => false

mutual

def predicates : Schema χ → List (Predicate χ)
  | scalar _ => []
  | object fields => predicatesOfFields fields
  | listOf element => predicates element
  | union members => predicatesOfAll members
  | predicate p => [p]

def predicatesOfAll : List (Schema χ) → List (Predicate χ)
  | [] => []
  | schema :: schemas => predicates schema ++ predicatesOfAll schemas

def predicatesOfFields : List (String × Schema χ) → List (Predicate χ)
  | [] => []
  | (_, schema) :: fields => predicates schema ++ predicatesOfFields fields

end

mutual

/-- No union in the schema is a member of a union or has only one member. -/
def Flat : Schema χ → Prop
  | scalar _ => True
  | object fields => FieldsFlat fields
  | listOf element => Flat element
  | union members =>
    members.length ≠ 1 ∧ (∀ member ∈ members, isUnion member = false) ∧ AllFlat members
  | predicate _ => True

def AllFlat : List (Schema χ) → Prop
  | [] => True
  | schema :: schemas => Flat schema ∧ AllFlat schemas

def FieldsFlat : List (String × Schema χ) → Prop
  | [] => True
  | (_, schema) :: fields => Flat schema ∧ FieldsFlat fields

end

variable [DecidableEq χ]

mutual

/-- No two members of a union in the schema are the same. -/
def Apart : Schema χ → Prop
  | scalar _ => True
  | object fields => FieldsApart fields
  | listOf element => Apart element
  | union members => members.Pairwise (fun a b => a.same b = false) ∧ AllApart members
  | predicate _ => True

def AllApart : List (Schema χ) → Prop
  | [] => True
  | schema :: schemas => Apart schema ∧ AllApart schemas

def FieldsApart : List (String × Schema χ) → Prop
  | [] => True
  | (_, schema) :: fields => Apart schema ∧ FieldsApart fields

end

def Canonical (schema : Schema χ) : Prop :=
  Flat schema ∧ Apart schema

end StructuralSchema.Schema
