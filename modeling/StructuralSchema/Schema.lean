import StructuralSchema.Predicate

namespace StructuralSchema

inductive Scalar where
  | null | bool | int | float | string
  deriving DecidableEq

namespace Scalar

def of? (value : Json) : Option Scalar :=
  match value.kind with
  | .null => some null
  | .bool => some bool
  | .int => some int
  | .float => some float
  | .string => some string
  | .list => none
  | .object => none

def accepts (scalar : Scalar) (value : Json) : Bool :=
  of? value = some scalar

def kind : Scalar → Kind
  | null => .null
  | bool => .bool
  | int => .int
  | float => .float
  | string => .string

theorem accepts_iff {scalar : Scalar} {value : Json} :
    scalar.accepts value = true ↔ value.kind = scalar.kind := by
  rw [accepts, decide_eq_true_iff, of?]
  cases value.kind <;> cases scalar <;> simp [kind]

def name : Scalar → String
  | null => "null"
  | bool => "bool"
  | int => "int"
  | float => "float"
  | string => "str"

/-- Apart from its own name, each kind but `null` has a longer one. -/
def ofTag? (tag : String) : Option Scalar :=
  if tag = "null" then some null
  else if tag = "bool" ∨ tag = "boolean" then some bool
  else if tag = "int" ∨ tag = "integer" then some int
  else if tag = "float" ∨ tag = "number" then some float
  else if tag = "str" ∨ tag = "string" then some string
  else none

end Scalar

inductive Schema (χ : Type) where
  | scalar (kind : Scalar)
  | object (fields : List (String × Schema χ))
  | listOf (element : Schema χ)
  | union (members : List (Schema χ))
  | predicate (predicate : Predicate χ)

namespace Schema

variable {χ : Type}

def isObject : Schema χ → Bool
  | object _ => true
  | _ => false

mutual

def hasPredicates : Schema χ → Bool
  | scalar _ => false
  | object fields => fieldsHavePredicates fields
  | listOf element => hasPredicates element
  | union members => anyHasPredicates members
  | predicate _ => true

def anyHasPredicates : List (Schema χ) → Bool
  | [] => false
  | schema :: schemas => hasPredicates schema || anyHasPredicates schemas

def fieldsHavePredicates : List (String × Schema χ) → Bool
  | [] => false
  | (_, schema) :: fields => hasPredicates schema || fieldsHavePredicates fields

end

mutual

def summary : Schema χ → String
  | scalar s => s.name
  | object _ => "object"
  | listOf element => "[" ++ summary element ++ "]"
  | union [] => "never"
  | union members => " | ".intercalate (summaries members)
  | predicate p => "@" ++ p.name

def summaries : List (Schema χ) → List String
  | [] => []
  | schema :: schemas => summary schema :: summaries schemas

end

mutual

/-- No object in the schema has two fields of one name. -/
def WellFormed : Schema χ → Prop
  | object fields => Fields.Distinct fields ∧ FieldsWellFormed fields
  | listOf element => WellFormed element
  | union members => AllWellFormed members
  | _ => True

def AllWellFormed : List (Schema χ) → Prop
  | [] => True
  | schema :: schemas => WellFormed schema ∧ AllWellFormed schemas

def FieldsWellFormed : List (String × Schema χ) → Prop
  | [] => True
  | (_, schema) :: fields => WellFormed schema ∧ FieldsWellFormed fields

end

end Schema

end StructuralSchema
