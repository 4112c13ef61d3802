import StructuralSchema.Path
import StructuralSchema.Schema

namespace StructuralSchema

def Json.at? (root : Json) : Path → Option Json
  | .root => some root
  | .key parent name =>
    match Json.at? root parent with
    | some (.object members) => Fields.get? members name
    | _ => none
  | .index parent position =>
    match Json.at? root parent with
    | some (.array items) => items[position]?
    | _ => none

def Schema.at? {χ : Type} (root : Schema χ) : Path → Option (Schema χ)
  | .root => some root
  | .key parent name =>
    match Schema.at? root parent with
    | some (.object fields) => Fields.get? fields name
    | _ => none
  | .index parent _ =>
    match Schema.at? root parent with
    | some (.listOf element) => some element
    | _ => none

structure Reaches {χ : Type} (root : Json) (schema : Schema χ) (path : Path) (value : Json)
    (node : Schema χ) : Prop where
  value_at : root.at? path = some value
  node_at : schema.at? path = some node

namespace Path

/-- No name on the way has a character that divides steps. -/
def Plain : Path → Prop
  | root => True
  | key parent name => Plain parent ∧ ∀ c ∈ name.toList, c ≠ '.' ∧ c ≠ '[' ∧ c ≠ ']'
  | index parent _ => Plain parent

def BeginsWithKey : Path → Prop
  | root => False
  | key root _ => True
  | key parent _ => BeginsWithKey parent
  | index parent _ => BeginsWithKey parent

def OnlyKeys : Path → Prop
  | root => True
  | key parent _ => OnlyKeys parent
  | index _ _ => False

end Path

end StructuralSchema
