import StructuralSchema.Schema.Document

namespace StructuralSchema.Schema

mutual

/-- The nodes where a schema belongs and their places, each node before those below it. -/
def nodesOf (path : Path) : Json → List (Path × Json)
  | .array items => (path, .array items) :: nodesOfItems path 0 items
  | .object members =>
    (path, .object members) ::
      (if isUnionMarker members then nodesOfMarker path members else nodesOfMembers path members)
  | node => [(path, node)]

def nodesOfUnion (path : Path) : Json → List (Path × Json)
  | .array items => nodesOfItems path 0 items
  | _ => []

def nodesOfMarker (path : Path) : List (String × Json) → List (Path × Json)
  | [] => []
  | (_, value) :: _ => nodesOfUnion path value

def nodesOfItems (path : Path) (position : Nat) : List Json → List (Path × Json)
  | [] => []
  | node :: nodes => nodesOf (path.index position) node ++ nodesOfItems path (position + 1) nodes

def nodesOfMembers (path : Path) : List (String × Json) → List (Path × Json)
  | [] => []
  | (key, node) :: members =>
    nodesOf (path.key (unescapeKey key)) node ++ nodesOfMembers path members

end

variable {χ : Type}

/-- Whether a node is no schema, whatever is below it. -/
def LocallyBad (registry : Registry χ) : Json → Prop
  | .string tag =>
    Scalar.ofTag? tag = none ∧ ∀ name ∈ registry.names, tag ≠ "@" ++ name
  | .array items => items.length ≠ 1
  | .object members => ∃ value, members = [(unionKey, value)] ∧ ∀ items, value ≠ .array items
  | _ => True

def HasFieldsAtRoot : Json → Prop
  | .object members => isUnionMarker members = false
  | _ => False

end StructuralSchema.Schema
