import StructuralSchema.Instance
import StructuralSchema.Schema.Union

namespace StructuralSchema.Schema

variable {χ : Type}

def unionKey : String := "$union"

def escapeKey (key : String) : String :=
  match key.toList with
  | '$' :: _ => "$" ++ key
  | _ => key

def unescapeKey (key : String) : String :=
  match key.toList with
  | '$' :: '$' :: rest => String.ofList ('$' :: rest)
  | _ => key

mutual

/-- A union is an object whose only key is `$union`. Field names that begin with `$` are written with
one more of it, so that no field is taken for a union. -/
def toDocument : Schema χ → Json
  | scalar s => .string s.name
  | object fields => .object (Fields.ofList (toMembers fields))
  | listOf element => .array [toDocument element]
  | union members => .object [(unionKey, .array (toDocuments members))]
  | predicate p => .string ("@" ++ p.name)

def toDocuments : List (Schema χ) → List Json
  | [] => []
  | schema :: schemas => toDocument schema :: toDocuments schemas

def toMembers : List (String × Schema χ) → List (String × Json)
  | [] => []
  | (key, schema) :: fields => (escapeKey key, toDocument schema) :: toMembers fields

end

def isUnionMarker : List (String × Json) → Bool
  | [(key, _)] => key = unionKey
  | _ => false

variable [DecidableEq χ]

def ofTag (registry : Registry χ) (path : Path) (tag : String) : Except Fault (Schema χ) :=
  match tag.toList with
  | '@' :: rest =>
    let name := String.ofList rest
    match registry.get? name with
    | some found => .ok (predicate found)
    | none => .error (.badSchema path (.unknownPredicate name))
  | _ =>
    match Scalar.ofTag? tag with
    | some found => .ok (scalar found)
    | none => .error (.badSchema path (.unknownTag tag))

mutual

def ofNode (registry : Registry χ) (path : Path) : Json → Except Fault (Schema χ)
  | .string tag => ofTag registry path tag
  | .array [element] => do return listOf (← ofNode registry (path.index 0) element)
  | .array items => .error (.badSchema path (.elementCount items.length))
  | .object members =>
    if isUnionMarker members then ofMarker registry path members
    else do return object (Fields.ofList (← ofNodeMembers registry path members))
  | other => .error (.badSchema path (.notASchema other))

def ofMarker (registry : Registry χ) (path : Path) :
    List (String × Json) → Except Fault (Schema χ)
  | (_, .array items) :: _ => do return unionOf (← ofNodes registry path 0 items)
  | _ => .error (.badSchema path .unionNotArray)

def ofNodes (registry : Registry χ) (path : Path) (position : Nat) :
    List Json → Except Fault (List (Schema χ))
  | [] => .ok []
  | node :: nodes => do
    let schema ← ofNode registry (path.index position) node
    return schema :: (← ofNodes registry path (position + 1) nodes)

def ofNodeMembers (registry : Registry χ) (path : Path) :
    List (String × Json) → Except Fault (List (String × Schema χ))
  | [] => .ok []
  | (key, node) :: members => do
    let name := unescapeKey key
    let schema ← ofNode registry (path.key name) node
    return (name, schema) :: (← ofNodeMembers registry path members)

end

/-- Reads a document. Its root is the shape of an object. -/
def ofDocument (registry : Registry χ) : Json → Except Fault (Schema χ)
  | .object members =>
    if isUnionMarker members then .error (.badSchema .root .rootNotObject)
    else ofNode registry .root (.object members)
  | _ => .error (.badSchema .root .rootNotObject)

def ofDocumentText (registry : Registry χ) (text : String) : Except Fault (Schema χ) := do
  ofDocument registry (← (Instance.text text).load)

end StructuralSchema.Schema
