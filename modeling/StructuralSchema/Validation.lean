import StructuralSchema.Options
import StructuralSchema.Schema.Inference

namespace StructuralSchema

variable {χ : Type}

namespace Schema

/-- Compares the keys of an object with those of its schema: first the missing ones, in the order
of the schema, then those that the schema does not have, in the order of the object. -/
def reconcile (path : Path) (fields : Fields (Schema χ)) (members : Fields Json) :
    Except Fault Unit :=
  match fields.keys.find? fun key => (members.get? key).isNone with
  | some key => .error (.missingKey (path.key key))
  | none =>
    match members.keys.find? fun key => (fields.get? key).isNone with
    | some key => .error (.unexpectedKey (path.key key))
    | none => .ok ()

def wrongType (path : Path) (schema : Schema χ) (value : Json) : Fault :=
  .wrongType path schema.summary value.kind

def checkItems (check : Path → Json → Except Fault Unit) (path : Path) (position : Nat) :
    List Json → Except Fault Unit
  | [] => .ok ()
  | item :: items => do
    check (path.index position) item
    checkItems check path (position + 1) items

variable [Check χ]

mutual

def check : Schema χ → Path → Json → Except Fault Unit
  | scalar s, path, value =>
    if s.accepts value then .ok () else .error (wrongType path (scalar s : Schema χ) value)
  | object fields, path, value =>
    match value with
    | .object members => do
      reconcile path fields members
      checkFields fields path members
    | value => .error (wrongType path (.object fields) value)
  | listOf element, path, value =>
    match value with
    | .array items => checkItems (check element) path 0 items
    | value => .error (wrongType path (.listOf element) value)
  | union members, path, value =>
    if anyAccepts members path value then .ok ()
    else .error (wrongType path (.union members) value)
  | predicate p, path, value =>
    if p.holds value then .ok ()
    else .error (.predicateFailed path p.name value)

def checkFields : List (String × Schema χ) → Path → Fields Json → Except Fault Unit
  | [], _, _ => .ok ()
  | (key, schema) :: fields, path, members =>
    match members.get? key with
    | some value => do
      check schema (path.key key) value
      checkFields fields path members
    | none => .error (.missingKey (path.key key))

def anyAccepts : List (Schema χ) → Path → Json → Bool
  | [], _, _ => false
  | schema :: schemas, path, value =>
    (check schema path value).isOk || anyAccepts schemas path value

end

end Schema

def Options.checkSize (options : Options) (given : Instance) : Except Fault Unit :=
  match options.sizeLimit with
  | some limit => StructuralSchema.checkSize given.size (some limit)
  | none => .ok ()

/-- Whether the instance has exactly the shape of the schema. None has that of a predicate. -/
def isValid [DecidableEq χ] (options : Options) (given : Instance) (schema : Schema χ) :
    Except Fault Bool := do
  options.checkSize given
  let root ← given.load
  let members ← root.members?
  return (Schema.object (Schema.ofMembers members)).same schema

/-- Checks the keys at the root and, unless typing is loose, everything below. -/
def validate [Check χ] (options : Options) (given : Instance) (schema : Schema χ) :
    Except Fault Unit := do
  options.checkSize given
  match schema with
  | .object fields =>
    let root ← given.load
    let members ← root.members?
    Schema.reconcile .root fields members
    if options.looselyTyped then .ok () else Schema.checkFields fields .root members
  | _ => .error (.badSchema .root .rootNotObject)

end StructuralSchema
