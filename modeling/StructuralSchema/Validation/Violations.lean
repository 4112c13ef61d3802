import StructuralSchema.Validation

namespace StructuralSchema.Schema

variable {χ : Type}

def keyViolations (path : Path) (fields : Fields (Schema χ)) (members : Fields Json) :
    List Fault :=
  (fields.keys.filter (· ∉ members.keys)).map (fun key => Fault.missingKey (path.key key)) ++
    (members.keys.filter (· ∉ fields.keys)).map fun key => Fault.unexpectedKey (path.key key)

def itemViolations (ofItem : Path → Json → List Fault) (path : Path) (position : Nat) :
    List Json → List Fault
  | [] => []
  | item :: items =>
    ofItem (path.index position) item ++ itemViolations ofItem path (position + 1) items

variable [Check χ]

mutual

/-- Values under keys count only where the keys are right. -/
def violations : Schema χ → Path → Json → List Fault
  | scalar s, path, value =>
    if value.kind = s.kind then []
    else [.wrongType path (scalar s : Schema χ).summary value.kind]
  | object fields, path, value =>
    match value with
    | .object members =>
      match keyViolations path fields members with
      | [] => fieldViolations fields path members
      | faults => faults
    | value => [.wrongType path (object fields).summary value.kind]
  | listOf element, path, value =>
    match value with
    | .array items => itemViolations (violations element) path 0 items
    | value => [.wrongType path (listOf element).summary value.kind]
  | union members, path, value =>
    if someWithout members path value then []
    else [.wrongType path (union members).summary value.kind]
  | predicate p, path, value =>
    if Check.run p.check value = .pass then [] else [.predicateFailed path p.name value]

def fieldViolations : List (String × Schema χ) → Path → Fields Json → List Fault
  | [], _, _ => []
  | (key, schema) :: fields, path, members =>
    (match members.get? key with
      | some value => violations schema (path.key key) value
      | none => []) ++ fieldViolations fields path members

def someWithout : List (Schema χ) → Path → Json → Bool
  | [], _, _ => false
  | schema :: schemas, path, value =>
    (violations schema path value).isEmpty || someWithout schemas path value

end

/-- The violations that count under the given options: where typing is loose, those by keys at the
root. -/
def rootViolations (options : Options) (fields : Fields (Schema χ)) (members : Fields Json) :
    List Fault :=
  if options.looselyTyped then keyViolations .root fields members
  else violations (object fields) .root (.object members)

end StructuralSchema.Schema
