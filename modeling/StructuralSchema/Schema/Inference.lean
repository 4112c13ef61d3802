import StructuralSchema.Instance
import StructuralSchema.Schema.Union

namespace StructuralSchema.Schema

variable {χ : Type} [DecidableEq χ]

mutual

def ofValue : Json → Schema χ
  | .null => scalar .null
  | .bool _ => scalar .bool
  | .number (.int ..) => scalar .int
  | .number (.float _) => scalar .float
  | .string _ => scalar .string
  | .array items => listOf (unionOf (ofItems items))
  | .object members => object (ofMembers members)

def ofItems : List Json → List (Schema χ)
  | [] => []
  | item :: items => ofValue item :: ofItems items

def ofMembers : List (String × Json) → List (String × Schema χ)
  | [] => []
  | (key, value) :: members => (key, ofValue value) :: ofMembers members

end

def ofRoot : Json → Except Fault (Schema χ)
  | .object members => .ok (object (ofMembers members))
  | other => .error (.badSchema .root (.rootNotInferable other.kind))

def ofInstance (given : Instance) : Except Fault (Schema χ) := do
  ofRoot (← given.load)

end StructuralSchema.Schema
