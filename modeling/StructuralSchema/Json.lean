import StructuralSchema.Double
import StructuralSchema.Fields

namespace StructuralSchema

/-- Whole numbers within 64 bits, signed or unsigned, are integers, and all others are doubles. -/
inductive Number where
  | int (value : Int) (fits : -2 ^ 63 ≤ value ∧ value < 2 ^ 64)
  | float (value : Double)
  deriving DecidableEq

inductive Json where
  | null
  | bool (value : Bool)
  | number (value : Number)
  | string (value : String)
  | array (items : List Json)
  | object (members : List (String × Json))
  deriving Inhabited

inductive Kind where
  | null | bool | int | float | string | list | object
  deriving DecidableEq

namespace Kind

def name : Kind → String
  | null => "null"
  | bool => "bool"
  | int => "int"
  | float => "float"
  | string => "str"
  | list => "list"
  | object => "object"

end Kind

namespace Json

def kind : Json → Kind
  | null => .null
  | bool _ => .bool
  | number (.int ..) => .int
  | number (.float _) => .float
  | string _ => .string
  | array _ => .list
  | object _ => .object

mutual

/-- No object in the value has two members of one name. -/
def WellFormed : Json → Prop
  | array items => AllWellFormed items
  | object members => Fields.Distinct members ∧ MembersWellFormed members
  | _ => True

def AllWellFormed : List Json → Prop
  | [] => True
  | item :: items => WellFormed item ∧ AllWellFormed items

def MembersWellFormed : List (String × Json) → Prop
  | [] => True
  | (_, value) :: members => WellFormed value ∧ MembersWellFormed members

end

end Json

end StructuralSchema
