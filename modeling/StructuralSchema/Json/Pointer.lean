import StructuralSchema.Json
import StructuralSchema.Text.Split

namespace StructuralSchema.Json.Pointer

/-- Reads the escapes `~1` and `~0` of one step. Any other tilde stands for itself. -/
def unescape : List Char → List Char
  | '~' :: '1' :: rest => '/' :: unescape rest
  | '~' :: '0' :: rest => '~' :: unescape rest
  | c :: rest => c :: unescape rest
  | [] => []

/-- An index is written in digits, without a needless zero in front, and fits in 64 bits. -/
def index? (step : List Char) : Option Nat :=
  match step with
  | [] => none
  | first :: others =>
    if first = '0' ∧ others ≠ [] then none
    else if step.all Char.isDigit then
      let n := step.foldl (fun n c => n * 10 + (c.toNat - '0'.toNat)) 0
      if n < 2 ^ 64 then some n else none
    else none

def child? (value : Json) (step : List Char) : Option Json :=
  match value with
  | array items => (index? step).bind (items[·]?)
  | object members => Fields.get? members (String.ofList step)
  | _ => none

/-- The part of a value that a pointer selects. The empty pointer selects all of it, and any other
begins with a slash. -/
def select? (pointer : String) (value : Json) : Option Json :=
  match pointer.toList with
  | [] => some value
  | '/' :: rest =>
    (Text.split '/' rest).foldlM (fun value step => child? value (unescape step)) value
  | _ => none

end StructuralSchema.Json.Pointer
