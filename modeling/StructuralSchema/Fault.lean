import StructuralSchema.Json.Layout
import StructuralSchema.Path

namespace StructuralSchema

inductive Defect where
  | rootNotObject
  | rootNotInferable (actual : Kind)
  | unionNotArray
  | elementCount (count : Nat)
  | notASchema (found : Json)
  | unknownPredicate (name : String)
  | unknownTag (tag : String)

namespace Defect

def message : Defect → String
  | rootNotObject => "schema root must be an object shape"
  | rootNotInferable actual =>
    s!"cannot infer a schema from a `{actual.name}` root; expected an object"
  | unionNotArray => "`$union` must hold an array of schemas"
  | elementCount count =>
    "list schema must contain exactly one element type, found " ++ toString count ++
      "; to accept multiple types use `\x7b\"$union\": [...]\x7d`"
  | notASchema found =>
    s!"expected a type tag, object, list or predicate, found `{found.compact}`"
  | unknownPredicate name => s!"unknown predicate `{name}`"
  | unknownTag tag => s!"unknown type tag `{tag}`"

end Defect

inductive Fault where
  | tooLarge (actual limit : Nat)
  | malformed (mistake : Json.Mistake)
  | notAnObject (actual : Kind)
  | badSchema (path : Path) (defect : Defect)
  | missingKey (path : Path)
  | unexpectedKey (path : Path)
  | wrongType (path : Path) (expected : String) (actual : Kind)
  | predicateFailed (path : Path) (predicate : String) (value : Json)

namespace Fault

/-- The text of a place in a schema; a place without a text of its own is shown as the root. -/
def schemaPlace (path : Path) : String :=
  if path.text = "" then "$" else path.text

def place? : Fault → Option String
  | badSchema path _ => some (schemaPlace path)
  | missingKey path => some path.text
  | unexpectedKey path => some path.text
  | wrongType path .. => some path.text
  | predicateFailed path .. => some path.text
  | _ => none

def message : Fault → String
  | tooLarge actual limit =>
    s!"payload ({actual} bytes) exceeds the max size of {limit} bytes"
  | malformed mistake => s!"invalid JSON: {mistake.message}"
  | notAnObject actual =>
    s!"expected a JSON object at the root of the instance, got `{actual.name}`"
  | badSchema path defect => s!"invalid schema at `{schemaPlace path}`: {defect.message}"
  | missingKey path => s!"expected key `{path.text}` in the instance according to the schema"
  | unexpectedKey path => s!"key `{path.text}` does not exist in the schema"
  | wrongType path expected actual =>
    s!"expected `{expected}` at `{path.text}` but encountered `{actual.name}`"
  | predicateFailed path predicate value =>
    s!"value `{value.compact}` at `{path.text}` did not pass `{predicate}`"

end Fault

end StructuralSchema
