import StructuralSchema.Double.Shortest
import StructuralSchema.Json
import StructuralSchema.Json.Quoted

namespace StructuralSchema

def Number.chars : Number → List Char
  | .int value _ =>
    if value < 0 then '-' :: Nat.toDigits 10 value.natAbs else Nat.toDigits 10 value.natAbs
  | .float value => value.text

namespace Json

/-- Where blanks go: a line break before what stands at a given depth, and a blank after colons. -/
structure Layout where
  line : Nat → List Char
  afterColon : List Char

namespace Layout

def compact : Layout := ⟨fun _ => [], []⟩

def indented : Layout := ⟨fun depth => '\n' :: List.replicate (2 * depth) ' ', [' ']⟩

def enclose (layout : Layout) (depth : Nat) (first last : Char) : List (List Char) → List Char
  | [] => [first, last]
  | entries =>
    first :: layout.line (depth + 1) ++
      List.intercalate (',' :: layout.line (depth + 1)) entries ++ layout.line depth ++ [last]

mutual

def write (layout : Layout) (depth : Nat) : Json → List Char
  | null => ['n', 'u', 'l', 'l']
  | bool true => ['t', 'r', 'u', 'e']
  | bool false => ['f', 'a', 'l', 's', 'e']
  | number n => n.chars
  | string text => Quoted.encode text.toList
  | array items => layout.enclose depth '[' ']' (writeItems layout (depth + 1) items)
  | object members => layout.enclose depth '{' '}' (writeMembers layout (depth + 1) members)

def writeItems (layout : Layout) (depth : Nat) : List Json → List (List Char)
  | [] => []
  | item :: items => write layout depth item :: writeItems layout depth items

def writeMembers (layout : Layout) (depth : Nat) : List (String × Json) → List (List Char)
  | [] => []
  | (key, value) :: members =>
    (Quoted.encode key.toList ++ ':' :: layout.afterColon ++ write layout depth value) ::
      writeMembers layout depth members

end

end Layout

def compact (value : Json) : String :=
  String.ofList (Layout.compact.write 0 value)

def indented (value : Json) : String :=
  String.ofList (Layout.indented.write 0 value)

end Json

end StructuralSchema
