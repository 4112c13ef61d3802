namespace StructuralSchema

/-- The steps that lead from the root to a place, the last one outermost. -/
inductive Path where
  | root
  | key (parent : Path) (name : String)
  | index (parent : Path) (position : Nat)
  deriving DecidableEq

namespace Path

/-- A name follows a dot, unless there is nothing before it to divide it from. -/
def chars : Path → List Char
  | root => []
  | key parent name =>
    if parent.chars = [] then name.toList else parent.chars ++ '.' :: name.toList
  | index parent position => parent.chars ++ '[' :: Nat.toDigits 10 position ++ [']']

def text (path : Path) : String :=
  String.ofList path.chars

end Path

end StructuralSchema
