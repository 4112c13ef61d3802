import StructuralSchema.Schema.Equality

namespace StructuralSchema.Schema

variable {χ : Type}

/-- The members of a union; any other schema is a union of itself. -/
def parts : Schema χ → List (Schema χ)
  | union members => members
  | schema => [schema]

variable [DecidableEq χ]

def keep (kept : List (Schema χ)) (schema : Schema χ) : List (Schema χ) :=
  if anySame kept schema then kept else kept ++ [schema]

def distinct (schemas : List (Schema χ)) : List (Schema χ) :=
  schemas.foldl keep []

def collapse : List (Schema χ) → Schema χ
  | [schema] => schema
  | schemas => union schemas

/-- The union of the given schemas. The members of unions among them are taken in their place. -/
def unionOf (schemas : List (Schema χ)) : Schema χ :=
  collapse (distinct (schemas.flatMap parts))

end StructuralSchema.Schema
