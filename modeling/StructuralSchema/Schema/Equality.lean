import StructuralSchema.Schema

namespace StructuralSchema.Schema

variable {χ : Type}

mutual

/-- Whether `p` holds of a schema or, for a union, of its members. A union without members is the
same as no other kind of schema. -/
def every (p : Schema χ → Bool) : Schema χ → Bool
  | union members => !members.isEmpty && everyMember p members
  | schema => p schema

def everyMember (p : Schema χ → Bool) : List (Schema χ) → Bool
  | [] => true
  | schema :: schemas => every p schema && everyMember p schemas

end

variable [DecidableEq χ]

mutual

/-- The order of fields and of the members of a union does not matter, nor does how often a member
is repeated, and a union of which all members are the same as another schema is the same as that
schema. -/
def same : Schema χ → Schema χ → Bool
  | union members, union others => allWithin members others && others.all (anySame members)
  | union members, other => !members.isEmpty && allSame members other
  | scalar s, other => every (fun | .scalar t => s = t | _ => false) other
  | object fields, other =>
    every (fun | .object others => fields.length = others.length && fieldsWithin fields others
               | _ => false) other
  | listOf element, other => every (fun | .listOf e => same element e | _ => false) other
  | predicate p, other => every (fun | .predicate q => p = q | _ => false) other
termination_by structural x => x

def allWithin : List (Schema χ) → List (Schema χ) → Bool
  | [], _ => true
  | schema :: schemas, others => others.any (same schema) && allWithin schemas others
termination_by structural x => x

def anySame : List (Schema χ) → Schema χ → Bool
  | [], _ => false
  | schema :: schemas, other => same schema other || anySame schemas other
termination_by structural x => x

def allSame : List (Schema χ) → Schema χ → Bool
  | [], _ => true
  | schema :: schemas, other => same schema other && allSame schemas other
termination_by structural x => x

def fieldsWithin : List (String × Schema χ) → List (String × Schema χ) → Bool
  | [], _ => true
  | (key, schema) :: fields, others =>
    (match Fields.get? others key with
      | some other => same schema other
      | none => false) && fieldsWithin fields others
termination_by structural x => x

end

theorem allWithin_eq (schemas others : List (Schema χ)) :
    allWithin schemas others = schemas.all fun schema => others.any (same schema) := by
  induction schemas with
  | nil => rfl
  | cons schema schemas ih => simp [allWithin, ih]

theorem anySame_eq (schemas : List (Schema χ)) (other : Schema χ) :
    anySame schemas other = schemas.any fun schema => same schema other := by
  induction schemas with
  | nil => rfl
  | cons schema schemas ih => simp [anySame, ih]

theorem allSame_eq (schemas : List (Schema χ)) (other : Schema χ) :
    allSame schemas other = schemas.all fun schema => same schema other := by
  induction schemas with
  | nil => rfl
  | cons schema schemas ih => simp [allSame, ih]

end StructuralSchema.Schema
