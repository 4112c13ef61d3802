import StructuralSchema.Fields
import StructuralSchema.Json

namespace StructuralSchema

/-- How a check ends: with an answer, with an error of its own, or in a crash. -/
inductive Outcome where
  | pass | reject | error | crash
  deriving DecidableEq

/-- Checks are values of a type that says what each of them does. -/
class Check (χ : Type) where
  run : χ → Json → Outcome

instance : Check (Json → Outcome) where
  run check := check

structure Predicate (χ : Type) where
  name : String
  check : χ
  deriving DecidableEq

variable {χ : Type}

namespace Predicate

variable [Check χ]

/-- Whatever is not a plain pass counts as a failure of the value. -/
def holds (predicate : Predicate χ) (value : Json) : Bool :=
  Check.run predicate.check value = .pass

theorem holds_iff {predicate : Predicate χ} {value : Json} :
    predicate.holds value = true ↔ Check.run predicate.check value = .pass := by
  simp [holds]

end Predicate

/-- Predicates in the order in which their names were first registered, each under its own name. -/
structure Registry (χ : Type) where
  entries : Fields (Predicate χ)
  named : ∀ entry ∈ entries, entry.2.name = entry.1

namespace Registry

open Fields

def empty : Registry χ := ⟨[], nofun⟩

/-- Takes the place of a predicate of the same name, or comes last. -/
def register (registry : Registry χ) (predicate : Predicate χ) : Registry χ where
  entries := registry.entries.put predicate.name predicate
  named entry he := by
    obtain rfl | ho := mem_put he
    · rfl
    · exact registry.named entry ho

def get? (registry : Registry χ) (name : String) : Option (Predicate χ) :=
  registry.entries.get? name

def names (registry : Registry χ) : List String :=
  registry.entries.keys

def size (registry : Registry χ) : Nat :=
  registry.entries.length

def isEmpty (registry : Registry χ) : Bool :=
  registry.entries.isEmpty

theorem entries_register (registry : Registry χ) (predicate : Predicate χ) :
    (registry.register predicate).entries = registry.entries.put predicate.name predicate :=
  rfl

theorem get?_register (registry : Registry χ) (predicate : Predicate χ) (name : String) :
    (registry.register predicate).get? name =
      if predicate.name = name then some predicate else registry.get? name := by
  rw [get?, entries_register, get?_put, get?]
  simp only [eq_comm]

theorem get?_eq_none_iff (registry : Registry χ) (name : String) :
    registry.get? name = none ↔ name ∉ registry.names := by
  rw [get?, names, ← isSome_get?_iff, Option.not_isSome_iff_eq_none]

theorem name_of_get? {registry : Registry χ} {name : String} {predicate : Predicate χ}
    (h : registry.get? name = some predicate) : predicate.name = name :=
  registry.named (name, predicate) (mem_of_get? h)

end Registry

end StructuralSchema
