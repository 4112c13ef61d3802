import StructuralSchema.Json

namespace StructuralSchema.Json

def isScalar : Json → Bool
  | array _ => false
  | object _ => false
  | _ => true

def SameKeys (members others : Fields Json) : Prop :=
  ∀ key, key ∈ members.keys ↔ key ∈ others.keys

mutual

/-- Scalars of one kind; objects with the same keys and values of one shape under each; arrays in
which each element has the shape of some element of the other. -/
def SameShape : Json → Json → Prop
  | array items, array others =>
    EachAmong items others ∧ ∀ other ∈ others, AmongThese items other
  | object members, object others => SameKeys members others ∧ SameMembers members others
  | value, other => isScalar value ∧ isScalar other ∧ value.kind = other.kind

def EachAmong : List Json → List Json → Prop
  | [], _ => True
  | item :: items, others => (∃ other ∈ others, SameShape item other) ∧ EachAmong items others

def AmongThese : List Json → Json → Prop
  | [], _ => False
  | item :: items, other => SameShape item other ∨ AmongThese items other

def SameMembers : List (String × Json) → Fields Json → Prop
  | [], _ => True
  | (key, value) :: members, others =>
    (∃ other, others.get? key = some other ∧ SameShape value other) ∧ SameMembers members others

end

mutual

/-- As for one shape, but the second array may have elements of shapes that the first one lacks. -/
def Fits : Json → Json → Prop
  | array items, array others => EachFits items others
  | object members, object others => SameKeys members others ∧ MembersFit members others
  | value, other => isScalar value ∧ isScalar other ∧ value.kind = other.kind

def EachFits : List Json → List Json → Prop
  | [], _ => True
  | item :: items, others => (∃ other ∈ others, Fits item other) ∧ EachFits items others

def MembersFit : List (String × Json) → Fields Json → Prop
  | [], _ => True
  | (key, value) :: members, others =>
    (∃ other, others.get? key = some other ∧ Fits value other) ∧ MembersFit members others

end

mutual

/-- The values are equal but for the order of members in objects, at any depth. -/
def Reordered : Json → Json → Prop
  | array items, array others => ItemsReordered items others
  | object members, object others =>
    SameKeys members others ∧ members.length = others.length ∧ MembersReordered members others
  | value, other => isScalar value ∧ value = other

def ItemsReordered : List Json → List Json → Prop
  | [], [] => True
  | item :: items, other :: others => Reordered item other ∧ ItemsReordered items others
  | _, _ => False

def MembersReordered : List (String × Json) → Fields Json → Prop
  | [], _ => True
  | (key, value) :: members, others =>
    (∃ other, others.get? key = some other ∧ Reordered value other) ∧
      MembersReordered members others

end

mutual

/-- No number in the value is a double. -/
def Whole : Json → Prop
  | number (.float _) => False
  | array items => AllWhole items
  | object members => MembersWhole members
  | _ => True

def AllWhole : List Json → Prop
  | [] => True
  | item :: items => Whole item ∧ AllWhole items

def MembersWhole : List (String × Json) → Prop
  | [] => True
  | (_, value) :: members => Whole value ∧ MembersWhole members

end

mutual

def depth : Json → Nat
  | array items => depthOfItems items + 1
  | object members => depthOfMembers members + 1
  | _ => 0

def depthOfItems : List Json → Nat
  | [] => 0
  | item :: items => max (depth item) (depthOfItems items)

def depthOfMembers : List (String × Json) → Nat
  | [] => 0
  | (_, value) :: members => max (depth value) (depthOfMembers members)

end

end StructuralSchema.Json
