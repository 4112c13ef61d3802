import StructuralSchema.Predicate.Builtin

namespace StructuralSchema.Builtin

def IsLetter (c : Char) : Prop :=
  'A' ≤ c ∧ c ≤ 'Z' ∨ 'a' ≤ c ∧ c ≤ 'z'

def IsWordChar (marks : List Char) (c : Char) : Prop :=
  IsLetter c ∨ '0' ≤ c ∧ c ≤ '9' ∨ c ∈ marks

/-- A mailbox, `@`, a host, a dot and two letters or more. -/
def IsAddress (text : List Char) : Prop :=
  ∃ mailbox host letters, text = mailbox ++ '@' :: host ++ '.' :: letters ∧
    mailbox ≠ [] ∧ (∀ c ∈ mailbox, IsWordChar ['.', '_', '%', '+', '-'] c) ∧
    host ≠ [] ∧ (∀ c ∈ host, IsWordChar ['.', '-'] c) ∧
    2 ≤ letters.length ∧ ∀ c ∈ letters, IsLetter c

end StructuralSchema.Builtin
