import StructuralSchema.Predicate

namespace StructuralSchema

inductive Builtin where
  | email | uri | nonEmpty
  deriving DecidableEq

namespace Builtin

/-- Letters and digits here are those of ASCII. -/
def isMailboxChar (c : Char) : Bool :=
  c.isAlphanum || c = '.' || c = '_' || c = '%' || c = '+' || c = '-'

def isHostChar (c : Char) : Bool :=
  c.isAlphanum || c = '.' || c = '-'

/-- A host name, a dot, and two letters at least. The letters have no dot among them, so that the
last dot is the one to divide at. -/
def isDomain (text : List Char) : Bool :=
  let backwards := text.reverse
  let letters := backwards.takeWhile (· ≠ '.')
  match backwards.dropWhile (· ≠ '.') with
  | [] => false
  | _ :: host =>
    !host.isEmpty && host.all isHostChar && 2 ≤ letters.length && letters.all Char.isAlpha

/-- A mailbox, an at sign and a domain. No mailbox has an at sign in it, so that the first one is
the one to divide at. -/
def isEmail (text : List Char) : Bool :=
  let mailbox := text.takeWhile (· ≠ '@')
  match text.dropWhile (· ≠ '@') with
  | [] => false
  | _ :: domain => !mailbox.isEmpty && mailbox.all isMailboxChar && isDomain domain

def looksLikeUri (text : String) : Bool :=
  ["http://", "https://", "mailto:", "tel:"].any fun scheme => scheme.toList.isPrefixOf text.toList

def isNonEmpty : Json → Bool
  | .string text => !text.isEmpty
  | .array items => !items.isEmpty
  | .object members => !members.isEmpty
  | _ => false

def accepts : Builtin → Json → Bool
  | email, .string text => isEmail text.toList
  | uri, .string text => looksLikeUri text
  | nonEmpty, value => isNonEmpty value
  | _, _ => false

instance : Check Builtin where
  run check value := if check.accepts value then .pass else .reject

end Builtin

namespace Registry

def builtin {χ : Type} (embed : Builtin → χ) : Registry χ :=
  [("email", Builtin.email), ("uri", Builtin.uri), ("non_empty", Builtin.nonEmpty)].foldl
    (fun registry entry => registry.register ⟨entry.1, embed entry.2⟩) empty

end Registry

end StructuralSchema
