import StructuralSchema.Json.Layout
import StructuralSchema.Json.Reader
import StructuralSchema.Options
import StructuralSchema.Text.Quoted

namespace StructuralSchema.Options

def sizeField : String := "max_size_in_bytes"

def looseField : String := "loosely_typed"

def toJson (options : Options) : Json :=
  .object [(sizeField,
      match options.maxSize with
      | some n => .number (.int n.toNat ⟨by omega, by have := n.toNat_lt; omega⟩)
      | none => .null),
    (looseField, .bool options.looselyTyped)]

inductive Expected where
  | size | boolean | options
  deriving DecidableEq

inductive Found where
  | scalar (value : Json)
  | list
  | object

inductive Reason where
  | json (reason : Json.Reason)
  | wrongType (found : Found) (expected : Expected)
  | negative (value : Int)
  | unknownField (name : String)
  | duplicateField (name : String)

inductive Part where
  | whole
  | field (name : String)
  | item (position : Nat)
  | anotherKey

namespace Expected

def name : Expected → String
  | size => "usize"
  | boolean => "a boolean"
  | options => "struct ValidatorOptions"

end Expected

namespace Found

def name : Found → String
  | scalar (.bool b) => "boolean `" ++ (if b then "true" else "false") ++ "`"
  | scalar (.number (.int n h)) => "integer `" ++ (Json.number (.int n h)).compact ++ "`"
  | scalar (.number (.float x)) => "floating point `" ++ String.ofList x.text ++ "`"
  | scalar (.string text) => "string " ++ Text.quoted text
  | scalar _ => "null"
  | list => "sequence"
  | object => "map"

end Found

namespace Reason

def message : Reason → String
  | json reason => reason.message
  | wrongType found expected => s!"invalid type: {found.name}, expected {expected.name}"
  | negative value => s!"invalid value: integer `{value}`, expected usize"
  | unknownField name =>
    s!"unknown field `{name}`, expected `{sizeField}` or `{looseField}`"
  | duplicateField name => s!"duplicate field `{name}`"

end Reason

namespace Part

def text : Part → String
  | whole => "."
  | field name => name
  | item position => s!"[{position}]"
  | anotherKey => "?"

end Part

structure Mistake where
  part : Part
  reason : Reason
  place : Json.Place

namespace Mistake

def message (mistake : Mistake) : String :=
  s!"at JSON path {mistake.part.text} → {mistake.reason.message} " ++
    s!"at line {mistake.place.line} column {mistake.place.column}"

end Mistake

/-- Where the reader stops, as for other JSON texts, and in which part. -/
structure Refusal where
  part : Part
  reason : Reason
  rest : List Char
  past : Nat

namespace Refusal

def ofStop (part : Part) (stop : Json.Stop) : Refusal :=
  ⟨part, .json stop.reason, stop.rest, stop.past⟩

def atEnd (part : Part) (reason : Json.Reason) : Refusal :=
  ⟨part, .json reason, [], 0⟩

def unexpected (part : Part) (reason : Json.Reason) (lexeme : Json.Lexeme) : Refusal :=
  ⟨part, .json reason, lexeme.start, 1⟩

def wrongType (part : Part) (expected : Expected) (lexeme : Json.Lexeme) : Refusal :=
  match lexeme.token with
  | .scalar (.ok value) => ⟨part, .wrongType (.scalar value) expected, lexeme.rest, 0⟩
  | .string (.ok text) => ⟨part, .wrongType (.scalar (.string text)) expected, lexeme.rest, 0⟩
  | .scalar (.error stop) => ofStop part stop
  | .string (.error stop) => ofStop part stop
  | .openBracket => ⟨part, .wrongType .list expected, lexeme.start, 0⟩
  | .openBrace => ⟨part, .wrongType .object expected, lexeme.start, 0⟩
  | _ => unexpected part .expectedValue lexeme

/-- A key that is not welcome. The text is read up to what follows it, and over the end of the
object if that is what follows. -/
def atKey (part : Part) (reason : Reason) : List Json.Lexeme → Refusal
  | [] => ⟨part, reason, [], 0⟩
  | lexeme :: _ =>
    match lexeme.token with
    | .closeBrace => ⟨part, reason, lexeme.rest, 0⟩
    | _ => ⟨part, reason, lexeme.start, 0⟩

end Refusal

def readSize (part : Part) (lexeme : Json.Lexeme) : Except Refusal (Option UInt64) :=
  match lexeme.token with
  | .scalar (.ok .null) => .ok none
  | .scalar (.ok (.number (.int n _))) =>
    if n < 0 then .error ⟨part, .negative n, lexeme.rest, 0⟩ else .ok (some n.toNat.toUInt64)
  | _ => .error (.wrongType part .size lexeme)

def readLoose (part : Part) (lexeme : Json.Lexeme) : Except Refusal Bool :=
  match lexeme.token with
  | .scalar (.ok (.bool b)) => .ok b
  | _ => .error (.wrongType part .boolean lexeme)

structure Given where
  maxSize : Option (Option UInt64) := none
  looselyTyped : Option Bool := none

namespace Given

def options (given : Given) : Options :=
  ⟨given.maxSize.join, given.looselyTyped.getD false⟩

/-- Whether the setting is there already; `none` if there is no such setting. -/
def has? (given : Given) (name : String) : Option Bool :=
  if name = sizeField then some given.maxSize.isSome
  else if name = looseField then some given.looselyTyped.isSome
  else none

def take (given : Given) (name : String) (lexeme : Json.Lexeme) : Except Refusal Given :=
  if name = sizeField then do
    let size ← readSize (.field name) lexeme
    return { given with maxSize := some size }
  else do
    let loose ← readLoose (.field name) lexeme
    return { given with looselyTyped := some loose }

end Given

mutual

def afterMember (given : Given) : List Json.Lexeme → Except Refusal Options
  | [] => .error (.atEnd .anotherKey .endInObject)
  | lexeme :: rest =>
    match lexeme.token with
    | .closeBrace => .ok given.options
    | .comma => nextMember given rest
    | _ => .error (.unexpected .anotherKey .expectedCommaOrBrace lexeme)

def nextMember (given : Given) : List Json.Lexeme → Except Refusal Options
  | [] => .error (.atEnd .anotherKey .endInValue)
  | lexeme :: rest =>
    match lexeme.token with
    | .closeBrace => .error (.unexpected .anotherKey .trailingComma lexeme)
    | .string (.ok name) => member given name rest
    | .string (.error stop) => .error (.ofStop .anotherKey stop)
    | _ => .error (.unexpected .anotherKey .keyMustBeString lexeme)

def member (given : Given) (name : String) : List Json.Lexeme → Except Refusal Options
  | [] =>
    match given.has? name with
    | none => .error (.atKey (.field name) (.unknownField name) [])
    | some true => .error (.atKey .whole (.duplicateField name) [])
    | some false => .error (.atEnd .whole .endInObject)
  | lexeme :: rest =>
    match given.has? name with
    | none => .error (.atKey (.field name) (.unknownField name) (lexeme :: rest))
    | some true => .error (.atKey .whole (.duplicateField name) (lexeme :: rest))
    | some false =>
      match lexeme.token with
      | .colon => memberValue given name rest
      | _ => .error (.unexpected .whole .expectedColon lexeme)

def memberValue (given : Given) (name : String) : List Json.Lexeme → Except Refusal Options
  | [] => .error (.atEnd (.field name) .endInValue)
  | lexeme :: rest => do
    let given ← given.take name lexeme
    afterMember given rest

end

def firstMember (text : List Json.Lexeme) : Except Refusal Options :=
  match text with
  | [] => .error (.atEnd .anotherKey .endInObject)
  | lexeme :: rest =>
    match lexeme.token with
    | .closeBrace => .ok {}
    | .string (.ok name) => member {} name rest
    | .string (.error stop) => .error (.ofStop .anotherKey stop)
    | _ => .error (.unexpected .anotherKey .keyMustBeString lexeme)

/-- There are no more than two settings. -/
def afterItems (options : Options) : List Json.Lexeme → Except Refusal Options
  | [] => .error (.atEnd .whole .endInList)
  | lexeme :: rest =>
    match lexeme.token, rest with
    | .closeBracket, _ => .ok options
    | .comma, [] => .error (.atEnd .whole .trailingCharacters)
    | .comma, lexeme :: _ =>
      match lexeme.token with
      | .closeBracket => .error (.unexpected .whole .trailingComma lexeme)
      | _ => .error (.unexpected .whole .trailingCharacters lexeme)
    | _, _ => .error (.unexpected .whole .trailingCharacters lexeme)

def secondItem (maxSize : Option UInt64) : List Json.Lexeme → Except Refusal Options
  | [] => .error (.atEnd .whole .endInList)
  | lexeme :: rest =>
    match lexeme.token, rest with
    | .closeBracket, _ => .ok ⟨maxSize, false⟩
    | .comma, [] => .error (.atEnd .whole .endInValue)
    | .comma, lexeme :: rest =>
      match lexeme.token with
      | .closeBracket => .error (.unexpected .whole .trailingComma lexeme)
      | _ => do
        let looselyTyped ← readLoose (.item 1) lexeme
        afterItems ⟨maxSize, looselyTyped⟩ rest
    | _, _ => .error (.unexpected .whole .expectedCommaOrBracket lexeme)

def firstItem : List Json.Lexeme → Except Refusal Options
  | [] => .error (.atEnd .whole .endInList)
  | lexeme :: rest =>
    match lexeme.token with
    | .closeBracket => .ok {}
    | _ => do
      let maxSize ← readSize (.item 0) lexeme
      secondItem maxSize rest

def ofLexemes : List Json.Lexeme → Except Refusal Options
  | [] => .error (.atEnd .whole .endInValue)
  | lexeme :: rest =>
    match lexeme.token with
    | .openBrace => firstMember rest
    | .openBracket => firstItem rest
    | _ => .error (.wrongType .whole .options lexeme)

/-- Reads an object with the settings by name, or an array with the settings in order. Those that
are left out keep their defaults, and what follows the object or array is not read. -/
def ofText (text : String) : Except Mistake Options :=
  (ofLexemes (Json.lexemes text.toList)).mapError fun refusal =>
    ⟨refusal.part, refusal.reason,
      Json.Place.atByte (Json.bytes text.toList - (Json.bytes refusal.rest - refusal.past))
        text.toList⟩

end StructuralSchema.Options
