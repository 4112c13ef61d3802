namespace StructuralSchema.Json

inductive Reason where
  | endInValue | endInString | endInList | endInObject
  | expectedValue | expectedIdent | expectedColon | expectedCommaOrBracket | expectedCommaOrBrace
  | invalidNumber | numberOutOfRange
  | controlCharacter | invalidEscape | loneSurrogate | unexpectedEndOfEscape
  | keyMustBeString | trailingComma | trailingCharacters | tooDeep
  deriving DecidableEq

namespace Reason

def message : Reason → String
  | endInValue => "EOF while parsing a value"
  | endInString => "EOF while parsing a string"
  | endInList => "EOF while parsing a list"
  | endInObject => "EOF while parsing an object"
  | expectedValue => "expected value"
  | expectedIdent => "expected ident"
  | expectedColon => "expected `:`"
  | expectedCommaOrBracket => "expected `,` or `]`"
  | expectedCommaOrBrace => "expected `,` or `\x7d`"
  | invalidNumber => "invalid number"
  | numberOutOfRange => "number out of range"
  | controlCharacter => "control character (\\u0000-\\u001F) found while parsing a string"
  | invalidEscape => "invalid escape"
  | loneSurrogate => "lone leading surrogate in hex escape"
  | unexpectedEndOfEscape => "unexpected end of hex escape"
  | keyMustBeString => "key must be a string"
  | trailingComma => "trailing comma"
  | trailingCharacters => "trailing characters"
  | tooDeep => "recursion limit exceeded"

end Reason

def bytes (text : List Char) : Nat :=
  text.foldl (fun n c => n + c.utf8Size) 0

/-- A place in a text, both parts counted in bytes: the column is 0 before the first byte of a
line. -/
structure Place where
  line : Nat
  column : Nat
  deriving DecidableEq

namespace Place

/-- Moves on by `count` bytes of the text, which may end within a character or beyond the text. -/
def advance (place : Place) (count : Nat) : List Char → Place
  | [] => place
  | c :: rest =>
    if count = 0 then place
    else if c = '\n' then advance ⟨place.line + 1, 0⟩ (count - 1) rest
    else advance ⟨place.line, place.column + min count c.utf8Size⟩ (count - c.utf8Size) rest

def atByte (offset : Nat) (text : List Char) : Place :=
  advance ⟨1, 0⟩ offset text

end Place

/-- A reader's stop: the reason, what was left of the text, and how many bytes of that belong to
the fault. -/
structure Stop where
  reason : Reason
  rest : List Char
  past : Nat
  deriving DecidableEq

namespace Stop

def place (stop : Stop) (text : List Char) : Place :=
  Place.atByte (bytes text - (bytes stop.rest - stop.past)) text

end Stop

structure Mistake where
  reason : Reason
  place : Place
  deriving DecidableEq

namespace Mistake

def message (mistake : Mistake) : String :=
  s!"{mistake.reason.message} at line {mistake.place.line} column {mistake.place.column}"

end Mistake

end StructuralSchema.Json
