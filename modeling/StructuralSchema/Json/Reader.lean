import StructuralSchema.Json.Lexeme

namespace StructuralSchema.Json

/-- An array or object that is still open: what it holds so far, items in reverse order, and the
key whose value is being read. -/
inductive Frame where
  | array (done : List Json)
  | object (done : Fields Json) (key : String)

inductive Wanted where
  | value
  | firstItem
  | key (done : Fields Json)
  | firstKey
  | colon (done : Fields Json) (key : String)
  | next (value : Json)

structure Reading where
  frames : List Frame
  wanted : Wanted

def greatestDepth : Nat := 127

namespace Reading

def fault (reason : Reason) (lexeme : Lexeme) : Except Stop Reading :=
  .error ⟨reason, lexeme.start, 1⟩

def enter (frames : List Frame) (lexeme : Lexeme) (inside : Reading) : Except Stop Reading :=
  if frames.length < greatestDepth then .ok inside else fault .tooDeep lexeme

def begin (frames : List Frame) (lexeme : Lexeme) : Except Stop Reading :=
  match lexeme.token with
  | .scalar read => read.map fun value => ⟨frames, .next value⟩
  | .string read => read.map fun text => ⟨frames, .next (.string text)⟩
  | .openBracket => enter frames lexeme ⟨.array [] :: frames, .firstItem⟩
  | .openBrace => enter frames lexeme ⟨frames, .firstKey⟩
  | _ => fault .expectedValue lexeme

def takeKey (frames : List Frame) (done : Fields Json) (lexeme : Lexeme) : Except Stop Reading :=
  match lexeme.token with
  | .string read => read.map fun key => ⟨frames, .colon done key⟩
  | _ => fault .keyMustBeString lexeme

def proceed (frame : Frame) (frames : List Frame) (value : Json) (lexeme : Lexeme) :
    Except Stop Reading :=
  match frame, lexeme.token with
  | .array done, .comma => .ok ⟨.array (value :: done) :: frames, .value⟩
  | .array done, .closeBracket => .ok ⟨frames, .next (.array (value :: done).reverse)⟩
  | .array _, _ => fault .expectedCommaOrBracket lexeme
  | .object done key, .comma => .ok ⟨frames, .key (done.put key value)⟩
  | .object done key, .closeBrace => .ok ⟨frames, .next (.object (done.put key value))⟩
  | .object .., _ => fault .expectedCommaOrBrace lexeme

/-- Takes one lexeme. A value that is complete outside everything takes none. -/
def step (reading : Reading) (lexeme : Lexeme) : Except Stop Reading :=
  match reading.frames, reading.wanted, lexeme.token with
  | .array _ :: _, .value, .closeBracket => fault .trailingComma lexeme
  | frames, .value, _ => begin frames lexeme
  | _ :: frames, .firstItem, .closeBracket => .ok ⟨frames, .next (.array [])⟩
  | frames, .firstItem, _ => begin frames lexeme
  | frames, .firstKey, .closeBrace => .ok ⟨frames, .next (.object [])⟩
  | frames, .firstKey, _ => takeKey frames [] lexeme
  | _, .key _, .closeBrace => fault .trailingComma lexeme
  | frames, .key done, _ => takeKey frames done lexeme
  | frames, .colon done key, .colon => .ok ⟨.object done key :: frames, .value⟩
  | _, .colon .., _ => fault .expectedColon lexeme
  | frame :: frames, .next value, _ => proceed frame frames value lexeme
  | [], .next _, _ => .ok reading

def atEnd (reading : Reading) : Reason :=
  match reading.frames, reading.wanted with
  | _, .value => .endInValue
  | _, .firstItem => .endInList
  | _, .firstKey => .endInObject
  | _, .key _ => .endInValue
  | _, .colon .. => .endInObject
  | .object .. :: _, .next _ => .endInObject
  | _, .next _ => .endInList

def run (reading : Reading) : List Lexeme → Except Stop (Json × List Lexeme)
  | [] =>
    match reading with
    | ⟨[], .next value⟩ => .ok (value, [])
    | reading => .error ⟨reading.atEnd, [], 0⟩
  | lexeme :: rest =>
    match reading with
    | ⟨[], .next value⟩ => .ok (value, lexeme :: rest)
    | reading =>
      match reading.step lexeme with
      | .ok reading => run reading rest
      | .error stop => .error stop

end Reading

def readValue (text : List Lexeme) : Except Stop (Json × List Lexeme) :=
  Reading.run ⟨[], .value⟩ text

def readAll (text : List Lexeme) : Except Stop Json :=
  match readValue text with
  | .ok (value, []) => .ok value
  | .ok (_, lexeme :: _) => .error ⟨.trailingCharacters, lexeme.start, 1⟩
  | .error stop => .error stop

def ofChars (text : List Char) : Except Mistake Json :=
  (readAll (lexemes text)).mapError fun stop => ⟨stop.reason, stop.place text⟩

def ofText (text : String) : Except Mistake Json :=
  ofChars text.toList

end StructuralSchema.Json
