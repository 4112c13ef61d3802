import StructuralSchema.Json.Numeral
import StructuralSchema.Json.Quoted

namespace StructuralSchema.Json

inductive Token where
  | openBracket | closeBracket | openBrace | closeBrace | comma | colon
  | scalar (read : Except Stop Json)
  | string (read : Except Stop String)
  | unknown

/-- A token, the text from its first character on, and the text after it. -/
structure Lexeme where
  token : Token
  start : List Char
  rest : List Char

def isBlank (c : Char) : Bool :=
  c = ' ' || c = '\t' || c = '\n' || c = '\r'

def word (value : Json) : List Char → List Char → Except Stop (Json × List Char)
  | [], rest => .ok (value, rest)
  | _ :: _, [] => .error ⟨.endInValue, [], 0⟩
  | letter :: letters, c :: rest =>
    if c = letter then word value letters rest else .error ⟨.expectedIdent, c :: rest, 1⟩

/-- The token of a scalar. Nothing is read after one that breaks off. -/
def scalarToken : Except Stop (Json × List Char) → Token × List Char
  | .ok (value, rest) => (.scalar (.ok value), rest)
  | .error stop => (.scalar (.error stop), [])

def stringToken : Except Stop (List Char × List Char) → Token × List Char
  | .ok (text, rest) => (.string (.ok (String.ofList text)), rest)
  | .error stop => (.string (.error stop), [])

def numberToken : Except Stop (Number × List Char) → Token × List Char
  | .ok (n, rest) => (.scalar (.ok (.number n)), rest)
  | .error stop => (.scalar (.error stop), [])

def punctuation? : Char → Option Token
  | '[' => some .openBracket
  | ']' => some .closeBracket
  | '{' => some .openBrace
  | '}' => some .closeBrace
  | ',' => some .comma
  | ':' => some .colon
  | _ => none

def word? : Char → Option (Json × List Char)
  | 'n' => some (.null, ['u', 'l', 'l'])
  | 't' => some (.bool true, ['r', 'u', 'e'])
  | 'f' => some (.bool false, ['a', 'l', 's', 'e'])
  | _ => none

def nextToken (c : Char) (rest : List Char) : Token × List Char :=
  match punctuation? c, word? c with
  | some token, _ => (token, rest)
  | none, some (value, letters) => scalarToken (word value letters rest)
  | none, none =>
    if c = '"' then stringToken (Quoted.decode rest)
    else if c = '-' ∨ c.isDigit then numberToken (Numeral.read (c :: rest))
    else (.unknown, [])

theorem length_rest_of_word {value read : Json} {letters text rest : List Char}
    (h : word value letters text = .ok (read, rest)) : rest.length ≤ text.length := by
  fun_induction word value letters text with
  | case1 => simp_all
  | case2 => contradiction
  | case3 _ _ _ ih => simp only [List.length_cons]; exact Nat.le_succ_of_le (ih h)
  | case4 => contradiction

theorem length_scalarToken (value : Json) (letters text : List Char) :
    (scalarToken (word value letters text)).2.length ≤ text.length := by
  unfold scalarToken
  split
  · rename_i h
    exact length_rest_of_word h
  · exact Nat.zero_le _

theorem length_stringToken (text : List Char) :
    (stringToken (Quoted.decode text)).2.length ≤ text.length := by
  unfold stringToken
  split
  · rename_i h
    exact Nat.le_of_lt (Quoted.length_rest_of_decodeFrom h)
  · exact Nat.zero_le _

theorem length_numberToken (c : Char) (text : List Char) :
    (numberToken (Numeral.read (c :: text))).2.length ≤ text.length := by
  unfold numberToken
  split
  · rename_i h
    exact Nat.le_of_lt_succ (Numeral.length_rest_of_read h)
  · exact Nat.zero_le _

theorem length_nextToken (c : Char) (text : List Char) :
    (nextToken c text).2.length ≤ text.length := by
  unfold nextToken
  split
  · exact Nat.le_refl _
  · exact length_scalarToken _ _ _
  · split
    · exact length_stringToken _
    · split
      · exact length_numberToken _ _
      · exact Nat.zero_le _

def lexemes : List Char → List Lexeme
  | [] => []
  | c :: rest =>
    if isBlank c then lexemes rest
    else ⟨(nextToken c rest).1, c :: rest, (nextToken c rest).2⟩ :: lexemes (nextToken c rest).2
termination_by text => text.length
decreasing_by
  · simp
  · exact Nat.lt_succ_of_le (length_nextToken c rest)

end StructuralSchema.Json
